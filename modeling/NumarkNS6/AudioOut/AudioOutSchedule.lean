import NumarkNS6.AudioOut.ScheduleGrid
import NumarkNS6.AudioOut.AudioOutTransferBatch

namespace NumarkNS6.AudioOut

open Foundation.FrameGrid

structure AudioOutSchedule where
  nextFrame : UInt64
  skippedIntervals : UInt64
  deriving DecidableEq

namespace AudioOutSchedule

def startLeadFrames : UInt64 := 2

def batchFrames : UInt64 := UInt64.ofNat (AudioOutTransferBatch.serviceIntervals / 8)

def initial : AudioOutSchedule := ⟨0, 0⟩

def begin (s : AudioOutSchedule) (currentFrame : UInt64) : UInt64 × AudioOutSchedule :=
  if currentFrame > maxFrame - startLeadFrames then (0, s)
  else
    let first := currentFrame + startLeadFrames
    if first > maxFrame - batchFrames then (0, { s with nextFrame := 0 })
    else (first, ⟨first + batchFrames, 0⟩)

def minimum (currentFrame : UInt64) : UInt64 := currentFrame + startLeadFrames

def count (s : AudioOutSchedule) (currentFrame : UInt64) : UInt64 :=
  let behind := minimum currentFrame - s.nextFrame
  behind / batchFrames + if behind % batchFrames ≠ 0 then 1 else 0

def start (s : AudioOutSchedule) (skipped : UInt32) : ScheduleResult × AudioOutSchedule :=
  if s.nextFrame > maxFrame - batchFrames then (.refused, s)
  else (⟨s.nextFrame, skipped⟩, { s with nextFrame := s.nextFrame + batchFrames })

def takeNext (s : AudioOutSchedule) (currentFrame : UInt64) : ScheduleResult × AudioOutSchedule :=
  if currentFrame > maxFrame - startLeadFrames then (.refused, s)
  else if s.nextFrame < minimum currentFrame then
    let count := s.count currentFrame
    if count > maxIntervals then (.refused, s)
    else if count > (maxFrame - s.nextFrame) / batchFrames then (.refused, s)
    else start ⟨s.nextFrame + count * batchFrames, s.skippedIntervals + count⟩ count.toUInt32
  else start s 0

/-- The call catches up with the last transfer of the grid, whose end does not
have 64 bits, and is refused only after it has moved the next frame there. -/
def Strays (s : AudioOutSchedule) (currentFrame : UInt64) : Prop :=
  s.nextFrame.toNat < currentFrame.toNat + 2 ∧
    currentFrame.toNat + 2 ≤ lastFrame s.nextFrame ∧
    lastFrame s.nextFrame < currentFrame.toNat + 2 + 4 ∧
    lastFrame s.nextFrame < s.nextFrame.toNat + 4 * 2 ^ 32

theorem batchFrames_toNat : batchFrames.toNat = 4 := rfl

variable {s t : AudioOutSchedule} {currentFrame : UInt64}

theorem minimum_toNat (h : currentFrame.toNat + 2 < 2 ^ 64) :
    (minimum currentFrame).toNat = currentFrame.toNat + 2 := toNat_add_of_lt h

theorem nextFrame_lt_minimum_iff (h : currentFrame.toNat + 2 < 2 ^ 64) :
    s.nextFrame < minimum currentFrame ↔ 0 < overdue 2 s.nextFrame currentFrame := by
  rw [UInt64.lt_iff_toNat_lt, minimum_toNat h, overdue_pos_iff]

theorem count_toNat (h : currentFrame.toNat + 2 < 2 ^ 64)
    (hlt : s.nextFrame < minimum currentFrame) :
    (s.count currentFrame).toNat = overdue 2 s.nextFrame currentFrame := by
  have hbehind : (minimum currentFrame - s.nextFrame).toNat =
      currentFrame.toNat + 2 - s.nextFrame.toNat := by
    rw [UInt64.toNat_sub_of_le _ _ (UInt64.le_of_lt hlt), minimum_toNat h]
  have hodd : (minimum currentFrame - s.nextFrame) % batchFrames ≠ 0 ↔
      (currentFrame.toNat + 2 - s.nextFrame.toNat) % 4 ≠ 0 := by
    rw [Ne, ← UInt64.toNat_inj, UInt64.toNat_mod, hbehind]
    rfl
  have hsmall : (currentFrame.toNat + 2 - s.nextFrame.toNat) / 4 < 2 ^ 63 := by omega
  simp only [count, overdue, passed, hodd]
  rw [ceilDiv_eq_div_add (by decide), UInt64.toNat_add, UInt64.toNat_div, hbehind, batchFrames_toNat]
  split_ifs
  · exact Nat.mod_eq_of_lt (by rw [UInt64.toNat_one]; omega)
  · exact Nat.mod_eq_of_lt (by rw [UInt64.toNat_zero]; omega)

theorem takeNext_ahead (h : currentFrame.toNat + 2 < 2 ^ 64)
    (hge : ¬ s.nextFrame < minimum currentFrame) : s.takeNext currentFrame = s.start 0 := by
  have hguard : ¬ currentFrame > maxFrame - startLeadFrames := fun hgt ↦
    absurd ((maxFrame_sub_lt_iff _ _).mp hgt) (Nat.not_le.mpr h)
  rw [takeNext, if_neg hguard, if_neg hge]

def caughtUp (s : AudioOutSchedule) (currentFrame : UInt64) : AudioOutSchedule :=
  ⟨s.nextFrame + s.count currentFrame * batchFrames, s.skippedIntervals + s.count currentFrame⟩

theorem takeNext_behind (h : currentFrame.toNat + 2 < 2 ^ 64)
    (hlt : s.nextFrame < minimum currentFrame) :
    s.takeNext currentFrame =
      if overdue 2 s.nextFrame currentFrame < 2 ^ 32 ∧
          s.nextFrame.toNat + 4 * overdue 2 s.nextFrame currentFrame < 2 ^ 64 then
        (s.caughtUp currentFrame).start (s.count currentFrame).toUInt32
      else (.refused, s) := by
  have hcount := count_toNat h hlt
  have h32 : s.count currentFrame > maxIntervals ↔ 2 ^ 32 ≤ overdue 2 s.nextFrame currentFrame := by
    rw [gt_iff_lt, maxIntervals_lt_iff, hcount]
  have h64 : s.count currentFrame > (maxFrame - s.nextFrame) / batchFrames ↔
      2 ^ 64 ≤ s.nextFrame.toNat + 4 * overdue 2 s.nextFrame currentFrame := by
    rw [gt_iff_lt, maxFrame_sub_div_lt_iff _ _ (by decide), hcount, batchFrames_toNat, Nat.mul_comm]
  have hguard : ¬ currentFrame > maxFrame - startLeadFrames := fun hgt ↦
    absurd ((maxFrame_sub_lt_iff _ _).mp hgt) (Nat.not_le.mpr h)
  rw [takeNext, if_neg hguard, if_pos hlt]
  simp only [h32, h64]
  by_cases hskip : overdue 2 s.nextFrame currentFrame < 2 ^ 32
  · by_cases hframe : s.nextFrame.toNat + 4 * overdue 2 s.nextFrame currentFrame < 2 ^ 64
    · rw [if_neg (Nat.not_le.mpr hskip), if_neg (Nat.not_le.mpr hframe), if_pos ⟨hskip, hframe⟩]
      rfl
    · rw [if_neg (Nat.not_le.mpr hskip), if_pos (Nat.not_lt.mp hframe), if_neg fun h ↦ hframe h.2]
  · rw [if_pos (Nat.not_lt.mp hskip), if_neg fun h ↦ hskip h.1]

theorem start_cases {skipped : UInt32} (hc : currentFrame.toNat + 2 < 2 ^ 64)
    (hframe : t.nextFrame.toNat = s.nextFrame.toNat + 4 * overdue 2 s.nextFrame currentFrame)
    (hskip : skipped.toNat = overdue 2 s.nextFrame currentFrame) :
    s.nextFrame.toNat + 4 * overdue 2 s.nextFrame currentFrame + 4 < 2 ^ 64 ∧
        Taken 2 s.nextFrame currentFrame (t.start skipped).1 (t.start skipped).2.nextFrame ∨
      ¬ s.nextFrame.toNat + 4 * overdue 2 s.nextFrame currentFrame + 4 < 2 ^ 64 ∧
        t.start skipped = (.refused, t) := by
  rw [← hframe]
  by_cases hend : t.nextFrame > maxFrame - batchFrames
  · exact .inr ⟨Nat.not_lt.mpr ((maxFrame_sub_lt_iff _ _).mp hend), if_pos hend⟩
  · have hlt : t.nextFrame.toNat + 4 < 2 ^ 64 :=
      Nat.not_le.mp fun h ↦ hend ((maxFrame_sub_lt_iff _ _).mpr h)
    rw [start, if_neg hend]
    exact .inl ⟨hlt, hc, hframe, hskip, hlt, toNat_add_of_lt hlt⟩

theorem strays_iff : s.Strays currentFrame ↔ 0 < overdue 2 s.nextFrame currentFrame ∧
    (overdue 2 s.nextFrame currentFrame < 2 ^ 32 ∧
      s.nextFrame.toNat + 4 * overdue 2 s.nextFrame currentFrame < 2 ^ 64) ∧
    ¬ s.nextFrame.toNat + 4 * overdue 2 s.nextFrame currentFrame + 4 < 2 ^ 64 := by
  have hreach := le_overdue 2 s.nextFrame currentFrame
  have hleast := overdue_least 2 s.nextFrame currentFrame
  rw [Strays, ← overdue_pos_iff, lastFrame]
  omega

theorem outcome (s : AudioOutSchedule) (currentFrame : UInt64) :
    Outcome 2 nextFrame (s.Strays currentFrame) s currentFrame (s.takeNext currentFrame) := by
  by_cases hc : currentFrame.toNat + 2 < 2 ^ 64
  · by_cases hlt : s.nextFrame < minimum currentFrame
    · have hpos := (nextFrame_lt_minimum_iff hc).mp hlt
      rw [takeNext_behind hc hlt]
      split_ifs with hfits
      · have hframe : (s.caughtUp currentFrame).nextFrame.toNat =
            s.nextFrame.toNat + 4 * overdue 2 s.nextFrame currentFrame :=
          catchUp_toNat batchFrames_toNat (count_toNat hc hlt) hfits.2
        have hskip : (s.count currentFrame).toUInt32.toNat = overdue 2 s.nextFrame currentFrame := by
          rw [UInt64.toNat_toUInt32, count_toNat hc hlt, Nat.mod_eq_of_lt hfits.1]
        exact .of_start strays_iff hfits hframe (fun h ↦ absurd h hpos.ne') (start_cases hc hframe hskip)
      · exact .refused (fun h ↦ hfits (strays_iff.mp h).2.1) rfl
    · have hzero : overdue 2 s.nextFrame currentFrame = 0 :=
        Nat.eq_zero_of_not_pos fun h ↦ hlt ((nextFrame_lt_minimum_iff hc).mpr h)
      have hframe : s.nextFrame.toNat = s.nextFrame.toNat + 4 * overdue 2 s.nextFrame currentFrame := by
        rw [hzero, Nat.mul_zero, Nat.add_zero]
      rw [takeNext_ahead hc hlt]
      refine .of_start strays_iff ⟨?_, ?_⟩ hframe (fun _ ↦ rfl) (start_cases hc hframe hzero.symm)
      · rw [hzero]
        decide
      · rw [← hframe]
        exact s.nextFrame.toNat_lt
  · have hreach := le_overdue 2 s.nextFrame currentFrame
    refine .refused (fun h ↦ hc (hreach.trans_lt (strays_iff.mp h).2.1.2)) ?_
    exact if_pos ((maxFrame_sub_lt_iff _ _).mpr (Nat.not_lt.mp hc))

theorem start_skippedIntervals (skipped : UInt32) :
    (s.start skipped).2.skippedIntervals = s.skippedIntervals := by
  unfold start
  split_ifs <;> rfl

/-- Every skipped interval has moved the next frame, so their total cannot wrap. -/
theorem takeNext_skippedIntervals (h : 4 * s.skippedIntervals.toNat ≤ s.nextFrame.toNat)
    (ht : Taken 2 s.nextFrame currentFrame (s.takeNext currentFrame).1
      (s.takeNext currentFrame).2.nextFrame) :
    4 * (s.takeNext currentFrame).2.skippedIntervals.toNat ≤
      (s.takeNext currentFrame).2.nextFrame.toNat := by
  have hfit := ht.nextFrame_lt
  rw [ht.nextFrame_eq, ht.startFrame_eq]
  rw [ht.startFrame_eq] at hfit
  by_cases hlt : s.nextFrame < minimum currentFrame
  · have hcount := count_toNat ht.current_lt hlt
    rw [takeNext_behind ht.current_lt hlt]
    split_ifs
    · rw [start_skippedIntervals, caughtUp, toNat_add_of_lt (by rw [hcount]; omega), hcount]
      omega
    · exact h.trans (by omega)
  · rw [takeNext_ahead ht.current_lt hlt, start_skippedIntervals]
    omega

end AudioOutSchedule

end NumarkNS6.AudioOut
