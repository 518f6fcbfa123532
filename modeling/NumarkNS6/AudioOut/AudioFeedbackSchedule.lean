import NumarkNS6.AudioOut.ScheduleGrid

namespace NumarkNS6.AudioOut

open Foundation.FrameGrid

structure AudioFeedbackSchedule where
  nextFrame : UInt64
  deriving DecidableEq

namespace AudioFeedbackSchedule

def initialLeadFrames : UInt64 := 2

def framesPerTransfer : UInt64 := 4

def initial : AudioFeedbackSchedule := ⟨0⟩

def begin (s : AudioFeedbackSchedule) (currentFrame : UInt64) : UInt64 × AudioFeedbackSchedule :=
  if currentFrame > maxFrame - initialLeadFrames then (0, s)
  else
    let first := currentFrame + initialLeadFrames
    if first > maxFrame - framesPerTransfer then (0, s)
    else (first, ⟨first + framesPerTransfer⟩)

def minimum (currentFrame : UInt64) : UInt64 := currentFrame + 1

def skipped (s : AudioFeedbackSchedule) (currentFrame : UInt64) : UInt64 :=
  let behind := minimum currentFrame - s.nextFrame
  (behind - 1) / framesPerTransfer + 1

def start (s : AudioFeedbackSchedule) (skipped : UInt64) : ScheduleResult × AudioFeedbackSchedule :=
  if s.nextFrame > maxFrame - framesPerTransfer ∨ skipped > maxIntervals then (.refused, s)
  else (⟨s.nextFrame, skipped.toUInt32⟩, ⟨s.nextFrame + framesPerTransfer⟩)

def takeNext (s : AudioFeedbackSchedule) (currentFrame : UInt64) :
    ScheduleResult × AudioFeedbackSchedule :=
  if currentFrame = maxFrame then (.refused, s)
  else if s.nextFrame < minimum currentFrame then
    let skipped := s.skipped currentFrame
    if skipped > (maxFrame - s.nextFrame) / framesPerTransfer then (.refused, s)
    else start ⟨s.nextFrame + skipped * framesPerTransfer⟩ skipped
  else start s 0

/-- The call moves the next frame before it is refused. Unlike in the output
schedule the limit on the skipped intervals is checked after the move, so that
a call too far ahead strays like one that reaches the last transfer of the grid. -/
def Strays (s : AudioFeedbackSchedule) (currentFrame : UInt64) : Prop :=
  s.nextFrame.toNat < currentFrame.toNat + 1 ∧
    currentFrame.toNat + 1 ≤ lastFrame s.nextFrame ∧
    (lastFrame s.nextFrame < currentFrame.toNat + 1 + 4 ∨
      s.nextFrame.toNat + 4 * (2 ^ 32 - 1) < currentFrame.toNat + 1)

theorem framesPerTransfer_toNat : framesPerTransfer.toNat = 4 := rfl

variable {s t : AudioFeedbackSchedule} {currentFrame : UInt64}

theorem eq_maxFrame_iff : currentFrame = maxFrame ↔ 2 ^ 64 ≤ currentFrame.toNat + 1 := by
  rw [← UInt64.toNat_inj, show maxFrame.toNat = 2 ^ 64 - 1 from by decide]
  have hlt := currentFrame.toNat_lt
  omega

theorem minimum_toNat (h : currentFrame.toNat + 1 < 2 ^ 64) :
    (minimum currentFrame).toNat = currentFrame.toNat + 1 := toNat_add_of_lt h

theorem nextFrame_lt_minimum_iff (h : currentFrame.toNat + 1 < 2 ^ 64) :
    s.nextFrame < minimum currentFrame ↔ 0 < overdue 1 s.nextFrame currentFrame := by
  rw [UInt64.lt_iff_toNat_lt, minimum_toNat h, overdue_pos_iff]

theorem skipped_toNat (h : currentFrame.toNat + 1 < 2 ^ 64)
    (hlt : s.nextFrame < minimum currentFrame) :
    (s.skipped currentFrame).toNat = overdue 1 s.nextFrame currentFrame := by
  have hbehind : (minimum currentFrame - s.nextFrame).toNat =
      currentFrame.toNat + 1 - s.nextFrame.toNat := by
    rw [UInt64.toNat_sub_of_le _ _ (UInt64.le_of_lt hlt), minimum_toNat h]
  have hpos : 0 < currentFrame.toNat + 1 - s.nextFrame.toNat := by
    have := (overdue_pos_iff _ _ _).mp ((nextFrame_lt_minimum_iff h).mp hlt)
    omega
  have hone : (1 : UInt64) ≤ minimum currentFrame - s.nextFrame := by
    rw [UInt64.le_iff_toNat_le, hbehind]
    exact hpos
  simp only [skipped, overdue, passed]
  rw [ceilDiv_eq_pred_div_add (by decide) hpos, UInt64.toNat_add, UInt64.toNat_div,
    UInt64.toNat_sub_of_le _ _ hone, hbehind, framesPerTransfer_toNat, UInt64.toNat_one]
  exact Nat.mod_eq_of_lt (by omega)

theorem takeNext_ahead (h : currentFrame.toNat + 1 < 2 ^ 64)
    (hge : ¬ s.nextFrame < minimum currentFrame) : s.takeNext currentFrame = s.start 0 := by
  rw [takeNext, if_neg fun he ↦ absurd (eq_maxFrame_iff.mp he) (Nat.not_le.mpr h), if_neg hge]

def caughtUp (s : AudioFeedbackSchedule) (currentFrame : UInt64) : AudioFeedbackSchedule :=
  ⟨s.nextFrame + s.skipped currentFrame * framesPerTransfer⟩

theorem takeNext_behind (h : currentFrame.toNat + 1 < 2 ^ 64)
    (hlt : s.nextFrame < minimum currentFrame) :
    s.takeNext currentFrame =
      if s.nextFrame.toNat + 4 * overdue 1 s.nextFrame currentFrame < 2 ^ 64 then
        (s.caughtUp currentFrame).start (s.skipped currentFrame)
      else (.refused, s) := by
  have h64 : s.skipped currentFrame > (maxFrame - s.nextFrame) / framesPerTransfer ↔
      ¬ s.nextFrame.toNat + 4 * overdue 1 s.nextFrame currentFrame < 2 ^ 64 := by
    rw [gt_iff_lt, maxFrame_sub_div_lt_iff _ _ (by decide), skipped_toNat h hlt,
      framesPerTransfer_toNat, Nat.mul_comm, Nat.not_lt]
  rw [takeNext, if_neg fun he ↦ absurd (eq_maxFrame_iff.mp he) (Nat.not_le.mpr h), if_pos hlt]
  simp only [h64, ite_not]
  rfl

theorem start_cases {skipped : UInt64} (hc : currentFrame.toNat + 1 < 2 ^ 64)
    (hframe : t.nextFrame.toNat = s.nextFrame.toNat + 4 * overdue 1 s.nextFrame currentFrame)
    (hskip : skipped.toNat = overdue 1 s.nextFrame currentFrame) :
    (s.nextFrame.toNat + 4 * overdue 1 s.nextFrame currentFrame + 4 < 2 ^ 64 ∧
          overdue 1 s.nextFrame currentFrame < 2 ^ 32) ∧
        Taken 1 s.nextFrame currentFrame (t.start skipped).1 (t.start skipped).2.nextFrame ∨
      ¬ (s.nextFrame.toNat + 4 * overdue 1 s.nextFrame currentFrame + 4 < 2 ^ 64 ∧
          overdue 1 s.nextFrame currentFrame < 2 ^ 32) ∧
        t.start skipped = (.refused, t) := by
  have hguard : t.nextFrame > maxFrame - framesPerTransfer ∨ skipped > maxIntervals ↔
      2 ^ 64 ≤ t.nextFrame.toNat + 4 ∨ 2 ^ 32 ≤ overdue 1 s.nextFrame currentFrame := by
    rw [gt_iff_lt, gt_iff_lt, maxFrame_sub_lt_iff, maxIntervals_lt_iff, hskip,
      framesPerTransfer_toNat]
  rw [← hframe]
  by_cases hend : t.nextFrame > maxFrame - framesPerTransfer ∨ skipped > maxIntervals
  · exact .inr ⟨fun h ↦ (hguard.mp hend).elim h.1.not_ge h.2.not_ge, if_pos hend⟩
  · obtain ⟨hlt, h32⟩ := not_or.mp (mt hguard.mpr hend)
    rw [Nat.not_le] at hlt h32
    have hnarrow : skipped.toUInt32.toNat = overdue 1 s.nextFrame currentFrame := by
      rw [UInt64.toNat_toUInt32, hskip, Nat.mod_eq_of_lt h32]
    rw [start, if_neg hend]
    exact .inl ⟨⟨hlt, h32⟩, hc, hframe, hnarrow, hlt, toNat_add_of_lt hlt⟩

theorem strays_iff : s.Strays currentFrame ↔ 0 < overdue 1 s.nextFrame currentFrame ∧
    s.nextFrame.toNat + 4 * overdue 1 s.nextFrame currentFrame < 2 ^ 64 ∧
    ¬ (s.nextFrame.toNat + 4 * overdue 1 s.nextFrame currentFrame + 4 < 2 ^ 64 ∧
      overdue 1 s.nextFrame currentFrame < 2 ^ 32) := by
  have hreach := le_overdue 1 s.nextFrame currentFrame
  have hleast := overdue_least 1 s.nextFrame currentFrame
  rw [Strays, ← overdue_pos_iff, lastFrame]
  omega

theorem outcome (s : AudioFeedbackSchedule) (currentFrame : UInt64) :
    Outcome 1 nextFrame (s.Strays currentFrame) s currentFrame (s.takeNext currentFrame) := by
  by_cases hc : currentFrame.toNat + 1 < 2 ^ 64
  · by_cases hlt : s.nextFrame < minimum currentFrame
    · have hpos := (nextFrame_lt_minimum_iff hc).mp hlt
      have hskip := skipped_toNat hc hlt
      rw [takeNext_behind hc hlt]
      split_ifs with hfits
      · have hframe : (s.caughtUp currentFrame).nextFrame.toNat =
            s.nextFrame.toNat + 4 * overdue 1 s.nextFrame currentFrame :=
          catchUp_toNat framesPerTransfer_toNat hskip hfits
        exact .of_start strays_iff hfits hframe (fun h ↦ absurd h hpos.ne') (start_cases hc hframe hskip)
      · exact .refused (fun h ↦ hfits (strays_iff.mp h).2.1) rfl
    · have hzero : overdue 1 s.nextFrame currentFrame = 0 :=
        Nat.eq_zero_of_not_pos fun h ↦ hlt ((nextFrame_lt_minimum_iff hc).mpr h)
      have hframe : s.nextFrame.toNat = s.nextFrame.toNat + 4 * overdue 1 s.nextFrame currentFrame := by
        rw [hzero, Nat.mul_zero, Nat.add_zero]
      rw [takeNext_ahead hc hlt]
      refine .of_start strays_iff ?_ hframe (fun _ ↦ rfl) (start_cases hc hframe hzero.symm)
      rw [← hframe]
      exact s.nextFrame.toNat_lt
  · have hreach := le_overdue 1 s.nextFrame currentFrame
    refine .refused (fun h ↦ hc (hreach.trans_lt (strays_iff.mp h).2.1)) ?_
    exact if_pos (eq_maxFrame_iff.mpr (Nat.not_lt.mp hc))

end AudioFeedbackSchedule

end NumarkNS6.AudioOut
