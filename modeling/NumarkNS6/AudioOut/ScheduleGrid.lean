import NumarkNS6.Foundation.FrameGrid
import Mathlib.Data.UInt

namespace NumarkNS6.AudioOut

open Foundation.FrameGrid

/-- What `takeNext` of either schedule returns. Start frame 0 reports failure. -/
structure ScheduleResult where
  startFrame : UInt64
  skippedIntervals : UInt32
  deriving DecidableEq

def ScheduleResult.refused : ScheduleResult := ⟨0, 0⟩

def maxFrame : UInt64 := UInt64.ofNat (2 ^ 64 - 1)

def maxIntervals : UInt64 := UInt64.ofNat (2 ^ 32 - 1)

/-- The guard before an addition lets through exactly the sums that have 64 bits. -/
theorem maxFrame_sub_lt_iff (x k : UInt64) : maxFrame - k < x ↔ 2 ^ 64 ≤ x.toNat + k.toNat := by
  have hk : k ≤ maxFrame := UInt64.le_iff_toNat_le.mpr (Nat.le_pred_of_lt k.toNat_lt)
  rw [UInt64.lt_iff_toNat_lt, UInt64.toNat_sub_of_le _ _ hk]
  change 2 ^ 64 - 1 - k.toNat < x.toNat ↔ _
  have hlt := k.toNat_lt
  omega

theorem maxFrame_sub_div_lt_iff (x n : UInt64) {d : UInt64} (hd : 0 < d.toNat) :
    (maxFrame - x) / d < n ↔ 2 ^ 64 ≤ x.toNat + n.toNat * d.toNat := by
  have hx : x ≤ maxFrame := UInt64.le_iff_toNat_le.mpr (Nat.le_pred_of_lt x.toNat_lt)
  rw [UInt64.lt_iff_toNat_lt, UInt64.toNat_div, UInt64.toNat_sub_of_le _ _ hx,
    Nat.div_lt_iff_lt_mul hd]
  change 2 ^ 64 - 1 - x.toNat < n.toNat * d.toNat ↔ _
  have hlt := x.toNat_lt
  omega

theorem maxIntervals_lt_iff (n : UInt64) : maxIntervals < n ↔ 2 ^ 32 ≤ n.toNat := by
  rw [UInt64.lt_iff_toNat_lt, show maxIntervals.toNat = 2 ^ 32 - 1 from by decide]
  omega

theorem toNat_add_of_lt {x y : UInt64} (h : x.toNat + y.toNat < 2 ^ 64) :
    (x + y).toNat = x.toNat + y.toNat := by
  rw [UInt64.toNat_add, Nat.mod_eq_of_lt h]

theorem toNat_mul_of_lt {x y : UInt64} (h : x.toNat * y.toNat < 2 ^ 64) :
    (x * y).toNat = x.toNat * y.toNat := by
  rw [UInt64.toNat_mul, Nat.mod_eq_of_lt h]

/-- The intervals of four frames that a schedule whose next frame is `next`
is behind at `current`, where a transfer has to start `lead` frames ahead. -/
def overdue (lead : ℕ) (next current : UInt64) : ℕ := passed 4 next.toNat (current.toNat + lead)

def lastFrame (next : UInt64) : ℕ := 2 ^ 64 - 1 - (2 ^ 64 - 1 - next.toNat) % 4

section

variable (lead : ℕ) (next current : UInt64)

theorem le_overdue : current.toNat + lead ≤ next.toNat + 4 * overdue lead next current :=
  le_add_passed (by decide) _ _

theorem overdue_pos_iff : 0 < overdue lead next current ↔ next.toNat < current.toNat + lead :=
  passed_pos_iff (by decide)

theorem overdue_least (h : 0 < overdue lead next current) :
    next.toNat + 4 * (overdue lead next current - 1) < current.toNat + lead :=
  (lt_passed_iff (by decide)).mp (Nat.sub_one_lt_of_lt h)

end

theorem catchUp_toNat {lead : ℕ} {next current count interval : UInt64} (hinterval : interval.toNat = 4)
    (hcount : count.toNat = overdue lead next current)
    (hfit : next.toNat + 4 * overdue lead next current < 2 ^ 64) :
    (next + count * interval).toNat = next.toNat + 4 * overdue lead next current := by
  have hmul : (count * interval).toNat = 4 * overdue lead next current := by
    rw [toNat_mul_of_lt (by rw [hcount, hinterval]; omega), hcount, hinterval, Nat.mul_comm]
  rw [toNat_add_of_lt (by rw [hmul]; exact hfit), hmul]

/-- Both `begin` answer a frame only past their two guards, and then reserve the transfer
that starts there. -/
theorem begin_of_ne {σ : Type} {lead interval current : UInt64} {early late reserved : σ}
    {r : UInt64 × σ} (h : r.1 ≠ 0)
    (hr : r = if current > maxFrame - lead then (0, early)
      else if current + lead > maxFrame - interval then (0, late) else (current + lead, reserved)) :
    current.toNat + lead.toNat < 2 ^ 64 ∧ (current + lead).toNat + interval.toNat < 2 ^ 64 ∧
      r = (current + lead, reserved) := by
  simp only [gt_iff_lt, maxFrame_sub_lt_iff] at hr
  split_ifs at hr with hlead hend
  · exact absurd (congrArg Prod.fst hr) h
  · exact absurd (congrArg Prod.fst hr) h
  · exact ⟨Nat.not_le.mp hlead, Nat.not_le.mp hend, hr⟩

/-- A call at `current` that is given a transfer: the overdue intervals are
skipped, and all of the transfer's frames have 64 bits. -/
structure Taken (lead : ℕ) (next current : UInt64) (r : ScheduleResult) (next' : UInt64) : Prop where
  current_lt : current.toNat + lead < 2 ^ 64
  startFrame_eq : r.startFrame.toNat = next.toNat + 4 * overdue lead next current
  skippedIntervals_eq : r.skippedIntervals.toNat = overdue lead next current
  nextFrame_lt : r.startFrame.toNat + 4 < 2 ^ 64
  nextFrame_eq : next'.toNat = r.startFrame.toNat + 4

theorem Taken.startFrame_ne {lead : ℕ} {next current next' : UInt64} {r : ScheduleResult}
    (h : Taken lead next current r next') (hlead : 0 < lead) : r.startFrame ≠ 0 := by
  intro hzero
  have hle := le_overdue lead next current
  rw [← h.startFrame_eq, hzero, UInt64.toNat_zero] at hle
  omega

/-- The three things a call can do: take a transfer, catch up and be refused
all the same, or be refused before anything is changed. -/
inductive Outcome {σ : Type} (lead : ℕ) (nextFrame : σ → UInt64) (strays : Prop) (s : σ)
    (current : UInt64) (r : ScheduleResult × σ) : Prop
  | taken (h : Taken lead (nextFrame s) current r.1 (nextFrame r.2)) (hstrays : ¬ strays)
  | strayed (hstrays : strays) (hr : r.1 = .refused)
      (hnext : (nextFrame r.2).toNat = (nextFrame s).toNat + 4 * overdue lead (nextFrame s) current)
      (hpos : 0 < overdue lead (nextFrame s) current)
  | refused (hstrays : ¬ strays) (hr : r = (.refused, s))

/-- A call that has caught up with `t` takes the transfer there, or strays if it had to move. -/
theorem Outcome.of_start {σ : Type} {lead : ℕ} {nextFrame : σ → UInt64} {strays fits starts : Prop}
    {s t : σ} {current : UInt64} {r : ScheduleResult × σ}
    (hstrays : strays ↔ 0 < overdue lead (nextFrame s) current ∧ fits ∧ ¬ starts) (hfits : fits)
    (hnext : (nextFrame t).toNat = (nextFrame s).toNat + 4 * overdue lead (nextFrame s) current)
    (hstill : overdue lead (nextFrame s) current = 0 → t = s)
    (hr : starts ∧ Taken lead (nextFrame s) current r.1 (nextFrame r.2) ∨
      ¬ starts ∧ r = (.refused, t)) : Outcome lead nextFrame strays s current r := by
  obtain ⟨hstarts, htaken⟩ | ⟨hlate, rfl⟩ := hr
  · exact .taken htaken fun h ↦ (hstrays.mp h).2.2 hstarts
  · obtain hzero | hpos := Nat.eq_zero_or_pos (overdue lead (nextFrame s) current)
    · rw [hstill hzero]
      exact .refused (fun h ↦ (hstrays.mp h).1.ne' hzero) rfl
    · exact .strayed (hstrays.mpr ⟨hpos, hfits, hlate⟩) rfl hnext hpos

end NumarkNS6.AudioOut
