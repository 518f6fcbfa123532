import Mathlib.Algebra.Order.Floor.Div
import Mathlib.Data.Int.ModEq
import Mathlib.Order.Bounds.Basic

namespace NumarkNS6.Foundation.FrameGrid

/-- The intervals of `d` that a grid which has come to `x` passes over to reach `m`. -/
def passed (d x m : ℕ) : ℕ := (m - x) ⌈/⌉ d

variable {d x m n : ℕ}

theorem passed_le_iff (hd : 0 < d) : passed d x m ≤ n ↔ m ≤ x + d * n := by
  rw [passed, ceilDiv_le_iff_le_mul hd]
  omega

theorem lt_passed_iff (hd : 0 < d) : n < passed d x m ↔ x + d * n < m := by
  rw [← not_le, passed_le_iff hd, not_le]

theorem le_add_passed (hd : 0 < d) (x m : ℕ) : m ≤ x + d * passed d x m :=
  (passed_le_iff hd).mp le_rfl

theorem passed_pos_iff (hd : 0 < d) : 0 < passed d x m ↔ x < m := by
  rw [lt_passed_iff hd, Nat.mul_zero, Nat.add_zero]

/-- Passing over as few intervals as will do gives the least point of the
grid that is not before the bound. -/
theorem isLeast_passed (hd : 0 < d) (x m : ℕ) :
    IsLeast {y | y ≡ x [MOD d] ∧ x ≤ y ∧ m ≤ y} (x + d * passed d x m) := by
  constructor
  · exact ⟨by simp [Nat.ModEq], Nat.le_add_right _ _, le_add_passed hd x m⟩
  · rintro y ⟨hmod, hxy, hmy⟩
    obtain ⟨k, hk⟩ := (Nat.modEq_iff_dvd' hxy).mp hmod.symm
    obtain rfl : y = x + d * k := by omega
    exact Nat.add_le_add_left (Nat.mul_le_mul_left _ ((passed_le_iff hd).mpr hmy)) _

theorem ceilDiv_eq_div_add (hd : 0 < d) (n : ℕ) :
    n ⌈/⌉ d = n / d + if n % d ≠ 0 then 1 else 0 := by
  refine eq_of_forall_ge_iff fun c ↦ ?_
  rw [ceilDiv_le_iff_le_mul hd]
  split_ifs with h
  · rw [Nat.add_one_le_iff, Nat.div_lt_iff_lt_mul hd, Nat.mul_comm c]
    refine ⟨fun hc ↦ lt_of_le_of_ne hc ?_, le_of_lt⟩
    rintro rfl
    exact h (Nat.mul_mod_right d c)
  · obtain ⟨k, rfl⟩ := Nat.dvd_of_mod_eq_zero (not_not.mp h)
    rw [Nat.mul_div_cancel_left _ hd, Nat.add_zero, Nat.mul_le_mul_left_iff hd]

theorem ceilDiv_eq_pred_div_add (hd : 0 < d) (hn : 0 < n) : n ⌈/⌉ d = (n - 1) / d + 1 := by
  rw [Nat.ceilDiv_eq_add_pred_div, ← Nat.add_div_right _ hd]
  congr 1
  omega

end NumarkNS6.Foundation.FrameGrid
