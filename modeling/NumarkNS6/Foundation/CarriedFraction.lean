import Mathlib.Algebra.BigOperators.Group.List.Basic
import Mathlib.Algebra.Ring.Nat

namespace NumarkNS6.Foundation.CarriedFraction

/-- Add a rate to a fraction with denominator `d`: the whole units that come
out and the fraction that is carried on. -/
def carry (d fraction rate : ℕ) : ℕ × ℕ :=
  if d ≤ fraction + rate % d then (rate / d + 1, fraction + rate % d - d)
  else (rate / d, fraction + rate % d)

def units (d : ℕ) : ℕ → List ℕ → List ℕ
  | _, [] => []
  | fraction, rate :: rates =>
    (carry d fraction rate).1 :: units d (carry d fraction rate).2 rates

def rest (d fraction : ℕ) (rates : List ℕ) : ℕ :=
  rates.foldl (fun fraction rate ↦ (carry d fraction rate).2) fraction

variable {d fraction : ℕ}

theorem carry_exact (d fraction rate : ℕ) :
    d * (carry d fraction rate).1 + (carry d fraction rate).2 = fraction + rate := by
  have hdiv := Nat.div_add_mod rate d
  unfold carry
  split_ifs with h
  · rw [Nat.mul_add_one]
    omega
  · change d * (rate / d) + (fraction + rate % d) = _
    omega

theorem carry_lt (h : fraction < d) (rate : ℕ) : (carry d fraction rate).2 < d := by
  have hmod := Nat.mod_lt rate (Nat.zero_lt_of_lt h)
  unfold carry
  split_ifs with h'
  · change fraction + rate % d - d < d
    omega
  · exact Nat.lt_of_not_le h'

theorem carry_unit (d fraction rate : ℕ) :
    (carry d fraction rate).1 = rate / d ∨ (carry d fraction rate).1 = rate / d + 1 := by
  unfold carry
  split_ifs
  · exact .inr rfl
  · exact .inl rfl

theorem rest_lt (h : fraction < d) (rates : List ℕ) : rest d fraction rates < d := by
  induction rates generalizing fraction with
  | nil => exact h
  | cons rate rates ih => exact ih (carry_lt h rate)

/-- Nothing of the rates is lost: it is in the units or in the fraction. -/
theorem units_exact (d fraction : ℕ) (rates : List ℕ) :
    d * (units d fraction rates).sum + rest d fraction rates = fraction + rates.sum := by
  induction rates generalizing fraction with
  | nil => simp [units, rest]
  | cons rate rates ih =>
    have hstep := carry_exact d fraction rate
    have hrest := ih (carry d fraction rate).2
    have hcons : rest d fraction (rate :: rates) = rest d (carry d fraction rate).2 rates := rfl
    rw [units, List.sum_cons, List.sum_cons, Nat.mul_add, hcons]
    omega

theorem mem_units_replicate {n rate u : ℕ} (h : u ∈ units d fraction (List.replicate n rate)) :
    u = rate / d ∨ u = rate / d + 1 := by
  induction n generalizing fraction with
  | zero => cases h
  | succ n ih =>
    rcases List.mem_cons.mp h with rfl | h
    · exact carry_unit d fraction rate
    · exact ih h

/-- A rate that is added `d` times comes out in full, in parts that differ by at most one. -/
theorem units_replicate (hd : 0 < d) (rate : ℕ) :
    (units d 0 (List.replicate d rate)).sum = rate ∧
      ∀ u ∈ units d 0 (List.replicate d rate), u = rate / d ∨ u = rate / d + 1 := by
  constructor
  · have hexact := units_exact d 0 (List.replicate d rate)
    have hlt := rest_lt hd (List.replicate d rate)
    rw [Nat.zero_add, List.sum_replicate_nat] at hexact
    have hdvd : d ∣ rest d 0 (List.replicate d rate) :=
      (Nat.dvd_add_right (Nat.dvd_mul_right d _)).mp (hexact ▸ Nat.dvd_mul_right d rate)
    rw [Nat.eq_zero_of_dvd_of_lt hdvd hlt, Nat.add_zero] at hexact
    exact Nat.eq_of_mul_eq_mul_left hd hexact
  · exact fun u hu ↦ mem_units_replicate hu

end NumarkNS6.Foundation.CarriedFraction
