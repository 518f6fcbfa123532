import Mathlib.Algebra.Order.Floor.Semiring
import Mathlib.Algebra.Order.Field.Basic
import Mathlib.Tactic.Linarith

namespace NumarkNS6.Foundation.PeriodicClock

variable {K : Type} [Field K] [LinearOrder K] [IsStrictOrderedRing K] [FloorSemiring K]

/-- The last multiple of `period` that a counter of `rate` per tick has reached. -/
def beat (rate : K) (period elapsed : ℕ) : ℕ := ⌊(elapsed : K) * rate⌋₊ / period * period

/-- The tick in which a counter of `rate` per tick reaches `count`. -/
def arrival (rate : K) (count : ℕ) : ℕ := ⌊(count : K) / rate⌋₊

variable {rate : K} {period elapsed later m n : ℕ}

omit [IsStrictOrderedRing K] in
theorem dvd_beat (rate : K) (period elapsed : ℕ) : period ∣ beat rate period elapsed := Nat.dvd_mul_left _ _

theorem beat_le (hr : 0 < rate) (period elapsed : ℕ) : (beat rate period elapsed : K) ≤ elapsed * rate := by
  have hle : beat rate period elapsed ≤ ⌊(elapsed : K) * rate⌋₊ := Nat.div_mul_le_self _ _
  exact (Nat.cast_le.mpr hle).trans (Nat.floor_le (mul_nonneg (Nat.cast_nonneg _) hr.le))

theorem lt_beat_add (hp : 0 < period) (elapsed : ℕ) :
    (elapsed : K) * rate < beat rate period elapsed + period := by
  have hlt : ⌊(elapsed : K) * rate⌋₊ + 1 ≤ beat rate period elapsed + period :=
    Nat.lt_div_mul_add hp
  calc (elapsed : K) * rate < ⌊(elapsed : K) * rate⌋₊ + 1 := Nat.lt_floor_add_one _
    _ ≤ beat rate period elapsed + period := by exact_mod_cast hlt

theorem beat_mono (hr : 0 < rate) (period : ℕ) (h : elapsed ≤ later) :
    beat rate period elapsed ≤ beat rate period later := by
  have hle : (elapsed : K) * rate ≤ later * rate :=
    mul_le_mul_of_nonneg_right (Nat.cast_le.mpr h) hr.le
  exact Nat.mul_le_mul_right _ (Nat.div_le_div_right (Nat.floor_le_floor hle))

theorem arrival_mono (hr : 0 < rate) (h : m ≤ n) : arrival rate m ≤ arrival rate n :=
  Nat.floor_le_floor (div_le_div_of_nonneg_right (Nat.cast_le.mpr h) hr.le)

theorem arrival_beat_le (hr : 0 < rate) (period elapsed : ℕ) :
    arrival rate (beat rate period elapsed) ≤ elapsed :=
  Nat.floor_le_of_le ((div_le_iff₀ hr).mpr (beat_le hr period elapsed))

theorem lt_arrival_beat (hr : 0 < rate) (hp : 0 < period) (elapsed : ℕ) :
    (elapsed : K) < arrival rate (beat rate period elapsed) + period / rate + 1 := by
  have hfloor : (beat rate period elapsed : K) / rate <
      arrival rate (beat rate period elapsed) + 1 := Nat.lt_floor_add_one _
  have hbeat : (elapsed : K) < (beat rate period elapsed + period) / rate :=
    (lt_div_iff₀ hr).mpr (lt_beat_add hp elapsed)
  rw [add_div] at hbeat
  linarith

theorem arrival_lt (hr : 0 < rate) (hshort : rate < period) (hm : period ∣ m) (hn : period ∣ n)
    (h : m < n) : arrival rate m < arrival rate n := by
  obtain ⟨a, rfl⟩ := hm
  obtain ⟨b, rfl⟩ := hn
  have hgap : period * a + period ≤ period * b := Nat.mul_le_mul_left _ (Nat.lt_of_mul_lt_mul_left h)
  have hcast : ((period * a : ℕ) : K) + period ≤ (period * b : ℕ) := by exact_mod_cast hgap
  have hfloor : (arrival rate (period * a) : K) ≤ (period * a : ℕ) / rate :=
    Nat.floor_le (div_nonneg (Nat.cast_nonneg _) hr.le)
  have htick : 1 < (period : K) / rate := (one_lt_div hr).mpr hshort
  have hdiv : ((period * a : ℕ) : K) / rate + period / rate ≤ (period * b : ℕ) / rate := by
    rw [← add_div]
    exact div_le_div_of_nonneg_right hcast hr.le
  refine Nat.le_floor ?_
  push_cast at hfloor hdiv ⊢
  linarith

/-- Where a tick is shorter than a period, different beats arrive in different ticks. -/
theorem arrival_eq_iff (hr : 0 < rate) (hshort : rate < period) (hm : period ∣ m) (hn : period ∣ n) :
    arrival rate m = arrival rate n ↔ m = n := by
  refine ⟨fun he ↦ ?_, fun he ↦ he ▸ rfl⟩
  rcases Nat.lt_trichotomy m n with h | h | h
  · exact absurd he (arrival_lt hr hshort hm hn h).ne
  · exact h
  · exact absurd he (arrival_lt hr hshort hn hm h).ne'

end NumarkNS6.Foundation.PeriodicClock
