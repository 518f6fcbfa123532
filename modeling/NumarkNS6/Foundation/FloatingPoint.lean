import Mathlib.Algebra.Order.Floor.Ring
import Mathlib.Algebra.Order.Floor.Semifield
import Mathlib.Data.Int.Log
import Mathlib.Data.Rat.Floor
import Mathlib.Tactic.FieldSimp
import Mathlib.Tactic.Linarith
import Mathlib.Tactic.NormNum
import Mathlib.Tactic.Positivity
import Mathlib.Tactic.Ring

namespace NumarkNS6.Foundation

/-- To the nearest integer, halves to the even one. -/
def roundHalfEven (x : ℚ) : ℤ :=
  let fraction := x - ⌊x⌋
  if fraction < 1 / 2 ∨ fraction = 1 / 2 ∧ ⌊x⌋ % 2 = 0 then ⌊x⌋ else ⌊x⌋ + 1

theorem roundHalfEven_intCast (n : ℤ) : roundHalfEven n = n := by
  have hfraction : (n : ℚ) - n < 1 / 2 := by
    rw [sub_self]
    norm_num
  rw [roundHalfEven, Int.floor_intCast, if_pos (.inl hfraction)]

theorem le_roundHalfEven {n : ℤ} {x : ℚ} (h : (n : ℚ) ≤ x) : n ≤ roundHalfEven x := by
  have hfloor : n ≤ ⌊x⌋ := Int.le_floor.mpr h
  unfold roundHalfEven
  simp only
  split_ifs
  · exact hfloor
  · omega

theorem roundHalfEven_le {n : ℤ} {x : ℚ} (h : x ≤ n) : roundHalfEven x ≤ n := by
  unfold roundHalfEven
  simp only
  split_ifs with hdown
  · exact_mod_cast (Int.floor_le x).trans h
  · have hlt : (⌊x⌋ : ℚ) < x := by
      by_contra hno
      have hfloor := Int.floor_le x
      refine hdown (.inl ?_)
      linarith
    have hn : (⌊x⌋ : ℚ) < n := hlt.trans_le h
    have hz : ⌊x⌋ < n := by exact_mod_cast hn
    omega

/-- The distance of the numbers with `digits` binary digits after the leading one around `x`,
in a format without smaller steps than `2 ^ least`. -/
def ulp (digits : ℕ) (least : ℤ) (x : ℚ) : ℚ := 2 ^ max (Int.log 2 |x| - digits) least

/-- The number of such a format nearest to `x`, halves to the even one, for values that do
not overflow. -/
def nearest (digits : ℕ) (least : ℤ) (x : ℚ) : ℚ :=
  roundHalfEven (x / ulp digits least x) * ulp digits least x

theorem ulp_pos (digits : ℕ) (least : ℤ) (x : ℚ) : 0 < ulp digits least x :=
  zpow_pos (by norm_num) _

theorem nearest_zero (digits : ℕ) (least : ℤ) : nearest digits least 0 = 0 := by
  rw [nearest, zero_div, ← Int.cast_zero, roundHalfEven_intCast, Int.cast_zero, zero_mul]

section Integers

variable {digits : ℕ} {least : ℤ} (hleast : least ≤ 0) {x : ℚ} (hx : |x| < 2 ^ (digits + 1)) {n : ℤ}
include hleast hx

theorem exists_intCast_eq_mul_ulp (n : ℤ) : ∃ m : ℤ, (n : ℚ) = m * ulp digits least x := by
  have hlog : Int.log 2 |x| ≤ digits := by
    obtain hzero | hpos := (abs_nonneg x).eq_or_lt
    · rw [← hzero, Int.log_zero_right]
      omega
    · have hlt : |x| < ((2 : ℕ) : ℚ) ^ ((digits + 1 : ℕ) : ℤ) := by
        rw [zpow_natCast]
        exact_mod_cast hx
      have hlog := (Int.lt_zpow_iff_log_lt (by norm_num) hpos).mp hlt
      omega
  obtain ⟨k, hk⟩ := Int.eq_ofNat_of_zero_le
    (show 0 ≤ -max (Int.log 2 |x| - digits) least by omega)
  refine ⟨n * 2 ^ k, ?_⟩
  have hexp : max (Int.log 2 |x| - digits) least = -(k : ℤ) := by omega
  rw [ulp, hexp, zpow_neg, zpow_natCast]
  push_cast
  rw [mul_assoc, mul_inv_cancel₀ (by positivity), mul_one]

theorem le_nearest (h : (n : ℚ) ≤ x) : (n : ℚ) ≤ nearest digits least x := by
  obtain ⟨m, hm⟩ := exists_intCast_eq_mul_ulp hleast hx n
  have hulp := ulp_pos digits least x
  rw [hm, nearest]
  refine mul_le_mul_of_nonneg_right ?_ hulp.le
  rw [hm, ← le_div_iff₀ hulp] at h
  exact_mod_cast le_roundHalfEven h

theorem nearest_le (h : x ≤ n) : nearest digits least x ≤ n := by
  obtain ⟨m, hm⟩ := exists_intCast_eq_mul_ulp hleast hx n
  have hulp := ulp_pos digits least x
  rw [hm, nearest]
  refine mul_le_mul_of_nonneg_right ?_ hulp.le
  rw [hm, ← div_le_iff₀ hulp] at h
  exact_mod_cast roundHalfEven_le h

end Integers

/-- A single-precision number of IEEE 754 by the fields of its word. -/
structure Binary32 where
  negative : Bool
  exponent : BitVec 8
  fraction : BitVec 23
  deriving DecidableEq

namespace Binary32

def ofWord (word : BitVec 32) : Binary32 :=
  ⟨word.msb, word.extractLsb' 23 8, word.extractLsb' 0 23⟩

def IsFinite (x : Binary32) : Prop := x.exponent ≠ 255

def IsNaN (x : Binary32) : Prop := x.exponent = 255 ∧ x.fraction ≠ 0

instance (x : Binary32) : Decidable x.IsFinite := inferInstanceAs (Decidable (_ ≠ _))

instance (x : Binary32) : Decidable x.IsNaN := inferInstanceAs (Decidable (_ ∧ _))

def significand (x : Binary32) : ℕ :=
  if x.exponent = 0 then x.fraction.toNat else 2 ^ 23 + x.fraction.toNat

def magnitude (x : Binary32) : ℚ := x.significand * 2 ^ (x.exponent.toNat - 1) / 2 ^ 149

def value (x : Binary32) : ℚ := if x.negative then -x.magnitude else x.magnitude

def zero (negative : Bool) : Binary32 := ⟨negative, 0, 0⟩

def infinity (negative : Bool) : Binary32 := ⟨negative, 255, 0⟩

def nan : Binary32 := ⟨false, 255, 0x400000⟩

instance : Zero Binary32 := ⟨zero false⟩

/-- The number nearest to a magnitude, halves to the even one. A fraction that is rounded up
to the next power of two carries into the exponent, and past the last exponent the result
is infinite. -/
def round (negative : Bool) (q : ℚ) : Binary32 :=
  if q = 0 then zero negative
  else
    let e := (Int.log 2 q + 126).toNat
    let n := (roundHalfEven (q * 2 ^ 149 / 2 ^ e)).toNat
    let bits := min (e * 2 ^ 23 + n) (255 * 2 ^ 23)
    ⟨negative, BitVec.ofNat 8 (bits / 2 ^ 23), BitVec.ofNat 23 bits⟩

instance : RatCast Binary32 := ⟨fun q ↦ round (decide (q < 0)) |q|⟩

instance : Neg Binary32 := ⟨fun x ↦ { x with negative := !x.negative }⟩

/-- The exact sum, rounded. A sum of zero is negative only if both numbers are. -/
def add (x y : Binary32) : Binary32 :=
  if x.IsNaN ∨ y.IsNaN then nan
  else if x.IsFinite then
    if y.IsFinite then
      let sum := x.value + y.value
      round (if sum = 0 then x.negative && y.negative else decide (sum < 0)) |sum|
    else y
  else if y.IsFinite ∨ x = y then x
  else nan

def mul (x y : Binary32) : Binary32 :=
  let negative := x.negative ^^ y.negative
  if x.IsNaN ∨ y.IsNaN then nan
  else if x.IsFinite ∧ y.IsFinite then round negative (x.magnitude * y.magnitude)
  else if x = zero x.negative ∨ y = zero y.negative then nan
  else infinity negative

instance : Add Binary32 := ⟨add⟩

instance : Sub Binary32 := ⟨fun x y ↦ x + -y⟩

instance : Mul Binary32 := ⟨mul⟩

/-- Equality as the comparison of the format has it: the two zeros are equal, and a NaN is
equal to nothing. -/
def Equal (x y : Binary32) : Prop :=
  ¬ x.IsNaN ∧ ¬ y.IsNaN ∧ (x = y ∨ x = zero x.negative ∧ y = zero y.negative)

instance (x y : Binary32) : Decidable (x.Equal y) := inferInstanceAs (Decidable (_ ∧ _))

variable {x : Binary32}

theorem IsFinite.not_isNaN (h : x.IsFinite) : ¬ x.IsNaN := fun hnan ↦ h hnan.1

theorem IsFinite.neg (h : x.IsFinite) : (-x).IsFinite := h

theorem value_neg (x : Binary32) : (-x).value = -x.value := by
  have hmagnitude : (-x).magnitude = x.magnitude := rfl
  have hnegative : (-x).negative = !x.negative := rfl
  rw [value, value, hmagnitude, hnegative]
  cases x.negative <;> simp

theorem magnitude_nonneg (x : Binary32) : 0 ≤ x.magnitude := by
  rw [magnitude]
  positivity

theorem significand_ge (h : x.exponent ≠ 0) : 2 ^ 23 ≤ x.significand := by
  rw [significand, if_neg h]
  exact Nat.le_add_right _ _

theorem significand_lt (x : Binary32) : x.significand < 2 ^ (23 + min x.exponent.toNat 1) := by
  have hfraction := x.fraction.isLt
  rw [significand]
  split_ifs with h
  · rw [h]
    exact hfraction
  · have hpos : x.exponent.toNat ≠ 0 := fun hzero ↦ h (BitVec.eq_of_toNat_eq hzero)
    rw [Nat.min_eq_right (Nat.one_le_iff_ne_zero.mpr hpos)]
    omega

theorem log_magnitude_lt (h₀ : x.magnitude ≠ 0) :
    Int.log 2 x.magnitude < x.exponent.toNat - 126 := by
  have hsignificand : (x.significand : ℚ) < 2 ^ (23 + min x.exponent.toNat 1) := by
    exact_mod_cast x.significand_lt
  have hpower : 23 + min x.exponent.toNat 1 + (x.exponent.toNat - 1) = 23 + x.exponent.toNat := by
    omega
  refine (Int.lt_zpow_iff_log_lt (b := 2) (by norm_num)
    (lt_of_le_of_ne x.magnitude_nonneg h₀.symm)).mp ?_
  calc
    x.magnitude < 2 ^ (23 + min x.exponent.toNat 1) * 2 ^ (x.exponent.toNat - 1) / 2 ^ 149 := by
      rw [magnitude]
      gcongr
    _ = ((2 : ℕ) : ℚ) ^ ((x.exponent.toNat : ℤ) - 126) := by
      rw [← pow_add, hpower, zpow_sub₀ (by norm_num), zpow_natCast, pow_add]
      push_cast
      norm_num
      ring

theorem le_log_magnitude (h : x.exponent ≠ 0) :
    (x.exponent.toNat : ℤ) - 127 ≤ Int.log 2 x.magnitude := by
  obtain ⟨k, hk⟩ := Nat.exists_eq_succ_of_ne_zero
    fun hzero : x.exponent.toNat = 0 ↦ h (BitVec.eq_of_toNat_eq hzero)
  have hsignificand : (2 ^ 23 : ℚ) ≤ x.significand := by exact_mod_cast significand_ge h
  have hle : ((2 : ℕ) : ℚ) ^ ((x.exponent.toNat : ℤ) - 127) ≤ x.magnitude := by
    calc
      ((2 : ℕ) : ℚ) ^ ((x.exponent.toNat : ℤ) - 127) = 2 ^ 23 * 2 ^ k / 2 ^ 149 := by
        rw [hk, zpow_sub₀ (by norm_num), zpow_natCast, pow_succ]
        push_cast
        norm_num
        ring
      _ ≤ x.magnitude := by
        rw [magnitude, hk, Nat.succ_sub_one]
        gcongr
  have hpos : 0 < x.magnitude := (zpow_pos (by norm_num) _).trans_le hle
  exact (Int.zpow_le_iff_le_log (b := 2) (by norm_num) hpos).mp hle

/-- A finite number is the nearest to itself. -/
theorem exponent_eq_zero_iff : x.exponent = 0 ↔ x.exponent.toNat = 0 :=
  ⟨fun he ↦ by rw [he]; rfl, fun he ↦ BitVec.eq_of_toNat_eq he⟩

theorem exponent_add_significand : (x.exponent.toNat - 1) * 2 ^ 23 + x.significand =
    x.exponent.toNat * 2 ^ 23 + x.fraction.toNat := by
  rw [significand]
  split_ifs with he <;> rw [exponent_eq_zero_iff] at he <;> omega

theorem eq_zero_of_magnitude (h : x.magnitude = 0) : x = zero x.negative := by
  have hsignificand : x.significand = 0 := by
    by_contra hne
    have hpos : (0 : ℚ) < x.significand := by exact_mod_cast Nat.pos_of_ne_zero hne
    have hmagnitude : 0 < x.magnitude := by
      rw [magnitude]
      positivity
    exact hmagnitude.ne' h
  have hbits := x.exponent_add_significand
  have he : x.exponent = 0 := by rw [exponent_eq_zero_iff]; omega
  have hf : x.fraction = 0 := BitVec.eq_of_toNat_eq (by
    rw [hsignificand] at hbits
    exact (by omega : x.fraction.toNat = 0))
  rw [zero, ← he, ← hf]

theorem log_offset (h₀ : x.magnitude ≠ 0) :
    (Int.log 2 x.magnitude + 126).toNat = x.exponent.toNat - 1 := by
  have hlog := log_magnitude_lt h₀
  by_cases he : x.exponent = 0
  · have hz := exponent_eq_zero_iff.mp he
    omega
  · have hle := le_log_magnitude he
    omega

theorem round_magnitude (h : x.IsFinite) : round x.negative x.magnitude = x := by
  have hfraction := x.fraction.isLt
  have hexponent := x.exponent.isLt
  have hfinite : x.exponent.toNat ≠ 255 := fun he ↦ h (BitVec.eq_of_toNat_eq he)
  rw [round]
  split_ifs with h₀
  · exact (eq_zero_of_magnitude h₀).symm
  · have hdigits : x.magnitude * 2 ^ 149 / 2 ^ (x.exponent.toNat - 1) = ((x.significand : ℕ) : ℤ) := by
      rw [magnitude]
      push_cast
      field_simp
    dsimp only
    rw [log_offset h₀, hdigits, roundHalfEven_intCast, Int.toNat_natCast,
      exponent_add_significand, Nat.min_eq_left (by omega),
      show (x.exponent.toNat * 2 ^ 23 + x.fraction.toNat) / 2 ^ 23 = x.exponent.toNat by omega,
      BitVec.ofNat_toNat, BitVec.setWidth_eq]
    congr 1
    apply BitVec.eq_of_toNat_eq
    rw [BitVec.toNat_ofNat]
    omega

theorem round_value (h : x.IsFinite) (h₀ : x.value ≠ 0) :
    round (decide (x.value < 0)) |x.value| = x := by
  have hpos := x.magnitude_nonneg
  have hround := round_magnitude h
  rw [value] at h₀ ⊢
  cases hneg : x.negative with
  | false =>
    rw [hneg] at hround
    simp only [Bool.false_eq_true, if_false, abs_of_nonneg hpos, not_lt.mpr hpos, decide_false,
      hround]
  | true =>
    rw [hneg, if_pos rfl, neg_ne_zero] at h₀
    rw [hneg] at hround
    have hlt : -x.magnitude < 0 := neg_neg_of_pos (lt_of_le_of_ne hpos h₀.symm)
    simp only [if_true, abs_neg, abs_of_nonneg hpos, hlt, decide_true, hround]

theorem value_zero (negative : Bool) : (zero negative).value = 0 := by
  have hsignificand : (zero negative).significand = 0 := rfl
  rw [value, magnitude, hsignificand, Nat.cast_zero, zero_mul, zero_div, neg_zero, ite_self]

theorem eq_zero_of_value (h : x.IsFinite) (h₀ : x.value = 0) : x = zero x.negative := by
  have hmagnitude : x.magnitude = 0 := by
    rw [value] at h₀
    split_ifs at h₀
    · exact neg_eq_zero.mp h₀
    · exact h₀
  have hround := round_magnitude h
  rwa [hmagnitude, round, if_pos rfl, eq_comm] at hround

theorem sub_self_of_isFinite (h : x.IsFinite) : x - x = 0 := by
  have hsum : x.value + (-x).value = 0 := by rw [value_neg, add_neg_cancel]
  have hsign : (x.negative && (-x).negative) = false := Bool.and_not_self x.negative
  change add x (-x) = 0
  rw [add, if_neg (not_or.mpr ⟨h.not_isNaN, h.neg.not_isNaN⟩), if_pos h, if_pos h.neg]
  simp only [hsum, if_true, abs_zero, hsign]
  rfl

theorem add_zero_of_isFinite (h : x.IsFinite) :
    x + 0 = if x = zero x.negative then 0 else x := by
  have hzero : (0 : Binary32).IsFinite := by decide
  have hsum : x.value + (0 : Binary32).value = x.value := by
    rw [show (0 : Binary32).value = 0 from value_zero false, add_zero]
  have hsign : (x.negative && (0 : Binary32).negative) = false := Bool.and_false x.negative
  change add x 0 = _
  rw [add, if_neg (not_or.mpr ⟨h.not_isNaN, hzero.not_isNaN⟩), if_pos h, if_pos hzero]
  simp only [hsum, hsign]
  by_cases h₀ : x.value = 0
  · rw [if_pos (eq_zero_of_value h h₀), if_pos h₀, h₀, abs_zero]
    rfl
  · have hne : x ≠ zero x.negative := by
      intro hx
      apply h₀
      rw [hx]
      exact value_zero _
    rw [if_neg hne, if_neg h₀, round_value h h₀]

theorem nan_mul (x : Binary32) : x * nan = nan := by
  change mul x nan = nan
  rw [mul, if_pos (.inr (by decide))]

theorem add_nan (x : Binary32) : x + nan = nan := by
  change add x nan = nan
  rw [add, if_pos (.inr (by decide))]

theorem sub_self_of_not_isFinite (h : ¬ x.IsFinite) : x - x = nan := by
  change add x (-x) = nan
  have h' : ¬ (-x).IsFinite := h
  have hne : x ≠ -x := by
    intro hx
    have hsign : x.negative = !x.negative := congrArg negative hx
    cases hneg : x.negative <;> rw [hneg] at hsign <;> exact absurd hsign (by decide)
  rw [add]
  split_ifs with hnan <;> first | rfl | exact absurd ‹_› (not_or.mpr ⟨h', hne⟩)

/-- Nothing of the way from a number to itself added to it gives the number back, as a
number, just if it is finite. -/
theorem equal_interpolate_self (x : Binary32) :
    (x + ((0 : ℚ) : Binary32) * (x - x)).Equal x ↔ x.IsFinite := by
  constructor
  · intro hequal
    by_contra h
    rw [sub_self_of_not_isFinite h, nan_mul, add_nan] at hequal
    exact hequal.1 (by decide)
  · intro h
    have hproduct : ((0 : ℚ) : Binary32) * 0 = 0 := by decide +kernel
    rw [sub_self_of_isFinite h, hproduct, add_zero_of_isFinite h]
    split_ifs with hzero
    · exact ⟨by decide, h.not_isNaN, .inr ⟨rfl, hzero⟩⟩
    · exact ⟨h.not_isNaN, h.not_isNaN, .inl rfl⟩

end Binary32

end NumarkNS6.Foundation
