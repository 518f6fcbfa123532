import Mathlib.Data.Nat.Bitwise

namespace NumarkNS6.Foundation.BitLanes

/-- The number whose `n` bits come in one by one, the most significant first. -/
def ofBits (bit : ℕ → Bool) : ℕ → ℕ
  | 0 => 0
  | n + 1 => Nat.bit (bit n) (ofBits bit n)

variable {bit bit' : ℕ → Bool} {n : ℕ}

theorem ofBits_lt (bit : ℕ → Bool) (n : ℕ) : ofBits bit n < 2 ^ n := by
  induction n with
  | zero => exact Nat.one_pos
  | succ n ih =>
    have hb := Bool.toNat_le (bit n)
    rw [ofBits, Nat.bit_val, Nat.pow_succ]
    omega

theorem ofBits_congr (h : ∀ i < n, bit i = bit' i) : ofBits bit n = ofBits bit' n := by
  induction n with
  | zero => rfl
  | succ n ih => rw [ofBits, ofBits, h n (Nat.lt_succ_self n), ih fun i hi ↦ h i (by omega)]

theorem testBit_ofBits {i : ℕ} (hi : i < n) : (ofBits bit n).testBit (n - 1 - i) = bit i := by
  induction n with
  | zero => exact absurd hi (Nat.not_lt_zero i)
  | succ n ih =>
    obtain hlt | rfl := Nat.lt_succ_iff_lt_or_eq.mp hi
    · have hpos : n + 1 - 1 - i = n - 1 - i + 1 := by omega
      rw [ofBits, hpos, Nat.testBit_bit_succ, ih hlt]
    · rw [ofBits, Nat.add_sub_cancel, Nat.sub_self, Nat.testBit_bit_zero]

theorem getMsbD_ofBits {i : ℕ} (hi : i < n) :
    (BitVec.ofNat n (ofBits bit n)).getMsbD i = bit i := by
  rw [BitVec.getMsbD, BitVec.getLsbD_ofNat, testBit_ofBits hi]
  simp only [hi, decide_true, Bool.true_and, Bool.and_eq_right_iff_imp, decide_eq_true_eq]
  intro
  omega

theorem toNat_shift_or {value : UInt32} (h : value.toNat < 2 ^ 31) (byte : UInt8) :
    ((value <<< 1) ||| (byte.toUInt32 &&& 1)).toNat =
      Nat.bit (byte.toNat.testBit 0) value.toNat := by
  have hshift : (value <<< 1).toNat = value.toNat <<< 1 := by
    rw [UInt32.toNat_shiftLeft]
    exact Nat.mod_eq_of_lt (by rw [Nat.shiftLeft_eq]; exact (show value.toNat * 2 < 2 ^ 32 by omega))
  have hbit : (byte.toUInt32 &&& 1).toNat = byte.toNat % 2 := by
    rw [UInt32.toNat_and, UInt8.toNat_toUInt32]
    exact Nat.and_one_is_mod _
  rw [UInt32.toNat_or, hshift, hbit, ← Nat.shiftLeft_add_eq_or_of_lt (Nat.mod_lt _ Nat.two_pos),
    Nat.bit_val, Nat.toNat_testBit, Nat.shiftLeft_eq]
  omega

theorem foldl_shift_or (byte : ℕ → UInt8) (hn : n ≤ 32) :
    ((List.range n).foldl (fun (value : UInt32) i ↦ (value <<< 1) ||| ((byte i).toUInt32 &&& 1))
      0).toNat = ofBits (fun i ↦ (byte i).toNat.testBit 0) n := by
  induction n with
  | zero => rfl
  | succ n ih =>
    have hvalue := ih (by omega)
    rw [List.range_succ, List.foldl_append, List.foldl_cons, List.foldl_nil, toNat_shift_or, hvalue]
    · rfl
    · rw [hvalue]
      exact (ofBits_lt _ n).trans_le (Nat.pow_le_pow_right Nat.two_pos (by omega))

theorem and_top_ne_zero_iff {value : ℕ} (h : value < 2 ^ (n + 1)) :
    value &&& 2 ^ n ≠ 0 ↔ 2 ^ n ≤ value := by
  rw [Nat.and_two_pow]
  by_cases hle : 2 ^ n ≤ value
  · simp [hle, Nat.testBit_of_two_pow_le_and_two_pow_add_one_gt hle h]
  · simp [hle, Nat.testBit_lt_two_pow (not_le.mp hle)]

section Records

variable {α : Type} {record : ℕ → List α} {width : ℕ} (hwidth : ∀ i, (record i).length = width)
include hwidth

theorem length_flatMap_range (n : ℕ) : ((List.range n).flatMap record).length = width * n := by
  induction n with
  | zero => rfl
  | succ n ih =>
    rw [List.range_succ, List.flatMap_append, List.flatMap_singleton, List.length_append, ih, hwidth,
      Nat.mul_succ]

theorem getElem?_flatMap_range {i c : ℕ} (hi : i < n) (hc : c < width) :
    ((List.range n).flatMap record)[width * i + c]? = (record i)[c]? := by
  have hlength := length_flatMap_range hwidth
  induction n with
  | zero => exact absurd hi (Nat.not_lt_zero i)
  | succ n ih =>
    rw [List.range_succ, List.flatMap_append, List.flatMap_singleton]
    obtain hlt | rfl := Nat.lt_succ_iff_lt_or_eq.mp hi
    · have hle := Nat.mul_le_mul_left width (Nat.succ_le_of_lt hlt)
      rw [Nat.mul_succ] at hle
      rw [List.getElem?_append_left (by rw [hlength]; omega), ih hlt]
    · rw [List.getElem?_append_right (by rw [hlength]; omega), hlength, Nat.add_sub_cancel_left]

end Records

end NumarkNS6.Foundation.BitLanes
