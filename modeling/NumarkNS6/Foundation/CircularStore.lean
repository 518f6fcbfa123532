import Mathlib.Data.List.Basic
import Mathlib.Data.Nat.ModEq
import Mathlib.Data.UInt
import Mathlib.Tactic.Linarith

namespace NumarkNS6.Foundation.CircularStore

variable {α : Type}

def splice (m : List α) (dst : ℕ) (xs : List α) : List α :=
  m.take dst ++ (xs ++ m.drop (dst + xs.length))

def slice (m : List α) (src n : ℕ) : List α := (m.drop src).take n

/-- Reading `m` circularly from position `p` on yields `xs`. -/
def Holds (m : List α) (p : ℕ) (xs : List α) : Prop :=
  ∀ i, i < xs.length → m[(p + i) % m.length]? = xs[i]?

theorem splice_length {m xs : List α} {dst : ℕ} (h : dst + xs.length ≤ m.length) :
    (splice m dst xs).length = m.length := by
  simp only [splice, List.length_append, List.length_take, List.length_drop]
  omega

theorem take_splice {m xs : List α} {dst : ℕ} (h : dst ≤ m.length) :
    (splice m dst xs).take (dst + xs.length) = m.take dst ++ xs := by
  have hlen : (m.take dst ++ xs).length = dst + xs.length := by
    rw [List.length_append, List.length_take, Nat.min_eq_left h]
  rw [splice, ← List.append_assoc, List.take_left' hlen]

theorem getElem?_splice {m xs : List α} {dst : ℕ} (h : dst + xs.length ≤ m.length) (i : ℕ) :
    (splice m dst xs)[i]? = if dst ≤ i ∧ i < dst + xs.length then xs[i - dst]? else m[i]? := by
  have hd : (m.take dst).length = dst := by rw [List.length_take]; omega
  by_cases h₀ : i < dst
  · rw [splice, List.getElem?_append_left (by omega), List.getElem?_take_of_lt h₀,
      if_neg (by omega)]
  · rw [splice, List.getElem?_append_right (by omega), hd]
    by_cases h₁ : i < dst + xs.length
    · rw [List.getElem?_append_left (by omega), if_pos ⟨by omega, h₁⟩]
    · rw [List.getElem?_append_right (by omega), List.getElem?_drop, if_neg (by omega)]
      congr 1
      omega

theorem slice_append_left {xs ys : List α} {p n : ℕ} (h : p + n ≤ xs.length) :
    slice (xs ++ ys) p n = slice xs p n := by
  rw [slice, slice, List.drop_append_of_le_length (by omega),
    List.take_append_of_le_length (by rw [List.length_drop]; omega)]

theorem slice_add (xs : List α) (p m n : ℕ) :
    slice xs p (m + n) = slice xs p m ++ slice xs (p + m) n := by
  rw [slice, slice, slice, List.take_add, List.drop_drop]

theorem slice_flatten {blocks : List (List α)} {n : ℕ} (h : ∀ b ∈ blocks, b.length = n) {g : ℕ}
    {block : List α} (hg : blocks[g]? = some block) : slice blocks.flatten (n * g) n = block := by
  induction blocks generalizing g with
  | nil => cases hg
  | cons b blocks ih =>
    obtain ⟨hb, hrest⟩ := List.forall_mem_cons.mp h
    cases g with
    | zero =>
      cases hg
      rw [slice, List.flatten_cons, Nat.mul_zero, List.drop_zero, List.take_left' hb]
    | succ g =>
      rw [← ih hrest hg, slice, slice, List.flatten_cons, Nat.mul_succ, Nat.add_comm, ← hb,
        List.drop_length_add_append]

theorem slice_splice_disjoint {m xs : List α} {dst p n : ℕ} (h : dst + xs.length ≤ m.length)
    (hdisj : p + n ≤ dst ∨ dst + xs.length ≤ p) : slice (splice m dst xs) p n = slice m p n := by
  apply List.ext_getElem?
  intro i
  by_cases hi : i < n
  · rw [slice, slice, List.getElem?_take_of_lt hi, List.getElem?_take_of_lt hi, List.getElem?_drop,
      List.getElem?_drop, getElem?_splice h, if_neg (by omega)]
  · rw [List.getElem?_eq_none (by rw [slice, List.length_take]; omega),
      List.getElem?_eq_none (by rw [slice, List.length_take]; omega)]

theorem Holds.nil (m : List α) (p : ℕ) : Holds m p [] := fun _ h ↦ by simp at h

theorem holds_append {m xs ys : List α} {p : ℕ} :
    Holds m p (xs ++ ys) ↔ Holds m p xs ∧ Holds m (p + xs.length) ys := by
  constructor
  · intro h
    refine ⟨fun i hi ↦ ?_, fun i hi ↦ ?_⟩
    · rw [h i (by simp only [List.length_append]; omega), List.getElem?_append_left hi]
    · rw [Nat.add_assoc, h (xs.length + i) (by simp only [List.length_append]; omega),
        List.getElem?_append_right (by omega), Nat.add_sub_cancel_left]
  · rintro ⟨h₁, h₂⟩ i hi
    by_cases hx : i < xs.length
    · rw [h₁ i hx, List.getElem?_append_left hx]
    · have hi' : i - xs.length < ys.length := by
        simp only [List.length_append] at hi
        omega
      rw [List.getElem?_append_right (by omega), ← h₂ _ hi', Nat.add_assoc,
        Nat.add_sub_cancel' (by omega)]

theorem Holds.take {m xs : List α} {p : ℕ} (h : Holds m p xs) (n : ℕ) :
    Holds m p (xs.take n) :=
  (holds_append.mp (by rwa [List.take_append_drop])).1

theorem Holds.drop {m xs : List α} {p n : ℕ} (h : Holds m p xs) (hn : n ≤ xs.length) :
    Holds m (p + n) (xs.drop n) := by
  have hsplit : Holds m p (xs.take n ++ xs.drop n) := by rwa [List.take_append_drop]
  have h' := (holds_append.mp hsplit).2
  rwa [List.length_take, Nat.min_eq_left hn] at h'

theorem Holds.shift {m xs : List α} {p q : ℕ} (h : Holds m p xs)
    (hpq : p % m.length = q % m.length) : Holds m q xs := by
  intro i hi
  rw [← h i hi, Nat.add_mod q, ← hpq, ← Nat.add_mod]

theorem holds_splice_new {m xs : List α} {p : ℕ} (h : p % m.length + xs.length ≤ m.length) :
    Holds (splice m (p % m.length) xs) p xs := by
  intro i hi
  have hm : (p + i) % m.length = p % m.length + i := by
    rw [Nat.add_mod, Nat.mod_eq_of_lt (show i < m.length by omega), Nat.mod_eq_of_lt (by omega)]
  rw [splice_length h, hm, getElem?_splice h, if_pos ⟨by omega, by omega⟩,
    Nat.add_sub_cancel_left]

/-- A copy to later circular positions leaves earlier contents alone, as
long as the two together fit into the store. -/
theorem Holds.splice_old {m xs ys : List α} {p q : ℕ} (h : Holds m q ys)
    (hfit : p % m.length + xs.length ≤ m.length) (hqp : q + ys.length ≤ p)
    (hpq : p + xs.length ≤ q + m.length) : Holds (splice m (p % m.length) xs) q ys := by
  intro i hi
  rw [splice_length hfit, getElem?_splice hfit, if_neg, h i hi]
  rintro ⟨h₁, h₂⟩
  obtain ⟨j, hj⟩ := Nat.exists_eq_add_of_le h₁
  have hpos : 0 < m.length := by omega
  have hpj : (p + j) % m.length = (q + i) % m.length := by
    rw [Nat.add_mod, Nat.mod_eq_of_lt (show j < m.length by omega), Nat.mod_eq_of_lt (by omega), hj]
  have hmod : (q + i) ≡ (p + j) [MOD m.length] := hpj.symm
  have hdvd := (Nat.modEq_iff_dvd' (by omega)).mp hmod
  have hle := Nat.le_of_dvd (by omega) hdvd
  omega

theorem Holds.slice_eq {m xs : List α} {p : ℕ} (h : Holds m p xs)
    (hfit : p % m.length + xs.length ≤ m.length) : slice m (p % m.length) xs.length = xs := by
  apply List.ext_getElem?
  intro i
  by_cases hi : i < xs.length
  · have hm : (p + i) % m.length = p % m.length + i := by
      rw [Nat.add_mod, Nat.mod_eq_of_lt (show i < m.length by omega), Nat.mod_eq_of_lt (by omega)]
    rw [slice, List.getElem?_take_of_lt hi, List.getElem?_drop, ← h i hi, hm]
  · rw [List.getElem?_eq_none (by rw [slice, List.length_take]; omega),
      List.getElem?_eq_none (by omega)]

theorem ofNat_add_word (a : ℕ) (n : UInt32) : UInt32.ofNat a + n = UInt32.ofNat (a + n.toNat) := by
  rw [UInt32.ofNat_add, UInt32.ofNat_toNat]

/-- Two free-running counters that are less than one word apart have their
true distance as wrapped difference. -/
theorem toNat_distance {a b : ℕ} (hab : a ≤ b) (h : b - a < 2 ^ 32) :
    (UInt32.ofNat b - UInt32.ofNat a).toNat = b - a := by
  rw [UInt32.toNat_sub, UInt32.toNat_ofNat', UInt32.toNat_ofNat']
  omega

/-- The slot of a free-running counter is the slot of the unbounded counter
exactly because the wrap is a whole number of laps. -/
theorem toNat_slot {c : UInt32} (hc : c.toNat ∣ 2 ^ 32) (n : ℕ) :
    (UInt32.ofNat n % c).toNat = n % c.toNat := by
  rw [UInt32.toNat_mod, UInt32.toNat_ofNat', Nat.mod_mod_of_dvd _ hc]

end NumarkNS6.Foundation.CircularStore
