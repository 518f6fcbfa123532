import Mathlib.Algebra.BigOperators.Group.Multiset.Basic
import Mathlib.Algebra.Order.Group.Multiset
import Mathlib.Algebra.Ring.Nat
import Mathlib.Data.Finset.Card
import Mathlib.Data.Finset.Lattice.Lemmas
import Mathlib.Data.Multiset.Filter

namespace NumarkNS6.Foundation.SlotBag

variable {α κ : Type} (key : α → κ) (count : α → ℕ)

/-- The multiset kept by a table of counted slots. -/
def bag (slots : List α) : Multiset κ :=
  (slots.map fun a ↦ Multiset.replicate (count a) (key a)).sum

def Separated (slots : List α) : Prop :=
  ∀ (i j : ℕ) (a b : α), slots[i]? = some a → slots[j]? = some b →
    count a ≠ 0 → count b ≠ 0 → key a = key b → i = j

variable {key count} {slots : List α} {i : ℕ} {a b : α}

theorem card_bag : (bag key count slots).card = (slots.map count).sum := by
  induction slots with
  | nil => rfl
  | cons a slots ih =>
    rw [bag, List.map_cons, List.sum_cons, Multiset.card_add, Multiset.card_replicate,
      List.map_cons, List.sum_cons, ← ih, bag]

theorem mem_bag {k : κ} : k ∈ bag key count slots ↔
    ∃ (i : ℕ) (a : α), slots[i]? = some a ∧ count a ≠ 0 ∧ key a = k := by
  have h : k ∈ bag key count slots ↔ ∃ a ∈ slots, count a ≠ 0 ∧ key a = k := by
    induction slots with
    | nil => simp [bag]
    | cons a slots ih =>
      rw [bag, List.map_cons, List.sum_cons, Multiset.mem_add, Multiset.mem_replicate, ← bag, ih]
      simp [eq_comm]
  rw [h]
  constructor
  · rintro ⟨a, ha, hc, hk⟩
    obtain ⟨i, hi⟩ := List.mem_iff_getElem?.mp ha
    exact ⟨i, a, hi, hc, hk⟩
  · rintro ⟨i, a, hi, hc, hk⟩
    exact ⟨a, List.mem_of_getElem? hi, hc, hk⟩

theorem bag_set (h : slots[i]? = some a) (b : α) :
    bag key count (slots.set i b) + Multiset.replicate (count a) (key a) =
      bag key count slots + Multiset.replicate (count b) (key b) := by
  induction slots generalizing i with
  | nil => cases h
  | cons c slots ih =>
    cases i with
    | zero =>
      cases h
      simp only [List.set_cons_zero, bag, List.map_cons, List.sum_cons]
      ac_rfl
    | succ i =>
      have hrest := ih h
      simp only [bag] at hrest
      simp only [List.set_cons_succ, bag, List.map_cons, List.sum_cons, add_assoc, hrest]

theorem le_count_bag [DecidableEq κ] (h : slots[i]? = some a) :
    count a ≤ (bag key count slots).count (key a) := by
  induction slots generalizing i with
  | nil => cases h
  | cons c slots ih =>
    rw [bag, List.map_cons, List.sum_cons, Multiset.count_add, ← bag]
    cases i with
    | zero =>
      cases h
      rw [Multiset.count_replicate_self]
      exact Nat.le_add_right _ _
    | succ i => exact (ih h).trans (Nat.le_add_left _ _)

theorem count_bag_of_nodup [DecidableEq κ] (h : (slots.map key).Nodup) (ha : a ∈ slots) :
    (bag key count slots).count (key a) = count a := by
  induction slots with
  | nil => cases ha
  | cons b slots ih =>
    obtain ⟨hnew, hrest⟩ := List.nodup_cons.mp h
    rw [bag, List.map_cons, List.sum_cons, Multiset.count_add, ← bag]
    rcases List.mem_cons.mp ha with rfl | ha
    · have hnot : key a ∉ bag key count slots := by
        rw [mem_bag]
        rintro ⟨i, c, hc, -, hkey⟩
        exact hnew (hkey ▸ List.mem_map_of_mem (List.mem_of_getElem? hc))
      rw [Multiset.count_replicate_self, Multiset.count_eq_zero.mpr hnot, add_zero]
    · have hne : key b ≠ key a := fun he ↦ hnew (he ▸ List.mem_map_of_mem ha)
      rw [ih hrest ha, Multiset.count_replicate, if_neg hne, zero_add]

theorem bag_clear (hi : slots[i]? = some a) (hb : count b = 0) :
    bag key count (slots.set i b) + Multiset.replicate (count a) (key a) =
      bag key count slots := by
  rw [bag_set hi b, hb, Multiset.replicate_zero, add_zero]

theorem getElem?_set_cases {j : ℕ} {c : α} (h : (slots.set i b)[j]? = some c) :
    j = i ∧ c = b ∨ j ≠ i ∧ slots[j]? = some c := by
  rcases eq_or_ne j i with rfl | hj
  · rw [List.getElem?_set_self', Option.map_eq_map, Option.map_eq_some_iff] at h
    obtain ⟨_, _, rfl⟩ := h
    exact .inl ⟨rfl, rfl⟩
  · rw [List.getElem?_set_ne hj.symm] at h
    exact .inr ⟨hj, h⟩

theorem Separated.set (h : Separated key count slots)
    (hb : count b ≠ 0 → ∀ (j : ℕ) (c : α), slots[j]? = some c → count c ≠ 0 → key c = key b → j = i) :
    Separated key count (slots.set i b) := by
  intro j k c d hc hd hc₀ hd₀ hkey
  rcases getElem?_set_cases hc with ⟨hj, rfl⟩ | ⟨hj, hc'⟩ <;>
    rcases getElem?_set_cases hd with ⟨hk, rfl⟩ | ⟨hk, hd'⟩
  · exact hj.trans hk.symm
  · exact absurd (hb hc₀ k d hd' hd₀ hkey.symm) hk
  · exact absurd (hb hd₀ j c hc' hc₀ hkey) hj
  · exact h j k c d hc' hd' hc₀ hd₀ hkey

theorem Separated.tail {slots : List α} (h : Separated key count (a :: slots)) :
    Separated key count slots := by
  intro i j b c hb hc hb₀ hc₀ hkey
  exact Nat.succ.inj (h (i + 1) (j + 1) b c hb hc hb₀ hc₀ hkey)

theorem Separated.head {slots : List α} (h : Separated key count (a :: slots)) (ha : count a ≠ 0) :
    key a ∉ bag key count slots := by
  rw [mem_bag]
  rintro ⟨i, b, hb, hb₀, hkey⟩
  cases h 0 (i + 1) a b rfl hb ha hb₀ hkey.symm

theorem Separated.card_toFinset [DecidableEq κ] {slots : List α} (h : Separated key count slots) :
    (bag key count slots).toFinset.card = slots.countP (count · ≠ 0) := by
  induction slots with
  | nil => rfl
  | cons a slots ih =>
    have hcons : bag key count (a :: slots) =
        Multiset.replicate (count a) (key a) + bag key count slots := rfl
    by_cases ha : count a = 0
    · rw [hcons, ha, Multiset.replicate_zero, zero_add, ih h.tail,
        List.countP_cons_of_neg (by simpa using ha)]
    · have hnew : key a ∉ (bag key count slots).toFinset := by
        rw [Multiset.mem_toFinset]
        exact h.head ha
      rw [hcons, Multiset.toFinset_add, Multiset.toFinset_replicate, if_neg ha,
        Finset.singleton_union, Finset.card_insert_of_notMem hnew, ih h.tail,
        List.countP_cons_of_pos (by simpa using ha)]

section Clear

variable (h : Separated key count slots) (hi : slots[i]? = some a) (ha : count a ≠ 0)
  (hb : count b = 0)
include h hi ha hb

theorem Separated.not_mem_clear : key a ∉ bag key count (slots.set i b) := by
  rw [mem_bag]
  rintro ⟨j, c, hc, hc₀, hkey⟩
  rcases getElem?_set_cases hc with ⟨-, rfl⟩ | ⟨hj, hc⟩
  · exact hc₀ hb
  · exact hj (h j i c a hc hi hc₀ ha hkey)

theorem Separated.bag_clear [DecidableEq κ] :
    bag key count (slots.set i b) = (bag key count slots).filter (· ≠ key a) := by
  have hrest : ∀ k ∈ bag key count (slots.set i b), k ≠ key a := by
    intro k hk hkey
    exact h.not_mem_clear hi ha hb (hkey ▸ hk)
  have hgone : ∀ k ∈ Multiset.replicate (count a) (key a), ¬ k ≠ key a := by
    intro k hk
    exact not_not.2 (Multiset.eq_of_mem_replicate hk)
  rw [← SlotBag.bag_clear hi hb, Multiset.filter_add, Multiset.filter_eq_self.2 hrest,
    Multiset.filter_eq_nil.2 hgone, add_zero]

theorem Separated.count_bag [DecidableEq κ] : (bag key count slots).count (key a) = count a := by
  rw [← SlotBag.bag_clear hi hb, Multiset.count_add,
    Multiset.count_eq_zero.2 (h.not_mem_clear hi ha hb), Multiset.count_replicate_self, zero_add]

end Clear

end NumarkNS6.Foundation.SlotBag
