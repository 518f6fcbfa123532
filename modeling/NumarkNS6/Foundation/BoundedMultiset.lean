import Mathlib.Data.Finset.Card
import Mathlib.Data.Multiset.Filter
import Mathlib.Data.Multiset.Count

namespace NumarkNS6.Foundation

/-- A multiset with at most `copies` copies of an element and at most `kinds`
different elements. -/
@[ext]
structure BoundedMultiset (α : Type) [DecidableEq α] (copies kinds : ℕ) where
  elems : Multiset α
  copies_le : ∀ a, elems.count a ≤ copies
  kinds_le : elems.toFinset.card ≤ kinds

namespace BoundedMultiset

variable {α : Type} [DecidableEq α] {copies kinds : ℕ}

def empty : BoundedMultiset α copies kinds := ⟨0, by simp, by simp⟩

def Full (m : BoundedMultiset α copies kinds) (a : α) : Prop :=
  m.elems.count a = copies ∨ (m.elems.toFinset.erase a).card = kinds

instance (m : BoundedMultiset α copies kinds) (a : α) : Decidable (m.Full a) :=
  inferInstanceAs (Decidable (_ ∨ _))

variable (m : BoundedMultiset α copies kinds)

def add (a : α) (h : ¬ m.Full a) : BoundedMultiset α copies kinds where
  elems := a ::ₘ m.elems
  copies_le b := by
    have hb := m.copies_le b
    rw [Multiset.count_cons]
    split_ifs with he
    · have hne : m.elems.count a ≠ copies := fun hc ↦ h (.inl hc)
      rw [he] at hb ⊢
      omega
    · exact hb
  kinds_le := by
    have hle := (Finset.card_le_card (m.elems.toFinset.erase_subset a)).trans m.kinds_le
    have hne : (m.elems.toFinset.erase a).card ≠ kinds := fun hk ↦ h (.inr hk)
    have hinsert : (a ::ₘ m.elems).toFinset = insert a (m.elems.toFinset.erase a) := by
      ext b
      by_cases hb : b = a <;> simp [hb]
    have hcard := Finset.card_insert_le a (m.elems.toFinset.erase a)
    rw [hinsert]
    omega

def shrink (rest : Multiset α) (h : rest ≤ m.elems) : BoundedMultiset α copies kinds where
  elems := rest
  copies_le a := (Multiset.count_le_of_le a h).trans (m.copies_le a)
  kinds_le := (Finset.card_le_card (Multiset.toFinset_subset.mpr (Multiset.subset_of_le h))).trans
    m.kinds_le

def remove (a : α) : BoundedMultiset α copies kinds :=
  m.shrink (m.elems.erase a) (Multiset.erase_le a m.elems)

def removeAll (a : α) : BoundedMultiset α copies kinds :=
  m.shrink (m.elems.filter (· ≠ a)) (Multiset.filter_le _ _)

end BoundedMultiset

end NumarkNS6.Foundation
