import Mathlib.Data.List.Basic

namespace NumarkNS6.Foundation.Packing

variable {α : Type} {capacity : ℕ}

/-- Items packed in order into bins: the bins that are closed and the one being filled. -/
structure Bins (α : Type) where
  closed : List (List (List α))
  opened : List (List α)

namespace Bins

variable {b : Bins α} {item : List α}

def items (b : Bins α) : List (List α) := b.closed.flatten ++ b.opened

def close (b : Bins α) : Bins α :=
  if b.opened.flatten = [] then b else ⟨b.closed ++ [b.opened], []⟩

def place (capacity : ℕ) (b : Bins α) (item : List α) : Bins α :=
  if b.opened.flatten.length + item.length > capacity then ⟨b.close.closed, [item]⟩
  else ⟨b.closed, b.opened ++ [item]⟩

/-- No item and no closed bin is empty, and no bin holds more than its capacity. -/
structure Fits (capacity : ℕ) (b : Bins α) : Prop where
  items : ∀ item ∈ b.items, item ≠ []
  closed : ∀ bin ∈ b.closed, bin.flatten ≠ [] ∧ bin.flatten.length ≤ capacity
  opened : b.opened.flatten.length ≤ capacity

theorem Fits.opened_eq_nil (h : Fits capacity b) (he : b.opened.flatten = []) : b.opened = [] := by
  refine List.eq_nil_iff_forall_not_mem.mpr fun item hitem ↦ ?_
  exact h.items item (List.mem_append_right _ hitem) (List.flatten_eq_nil_iff.mp he item hitem)

theorem Fits.close_eq (h : Fits capacity b) :
    b.close.opened = [] ∧ b.close.items = b.items ∧ Fits capacity b.close := by
  rw [close]
  split
  · next he => exact ⟨h.opened_eq_nil he, rfl, h⟩
  · next hne =>
    have hitems : (⟨b.closed ++ [b.opened], []⟩ : Bins α).items = b.items := by simp [Bins.items]
    refine ⟨rfl, hitems, hitems ▸ h.items, ?_, Nat.zero_le _⟩
    exact List.forall_mem_append.mpr ⟨h.closed, List.forall_mem_singleton.mpr ⟨hne, h.opened⟩⟩

theorem Fits.place (h : Fits capacity b) (hne : item ≠ []) (hle : item.length ≤ capacity) :
    (place capacity b item).items = b.items ++ [item] ∧ Fits capacity (place capacity b item) := by
  have hitems : (Bins.place capacity b item).items = b.items ++ [item] := by
    rw [Bins.place]
    split
    · rw [← h.close_eq.2.1, Bins.items, Bins.items, h.close_eq.1, List.append_nil]
    · simp [Bins.items]
  refine ⟨hitems, ?_, ?_, ?_⟩
  · rw [hitems]
    exact List.forall_mem_append.mpr ⟨h.items, List.forall_mem_singleton.mpr hne⟩
  · rw [Bins.place]
    split
    · exact h.close_eq.2.2.closed
    · exact h.closed
  · rw [Bins.place]
    split
    · simpa using hle
    · next hroom => simpa using hroom

theorem Fits.place_all {xs : List (List α)} (h : Fits capacity b)
    (hxs : ∀ x ∈ xs, x ≠ [] ∧ x.length ≤ capacity) :
    (xs.foldl (Bins.place capacity) b).items = b.items ++ xs := by
  induction xs generalizing b with
  | nil => exact (List.append_nil _).symm
  | cons x xs ih =>
    obtain ⟨⟨hne, hle⟩, hrest⟩ := List.forall_mem_cons.mp hxs
    obtain ⟨hitems, hfits⟩ := h.place hne hle
    rw [List.foldl_cons, ih hfits hrest, hitems, List.append_assoc, List.singleton_append]

end Bins

/-- A concatenation cut off after `k` items is made of whole parts exactly when
nothing is cut or the cut falls between two parts. -/
theorem take_flatMap_whole_iff {β : Type} (f : β → List α) (parts : List β) (k : ℕ) :
    (∃ n, (parts.flatMap f).take k = (parts.take n).flatMap f) ↔
      (parts.flatMap f).length ≤ k ∨ ∃ n, ((parts.take n).flatMap f).length = k := by
  constructor
  · rintro ⟨n, hn⟩
    by_cases hfit : (parts.flatMap f).length ≤ k
    · exact .inl hfit
    · refine .inr ⟨n, ?_⟩
      rw [← hn, List.length_take]
      omega
  · rintro (hfit | ⟨n, hn⟩)
    · exact ⟨parts.length, by rw [List.take_length, List.take_of_length_le hfit]⟩
    · refine ⟨n, ?_⟩
      have hsplit : parts.flatMap f = (parts.take n).flatMap f ++ (parts.drop n).flatMap f := by
        rw [← List.flatMap_append, List.take_append_drop]
      rw [hsplit, ← hn, List.take_left]

end NumarkNS6.Foundation.Packing
