import Mathlib.Data.List.Forall2
import Mathlib.Data.List.Nodup
import Mathlib.Data.List.Perm.Basic

namespace NumarkNS6.Foundation.KeyedSlots

variable {α β κ : Type} {p : α → Bool} {f : α → α} {slots slots' : List α}

def updateFirst (p : α → Bool) (f : α → α) : List α → Option (List α)
  | [] => none
  | a :: slots => if p a then some (f a :: slots) else (updateFirst p f slots).map (a :: ·)

theorem updateFirst_eq_none_iff : updateFirst p f slots = none ↔ ∀ a ∈ slots, ¬ p a := by
  induction slots with
  | nil => exact iff_of_true rfl fun _ h ↦ absurd h List.not_mem_nil
  | cons a slots ih =>
    rw [updateFirst, List.forall_mem_cons, ← ih]
    split_ifs with ha
    · exact iff_of_false (by simp) fun h ↦ h.1 ha
    · rw [Option.map_eq_none_iff]
      exact ⟨fun h ↦ ⟨ha, h⟩, fun h ↦ h.2⟩

theorem updateFirst_split (h : updateFirst p f slots = some slots') :
    ∃ before a after, slots = before ++ a :: after ∧ p a ∧ slots' = before ++ f a :: after := by
  induction slots generalizing slots' with
  | nil => cases h
  | cons a slots ih =>
    rw [updateFirst] at h
    split_ifs at h with ha
    · cases h
      exact ⟨[], a, slots, rfl, ha, rfl⟩
    · obtain ⟨rest, hrest, rfl⟩ := Option.map_eq_some_iff.mp h
      obtain ⟨before, b, after, rfl, hb, rfl⟩ := ih hrest
      exact ⟨a :: before, b, after, rfl, hb, rfl⟩

theorem length_updateFirst (h : updateFirst p f slots = some slots') :
    slots'.length = slots.length := by
  obtain ⟨before, a, after, rfl, -, rfl⟩ := updateFirst_split h
  rw [List.length_append, List.length_append]
  rfl

theorem map_updateFirst {g : α → β} (h : updateFirst p f slots = some slots')
    (hg : ∀ a, p a → g (f a) = g a) : slots'.map g = slots.map g := by
  obtain ⟨before, a, after, rfl, ha, rfl⟩ := updateFirst_split h
  rw [List.map_append, List.map_append, List.map_cons, List.map_cons, hg a ha]

theorem find?_updateFirst (h : updateFirst p f slots = some slots') (hf : ∀ a, p a → p (f a)) :
    slots'.find? p = (slots.find? p).map f := by
  induction slots generalizing slots' with
  | nil => cases h
  | cons a slots ih =>
    rw [updateFirst] at h
    split_ifs at h with ha
    · cases h
      rw [List.find?_cons_of_pos ha, List.find?_cons_of_pos (hf a ha), Option.map_some]
    · obtain ⟨rest, hrest, rfl⟩ := Option.map_eq_some_iff.mp h
      rw [List.find?_cons_of_neg ha, List.find?_cons_of_neg ha]
      exact ih hrest

variable {key : α → Option κ}

/-- No two slots in use have the same key. -/
def Distinct (key : α → Option κ) (slots : List α) : Prop := (slots.filterMap key).Nodup

def Shrinks (key : α → Option κ) (slots' slots : List α) : Prop :=
  List.Forall₂ (fun b a ↦ key b = none ∨ key b = key a) slots' slots

theorem Shrinks.sublist (h : Shrinks key slots' slots) :
    (slots'.filterMap key).Sublist (slots.filterMap key) := by
  induction h with
  | nil => exact .slnil
  | @cons b a slots' slots hba _ ih =>
    rcases hba with hb | hb
    · rw [List.filterMap_cons_none hb]
      cases ha : key a with
      | none => rw [List.filterMap_cons_none ha]; exact ih
      | some k => rw [List.filterMap_cons_some ha]; exact ih.cons k
    · cases ha : key a with
      | none =>
        rw [List.filterMap_cons_none ha, List.filterMap_cons_none (hb.trans ha)]
        exact ih
      | some k =>
        rw [List.filterMap_cons_some ha, List.filterMap_cons_some (hb.trans ha)]
        exact ih.cons_cons k

theorem Distinct.shrink (h : Distinct key slots) (hs : Shrinks key slots' slots) :
    Distinct key slots' := List.Nodup.sublist hs.sublist h

theorem shrinks_map {g : α → α} (hg : ∀ a, key (g a) = none ∨ key (g a) = key a) :
    Shrinks key (slots.map g) slots := by
  induction slots with
  | nil => exact .nil
  | cons a slots ih => exact .cons (hg a) ih

theorem shrinks_updateFirst (h : updateFirst p f slots = some slots')
    (hf : ∀ a, p a → key (f a) = none ∨ key (f a) = key a) : Shrinks key slots' slots := by
  induction slots generalizing slots' with
  | nil => cases h
  | cons a slots ih =>
    have hsame (slots : List α) : Shrinks key slots slots :=
      List.forall₂_same.mpr fun b _ ↦ .inr rfl
    rw [updateFirst] at h
    split_ifs at h with ha
    · cases h
      exact .cons (hf a ha) (hsame slots)
    · obtain ⟨rest, hrest, rfl⟩ := Option.map_eq_some_iff.mp h
      exact .cons (.inr rfl) (ih hrest)

theorem Distinct.enter {k : κ} (h : Distinct key slots)
    (hs : updateFirst p f slots = some slots') (hfree : ∀ a, p a → key a = none)
    (hkey : ∀ a, key (f a) = some k) (hnew : ∀ a ∈ slots, key a ≠ some k) :
    Distinct key slots' := by
  obtain ⟨before, a, after, rfl, ha, rfl⟩ := updateFirst_split hs
  rw [Distinct, List.filterMap_append, List.filterMap_cons_none (hfree a ha)] at h
  rw [Distinct, List.filterMap_append, List.filterMap_cons_some (hkey a), List.nodup_middle,
    List.nodup_cons]
  refine ⟨?_, h⟩
  rw [← List.filterMap_append, List.mem_filterMap]
  rintro ⟨b, hb, hbk⟩
  refine hnew b ?_ hbk
  rcases List.mem_append.mp hb with hb | hb
  · exact List.mem_append_left _ hb
  · exact List.mem_append_right _ (List.mem_cons_of_mem _ hb)

section Lookup

variable [DecidableEq κ] {k : κ}

/-- The table as a partial map. -/
def lookup (key : α → Option κ) (slots : List α) (k : κ) : Option α :=
  slots.find? fun a ↦ decide (key a = some k)

theorem lookup_cons (a : α) (slots : List α) :
    lookup key (a :: slots) k = if key a = some k then some a else lookup key slots k := by
  rw [lookup, List.find?_cons]
  by_cases ha : key a = some k
  · rw [if_pos ha, decide_eq_true ha]
  · rw [if_neg ha, decide_eq_false ha]
    rfl

theorem lookup_eq_none_iff : lookup key slots k = none ↔ ∀ a ∈ slots, key a ≠ some k := by
  rw [lookup, List.find?_eq_none]
  simp only [decide_eq_true_eq, ne_eq]

theorem key_of_lookup {a : α} (h : lookup key slots k = some a) : key a = some k := by
  have hfound := List.find?_some h
  exact of_decide_eq_true hfound

theorem lookup_updateFirst_of_ne (h : updateFirst p f slots = some slots')
    (hold : ∀ a, p a → key a ≠ some k) (hnew : ∀ a, p a → key (f a) ≠ some k) :
    lookup key slots' k = lookup key slots k := by
  induction slots generalizing slots' with
  | nil => cases h
  | cons a slots ih =>
    rw [updateFirst] at h
    split_ifs at h with ha
    · cases h
      rw [lookup_cons, lookup_cons, if_neg (hold a ha), if_neg (hnew a ha)]
    · obtain ⟨rest, hrest, rfl⟩ := Option.map_eq_some_iff.mp h
      rw [lookup_cons, lookup_cons, ih hrest]

theorem lookup_updateFirst (h : updateFirst p f slots = some slots')
    (hp : ∀ a, p a ↔ key a = some k) (hf : ∀ a, p a → key (f a) = some k) :
    lookup key slots' k = (lookup key slots k).map f := by
  have hkey : p = fun a ↦ decide (key a = some k) := by
    funext a
    rw [Bool.eq_iff_iff, hp, decide_eq_true_eq]
  subst hkey
  apply find?_updateFirst h
  intro a ha
  exact decide_eq_true (hf a ha)

theorem Distinct.lookup_others {a : α} {before after : List α}
    (hd : Distinct key (before ++ a :: after)) (hk : key a = some k) :
    lookup key (before ++ after) k = none := by
  rw [Distinct, List.filterMap_append, List.filterMap_cons_some hk, List.nodup_middle,
    List.nodup_cons, ← List.filterMap_append, List.mem_filterMap] at hd
  rw [lookup_eq_none_iff]
  intro b hb hbk
  exact hd.1 ⟨b, hb, hbk⟩

theorem lookup_append (before after : List α) : lookup key (before ++ after) k =
    (lookup key before k).or (lookup key after k) := List.find?_append

theorem Distinct.lookup_of_mem {a : α} (hd : Distinct key slots) (ha : a ∈ slots)
    (hk : key a = some k) : lookup key slots k = some a := by
  obtain ⟨before, after, rfl⟩ := List.append_of_mem ha
  have hothers := hd.lookup_others hk
  rw [lookup_append, Option.or_eq_none_iff] at hothers
  rw [lookup_append, hothers.1, Option.none_or, lookup_cons, if_pos hk]

/-- In a table of different keys nothing is found behind a slot that is given up. -/
theorem Distinct.lookup_clear (hd : Distinct key slots) (h : updateFirst p f slots = some slots')
    (hp : ∀ a, p a → key a = some k) (hf : ∀ a, key (f a) = none) :
    lookup key slots' k = none := by
  obtain ⟨before, a, after, rfl, ha, rfl⟩ := updateFirst_split h
  have hothers := hd.lookup_others (hp a ha)
  rw [lookup_append] at hothers ⊢
  rw [lookup_cons, if_neg (by simp [hf]), hothers]

theorem lookup_enter {c : α} (h : updateFirst p (fun _ ↦ c) slots = some slots')
    (hnew : lookup key slots k = none) (hc : key c = some k) : lookup key slots' k = some c := by
  induction slots generalizing slots' with
  | nil => cases h
  | cons a slots ih =>
    have ha : key a ≠ some k := lookup_eq_none_iff.mp hnew a List.mem_cons_self
    rw [lookup_cons, if_neg ha] at hnew
    rw [updateFirst] at h
    split_ifs at h
    · cases h
      rw [lookup_cons, if_pos hc]
    · obtain ⟨rest, hrest, rfl⟩ := Option.map_eq_some_iff.mp h
      rw [lookup_cons, if_neg ha, ih hrest hnew]

theorem Distinct.lookup_clearAll {q : α → Bool} {c : α} (hd : Distinct key slots)
    (hc : key c = none) : lookup key (slots.map fun a ↦ if q a then c else a) k =
      (lookup key slots k).filter fun a ↦ !q a := by
  induction slots with
  | nil => rfl
  | cons a slots ih =>
    have htail : Distinct key slots := by
      refine List.Nodup.sublist ?_ hd
      exact (List.sublist_cons_self a slots).filterMap key
    rw [List.map_cons, lookup_cons, lookup_cons, ih htail]
    by_cases ha : key a = some k
    · rw [if_pos ha]
      cases hq : q a with
      | false => simp [ha, hq, Option.filter_some]
      | true =>
        have hsplit : Distinct key ([] ++ a :: slots) := hd
        have hrest : lookup key slots k = none := hsplit.lookup_others ha
        simp [hc, hq, hrest, Option.filter_some]
    · rw [if_neg ha]
      cases q a with
      | false => simp [ha]
      | true => simp [hc]

end Lookup

end NumarkNS6.Foundation.KeyedSlots
