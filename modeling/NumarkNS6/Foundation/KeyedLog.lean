import Mathlib.Data.List.Perm.Basic
import Mathlib.Order.Nat

namespace NumarkNS6.Foundation.KeyedLog

variable {C : Type}

/-- A log of calls on keys that are handed out in order. -/
structure Registry (C : Type) where
  next : ℕ
  log : List (ℕ × C)

namespace Registry

def empty : Registry C := ⟨0, []⟩

def history (r : Registry C) (k : ℕ) : List C := (r.log.filter (·.1 = k)).map (·.2)

def call (r : Registry C) (k : ℕ) (c : C) : Registry C := { r with log := r.log ++ [(k, c)] }

def fresh (r : Registry C) (c : C) : Registry C := ⟨r.next + 1, r.log ++ [(r.next, c)]⟩

variable {r : Registry C} {k k' : ℕ} {c : C}

theorem history_call (r : Registry C) (k : ℕ) (c : C) :
    (r.call k c).history k = r.history k ++ [c] := by
  simp [history, call]

theorem history_call_of_ne (r : Registry C) (c : C) (h : k ≠ k') :
    (r.call k c).history k' = r.history k' := by
  simp [history, call, h]

end Registry

open Registry

/-- Every key is accounted for: those of `live` have the calls listed there, every
other one that was handed out has come to an end, and the rest are untouched. -/
structure Accounted (ended : List C → Prop) (r : Registry C) (live : List (ℕ × List C)) : Prop where
  keys : (live.map Prod.fst).Nodup
  alive : ∀ p ∈ live, p.1 < r.next ∧ r.history p.1 = p.2
  retired : ∀ k < r.next, k ∉ live.map Prod.fst → ended (r.history k)
  unused : ∀ k, r.next ≤ k → r.history k = []

namespace Accounted

variable {ended : List C → Prop} {r : Registry C} {live live' : List (ℕ × List C)} {k : ℕ}
  {calls : List C}

theorem empty (ended : List C → Prop) : Accounted ended (Registry.empty : Registry C) [] :=
  ⟨.nil, nofun, fun _ h ↦ absurd h (Nat.not_lt_zero _), fun _ _ ↦ rfl⟩

theorem perm (h : Accounted ended r live) (hp : live.Perm live') : Accounted ended r live' where
  keys := (hp.map _).nodup_iff.mp h.keys
  alive p hmem := h.alive p (hp.mem_iff.mpr hmem)
  retired k hk hmem := h.retired k hk fun hmem' ↦ hmem ((hp.map _).mem_iff.mp hmem')
  unused := h.unused

theorem fresh (h : Accounted ended r live) (c : C) :
    Accounted ended (r.fresh c) ((r.next, [c]) :: live) := by
  have hself : (r.fresh c).history r.next = [c] := by
    change (r.call r.next c).history r.next = [c]
    rw [history_call, h.unused _ le_rfl, List.nil_append]
  have hother {k : ℕ} (hk : r.next ≠ k) : (r.fresh c).history k = r.history k :=
    history_call_of_ne r c hk
  have hnew : r.next ∉ live.map Prod.fst := by
    intro hmem
    obtain ⟨p, hp, he⟩ := List.mem_map.mp hmem
    exact absurd (h.alive p hp).1 (Nat.not_lt_of_le he.ge)
  refine ⟨List.nodup_cons.mpr ⟨hnew, h.keys⟩, List.forall_mem_cons.mpr ⟨⟨Nat.lt_succ_self _, hself⟩, ?_⟩,
    fun k hk hmem ↦ ?_, fun k hk ↦ ?_⟩
  · intro p hp
    obtain ⟨hlt, hhist⟩ := h.alive p hp
    exact ⟨Nat.lt_succ_of_lt hlt, (hother hlt.ne').trans hhist⟩
  · rw [List.map_cons, List.mem_cons, not_or] at hmem
    rw [hother (Ne.symm hmem.1)]
    exact h.retired k (lt_of_le_of_ne (Nat.le_of_lt_succ hk) hmem.1) hmem.2
  · rw [hother (Nat.lt_of_succ_le hk).ne]
    exact h.unused k (Nat.le_of_succ_le hk)

theorem call (h : Accounted ended r ((k, calls) :: live)) (c : C) :
    Accounted ended (r.call k c) ((k, calls ++ [c]) :: live) := by
  obtain ⟨⟨hlt, hhist⟩, hrest⟩ := List.forall_mem_cons.mp h.alive
  have hkeys := List.nodup_cons.mp h.keys
  refine ⟨List.nodup_cons.mpr hkeys, List.forall_mem_cons.mpr ⟨⟨hlt, ?_⟩, fun p hp ↦ ?_⟩,
    fun k' hk' hmem ↦ ?_, fun k' hk' ↦ ?_⟩
  · rw [history_call, hhist]
  · have hne : k ≠ p.1 := by
      rintro rfl
      exact hkeys.1 (List.mem_map.mpr ⟨p, hp, rfl⟩)
    exact ⟨(hrest p hp).1, (history_call_of_ne r c hne).trans (hrest p hp).2⟩
  · have hne : k ≠ k' := by
      rintro rfl
      exact hmem List.mem_cons_self
    rw [history_call_of_ne r c hne]
    exact h.retired k' hk' hmem
  · rw [history_call_of_ne r c (lt_of_lt_of_le hlt hk').ne]
    exact h.unused k' hk'

theorem retire (h : Accounted ended r ((k, calls) :: live)) (he : ended calls) :
    Accounted ended r live := by
  obtain ⟨⟨-, hhist⟩, hrest⟩ := List.forall_mem_cons.mp h.alive
  refine ⟨(List.nodup_cons.mp h.keys).2, hrest, fun k' hk' hmem ↦ ?_, h.unused⟩
  by_cases hk : k' = k
  · rw [hk, hhist]
    exact he
  · exact h.retired k' hk' fun hmem' ↦ (List.mem_cons.mp hmem').elim hk hmem

end Accounted

end NumarkNS6.Foundation.KeyedLog
