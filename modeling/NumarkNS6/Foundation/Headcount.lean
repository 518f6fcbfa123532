import NumarkNS6.Foundation.Runs
import Mathlib.Data.Set.Card
import Mathlib.Data.UInt

namespace NumarkNS6.Foundation.Headcount

open Runs

variable {ι σ : Type} {P : σ → Prop} {f : ι → σ} {i : ι} {x : σ}

def those (P : σ → Prop) (f : ι → σ) : Set ι := {i | P (f i)}

theorem mem_those : i ∈ those P f ↔ P (f i) := Iff.rfl

theorem those_eq_empty_iff : those P f = ∅ ↔ ∀ i, ¬ P (f i) := Set.eq_empty_iff_forall_notMem

theorem those_encard_lt [Fintype ι] {n : ℕ} (h : Fintype.card ι < n) :
    (those P f).encard < n := by
  have hle : (those P f).encard ≤ (Fintype.card ι : ℕ∞) := by
    rw [← ENat.card_eq_coe_fintype_card, ← Set.encard_univ]
    exact Set.encard_le_encard (Set.subset_univ _)
  refine hle.trans_lt ?_
  exact_mod_cast h

variable [DecidableEq ι]

theorem those_enter (hx : P x) : those P (Function.update f i x) = insert i (those P f) := by
  ext j
  rw [Set.mem_insert_iff, mem_those, mem_those]
  by_cases hj : j = i
  · subst hj
    rw [Function.update_self]
    exact ⟨fun _ ↦ .inl rfl, fun _ ↦ hx⟩
  · rw [Function.update_of_ne hj]
    exact ⟨.inr, fun h ↦ h.resolve_left hj⟩

theorem those_leave (hx : ¬ P x) : those P (Function.update f i x) = those P f \ {i} := by
  ext j
  rw [Set.mem_sdiff, Set.mem_singleton_iff, mem_those, mem_those]
  by_cases hj : j = i
  · subst hj
    rw [Function.update_self]
    exact ⟨fun h ↦ absurd h hx, fun h ↦ absurd rfl h.2⟩
  · rw [Function.update_of_ne hj]
    exact ⟨fun h ↦ ⟨h, hj⟩, fun h ↦ h.1⟩

/-- The counter is the number of participants in `P`, which is finite then. -/
def Counts (n : UInt32) (P : σ → Prop) (f : ι → σ) : Prop := (those P f).encard = n.toNat

variable {n : UInt32}

theorem Counts.stay (h : Counts n P f) (hold : P (f i)) (hx : P x) :
    Counts n P (Function.update f i x) := by
  have hmem : i ∈ those P f := hold
  rw [Counts, those_enter hx, Set.insert_eq_of_mem hmem]
  exact h

theorem Counts.enter (h : Counts n P f) (hold : ¬ P (f i)) (hx : P x)
    (hfew : (those P (Function.update f i x)).encard < 2 ^ 32) :
    Counts (n + 1) P (Function.update f i x) := by
  have hnew : (those P (Function.update f i x)).encard = ((n.toNat + 1 : ℕ) : ℕ∞) := by
    have hnotin : i ∉ those P f := hold
    rw [those_enter hx, Set.encard_insert_of_notMem hnotin, h]
    rfl
  have hlt : n.toNat + 1 < 2 ^ 32 := by
    rw [hnew] at hfew
    exact_mod_cast hfew
  have hsucc : (n + 1).toNat = n.toNat + 1 := by
    rw [UInt32.toNat_add, UInt32.toNat_one]
    exact Nat.mod_eq_of_lt hlt
  rw [Counts, hnew, hsucc]

omit [DecidableEq ι] in
theorem Counts.ne_zero (h : Counts n P f) (hold : P (f i)) : n ≠ 0 := by
  intro hzero
  rw [Counts, hzero, UInt32.toNat_zero, Nat.cast_zero, Set.encard_eq_zero] at h
  exact those_eq_empty_iff.mp h i hold

omit [DecidableEq ι] in
theorem Counts.nobody (h : Counts 0 P f) (i : ι) : ¬ P (f i) := fun hold ↦ h.ne_zero hold rfl

theorem Counts.leave (h : Counts n P f) (hold : P (f i)) (hx : ¬ P x) :
    Counts (n - 1) P (Function.update f i x) := by
  have hone : 1 ≤ n := by
    rw [UInt32.le_iff_toNat_le, UInt32.toNat_one]
    apply Nat.pos_of_ne_zero
    intro hzero
    exact h.ne_zero hold (UInt32.toNat_inj.mp hzero)
  have hpred : (n - 1).toNat = n.toNat - 1 := by
    rw [UInt32.toNat_sub_of_le _ _ hone, UInt32.toNat_one]
  have hmem : i ∈ those P f := hold
  rw [Counts, those_leave hx, Set.encard_sdiff_singleton_of_mem hmem, h, hpred]
  rfl

section Crowd

def crowd (x : σ) (n : ℕ) (f : ℕ → σ) : ℕ → σ := fun j ↦ if 1 ≤ j ∧ j ≤ n then x else f j

theorem crowd_zero (x : σ) (f : ℕ → σ) : crowd x 0 f = f := by
  funext j
  exact if_neg (by omega)

theorem crowd_of_lt (x : σ) {n j : ℕ} (h : n < j) (f : ℕ → σ) : crowd x n f j = f j :=
  if_neg (by omega)

theorem crowd_succ (x : σ) (n : ℕ) (f : ℕ → σ) :
    Function.update (crowd x n f) (n + 1) x = crowd x (n + 1) f := by
  funext j
  by_cases hj : j = n + 1
  · rw [hj, Function.update_self, crowd, if_pos (by omega)]
  · have hiff : (1 ≤ j ∧ j ≤ n) ↔ (1 ≤ j ∧ j ≤ n + 1) := by omega
    rw [Function.update_of_ne hj]
    simp only [crowd, hiff]

/-- Where one participant after the other comes in and is counted, any number of them
can, and the counter goes round. -/
theorem crowd_run {S A : Type} (step : S → A → Option S) (come : ℕ → A)
    (state : UInt32 → (ℕ → σ) → S) {out x : σ}
    (hcome : ∀ c f k, f k = out → step (state c f) (come k) =
      some (state (c + 1) (Function.update f k x)))
    (c : UInt32) {f : ℕ → σ} (hf : ∀ k, f (k + 1) = out) (n : ℕ) :
    Run step (state c f) ((List.range n).map fun k ↦ come (k + 1))
      (state (c + UInt32.ofNat n) (crowd x n f)) := by
  induction n with
  | zero =>
    have hzero : c + UInt32.ofNat 0 = c := UInt32.add_zero c
    rw [crowd_zero, hzero]
    exact .nil _
  | succ n ih =>
    have hout : crowd x n f (n + 1) = out := (crowd_of_lt x (Nat.lt_succ_self n) f).trans (hf n)
    have hcount : c + UInt32.ofNat n + 1 = c + UInt32.ofNat (n + 1) := by
      rw [UInt32.add_assoc, UInt32.ofNat_add]
      rfl
    rw [List.range_succ, List.map_append]
    refine .snoc ih ?_
    rw [hcome _ _ _ hout, crowd_succ, hcount]

end Crowd

end NumarkNS6.Foundation.Headcount
