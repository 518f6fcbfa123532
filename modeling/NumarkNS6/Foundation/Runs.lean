import Mathlib.Data.List.Basic

namespace NumarkNS6.Foundation.Runs

variable {σ α : Type}

/-- A finite run of a guarded transition function. An action that is not
enabled has no successor, so it occurs in no run. -/
inductive Run (step : σ → α → Option σ) : σ → List α → σ → Prop
  | nil (s : σ) : Run step s [] s
  | snoc {s t u : σ} {as : List α} {a : α} :
      Run step s as t → step t a = some u → Run step s (as ++ [a]) u

theorem Run.one {step : σ → α → Option σ} {s t : σ} {a : α} (h : step s a = some t) :
    Run step s [a] t := .snoc (.nil s) h

theorem Run.trans {step : σ → α → Option σ} {s t u : σ} {as bs : List α}
    (h : Run step s as t) (h' : Run step t bs u) : Run step s (as ++ bs) u := by
  induction h' with
  | nil => simpa only [List.append_nil] using h
  | snoc _ hs ih => simpa only [List.append_assoc] using Run.snoc ih hs

theorem Run.cons {step : σ → α → Option σ} {s t u : σ} {a : α} {as : List α}
    (h : step s a = some t) (h' : Run step t as u) : Run step s (a :: as) u :=
  (Run.one h).trans h'

theorem Run.of_foldlM {step : σ → α → Option σ} {s t : σ} {as : List α}
    (h : as.foldlM step s = some t) : Run step s as t := by
  induction as generalizing s with
  | nil => cases h; exact .nil _
  | cons a as ih =>
    rw [List.foldlM_cons, Option.bind_eq_bind, Option.bind_eq_some_iff] at h
    obtain ⟨u, hu, hrest⟩ := h
    exact .cons hu (ih hrest)

theorem Run.foldlM_eq {step : σ → α → Option σ} {s t : σ} {as : List α} (h : Run step s as t) :
    as.foldlM step s = some t := by
  induction h with
  | nil => rfl
  | snoc _ hs ih =>
    rw [List.foldlM_append, ih, Option.bind_eq_bind, Option.bind_some, List.foldlM_cons, hs]
    rfl

theorem Run.after {step : σ → α → Option σ} {s t u : σ} {bs cs : List α} {a : α}
    (h : Run step s (bs ++ a :: cs) t) (hu : Run step s bs u) :
    ∃ v, step u a = some v ∧ Run step v cs t := by
  have hfold := h.foldlM_eq
  rw [List.foldlM_append, hu.foldlM_eq, Option.bind_eq_bind, Option.bind_some, List.foldlM_cons,
    Option.bind_eq_bind, Option.bind_eq_some_iff] at hfold
  obtain ⟨v, hv, hrest⟩ := hfold
  exact ⟨v, hv, .of_foldlM hrest⟩

theorem Run.enabled {step : σ → α → Option σ} {s t u : σ} {bs cs : List α} {a : α}
    (h : Run step s (bs ++ a :: cs) t) (hu : Run step s bs u) : ∃ v, step u a = some v := by
  obtain ⟨v, hv, -⟩ := h.after hu
  exact ⟨v, hv⟩

theorem Run.forall_of_all {step : σ → α → Option σ} {P : σ → α → Prop} [∀ s a, Decidable (P s a)]
    {s : σ} {as : List α} (h : ((List.range as.length).all fun n ↦
      ((as.take n).foldlM step s).all fun u ↦ as[n]?.all fun a ↦ decide (P u a)) = true) :
    ∀ bs a cs u, as = bs ++ a :: cs → Run step s bs u → P u a := by
  intro bs a cs u has hu
  have hlt : bs.length < as.length := by simp [has]
  have hn := List.all_eq_true.mp h bs.length (List.mem_range.mpr hlt)
  rw [has, List.take_left, hu.foldlM_eq, List.getElem?_append_right (Nat.le_refl _),
    Nat.sub_self] at hn
  exact of_decide_eq_true hn

theorem Run.mono {step step' : σ → α → Option σ} {s t : σ} {as : List α} (h : Run step s as t)
    (hle : ∀ s a t, step s a = some t → step' s a = some t) : Run step' s as t := by
  induction h with
  | nil => exact .nil _
  | snoc _ hs ih => exact .snoc ih (hle _ _ _ hs)

/-- The induction rule for safety: what holds initially and is kept by every
enabled step holds after every run. -/
theorem Run.invariant {step : σ → α → Option σ} {I : σ → Prop} {s t : σ} {as : List α}
    (h : Run step s as t) (h₀ : I s)
    (hstep : ∀ s a t, I s → step s a = some t → I t) : I t := by
  induction h with
  | nil => exact h₀
  | snoc _ hs ih => exact hstep _ _ _ ih hs

/-- The same rule when only the actions satisfying `P` are taken. -/
theorem Run.invariant_of {step : σ → α → Option σ} {I : σ → Prop} {P : σ → α → Prop}
    {s t : σ} {as : List α} (h : Run step s as t) (h₀ : I s)
    (hP : ∀ bs a cs u, as = bs ++ a :: cs → Run step s bs u → P u a)
    (hstep : ∀ s a t, I s → P s a → step s a = some t → I t) : I t := by
  induction h with
  | nil => exact h₀
  | @snoc t u as a hr hs ih =>
    refine hstep _ _ _ (ih ?_) (hP as a [] t (by simp) hr) hs
    intro bs b cs v he hv
    exact hP bs b (cs ++ [a]) v (by simp [he]) hv

theorem Run.within {step : σ → α → Option σ} {Q : σ → Prop} {s : σ} {as : List α}
    (hQ : ∀ bs u, bs <+: as → Run step s bs u → Q u) :
    ∀ bs a cs u, as = bs ++ a :: cs → Run step s bs u → ∀ t, step u a = some t → Q t := by
  intro bs a cs u has hu t ht
  refine hQ (bs ++ [a]) t ⟨cs, ?_⟩ (.snoc hu ht)
  rw [has, List.append_assoc]
  rfl

/-- The rule for bounded progress: where every step keeps the rank and the steps in
`own` lower it, no run takes more of those than the rank it starts with. -/
theorem Run.countP_le {step : σ → α → Option σ} {rank : σ → ℕ → Prop} {own : α → Bool} {s t : σ}
    {as : List α} {n : ℕ} (h : Run step s as t) (h₀ : rank s n)
    (hstep : ∀ s a t n, rank s n → step s a = some t → ∃ m, rank t m ∧ m + (own a).toNat ≤ n) :
    ∃ m, rank t m ∧ m + as.countP own ≤ n := by
  induction h with
  | nil => exact ⟨n, h₀, Nat.le_refl n⟩
  | @snoc t u as a _ hs ih =>
    obtain ⟨m, hm, hle⟩ := ih
    obtain ⟨k, hk, hlt⟩ := hstep t a u m hm hs
    refine ⟨k, hk, ?_⟩
    have hone : [a].countP own = (own a).toNat := by
      cases hown : own a <;> simp [hown]
    rw [List.countP_append, hone]
    omega

theorem getElem?_concat_cases {β : Type} {xs : List β} {x y : β} {k : ℕ}
    (h : (xs ++ [x])[k]? = some y) : k < xs.length ∧ xs[k]? = some y ∨ k = xs.length ∧ x = y := by
  rcases Nat.lt_or_ge k xs.length with hk | hk
  · exact .inl ⟨hk, by rwa [List.getElem?_append_left hk] at h⟩
  · rw [List.getElem?_append_right hk, List.getElem?_singleton] at h
    split_ifs at h with h₀
    exact .inr ⟨by omega, Option.some.inj h⟩

/-- Every entry differs from the one before it, and the first is `next`. -/
def Alternates : Bool → List Bool → Prop
  | _, [] => True
  | next, mark :: marks => mark = next ∧ Alternates (!next) marks

def edge (before after : Bool) : Option Bool := if before = after then none else some after

theorem alternates_edge {before after : Bool} {marks : List Bool} (h : Alternates (!after) marks) :
    Alternates (!before) ((edge before after).toList ++ marks) := by
  cases before <;> cases after
  · exact h
  · exact ⟨rfl, h⟩
  · exact ⟨rfl, h⟩
  · exact h

end NumarkNS6.Foundation.Runs
