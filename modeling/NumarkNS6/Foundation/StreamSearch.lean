import Mathlib.Data.List.Infix
import Mathlib.Data.Nat.Find
import Mathlib.Tactic.Tauto

namespace NumarkNS6.Foundation.StreamSearch

variable {α : Type}

def FirstAt (pattern xs : List α) (n : ℕ) : Prop :=
  pattern <+: xs.drop n ∧ ∀ m < n, ¬ pattern <+: xs.drop m

theorem infix_iff_prefix_drop {pattern xs : List α} :
    pattern <:+: xs ↔ ∃ n, pattern <+: xs.drop n := by
  constructor
  · rintro ⟨before, after, rfl⟩
    exact ⟨before.length, by simp⟩
  · rintro ⟨n, h⟩
    exact h.isInfix.trans (List.drop_suffix n xs).isInfix

theorem exists_firstAt {pattern xs : List α} (h : pattern <:+: xs) : ∃ n, FirstAt pattern xs n := by
  classical
  have hex := infix_iff_prefix_drop.mp h
  exact ⟨Nat.find hex, Nat.find_spec hex, fun _ hm ↦ Nat.find_min hex hm⟩

theorem FirstAt.infix_take {pattern xs : List α} {n : ℕ} (h : FirstAt pattern xs n) (m : ℕ)
    (hm : m ≤ xs.length) : pattern <:+: xs.take m ↔ n + pattern.length ≤ m := by
  constructor
  · rintro ⟨before, after, he⟩
    have hlen := congrArg List.length he
    simp only [List.length_append, List.length_take_of_le hm] at hlen
    have hat : pattern <+: xs.drop before.length := by
      rw [← List.take_append_drop m xs, ← he]
      simp
    have hn : n ≤ before.length := not_lt.mp fun hlt ↦ h.2 _ hlt hat
    omega
  · intro hle
    have htake : pattern <+: (xs.take m).drop n := by
      rw [List.drop_take, List.prefix_take_iff]
      exact ⟨h.1, by omega⟩
    exact infix_iff_prefix_drop.mpr ⟨n, htake⟩

section Noise

/-! A stream in which the symbols marked `true` are noise. -/

variable {pattern : List α} {xs ys : List (α × Bool)}

def signal (xs : List (α × Bool)) : List α := (xs.filter fun x ↦ !x.2).map Prod.fst

def Clean (pattern : List α) (xs : List (α × Bool)) : Prop := pattern.map (·, false) <:+: xs

instance [DecidableEq α] : Decidable (Clean pattern xs) := inferInstanceAs (Decidable (_ <:+: _))

/-- The pattern with noise between its symbols. -/
def Cut (pattern : List α) (xs : List (α × Bool)) : Prop :=
  ∃ before noise after, before ++ (noise, true) :: after <:+: xs ∧ signal before ≠ [] ∧
    signal after ≠ [] ∧ signal before ++ signal after = pattern

/-- The pattern with noise among its symbols. -/
def Forged (pattern : List α) (xs : List (α × Bool)) : Prop :=
  ∃ before noise after, before ++ (noise, true) :: after <:+: xs ∧
    before.map Prod.fst ++ noise :: after.map Prod.fst = pattern

theorem signal_append (xs ys : List (α × Bool)) : signal (xs ++ ys) = signal xs ++ signal ys := by
  simp [signal]

theorem signal_cut (before : List (α × Bool)) (noise : α) (after : List (α × Bool)) :
    signal (before ++ (noise, true) :: after) = signal before ++ signal after := by
  simp [signal]

theorem signal_infix (h : xs <:+: ys) : signal xs <:+: signal ys := (h.filter _).map _

theorem Clean.mono (h : Clean pattern xs) (hle : xs <:+: ys) : Clean pattern ys := h.trans hle

theorem Cut.mono (h : Cut pattern xs) (hle : xs <:+: ys) : Cut pattern ys := by
  obtain ⟨before, noise, after, hin, hsplit⟩ := h
  exact ⟨before, noise, after, hin.trans hle, hsplit⟩

theorem eq_map_of_quiet (h : ∀ x ∈ xs, x.2 = false) : xs = (xs.map Prod.fst).map (·, false) := by
  rw [List.map_map]
  refine (List.map_id xs).symm.trans (List.map_congr_left fun x hx ↦ ?_)
  exact Prod.ext rfl (h x hx)

theorem signal_of_quiet (h : ∀ x ∈ xs, x.2 = false) : signal xs = xs.map Prod.fst := by
  rw [signal, List.filter_eq_self.mpr fun x hx ↦ by rw [h x hx]; rfl]

theorem signal_quiet (pattern : List α) : signal (pattern.map (·, false)) = pattern := by
  rw [signal_of_quiet (by simp), List.map_map]
  exact List.map_id pattern

theorem clean_or_cut (hne : signal xs ≠ []) : Clean (signal xs) xs ∨ Cut (signal xs) xs := by
  induction hn : xs.length using Nat.strong_induction_on generalizing xs with
  | _ n ih =>
    by_cases hnoise : ∃ x ∈ xs, x.2 = true
    · obtain ⟨⟨noise, mark⟩, hmem, hmark⟩ := hnoise
      cases hmark
      obtain ⟨before, after, rfl⟩ := List.append_of_mem hmem
      have hlength : before.length + after.length < n := by
        rw [← hn, List.length_append, List.length_cons]
        omega
      rw [signal_cut] at hne ⊢
      by_cases hbefore : signal before = []
      · rw [hbefore, List.nil_append] at hne ⊢
        have hin : after <:+: before ++ (noise, true) :: after :=
          ((List.suffix_cons _ after).trans (List.suffix_append before _)).isInfix
        exact (ih after.length (by omega) hne rfl).imp (·.mono hin) (·.mono hin)
      · by_cases hafter : signal after = []
        · rw [hafter, List.append_nil] at hne ⊢
          have hin : before <:+: before ++ (noise, true) :: after := (List.prefix_append _ _).isInfix
          exact (ih before.length (by omega) hne rfl).imp (·.mono hin) (·.mono hin)
        · exact .inr ⟨before, noise, after, List.infix_rfl, hbefore, hafter, rfl⟩
    · have hquiet : ∀ x ∈ xs, x.2 = false := fun x hx ↦
        Bool.eq_false_iff.mpr fun hmark ↦ hnoise ⟨x, hx, hmark⟩
      left
      rw [Clean, signal_of_quiet hquiet, ← eq_map_of_quiet hquiet]

theorem infix_signal_iff (hne : pattern ≠ []) :
    pattern <:+: signal xs ↔ Clean pattern xs ∨ Cut pattern xs := by
  constructor
  · intro h
    obtain ⟨kept, hkept, rfl⟩ := List.infix_map_iff.mp h
    obtain ⟨piece, hpiece, rfl⟩ := List.infix_filter_iff.mp hkept
    exact (clean_or_cut hne).imp (·.mono hpiece) (·.mono hpiece)
  · rintro (hclean | ⟨before, noise, after, hin, -, -, rfl⟩)
    · rw [← signal_quiet pattern]
      exact signal_infix hclean
    · rw [← signal_cut before noise]
      exact signal_infix hin

theorem infix_fst_iff : pattern <:+: xs.map Prod.fst ↔ Clean pattern xs ∨ Forged pattern xs := by
  constructor
  · intro h
    obtain ⟨piece, hpiece, rfl⟩ := List.infix_map_iff.mp h
    by_cases hnoise : ∃ x ∈ piece, x.2 = true
    · obtain ⟨⟨noise, mark⟩, hmem, hmark⟩ := hnoise
      cases hmark
      obtain ⟨before, after, rfl⟩ := List.append_of_mem hmem
      exact .inr ⟨before, noise, after, hpiece, by simp⟩
    · have hquiet : ∀ x ∈ piece, x.2 = false := fun x hx ↦
        Bool.eq_false_iff.mpr fun hmark ↦ hnoise ⟨x, hx, hmark⟩
      left
      rwa [Clean, ← eq_map_of_quiet hquiet]
  · rintro (hclean | ⟨before, noise, after, hin, rfl⟩)
    · simpa [Function.comp_def] using hclean.map Prod.fst
    · simpa using hin.map Prod.fst

/-- Whether the pattern is found with the noise just if it is there without. -/
theorem infix_fst_iff_infix_signal (hne : pattern ≠ []) :
    (pattern <:+: xs.map Prod.fst ↔ pattern <:+: signal xs) ↔
      Clean pattern xs ∨ (Cut pattern xs ↔ Forged pattern xs) := by
  rw [infix_fst_iff, infix_signal_iff hne]
  tauto

end Noise

/-- After the symbols `seen`, without the pattern in them, `matched` is the length
of the longest prefix of the pattern they end with. -/
structure Tracks (pattern seen : List α) (matched : ℕ) : Prop where
  found : pattern.take matched <:+ seen
  longest : ∀ k ≤ pattern.length, pattern.take k <:+ seen → k ≤ matched
  unfinished : matched < pattern.length
  absent : ¬ pattern <:+: seen

theorem tracks_nil {pattern : List α} (h : pattern ≠ []) : Tracks pattern [] 0 where
  found := by simp
  longest k hk hsuffix := by
    rw [List.suffix_nil, List.take_eq_nil_iff] at hsuffix
    exact Nat.le_zero.mpr (hsuffix.resolve_right h)
  unfinished := List.length_pos_iff.mpr h
  absent := by simpa using h

theorem take_succ_suffix {pattern seen : List α} {x : α} {k : ℕ} (hk : k < pattern.length) :
    pattern.take (k + 1) <:+ seen ++ [x] ↔ pattern.take k <:+ seen ∧ pattern[k]? = some x := by
  rw [List.take_add_one, List.getElem?_eq_getElem hk, Option.toList_some, List.suffix_concat_iff]
  constructor
  · rintro (h | ⟨t, ht, hsuffix⟩)
    · exact absurd h (List.append_ne_nil_of_right_ne_nil _ (List.cons_ne_nil _ _))
    · obtain ⟨rfl, hx⟩ := List.append_inj' ht rfl
      exact ⟨hsuffix, congrArg some (List.singleton_inj.mp hx)⟩
  · rintro ⟨h, hx⟩
    exact .inr ⟨_, by rw [Option.some.inj hx], h⟩

section HeadUnique

/-! A pattern whose first symbol does not occur in it again has no proper border,
so after a mismatch no other beginning of it can be in progress. -/

variable {f : α} {rest seen : List α} {matched : ℕ}

theorem take_suffix_take (hf : f ∉ rest) {j k : ℕ} (hj : 0 < j) (hjlen : j ≤ (f :: rest).length)
    (hk : k ≤ (f :: rest).length) (h : (f :: rest).take j <:+ (f :: rest).take k) : j = k := by
  obtain ⟨before, he⟩ := h
  cases before with
  | nil =>
    have hlen := congrArg List.length he
    rwa [List.nil_append, List.length_take_of_le hjlen, List.length_take_of_le hk] at hlen
  | cons b before =>
    obtain ⟨j, rfl⟩ := Nat.exists_eq_add_of_lt hj
    cases k with
    | zero => simp at he
    | succ k =>
      rw [List.take_succ_cons, List.cons_append] at he
      refine absurd (List.mem_of_mem_take (i := k) ?_) hf
      rw [← (List.cons.inj he).2]
      simp

theorem Tracks.border (hf : f ∉ rest) (h : Tracks (f :: rest) seen matched) {k : ℕ}
    (hk : k ≤ (f :: rest).length) (hsuffix : (f :: rest).take k <:+ seen) : k = 0 ∨ k = matched := by
  refine k.eq_zero_or_pos.imp_right fun hpos ↦ ?_
  refine take_suffix_take hf hpos hk h.unfinished.le ?_
  refine List.suffix_of_suffix_length_le hsuffix h.found ?_
  rw [List.length_take_of_le hk, List.length_take_of_le h.unfinished.le]
  exact h.longest k hk hsuffix

variable [DecidableEq α]

/-- One symbol of a search that has `matched` symbols of the pattern. After a
mismatch only the symbol itself is tried again. -/
def advance (pattern : List α) (matched : ℕ) (x : α) : ℕ :=
  if pattern[matched]? = some x then matched + 1 else if pattern[0]? = some x then 1 else 0

def step (pattern : List α) (matched : ℕ) (x : α) : Option ℕ :=
  if advance pattern matched x = pattern.length then none else some (advance pattern matched x)

def search (pattern : List α) (matched : ℕ) (xs : List α) : Option ℕ :=
  xs.foldlM (step pattern) matched

theorem Tracks.advance_found (h : Tracks (f :: rest) seen matched) (x : α) :
    (f :: rest).take (advance (f :: rest) matched x) <:+ seen ++ [x] := by
  unfold advance
  split_ifs with hx hx₀
  · exact (take_succ_suffix h.unfinished).mpr ⟨h.found, hx⟩
  · exact (take_succ_suffix (by simp)).mpr ⟨by simp, hx₀⟩
  · simp

variable (hf : f ∉ rest)
include hf

theorem Tracks.advance_longest (h : Tracks (f :: rest) seen matched) (x : α) {k : ℕ}
    (hk : k ≤ (f :: rest).length) (hsuffix : (f :: rest).take k <:+ seen ++ [x]) :
    k ≤ advance (f :: rest) matched x := by
  cases k with
  | zero => exact Nat.zero_le _
  | succ k =>
    obtain ⟨hbefore, hx⟩ := (take_succ_suffix hk).mp hsuffix
    unfold advance
    obtain rfl | rfl := Tracks.border hf h (Nat.le_of_succ_le hk) hbefore
    · rw [if_pos hx]
      split_ifs <;> omega
    · rw [if_pos hx]

theorem Tracks.step (h : Tracks (f :: rest) seen matched) (x : α) :
    StreamSearch.step (f :: rest) matched x = none ∧ (f :: rest) <:+: seen ++ [x] ∨
      ∃ next, StreamSearch.step (f :: rest) matched x = some next ∧
        Tracks (f :: rest) (seen ++ [x]) next := by
  have hfound := h.advance_found x
  have hlongest k := h.advance_longest hf x (k := k)
  have hle : advance (f :: rest) matched x ≤ (f :: rest).length := by
    have hlt := h.unfinished
    unfold advance
    split_ifs
    · exact hlt
    · simp
    · exact Nat.zero_le _
  unfold StreamSearch.step
  generalize advance (f :: rest) matched x = next at *
  by_cases hnext : next = (f :: rest).length
  · refine .inl ⟨if_pos hnext, ?_⟩
    rw [hnext, List.take_length] at hfound
    exact hfound.isInfix
  · refine .inr ⟨next, if_neg hnext, hfound, hlongest, lt_of_le_of_ne hle hnext, ?_⟩
    rw [List.infix_concat_iff]
    rintro (hsuffix | hinfix)
    · exact hnext (hle.antisymm (hlongest _ le_rfl (by rwa [List.take_length])))
    · exact h.absent hinfix

/-- The search is exact: it ends when the pattern has come by, and not before. -/
theorem Tracks.search (h : Tracks (f :: rest) seen matched) (xs : List α) :
    StreamSearch.search (f :: rest) matched xs = none ∧ (f :: rest) <:+: seen ++ xs ∨
      ∃ next, StreamSearch.search (f :: rest) matched xs = some next ∧
        Tracks (f :: rest) (seen ++ xs) next := by
  induction xs generalizing seen matched with
  | nil => exact .inr ⟨matched, rfl, by rwa [List.append_nil]⟩
  | cons x xs ih =>
    rw [StreamSearch.search, List.foldlM_cons, List.append_cons]
    obtain ⟨hstep, hin⟩ | ⟨next, hstep, hnext⟩ := h.step hf x
    · rw [hstep]
      exact .inl ⟨rfl, hin.trans (List.prefix_append _ _).isInfix⟩
    · rw [hstep]
      exact ih hnext

end HeadUnique

end NumarkNS6.Foundation.StreamSearch
