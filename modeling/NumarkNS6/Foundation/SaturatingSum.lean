import Mathlib.Algebra.BigOperators.Group.List.Basic
import Mathlib.Algebra.Order.Group.Int
import Mathlib.Algebra.Ring.Int.Defs

namespace NumarkNS6.Foundation.SaturatingSum

variable {β : Type} {lo hi x : ℤ} {cs : List ℤ}

def add (lo hi x c : ℤ) : ℤ := max lo (min (x + c) hi)

def total (lo hi x : ℤ) (cs : List ℤ) : ℤ := cs.foldl (add lo hi) x

def rise (cs : List ℤ) : ℤ := (cs.map (max 0)).sum

def fall (cs : List ℤ) : ℤ := (cs.map fun c ↦ max 0 (-c)).sum

theorem rise_cons (c : ℤ) : rise (c :: cs) = max 0 c + rise cs := by
  rw [rise, List.map_cons, List.sum_cons, rise]

theorem fall_cons (c : ℤ) : fall (c :: cs) = max 0 (-c) + fall cs := by
  rw [fall, List.map_cons, List.sum_cons, fall]

theorem total_cons (c : ℤ) : total lo hi x (c :: cs) = total lo hi (add lo hi x c) cs := rfl

theorem total_append (cs ds : List ℤ) :
    total lo hi x (cs ++ ds) = total lo hi (total lo hi x cs) ds := List.foldl_append

theorem rise_nonneg (cs : List ℤ) : 0 ≤ rise cs := by
  induction cs with
  | nil => exact le_rfl
  | cons c cs ih => rw [rise_cons]; omega

theorem fall_nonneg (cs : List ℤ) : 0 ≤ fall cs := by
  induction cs with
  | nil => exact le_rfl
  | cons c cs ih => rw [fall_cons]; omega

theorem rise_perm {ds : List ℤ} (h : cs.Perm ds) : rise cs = rise ds := (h.map _).sum_eq

theorem fall_perm {ds : List ℤ} (h : cs.Perm ds) : fall cs = fall ds := (h.map _).sum_eq

theorem total_of_fits (hhi : x + rise cs ≤ hi) (hlo : lo ≤ x - fall cs) :
    total lo hi x cs = x + rise cs - fall cs := by
  induction cs generalizing x with
  | nil => simp [total, rise, fall]
  | cons c cs ih =>
    have hrise := rise_nonneg cs
    have hfall := fall_nonneg cs
    rw [rise_cons] at hhi ⊢
    rw [fall_cons] at hlo ⊢
    have hadd : add lo hi x c = x + c := by rw [add]; omega
    rw [total_cons, hadd, ih (by omega) (by omega)]
    omega

theorem total_of_fall_eq_zero (hx : lo ≤ x ∧ x ≤ hi) (h : fall cs = 0) :
    total lo hi x cs = min (x + rise cs) hi := by
  induction cs generalizing x with
  | nil => simp [total, rise, hx.2]
  | cons c cs ih =>
    have hrise := rise_nonneg cs
    have hfall := fall_nonneg cs
    rw [fall_cons] at h
    have hadd : add lo hi x c = min (x + c) hi := by rw [add]; omega
    rw [total_cons, hadd, ih (by omega) (by omega), rise_cons]
    omega

theorem total_of_rise_eq_zero (hx : lo ≤ x ∧ x ≤ hi) (h : rise cs = 0) :
    total lo hi x cs = max lo (x - fall cs) := by
  induction cs generalizing x with
  | nil => simp [total, fall, hx.1]
  | cons c cs ih =>
    have hrise := rise_nonneg cs
    have hfall := fall_nonneg cs
    rw [rise_cons] at h
    have hadd : add lo hi x c = max lo (x + c) := by rw [add]; omega
    rw [total_cons, hadd, ih (by omega) (by omega), fall_cons]
    omega

/-- Neither end is reached from `x` in any order, or all of `cs` go one way. -/
def Steady (lo hi x : ℤ) (cs : List ℤ) : Prop :=
  (x + rise cs ≤ hi ∧ lo ≤ x - fall cs) ∨ rise cs = 0 ∨ fall cs = 0

theorem Steady.total_perm (h : Steady lo hi x cs) (hx : lo ≤ x ∧ x ≤ hi) {ds : List ℤ}
    (hperm : ds.Perm cs) : total lo hi x ds = total lo hi x cs := by
  have hrise := rise_perm hperm
  have hfall := fall_perm hperm
  rcases h with ⟨hhi, hlo⟩ | hzero | hzero
  · rw [total_of_fits hhi hlo, total_of_fits (by rw [hrise]; exact hhi) (by rw [hfall]; exact hlo),
      hrise, hfall]
  · rw [total_of_rise_eq_zero hx hzero, total_of_rise_eq_zero hx (hrise.trans hzero), hfall]
  · rw [total_of_fall_eq_zero hx hzero, total_of_fall_eq_zero hx (hfall.trans hzero), hrise]

section Orders

variable (c : β → ℤ) (bs : List β)

theorem rise_filter_pos : rise ((bs.filter (0 < c ·)).map c) = rise (bs.map c) := by
  induction bs with
  | nil => rfl
  | cons b bs ih =>
    by_cases hb : 0 < c b
    · rw [List.filter_cons_of_pos (by simpa using hb), List.map_cons, List.map_cons, rise_cons,
        rise_cons, ih]
    · rw [List.filter_cons_of_neg (by simpa using hb), List.map_cons, rise_cons, ih]
      omega

theorem fall_filter_pos : fall ((bs.filter (0 < c ·)).map c) = 0 := by
  induction bs with
  | nil => rfl
  | cons b bs ih =>
    by_cases hb : 0 < c b
    · rw [List.filter_cons_of_pos (by simpa using hb), List.map_cons, fall_cons, ih]
      omega
    · rw [List.filter_cons_of_neg (by simpa using hb), ih]

theorem rise_filter_not_pos : rise ((bs.filter fun b ↦ ! decide (0 < c b)).map c) = 0 := by
  induction bs with
  | nil => rfl
  | cons b bs ih =>
    by_cases hb : 0 < c b
    · rw [List.filter_cons_of_neg (by simpa using hb), ih]
    · rw [List.filter_cons_of_pos (by simpa using hb), List.map_cons, rise_cons, ih]
      omega

theorem fall_filter_not_pos :
    fall ((bs.filter fun b ↦ ! decide (0 < c b)).map c) = fall (bs.map c) := by
  induction bs with
  | nil => rfl
  | cons b bs ih =>
    by_cases hb : 0 < c b
    · rw [List.filter_cons_of_neg (by simpa using hb), List.map_cons, fall_cons, ih]
      omega
    · rw [List.filter_cons_of_pos (by simpa using hb), List.map_cons, List.map_cons, fall_cons,
        fall_cons, ih]

/-- The sum does not depend on the order exactly if it is steady: otherwise all
the positive ones first and all the others first make a difference. -/
theorem total_map_perm_iff (hlt : lo < hi) (hx : lo ≤ x ∧ x ≤ hi) :
    (∀ ds : List β, ds.Perm bs → total lo hi x (ds.map c) = total lo hi x (bs.map c)) ↔
      Steady lo hi x (bs.map c) := by
  constructor
  · intro h
    have hup := h _ (List.filter_append_perm (0 < c ·) bs)
    have hdown := h _ (List.perm_append_comm.trans (List.filter_append_perm (0 < c ·) bs))
    have hrise := rise_nonneg (bs.map c)
    have hfall := fall_nonneg (bs.map c)
    rw [List.map_append, total_append, total_of_fall_eq_zero hx (fall_filter_pos c bs),
      rise_filter_pos, total_of_rise_eq_zero (by omega) (rise_filter_not_pos c bs),
      fall_filter_not_pos] at hup
    rw [List.map_append, total_append, total_of_rise_eq_zero hx (rise_filter_not_pos c bs),
      fall_filter_not_pos, total_of_fall_eq_zero (by omega) (fall_filter_pos c bs),
      rise_filter_pos] at hdown
    rw [← hdown] at hup
    rw [Steady]
    omega
  · intro h ds hperm
    exact h.total_perm hx (hperm.map c)

end Orders

end NumarkNS6.Foundation.SaturatingSum
