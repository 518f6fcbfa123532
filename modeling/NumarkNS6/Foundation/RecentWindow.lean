import NumarkNS6.Foundation.CircularTable
import Mathlib.Algebra.Ring.Nat

namespace NumarkNS6.Foundation.RecentWindow

open CircularTable

variable {α : Type} {n index count : ℕ} {t : Table α n} {history : List α}

def latest (n : ℕ) (history : List α) : List α := history.drop (history.length - n)

theorem latest_length (n : ℕ) (history : List α) :
    (latest n history).length = min n history.length := by
  rw [latest, List.length_drop]
  omega

theorem latest_of_le {history : List α} (h : history.length ≤ n) : latest n history = history := by
  rw [latest, Nat.sub_eq_zero_of_le h, List.drop_zero]

theorem latest_concat_full {history : List α} (hn : 0 < n) (h : n ≤ history.length) (x : α) :
    latest n (history ++ [x]) = (latest n history).tail ++ [x] := by
  rw [latest, latest, List.tail_drop, List.length_append, List.length_singleton,
    List.drop_append_of_le_length (by omega)]
  congr 2
  omega

/-- A circular table whose cell `i` modulo `n` was written with entry `i`. -/
structure Recent (t : Table α n) (index count : ℕ) (history : List α) : Prop where
  index_eq : index = history.length % n
  count_eq : count = min n history.length
  holds : t.Holds (history.length - n) (latest n history)

theorem recent_nil (t : Table α n) : Recent t 0 0 [] where
  index_eq := (Nat.zero_mod n).symm
  count_eq := (Nat.min_zero n).symm
  holds := by
    rw [latest_of_le (Nat.zero_le n)]
    exact CircularStore.Holds.nil _ _

theorem Recent.read_oldest (h : Recent t index count history) (hn : 0 < n)
    (hfull : n ≤ history.length) (d : α) :
    ∃ rest, latest n history = t.read d index :: rest := by
  have hlen := latest_length n history
  have hholds := h.holds
  cases hlatest : latest n history with
  | nil =>
    rw [hlatest, List.length_nil] at hlen
    omega
  | cons x rest =>
    rw [hlatest] at hholds
    have hcell : (history.length - n) % n = index % n := by
      rw [h.index_eq, Nat.mod_mod, ← Nat.add_mod_right, Nat.sub_add_cancel hfull]
    have hread : t.read d index = x := (hholds.shift hcell).read_head
    exact ⟨rest, by rw [hread]⟩

theorem Recent.push (h : Recent t index count history) (hn : 0 < n) (x : α) :
    Recent (t.write index x) ((index + 1) % n) (if count = n then count else count + 1)
      (history ++ [x]) where
  index_eq := by
    rw [h.index_eq, List.length_append, List.length_singleton, Nat.mod_add_mod]
  count_eq := by
    rw [h.count_eq, List.length_append, List.length_singleton]
    split_ifs <;> omega
  holds := by
    have hwrite : t.write index x = t.write history.length x := by
      simp only [Table.write, h.index_eq, Nat.mod_mod]
    rw [hwrite, List.length_append, List.length_singleton]
    by_cases hfull : n ≤ history.length
    · rw [latest_concat_full hn hfull, Table.holds_append]
      have hlen := latest_length n history
      have hholds := h.holds
      cases hlatest : latest n history with
      | nil =>
        rw [hlatest, List.length_nil] at hlen
        omega
      | cons y rest =>
        rw [hlatest, List.length_cons] at hlen
        rw [hlatest] at hholds
        have hstart : history.length + 1 - n = history.length - n + 1 := by omega
        rw [hstart, List.tail_cons]
        refine ⟨hholds.tail.write_old (by omega) (by omega) x, ?_⟩
        have hend : history.length - n + 1 + rest.length = history.length := by omega
        rw [hend]
        exact Table.holds_write_new hn _ x
    · have hopen : history.length < n := Nat.lt_of_not_le hfull
      have hholds := h.holds
      rw [latest_of_le hopen.le, Nat.sub_eq_zero_of_le hopen.le] at hholds
      rw [latest_of_le (by rw [List.length_append]; exact hopen), Nat.sub_eq_zero_of_le hopen]
      simpa only [Nat.zero_add] using hholds.push hopen x

/-- A sum over the window is kept by taking off what is overwritten. -/
theorem Recent.sum_push (h : Recent t index count history) (hn : 0 < n) (f : α → ℕ) (d x : α) :
    (count = n → f (t.read d index) ≤ ((latest n history).map f).sum) ∧
      ((latest n (history ++ [x])).map f).sum =
        (if count = n then ((latest n history).map f).sum - f (t.read d index)
          else ((latest n history).map f).sum) + f x := by
  have hcount := h.count_eq
  by_cases hfull : n ≤ history.length
  · obtain ⟨rest, hlatest⟩ := h.read_oldest hn hfull d
    rw [latest_concat_full hn hfull, if_pos (by omega), hlatest]
    simp
  · have hopen : history.length < n := Nat.lt_of_not_le hfull
    rw [if_neg (by omega), latest_of_le hopen.le,
      latest_of_le (by rw [List.length_append]; exact hopen)]
    exact ⟨by omega, by simp⟩

end NumarkNS6.Foundation.RecentWindow
