import NumarkNS6.Foundation.CircularStore

namespace NumarkNS6.Foundation.CircularTable

open CircularStore

variable {α : Type} {n : ℕ}

/-- An array of `n` cells, indexed modulo `n`. -/
structure Table (α : Type) (n : ℕ) where
  cells : List α
  length_eq : cells.length = n

namespace Table

def replicate (n : ℕ) (x : α) : Table α n := ⟨List.replicate n x, List.length_replicate⟩

def tabulate (n : ℕ) (f : ℕ → α) : Table α n := ⟨(List.range n).map f, by simp⟩

def read (t : Table α n) (d : α) (p : ℕ) : α := t.cells.getD (p % n) d

def write (t : Table α n) (p : ℕ) (x : α) : Table α n :=
  ⟨t.cells.set (p % n) x, by rw [List.length_set, t.length_eq]⟩

def put (t : Table α n) (p : ℕ) : List α → Table α n
  | [] => t
  | x :: xs => (t.write p x).put (p + 1) xs

def get (t : Table α n) (d : α) (p k : ℕ) : List α := (List.range k).map fun i ↦ t.read d (p + i)

def Holds (t : Table α n) (p : ℕ) (xs : List α) : Prop := CircularStore.Holds t.cells p xs

variable {t : Table α n} {p q : ℕ} {x d : α} {xs ys zs : List α}

theorem Holds.shift (h : t.Holds p xs) (hpq : p % n = q % n) : t.Holds q xs :=
  CircularStore.Holds.shift h (by rw [t.length_eq, hpq])

theorem holds_append : t.Holds p (xs ++ ys) ↔ t.Holds p xs ∧ t.Holds (p + xs.length) ys :=
  CircularStore.holds_append

theorem holds_cons : t.Holds p (x :: xs) ↔ t.Holds p [x] ∧ t.Holds (p + 1) xs :=
  @holds_append α n t p [x] xs

theorem Holds.tail (h : t.Holds p (x :: xs)) : t.Holds (p + 1) xs := (holds_cons.mp h).2

theorem Holds.read_head (h : t.Holds p (x :: xs)) : t.read d p = x := by
  have h₀ := h 0 (by simp)
  rw [t.length_eq, Nat.add_zero] at h₀
  simp [read, h₀]

theorem holds_write_new (hn : 0 < n) (p : ℕ) (x : α) : (t.write p x).Holds p [x] := by
  intro i hi
  obtain rfl : i = 0 := by simpa using hi
  have hlt : p % n < t.cells.length := by rw [t.length_eq]; exact Nat.mod_lt _ hn
  rw [(t.write p x).length_eq, Nat.add_zero]
  exact List.getElem?_set_self hlt

theorem Holds.write_old (h : t.Holds q ys) (hqp : q + ys.length ≤ p) (hpq : p < q + n) (x : α) :
    (t.write p x).Holds q ys := by
  intro i hi
  have hne : p % n ≠ (q + i) % n := by
    intro he
    have hmod : q + i ≡ p [MOD n] := he.symm
    have hle := Nat.le_of_dvd (by omega) ((Nat.modEq_iff_dvd' (by omega)).mp hmod)
    omega
  rw [(t.write p x).length_eq]
  have hi' := h i hi
  rw [t.length_eq] at hi'
  exact (List.getElem?_set_ne hne).trans hi'

theorem Holds.put_old (xs : List α) (h : t.Holds q ys) (hqp : q + ys.length ≤ p)
    (hpq : p + xs.length ≤ q + n) : (t.put p xs).Holds q ys := by
  induction xs generalizing t p with
  | nil => exact h
  | cons x xs ih =>
    rw [List.length_cons] at hpq
    exact ih (h.write_old hqp (by omega) x) (by omega) (by omega)

theorem holds_put_new (h : xs.length ≤ n) (p : ℕ) : (t.put p xs).Holds p xs := by
  induction xs generalizing t p with
  | nil => exact .nil _ _
  | cons x xs ih =>
    rw [List.length_cons] at h
    refine holds_cons.mpr ⟨?_, ih (by omega) _⟩
    exact (holds_write_new (by omega) p x).put_old xs (by simp) (by omega)

theorem put_shift (t : Table α n) (p : ℕ) (xs : List α) : t.put (p + n) xs = t.put p xs := by
  induction xs generalizing t p with
  | nil => rfl
  | cons x xs ih =>
    have hw : t.write (p + n) x = t.write p x := by simp only [write, Nat.add_mod_right]
    rw [put, put, hw, Nat.add_right_comm, ih]

theorem Holds.get_eq (h : t.Holds p xs) (d : α) : t.get d p xs.length = xs := by
  apply List.ext_getElem?
  intro i
  by_cases hi : i < xs.length
  · have hm := h i hi
    rw [t.length_eq, List.getElem?_eq_getElem hi] at hm
    simp [get, read, hi, hm]
  · rw [List.getElem?_eq_none (by simp [get]; omega), List.getElem?_eq_none (by omega)]

theorem Holds.rotate (h : t.Holds p (xs ++ ys)) (hz : zs.length = xs.length)
    (hlen : xs.length + ys.length = n) : (t.put p zs).Holds (p + xs.length) (ys ++ zs) := by
  rw [← put_shift, holds_append]
  constructor
  · exact ((holds_append.mp h).2).put_old zs (by omega) (by omega)
  · exact (holds_put_new (by omega) _).shift (by rw [Nat.add_assoc, hlen])

theorem Holds.push (h : t.Holds p xs) (hlen : xs.length < n) (x : α) :
    (t.write (p + xs.length) x).Holds p (xs ++ [x]) :=
  holds_append.mpr ⟨h.write_old le_rfl (by omega) x, holds_write_new (by omega) _ x⟩

end Table

end NumarkNS6.Foundation.CircularTable
