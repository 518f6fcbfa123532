import Mathlib.Data.UInt
import Mathlib.Data.Nat.ModEq
import Mathlib.Logic.Function.Basic

namespace NumarkNS6.Foundation

/-- A ring of `n` cells, each with the position it was last written for. -/
structure TaggedRing (α : Type) (n : ℕ) where
  cells : Fin n → α
  tags : Fin n → UInt64

namespace TaggedRing

variable {α : Type} {n : ℕ}

variable [NeZero n]

def slot (n : ℕ) [NeZero n] (p : UInt64) : Fin n := Fin.ofNat n p.toNat

def lookup (r : TaggedRing α n) (p : UInt64) : Option α :=
  if r.tags (slot n p) = p then some (r.cells (slot n p)) else none

def store (r : TaggedRing α n) (p : UInt64) (x : α) : TaggedRing α n where
  cells := Function.update r.cells (slot n p) x
  tags := Function.update r.tags (slot n p) p

variable {r : TaggedRing α n} {p q : UInt64} {x : α}

theorem slot_eq_iff : slot n p = slot n q ↔ p.toNat % n = q.toNat % n := by
  rw [slot, slot, Fin.ext_iff]
  rfl

theorem slot_of_add_period (h : q.toNat = p.toNat + n) : slot n q = slot n p := by
  rw [slot_eq_iff, h, Nat.add_mod_right]

theorem eq_of_slot_eq (h : slot n p = slot n q) {c : ℕ} (hp : c ≤ p.toNat) (hp' : p.toNat < c + n)
    (hq : c ≤ q.toNat) (hq' : q.toNat < c + n) : p = q := by
  have hmod : p.toNat ≡ q.toNat [MOD n] := slot_eq_iff.mp h
  apply UInt64.toNat_inj.mp
  rcases Nat.le_total p.toNat q.toNat with hle | hle
  · have hdvd := (Nat.modEq_iff_dvd' hle).mp hmod
    have hzero := Nat.eq_zero_of_dvd_of_lt hdvd (by omega)
    omega
  · have hdvd := (Nat.modEq_iff_dvd' hle).mp hmod.symm
    have hzero := Nat.eq_zero_of_dvd_of_lt hdvd (by omega)
    omega

theorem lookup_eq_some_iff : r.lookup p = some x ↔ r.tags (slot n p) = p ∧ r.cells (slot n p) = x := by
  rw [lookup, Option.ite_none_right_eq_some, Option.some.injEq]

theorem lookup_eq_none_iff : r.lookup p = none ↔ r.tags (slot n p) ≠ p := by
  rw [lookup, ite_eq_right_iff]
  constructor
  · intro h ht
    cases h ht
  · intro h ht
    exact absurd ht h

theorem lookup_store_self : (r.store p x).lookup p = some x := by
  rw [lookup_eq_some_iff, store]
  exact ⟨Function.update_self _ _ _, Function.update_self _ _ _⟩

theorem lookup_store_of_slot_ne (h : slot n q ≠ slot n p) : (r.store p x).lookup q = r.lookup q := by
  simp only [lookup, store, Function.update_of_ne h]

theorem lookup_eq_none_of_slot_eq {y : α} (h : r.lookup p = some y) (hslot : slot n q = slot n p)
    (hne : q ≠ p) : r.lookup q = none := by
  rw [lookup_eq_none_iff, hslot, (lookup_eq_some_iff.mp h).1]
  exact hne.symm

end TaggedRing

end NumarkNS6.Foundation
