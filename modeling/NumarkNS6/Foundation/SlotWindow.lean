import NumarkNS6.Foundation.Runs
import Mathlib.Data.List.Nodup
import Mathlib.Data.List.Range
import Mathlib.Data.UInt

namespace NumarkNS6.Foundation.SlotWindow

open Runs

variable {δ ρ α : Type}

structure Slot (δ ρ : Type) where
  data : δ
  inFlight : Bool
  completed : Bool
  report : ρ
  sequence : UInt64

namespace Slot

def busy (s : Slot δ ρ) : Bool := s.inFlight || s.completed

def issue (s : Slot δ ρ) (n : UInt64) : Slot δ ρ := { s with sequence := n, inFlight := true }

def refuse (s : Slot δ ρ) (n : UInt64) : Slot δ ρ := { s with sequence := n, inFlight := false }

def finish (s : Slot δ ρ) (d : δ) (r : ρ) : Slot δ ρ :=
  { s with data := d, inFlight := false, completed := true, report := r }

def retire (s : Slot δ ρ) : Slot δ ρ := { s with completed := false }

end Slot

/-- An accepted request: the slot that carries it, how many requests had been
processed when it was made, and what it was answered. -/
structure Request (α : Type) where
  slot : ℕ
  after : ℕ
  answer : Option α

def next (slots : List (Slot δ ρ)) (n : UInt64) : Option ℕ :=
  slots.findIdx? fun s ↦ s.completed && s.sequence == n

def answers (requests : List (Request α)) (n : ℕ) : List α :=
  (requests.take n).filterMap (·.answer)

def Stands (Q : δ → ρ → α → Prop) (s : Slot δ ρ) : Option α → Prop
  | none => s.inFlight = true ∧ s.completed = false
  | some a => s.inFlight = false ∧ s.completed = true ∧ Q s.data s.report a

/-- The requests from number `first` on are carried by the slots of `order`,
one each; every other slot is idle and every earlier request is answered. -/
structure Window (Q : δ → ρ → α → Prop) (slots : List (Slot δ ρ)) (requests : List (Request α))
    (first : ℕ) (order : List ℕ) : Prop where
  nodup : order.Nodup
  length : requests.length = first + order.length
  idle : ∀ (i : ℕ) (s : Slot δ ρ), slots[i]? = some s → i ∉ order → s.inFlight = false ∧ s.completed = false
  carried : ∀ j i : ℕ, order[j]? = some i → ∃ s r, slots[i]? = some s ∧
    requests[first + j]? = some r ∧ r.slot = i ∧ s.sequence = UInt64.ofNat (first + j) ∧
    Stands Q s r.answer
  answered : ∀ (n : ℕ) (r : Request α), n < first → requests[n]? = some r → r.answer.isSome
  reuse : ∀ (n m : ℕ) (r r' : Request α), n < m → requests[n]? = some r → requests[m]? = some r' →
    r.slot = r'.slot → n < r'.after

theorem answers_succ {requests : List (Request α)} {n : ℕ} {r : Request α} {a : α}
    (hr : requests[n]? = some r) (ha : r.answer = some a) :
    answers requests (n + 1) = answers requests n ++ [a] := by
  simp [answers, List.take_add_one, hr, ha]

theorem answers_set {requests : List (Request α)} {n k : ℕ} (h : n ≤ k) (r : Request α) :
    answers (requests.set k r) n = answers requests n := by
  rw [answers, List.take_set_of_le h, answers]

theorem answers_append {requests : List (Request α)} {n : ℕ} (h : n ≤ requests.length)
    (more : List (Request α)) : answers (requests ++ more) n = answers requests n := by
  rw [answers, List.take_append_of_le_length h, answers]

theorem ofNat_inj_near {a b : ℕ} (h : UInt64.ofNat a = UInt64.ofNat b) (hab : a ≤ b)
    (hb : b < a + 2 ^ 64) : a = b := by
  have ht := congrArg UInt64.toNat h
  rw [UInt64.toNat_ofNat', UInt64.toNat_ofNat'] at ht
  have hmod : a ≡ b [MOD 2 ^ 64] := ht
  have hdvd := (Nat.modEq_iff_dvd' hab).mp hmod
  by_contra hne
  have hle := Nat.le_of_dvd (by omega) hdvd
  omega

theorem ofNat_succ (n : ℕ) : UInt64.ofNat n + 1 = UInt64.ofNat (n + 1) := (UInt64.ofNat_add n 1).symm

variable {Q : δ → ρ → α → Prop} {slots : List (Slot δ ρ)} {requests : List (Request α)}
  {first : ℕ} {order : List ℕ}

theorem window_empty (h : ∀ s ∈ slots, s.inFlight = false ∧ s.completed = false) :
    Window Q slots [] 0 [] where
  nodup := List.nodup_nil
  length := rfl
  idle i s hs _ := h s (List.mem_of_getElem? hs)
  carried j i hj := by simp at hj
  answered n r hn := by omega
  reuse n m r r' _ hr := by simp at hr

namespace Window

theorem mem_lt (h : Window Q slots requests first order) {i : ℕ} (hi : i ∈ order) :
    i < slots.length := by
  obtain ⟨j, hj⟩ := List.getElem?_of_mem hi
  obtain ⟨s, -, hs, -⟩ := h.carried j i hj
  exact (List.getElem?_eq_some_iff.mp hs).1

theorem order_length_le (h : Window Q slots requests first order) :
    order.length ≤ slots.length := by
  have hsub : order ⊆ List.range slots.length := fun i hi ↦ List.mem_range.mpr (h.mem_lt hi)
  simpa using (h.nodup.subperm hsub).length_le

theorem pending (h : Window Q slots requests first order) {n : ℕ} {r : Request α}
    (hr : requests[n]? = some r) (hp : r.answer = none) :
    ∃ j s, n = first + j ∧ order[j]? = some r.slot ∧ slots[r.slot]? = some s ∧
      s.inFlight = true ∧ s.completed = false := by
  have hn : first ≤ n := by
    by_contra hlt
    have := h.answered n r (by omega) hr
    simp [hp] at this
  obtain ⟨j, rfl⟩ := Nat.exists_eq_add_of_le hn
  have hj : j < order.length := by
    have := (List.getElem?_eq_some_iff.mp hr).1
    have := h.length
    omega
  obtain ⟨s, r', hs, hr', hslot, -, hst⟩ := h.carried j _ (List.getElem?_eq_getElem hj)
  rw [hr, Option.some.injEq] at hr'
  subst hr'
  rw [← hslot] at hs
  rw [hp] at hst
  exact ⟨j, s, rfl, by rw [List.getElem?_eq_getElem hj, hslot], hs, hst⟩

theorem idle_not_mem (h : Window Q slots requests first order) {i : ℕ} {s : Slot δ ρ}
    (hs : slots[i]? = some s) (hi : s.inFlight = false) (hc : s.completed = false) :
    i ∉ order := by
  intro hmem
  obtain ⟨j, hj⟩ := List.getElem?_of_mem hmem
  obtain ⟨s', r, hs', -, -, -, hst⟩ := h.carried j i hj
  rw [hs, Option.some.injEq] at hs'
  subst hs'
  cases hr : r.answer with
  | none => rw [hr] at hst; simp [Stands, hi] at hst
  | some a => rw [hr] at hst; simp [Stands, hc] at hst

theorem set_idle (h : Window Q slots requests first order) {i : ℕ} (hi : i ∉ order)
    {s : Slot δ ρ} (hf : s.inFlight = false) (hc : s.completed = false) :
    Window Q (slots.set i s) requests first order := by
  refine ⟨h.nodup, h.length, ?_, ?_, h.answered, h.reuse⟩
  · intro k t ht hk
    rw [List.getElem?_set] at ht
    split_ifs at ht with he hl
    · cases ht; exact ⟨hf, hc⟩
    · exact h.idle k t ht hk
  · intro j k hj
    have hne : i ≠ k := fun he ↦ hi (he ▸ List.mem_of_getElem? hj)
    obtain ⟨t, r, ht, hrest⟩ := h.carried j k hj
    exact ⟨t, r, by rwa [List.getElem?_set_ne hne], hrest⟩

theorem issue (h : Window Q slots requests first order) {i : ℕ} {s : Slot δ ρ}
    (hs : slots[i]? = some s) (hf : s.inFlight = false) (hc : s.completed = false) :
    Window Q (slots.set i (s.issue (UInt64.ofNat requests.length)))
      (requests ++ [⟨i, first, none⟩]) first (order ++ [i]) := by
  have hi := h.idle_not_mem hs hf hc
  have hlt := (List.getElem?_eq_some_iff.mp hs).1
  refine ⟨?_, ?_, ?_, ?_, ?_, ?_⟩
  · rw [List.nodup_append]
    exact ⟨h.nodup, List.nodup_singleton i, fun a ha b hb ↦ by
      rw [List.mem_singleton.mp hb]; exact fun he ↦ hi (he ▸ ha)⟩
  · simp only [List.length_append, List.length_singleton, h.length]
    omega
  · intro k t ht hk
    rw [List.mem_append, List.mem_singleton, not_or] at hk
    rw [List.getElem?_set_ne (Ne.symm hk.2)] at ht
    exact h.idle k t ht hk.1
  · intro j k hj
    rcases getElem?_concat_cases hj with ⟨hjl, hj⟩ | ⟨rfl, rfl⟩
    · have hne : i ≠ k := fun he ↦ hi (he ▸ List.mem_of_getElem? hj)
      obtain ⟨t, r, ht, hr, hrest⟩ := h.carried j k hj
      refine ⟨t, r, by rwa [List.getElem?_set_ne hne], ?_, hrest⟩
      rwa [List.getElem?_append_left (by rw [h.length]; omega)]
    · refine ⟨s.issue (UInt64.ofNat requests.length), ⟨i, first, none⟩, ?_, ?_, rfl, ?_, rfl, hc⟩
      · rw [List.getElem?_set_self hlt]
      · rw [← h.length, List.getElem?_concat_length]
      · rw [← h.length]; rfl
  · intro n r hn hr
    rw [List.getElem?_append_left (by rw [h.length]; omega)] at hr
    exact h.answered n r hn hr
  · intro n m r r' hnm hr hr' hslot
    rcases getElem?_concat_cases hr' with ⟨hm, hr'⟩ | ⟨rfl, rfl⟩
    · rw [List.getElem?_append_left (by omega)] at hr
      exact h.reuse n m r r' hnm hr hr' hslot
    · rw [List.getElem?_append_left hnm] at hr
      -- the slot is idle, so no request of the window is carried by it
      by_contra hge
      obtain ⟨j, rfl⟩ := Nat.exists_eq_add_of_le (show first ≤ n from Nat.le_of_not_lt hge)
      have hj : j < order.length := by have := h.length; omega
      obtain ⟨-, r'', -, hr'', hk, -⟩ := h.carried j _ (List.getElem?_eq_getElem hj)
      rw [hr, Option.some.injEq] at hr''
      subst hr''
      have hik : i = order[j] := hslot.symm.trans hk
      exact hi (hik ▸ List.getElem_mem hj)

theorem finish (h : Window Q slots requests first order) {n : ℕ} {r : Request α} {s : Slot δ ρ}
    (hr : requests[n]? = some r) (hp : r.answer = none) (hs : slots[r.slot]? = some s)
    {d : δ} {p : ρ} {a : α} (hq : Q d p a) :
    Window Q (slots.set r.slot (s.finish d p)) (requests.set n { r with answer := some a })
      first order := by
  obtain ⟨j, -, rfl, hj, -⟩ := h.pending hr hp
  have hlt := (List.getElem?_eq_some_iff.mp hs).1
  have hltr := (List.getElem?_eq_some_iff.mp hr).1
  refine ⟨h.nodup, by rw [List.length_set, h.length], ?_, ?_, ?_, ?_⟩
  · intro k t ht hk
    have hne : r.slot ≠ k := fun he ↦ hk (he ▸ List.mem_of_getElem? hj)
    rw [List.getElem?_set_ne hne] at ht
    exact h.idle k t ht hk
  · intro j' k hj'
    obtain ⟨t, r', ht, hr', hslot, hseq, hst⟩ := h.carried j' k hj'
    by_cases he : j = j'
    · subst he
      rw [hj, Option.some.injEq] at hj'
      subst hj'
      rw [hs, Option.some.injEq] at ht
      subst ht
      exact ⟨s.finish d p, { r with answer := some a }, List.getElem?_set_self hlt,
        List.getElem?_set_self hltr, rfl, hseq, rfl, rfl, hq⟩
    · have hne : r.slot ≠ k := by
        intro hk
        subst hk
        exact he ((List.getElem?_inj (List.getElem?_eq_some_iff.mp hj).1 h.nodup).mp
          (hj.trans hj'.symm))
      exact ⟨t, r', by rwa [List.getElem?_set_ne hne], by
        rwa [List.getElem?_set_ne (by omega)], hslot, hseq, hst⟩
  · intro m r' hm hr'
    rw [List.getElem?_set_ne (by omega)] at hr'
    exact h.answered m r' hm hr'
  · intro m m' q q' hmm hq₁ hq₂ hslot
    have hback : ∀ (k : ℕ) (q : Request α), (requests.set (first + j) { r with answer := some a })[k]? = some q →
        ∃ q', requests[k]? = some q' ∧ q'.slot = q.slot ∧ q'.after = q.after := by
      intro k q hk
      rw [List.getElem?_set] at hk
      split_ifs at hk with he
      · cases hk; exact ⟨r, he ▸ hr, rfl, rfl⟩
      · exact ⟨q, hk, rfl, rfl⟩
    obtain ⟨p₁, h₁, hs₁, -⟩ := hback m q hq₁
    obtain ⟨p₂, h₂, hs₂, ha₂⟩ := hback m' q' hq₂
    rw [← ha₂]
    exact h.reuse m m' p₁ p₂ hmm h₁ h₂ (by rw [hs₁, hs₂, hslot])

theorem swap_idle (h : Window Q slots requests first []) {slots' : List (Slot δ ρ)}
    (hi : ∀ s ∈ slots', s.inFlight = false ∧ s.completed = false) :
    Window Q slots' requests first [] :=
  ⟨h.nodup, h.length, fun _ s hs _ ↦ hi s (List.mem_of_getElem? hs), fun j i hj ↦ by simp at hj,
    h.answered, h.reuse⟩

theorem retire {i : ℕ} {s : Slot δ ρ} (h : Window Q slots requests first (i :: order))
    (hs : slots[i]? = some s) (hf : s.inFlight = false) :
    Window Q (slots.set i s.retire) requests (first + 1) order := by
  have hi : i ∉ order := (List.nodup_cons.mp h.nodup).1
  have hlt := (List.getElem?_eq_some_iff.mp hs).1
  refine ⟨(List.nodup_cons.mp h.nodup).2, ?_, ?_, ?_, ?_, h.reuse⟩
  · rw [h.length, List.length_cons]
    omega
  · intro k t ht hk
    rw [List.getElem?_set] at ht
    split_ifs at ht with he
    · cases ht; exact ⟨hf, rfl⟩
    · exact h.idle k t ht (by simp only [List.mem_cons, not_or]; exact ⟨Ne.symm he, hk⟩)
  · intro j k hj
    have hne : i ≠ k := fun he ↦ hi (he ▸ List.mem_of_getElem? hj)
    obtain ⟨t, r, ht, hr⟩ := h.carried (j + 1) k (by simpa using hj)
    rw [show first + (j + 1) = first + 1 + j by omega] at hr
    exact ⟨t, r, by rwa [List.getElem?_set_ne hne], hr⟩
  · intro n r hn hr
    rcases Nat.lt_or_ge n first with hlt | hge
    · exact h.answered n r hlt hr
    · obtain rfl : n = first := by omega
      obtain ⟨t, r', ht, hr', -, -, hst⟩ := h.carried 0 i rfl
      rw [hs, Option.some.injEq] at ht
      rw [Nat.add_zero, hr, Option.some.injEq] at hr'
      subst ht hr'
      cases ha : r.answer with
      | none => rw [ha] at hst; simp [Stands, hf] at hst
      | some _ => rfl

theorem completed_position (h : Window Q slots requests first order) {i : ℕ} {s : Slot δ ρ}
    (hs : slots[i]? = some s) (hc : s.completed = true) :
    ∃ j, order[j]? = some i ∧ s.sequence = UInt64.ofNat (first + j) := by
  have hi : i ∈ order := by
    by_contra hi
    have := (h.idle i s hs hi).2
    simp [hc] at this
  obtain ⟨j, hj⟩ := List.getElem?_of_mem hi
  obtain ⟨t, r, ht, -, -, hseq, -⟩ := h.carried j i hj
  rw [hs, Option.some.injEq] at ht
  exact ⟨j, hj, ht ▸ hseq⟩

/-- The search finds the slot at the head of the window and no other. -/
theorem next_some (h : Window Q slots requests first order) (hn : slots.length < 2 ^ 64) {i : ℕ}
    (hi : next slots (UInt64.ofNat first) = some i) :
    ∃ rest s r a, order = i :: rest ∧ slots[i]? = some s ∧ s.sequence = UInt64.ofNat first ∧
      s.inFlight = false ∧ requests[first]? = some r ∧ r.answer = some a ∧ Q s.data s.report a := by
  obtain ⟨hlt, hp, -⟩ := List.findIdx?_eq_some_iff_getElem.mp hi
  simp only [Bool.and_eq_true, beq_iff_eq] at hp
  obtain ⟨j, hj, hseq⟩ := h.completed_position (List.getElem?_eq_getElem hlt) hp.1
  have hj0 : first = first + j := by
    refine ofNat_inj_near (hp.2.symm.trans hseq) (by omega) ?_
    have := (List.getElem?_eq_some_iff.mp hj).1
    have := h.order_length_le
    omega
  obtain rfl : j = 0 := by omega
  obtain ⟨s, r, hs, hr, -, hseq', hst⟩ := h.carried 0 i hj
  rw [List.getElem?_eq_getElem hlt, Option.some.injEq] at hs
  subst hs
  cases ha : r.answer with
  | none => rw [ha] at hst; simp [Stands, hp.1] at hst
  | some a =>
    rw [ha] at hst
    cases order with
    | nil => simp at hj
    | cons k rest =>
      obtain rfl : k = i := by simpa using hj
      exact ⟨rest, _, r, a, rfl, List.getElem?_eq_getElem hlt, hp.2, hst.1, hr, ha, hst.2.2⟩

theorem next_none (h : Window Q slots requests first order)
    (hi : next slots (UInt64.ofNat first) = none) {i : ℕ} (hj : order[0]? = some i) :
    ∃ s, slots[i]? = some s ∧ s.inFlight = true := by
  obtain ⟨s, r, hs, -, -, hseq, hst⟩ := h.carried 0 i hj
  refine ⟨s, hs, ?_⟩
  have hc := List.findIdx?_eq_none_iff.mp hi s (List.mem_of_getElem? hs)
  cases ha : r.answer with
  | none => rw [ha] at hst; exact hst.1
  | some a =>
    rw [ha] at hst
    rw [Nat.add_zero] at hseq
    simp [hst.2.1, hseq] at hc

theorem eq_nil (h : Window Q slots requests first order)
    (hi : next slots (UInt64.ofNat first) = none) (hf : ∀ s ∈ slots, s.inFlight = false) :
    order = [] := by
  cases order with
  | nil => rfl
  | cons i rest =>
    obtain ⟨s, hs, hfly⟩ := h.next_none hi rfl
    simp [hf s (List.mem_of_getElem? hs)] at hfly

theorem busy_iff (h : Window Q slots requests first order) {i : ℕ} {s : Slot δ ρ}
    (hs : slots[i]? = some s) : s.busy = true ↔ i ∈ order := by
  constructor
  · intro hb
    by_contra hi
    obtain ⟨h₁, h₂⟩ := h.idle i s hs hi
    simp [Slot.busy, h₁, h₂] at hb
  · intro hi
    by_contra hb
    simp only [Slot.busy, Bool.or_eq_true, not_or, Bool.not_eq_true] at hb
    exact h.idle_not_mem hs hb.1 hb.2 hi

theorem sequence_iff (h : Window Q slots requests first order) (n : UInt64) :
    (∃ s ∈ slots, s.busy = true ∧ s.sequence = n) ↔
      ∃ j < order.length, n = UInt64.ofNat (first + j) := by
  constructor
  · rintro ⟨s, hmem, hb, rfl⟩
    obtain ⟨i, hs⟩ := List.getElem?_of_mem hmem
    obtain ⟨j, hj⟩ := List.getElem?_of_mem ((h.busy_iff hs).mp hb)
    obtain ⟨t, r, ht, -, -, hseq, -⟩ := h.carried j i hj
    rw [hs, Option.some.injEq] at ht
    exact ⟨j, (List.getElem?_eq_some_iff.mp hj).1, ht ▸ hseq⟩
  · rintro ⟨j, hj, rfl⟩
    obtain ⟨s, r, hs, -, -, hseq, -⟩ := h.carried j _ (List.getElem?_eq_getElem hj)
    exact ⟨s, List.mem_of_getElem? hs, (h.busy_iff hs).mpr (List.getElem_mem hj), hseq⟩

theorem sequence_inj (h : Window Q slots requests first order) (hn : slots.length < 2 ^ 64)
    {i k : ℕ} {s t : Slot δ ρ} (hs : slots[i]? = some s) (ht : slots[k]? = some t)
    (hbs : s.busy = true) (hbt : t.busy = true) (he : s.sequence = t.sequence) : i = k := by
  obtain ⟨j, hj⟩ := List.getElem?_of_mem ((h.busy_iff hs).mp hbs)
  obtain ⟨l, hl⟩ := List.getElem?_of_mem ((h.busy_iff ht).mp hbt)
  obtain ⟨s', r, hs', -, -, hseq, -⟩ := h.carried j i hj
  obtain ⟨t', r', ht', -, -, hseq', -⟩ := h.carried l k hl
  rw [hs, Option.some.injEq] at hs'
  rw [ht, Option.some.injEq] at ht'
  subst hs' ht'
  have hjl := (List.getElem?_eq_some_iff.mp hj).1
  have hll := (List.getElem?_eq_some_iff.mp hl).1
  have hlen := h.order_length_le
  have heq : UInt64.ofNat (first + j) = UInt64.ofNat (first + l) := by rw [← hseq, ← hseq', he]
  have hjl' : j = l := by
    rcases Nat.le_total j l with hle | hle
    · have := ofNat_inj_near heq (by omega) (by omega); omega
    · have := ofNat_inj_near heq.symm (by omega) (by omega); omega
  subst hjl'
  exact Option.some.inj (hj.symm.trans hl)

theorem answers_length (h : Window Q slots requests first order) :
    (answers requests first).length = first := by
  have hle : first ≤ requests.length := by have := h.length; omega
  have hall : ∀ r ∈ requests.take first, r.answer.isSome := by
    intro r hr
    obtain ⟨n, hn⟩ := List.getElem?_of_mem hr
    have hlt := (List.getElem?_eq_some_iff.mp hn).1
    rw [List.length_take] at hlt
    rw [List.getElem?_take_of_lt (by omega)] at hn
    exact h.answered n r (by omega) hn
  rw [answers, List.length_filterMap_eq_countP, List.countP_eq_length.mpr hall, List.length_take]
  omega

theorem full (h : Window Q slots requests first order) (hl : order.length = slots.length)
    {s : Slot δ ρ} (hs : s ∈ slots) : s.busy = true := by
  obtain ⟨i, hi⟩ := List.getElem?_of_mem hs
  have hsub : order ⊆ List.range slots.length := fun i hi ↦ List.mem_range.mpr (h.mem_lt hi)
  have hperm := (h.nodup.subperm hsub).perm_of_length_le (by simp [hl])
  rw [h.busy_iff hi, hperm.mem_iff, List.mem_range]
  exact (List.getElem?_eq_some_iff.mp hi).1

end Window

end NumarkNS6.Foundation.SlotWindow
