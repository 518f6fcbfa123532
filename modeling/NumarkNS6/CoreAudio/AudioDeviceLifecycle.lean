import Mathlib.Algebra.Order.BigOperators.Group.List
import Mathlib.Algebra.Order.Ring.Nat
import Mathlib.Data.UInt
import NumarkNS6.Foundation.SlotBag

namespace NumarkNS6.CoreAudio

open Foundation.SlotBag

structure AudioClientLifecycle.Client where
  id : UInt32
  starts : UInt32
deriving DecidableEq

/-- The started clients of one device: sixty-four counted slots and their sum. -/
structure AudioClientLifecycle where
  clients : List AudioClientLifecycle.Client
  activeStarts : UInt64
deriving DecidableEq

namespace AudioClientLifecycle

def clientCapacity : ℕ := 64

def maximumStarts : UInt32 := 0xffffffff

def fresh : AudioClientLifecycle := ⟨List.replicate clientCapacity ⟨0, 0⟩, 0⟩

/-- The scan of `start`: the slot that counts the client, and the first free
slot met before it. -/
def scan (clientID : UInt32) : List Client → ℕ → Option ℕ → Option ℕ × Option ℕ
  | [], _, freeSlot => (none, freeSlot)
  | client :: rest, i, freeSlot =>
    if client.starts = 0 then scan clientID rest (i + 1) (freeSlot <|> some i)
    else if client.id = clientID then (some i, freeSlot)
    else scan clientID rest (i + 1) freeSlot

def slot (l : AudioClientLifecycle) (i : ℕ) : Client := l.clients.getD i ⟨0, 0⟩

def start (l : AudioClientLifecycle) (clientID : UInt32) : Bool × AudioClientLifecycle :=
  match scan clientID l.clients 0 none with
  | (some i, _) =>
    let client := l.slot i
    if client.starts = maximumStarts then (false, l)
    else (true, ⟨l.clients.set i { client with starts := client.starts + 1 }, l.activeStarts + 1⟩)
  | (none, some i) => (true, ⟨l.clients.set i ⟨clientID, 1⟩, l.activeStarts + 1⟩)
  | (none, none) => (false, l)

def find (l : AudioClientLifecycle) (clientID : UInt32) : Option ℕ :=
  l.clients.findIdx? fun client ↦ !(client.starts = 0 || client.id ≠ clientID)

def stop (l : AudioClientLifecycle) (clientID : UInt32) : Bool × AudioClientLifecycle :=
  match l.find clientID with
  | none => (false, l)
  | some i =>
    let client := l.slot i
    let starts := client.starts - 1
    (true, ⟨l.clients.set i ⟨if starts = 0 then 0 else client.id, starts⟩, l.activeStarts - 1⟩)

def removeClient (l : AudioClientLifecycle) (clientID : UInt32) : Bool × AudioClientLifecycle :=
  match l.find clientID with
  | none => (false, l)
  | some i => (true, ⟨l.clients.set i ⟨0, 0⟩, l.activeStarts - (l.slot i).starts.toUInt64⟩)

def held (l : AudioClientLifecycle) : Multiset UInt32 := bag Client.id (·.starts.toNat) l.clients

def Counts (l : AudioClientLifecycle) (clientID : UInt32) (i : ℕ) (client : Client) : Prop :=
  l.clients[i]? = some client ∧ client.starts ≠ 0 ∧ client.id = clientID

structure Valid (l : AudioClientLifecycle) : Prop where
  length : l.clients.length = clientCapacity
  separated : Separated Client.id (·.starts.toNat) l.clients
  idle : ∀ (i : ℕ) (c : Client), l.clients[i]? = some c → c.starts = 0 → c.id = 0
  total : l.activeStarts.toNat = l.held.card

variable {l : AudioClientLifecycle} {clientID : UInt32} {i : ℕ} {c : Client}

section Starts

variable {n : UInt32}

theorem starts_toNat : n.toNat ≠ 0 ↔ n ≠ 0 :=
  not_congr ⟨fun h ↦ UInt32.toNat.inj h, fun h ↦ h ▸ rfl⟩

theorem starts_succ (h : n ≠ maximumStarts) : (n + 1).toNat = n.toNat + 1 := by
  have hlt : n.toNat ≠ 2 ^ 32 - 1 := fun he ↦ h (UInt32.toNat.inj he)
  have := n.toNat_lt
  rw [UInt32.toNat_add]
  exact Nat.mod_eq_of_lt (by simp; omega)

theorem starts_succ_ne_zero (h : n ≠ maximumStarts) : n + 1 ≠ 0 :=
  starts_toNat.1 (by rw [starts_succ h]; omega)

theorem starts_pred (h : n ≠ 0) : n.toNat = (n - 1).toNat + 1 := by
  have h₀ := starts_toNat.2 h
  have hle : 1 ≤ n := by
    rw [UInt32.le_iff_toNat_le]
    exact Nat.one_le_iff_ne_zero.2 h₀
  rw [UInt32.toNat_sub_of_le _ _ hle]
  exact (Nat.succ_pred_eq_of_ne_zero h₀).symm

end Starts

theorem mem_held : clientID ∈ l.held ↔ ∃ i c, l.Counts clientID i c := by
  simp only [held, mem_bag, starts_toNat, Counts]

theorem slot_eq (h : l.clients[i]? = some c) : l.slot i = c := by
  rw [slot, List.getD_eq_getElem?_getD, h, Option.getD_some]

theorem find_some (h : l.find clientID = some i) : ∃ c, l.Counts clientID i c := by
  rw [find, List.findIdx?_eq_some_iff_getElem] at h
  obtain ⟨hi, hc, -⟩ := h
  refine ⟨l.clients.get ⟨i, hi⟩, List.getElem?_eq_getElem hi, ?_⟩
  simpa using hc

theorem find_none (h : l.find clientID = none) : clientID ∉ l.held := by
  rw [mem_held]
  rintro ⟨i, c, hc, h₀, hid⟩
  have := List.findIdx?_eq_none_iff.1 h c (List.mem_of_getElem? hc)
  simp [h₀, hid] at this

theorem scan_fst (clients : List Client) (k : ℕ) (freeSlot : Option ℕ) :
    (∃ i c, clients[i]? = some c ∧ c.starts ≠ 0 ∧ c.id = clientID ∧
      (scan clientID clients k freeSlot).1 = some (k + i)) ∨
    (∀ c ∈ clients, c.starts ≠ 0 → c.id ≠ clientID) ∧
      (scan clientID clients k freeSlot).1 = none := by
  induction clients generalizing k freeSlot with
  | nil => exact .inr ⟨by simp, rfl⟩
  | cons d rest ih =>
    simp only [scan]
    split_ifs with h₀ hid
    · rcases ih (k + 1) (freeSlot <|> some k) with ⟨i, c, hc, hact, heq, hs⟩ | ⟨hall, hs⟩
      · exact .inl ⟨i + 1, c, hc, hact, heq, by rw [hs]; congr 1; omega⟩
      · exact .inr ⟨by simpa [h₀] using hall, hs⟩
    · exact .inl ⟨0, d, rfl, h₀, hid, rfl⟩
    · rcases ih (k + 1) freeSlot with ⟨i, c, hc, hact, heq, hs⟩ | ⟨hall, hs⟩
      · exact .inl ⟨i + 1, c, hc, hact, heq, by rw [hs]; congr 1; omega⟩
      · exact .inr ⟨by simpa [hid] using hall, hs⟩

theorem scan_snd {clients : List Client} {k : ℕ} {freeSlot : Option ℕ}
    (h : (scan clientID clients k freeSlot).1 = none) :
    (scan clientID clients k freeSlot).2 =
      (freeSlot <|> (clients.findIdx? (·.starts = 0)).map (k + ·)) := by
  induction clients generalizing k freeSlot with
  | nil => simp [scan]
  | cons d rest ih =>
    simp only [scan] at h ⊢
    split_ifs at h ⊢ with h₀ hid
    · rw [ih h, List.findIdx?_cons, h₀]
      cases freeSlot <;> rfl
    · rw [ih h, List.findIdx?_cons, if_neg (by simpa using h₀), Option.map_map]
      have hshift : (k + 1 + ·) = (k + ·) ∘ (· + 1) := funext (Nat.succ_add_eq_add_succ k)
      rw [hshift]

/-- What `start` can do: refuse a full slot or a full table, count one more
start, or open a slot. -/
theorem start_cases (l : AudioClientLifecycle) (clientID : UInt32) :
    (∃ i c, l.Counts clientID i c ∧ c.starts = maximumStarts ∧ l.start clientID = (false, l)) ∨
    (∃ i c, l.Counts clientID i c ∧ c.starts ≠ maximumStarts ∧ l.start clientID =
      (true, ⟨l.clients.set i ⟨clientID, c.starts + 1⟩, l.activeStarts + 1⟩)) ∨
    (clientID ∉ l.held ∧ ∃ i c, l.clients[i]? = some c ∧ c.starts = 0 ∧ l.start clientID =
      (true, ⟨l.clients.set i ⟨clientID, 1⟩, l.activeStarts + 1⟩)) ∨
    (clientID ∉ l.held ∧ (∀ c ∈ l.clients, c.starts ≠ 0) ∧ l.start clientID = (false, l)) := by
  have hsnd := @scan_snd clientID l.clients 0 none
  rcases @scan_fst clientID l.clients 0 none with ⟨i, c, hc, hact, rfl, hs⟩ | ⟨hall, hs⟩
  · have hscan : scan c.id l.clients 0 none = (some i, (scan c.id l.clients 0 none).2) :=
      Prod.ext (by rw [hs, Nat.zero_add]) rfl
    have hstart : l.start c.id = if c.starts = maximumStarts then (false, l) else
        (true, ⟨l.clients.set i ⟨c.id, c.starts + 1⟩, l.activeStarts + 1⟩) := by
      rw [start, hscan]
      simp only [slot_eq hc]
    by_cases hmax : c.starts = maximumStarts
    · exact .inl ⟨i, c, ⟨hc, hact, rfl⟩, hmax, by rw [hstart, if_pos hmax]⟩
    · exact .inr (.inl ⟨i, c, ⟨hc, hact, rfl⟩, hmax, by rw [hstart, if_neg hmax]⟩)
  · have hmem : clientID ∉ l.held := by
      rw [mem_held]
      rintro ⟨i, c, hc, hact, hid⟩
      exact hall c (List.mem_of_getElem? hc) hact hid
    have hscan : scan clientID l.clients 0 none = (none, l.clients.findIdx? (·.starts = 0)) :=
      Prod.ext hs (by rw [hsnd hs]; simp)
    cases hfree : l.clients.findIdx? (·.starts = 0) with
    | none =>
      refine .inr (.inr (.inr ⟨hmem, ?_, ?_⟩))
      · intro c hc
        simpa using List.findIdx?_eq_none_iff.1 hfree c hc
      · simp [start, hscan, hfree]
    | some i =>
      obtain ⟨hi, hidle, -⟩ := List.findIdx?_eq_some_iff_getElem.1 hfree
      refine .inr (.inr (.inl ⟨hmem, i, _, List.getElem?_eq_getElem hi, by simpa using hidle, ?_⟩))
      simp [start, hscan, hfree]

theorem stop_cases (l : AudioClientLifecycle) (clientID : UInt32) :
    (clientID ∉ l.held ∧ l.stop clientID = (false, l)) ∨
    (∃ i c, l.Counts clientID i c ∧ l.stop clientID = (true, ⟨l.clients.set i
      ⟨if c.starts - 1 = 0 then 0 else c.id, c.starts - 1⟩, l.activeStarts - 1⟩)) := by
  cases h : l.find clientID with
  | none => exact .inl ⟨find_none h, by simp only [stop, h]⟩
  | some i =>
    obtain ⟨c, hc⟩ := find_some h
    exact .inr ⟨i, c, hc, by simp only [stop, h, slot_eq hc.1]⟩

theorem removeClient_cases (l : AudioClientLifecycle) (clientID : UInt32) :
    (clientID ∉ l.held ∧ l.removeClient clientID = (false, l)) ∨
    (∃ i c, l.Counts clientID i c ∧ l.removeClient clientID =
      (true, ⟨l.clients.set i ⟨0, 0⟩, l.activeStarts - c.starts.toUInt64⟩)) := by
  cases h : l.find clientID with
  | none => exact .inl ⟨find_none h, by simp only [removeClient, h]⟩
  | some i =>
    obtain ⟨c, hc⟩ := find_some h
    exact .inr ⟨i, c, hc, by simp only [removeClient, h, slot_eq hc.1]⟩

theorem held_set (hi : l.clients[i]? = some c) (d : Client) (n : UInt64) :
    held ⟨l.clients.set i d, n⟩ + Multiset.replicate c.starts.toNat c.id =
      l.held + Multiset.replicate d.starts.toNat d.id := bag_set hi d

section Held

variable (hc : l.Counts clientID i c) (n : UInt64)
include hc

theorem held_count (hmax : c.starts ≠ maximumStarts) :
    held ⟨l.clients.set i ⟨clientID, c.starts + 1⟩, n⟩ = clientID ::ₘ l.held := by
  obtain ⟨hi, -, rfl⟩ := hc
  have hset := held_set hi ⟨c.id, c.starts + 1⟩ n
  simp only [starts_succ hmax, Multiset.replicate_succ, Multiset.add_cons, ← Multiset.cons_add] at hset
  exact add_right_cancel hset

theorem held_stop :
    clientID ::ₘ held ⟨l.clients.set i ⟨if c.starts - 1 = 0 then 0 else c.id, c.starts - 1⟩, n⟩ =
      l.held := by
  obtain ⟨hi, h₀, rfl⟩ := hc
  have hrep : Multiset.replicate (c.starts - 1).toNat (if c.starts - 1 = 0 then 0 else c.id) =
      Multiset.replicate (c.starts - 1).toNat c.id := by
    split_ifs with h
    · rw [h]
      rfl
    · rfl
  have hset := held_set hi ⟨if c.starts - 1 = 0 then 0 else c.id, c.starts - 1⟩ n
  simp only [hrep, starts_pred h₀, Multiset.replicate_succ, Multiset.add_cons, ← Multiset.cons_add] at hset
  exact add_right_cancel hset

end Held

theorem held_open (hi : l.clients[i]? = some c) (h₀ : c.starts = 0) (n : UInt64) :
    held ⟨l.clients.set i ⟨clientID, 1⟩, n⟩ = clientID ::ₘ l.held := by
  have hset := held_set hi ⟨clientID, 1⟩ n
  simp only [h₀, UInt32.toNat_zero, Multiset.replicate_zero, add_zero] at hset
  rw [hset, add_comm]
  rfl

/-- The sum of sixty-four 32-bit counts is far from wrapping. -/
theorem Valid.card_lt (h : l.Valid) : l.held.card < 2 ^ 40 := by
  have hle : ∀ n ∈ l.clients.map (·.starts.toNat), n ≤ 2 ^ 32 := by
    intro n hn
    obtain ⟨c, -, rfl⟩ := List.mem_map.1 hn
    exact c.starts.toNat_lt.le
  have hsum := List.sum_le_card_nsmul _ _ hle
  rw [List.length_map, h.length, nsmul_eq_mul] at hsum
  rw [held, card_bag]
  exact lt_of_le_of_lt hsum (by decide)

theorem Valid.set (h : l.Valid) (d : Client) {n : UInt64}
    (hd : d.starts ≠ 0 → ∀ j e, l.Counts d.id j e → j = i) (hidle : d.starts = 0 → d.id = 0)
    (hn : n.toNat = (held ⟨l.clients.set i d, n⟩).card) : Valid ⟨l.clients.set i d, n⟩ := by
  refine ⟨by rw [List.length_set, h.length], ?_, ?_, hn⟩
  · refine h.separated.set fun hd₀ j e he he₀ hid ↦ ?_
    exact hd (starts_toNat.1 hd₀) j e ⟨he, starts_toNat.1 he₀, hid⟩
  · intro j e he h₀
    rcases getElem?_set_cases he with ⟨-, rfl⟩ | ⟨-, he'⟩
    · exact hidle h₀
    · exact h.idle j e he' h₀

theorem Valid.counts_inj (h : l.Valid) {j : ℕ} {d : Client} (hc : l.Counts clientID i c)
    (hd : l.Counts clientID j d) : j = i :=
  h.separated j i d c hd.1 hc.1 (starts_toNat.2 hd.2.1) (starts_toNat.2 hc.2.1)
    (hd.2.2.trans hc.2.2.symm)

theorem Valid.count_held (h : l.Valid) (hc : l.Counts clientID i c) :
    l.held.count clientID = c.starts.toNat := by
  obtain ⟨hi, h₀, rfl⟩ := hc
  exact h.separated.count_bag hi (starts_toNat.2 h₀) (show (⟨0, 0⟩ : Client).starts.toNat = 0 from rfl)

theorem Valid.start (h : l.Valid) (clientID : UInt32) : (l.start clientID).2.Valid ∧
    ((l.start clientID).1 = false ∧ (l.start clientID).2 = l ∨
      (l.start clientID).1 = true ∧ l.held.count clientID < maximumStarts.toNat ∧
      (l.start clientID).2.held = clientID ::ₘ l.held) := by
  have hsucc : (l.activeStarts + 1).toNat = l.held.card + 1 := by
    have := h.card_lt
    rw [UInt64.toNat_add, h.total]
    exact Nat.mod_eq_of_lt (by simp; omega)
  rcases start_cases l clientID with ⟨i, c, hc, hmax, hs⟩ | ⟨i, c, hc, hmax, hs⟩ |
    ⟨hmem, i, c, hi, h₀, hs⟩ | ⟨hmem, hfull, hs⟩ <;> rw [hs]
  · exact ⟨h, .inl ⟨rfl, rfl⟩⟩
  · have hheld := held_count hc (l.activeStarts + 1) hmax
    have hlt : l.held.count clientID < maximumStarts.toNat := by
      rw [h.count_held hc]
      exact lt_of_le_of_ne (Nat.le_of_lt_succ c.starts.toNat_lt) fun he ↦ hmax (UInt32.toNat.inj he)
    refine ⟨h.set _ (fun _ j e he ↦ h.counts_inj hc he) (fun h₀ ↦ ?_) ?_,
      .inr ⟨rfl, hlt, hheld⟩⟩
    · exact absurd h₀ (starts_succ_ne_zero hmax)
    · rw [hsucc, hheld, Multiset.card_cons]
  · have hheld := @held_open l clientID i c hi h₀ (l.activeStarts + 1)
    have hlt : l.held.count clientID < maximumStarts.toNat := by
      rw [Multiset.count_eq_zero.2 hmem]
      decide
    refine ⟨h.set _ (fun _ j e he ↦ ?_) (fun h₁ ↦ ?_) ?_, .inr ⟨rfl, hlt, hheld⟩⟩
    · exact absurd (mem_held.2 ⟨j, e, he⟩) hmem
    · cases h₁
    · rw [hsucc, hheld, Multiset.card_cons]
  · exact ⟨h, .inl ⟨rfl, rfl⟩⟩

theorem Valid.stop (h : l.Valid) (clientID : UInt32) : (l.stop clientID).2.Valid ∧
    (clientID ∉ l.held ∧ l.stop clientID = (false, l) ∨
      (l.stop clientID).1 = true ∧ clientID ::ₘ (l.stop clientID).2.held = l.held) := by
  rcases stop_cases l clientID with ⟨hmem, hs⟩ | ⟨i, c, hc, hs⟩ <;> rw [hs]
  · exact ⟨h, .inl ⟨hmem, rfl⟩⟩
  · have hheld := held_stop hc (l.activeStarts - 1)
    refine ⟨h.set _ (fun h₀ j e he ↦ ?_) (fun h₀ ↦ if_pos h₀) ?_, .inr ⟨rfl, hheld⟩⟩
    · rw [show (if c.starts - 1 = 0 then 0 else c.id) = c.id from if_neg h₀, hc.2.2] at he
      exact h.counts_inj hc he
    · have hcard := congrArg Multiset.card hheld
      rw [Multiset.card_cons, ← h.total] at hcard
      rw [UInt64.toNat_sub_of_le _ _ (by rw [UInt64.le_iff_toNat_le, ← hcard]; exact Nat.le_add_left 1 _)]
      exact Nat.sub_eq_of_eq_add hcard.symm

theorem Valid.removeClient (h : l.Valid) (clientID : UInt32) : (l.removeClient clientID).2.Valid ∧
    (clientID ∉ l.held ∧ l.removeClient clientID = (false, l) ∨ clientID ∈ l.held ∧
      (l.removeClient clientID).1 = true ∧
      (l.removeClient clientID).2.held = l.held.filter (· ≠ clientID)) := by
  rcases removeClient_cases l clientID with ⟨hmem, hs⟩ | ⟨i, c, hc, hs⟩ <;> rw [hs]
  · exact ⟨h, .inl ⟨hmem, rfl⟩⟩
  · have hheld : held ⟨l.clients.set i ⟨0, 0⟩, l.activeStarts - c.starts.toUInt64⟩ =
        l.held.filter (· ≠ clientID) := by
      rw [← hc.2.2]
      exact h.separated.bag_clear hc.1 (starts_toNat.2 hc.2.1) rfl
    refine ⟨h.set _ (fun h₀ ↦ absurd rfl h₀) (fun _ ↦ rfl) ?_, .inr ⟨mem_held.2 ⟨i, c, hc⟩, rfl, hheld⟩⟩
    have hcard := congrArg Multiset.card
      (held_set hc.1 ⟨0, 0⟩ (l.activeStarts - c.starts.toUInt64))
    rw [Multiset.card_add, Multiset.card_add, Multiset.card_replicate, ← h.total] at hcard
    have hle : c.starts.toUInt64 ≤ l.activeStarts := by
      rw [UInt64.le_iff_toNat_le, UInt32.toNat_toUInt64]
      exact (Nat.le_add_left _ _).trans_eq hcard
    rw [UInt64.toNat_sub_of_le _ _ hle, UInt32.toNat_toUInt64]
    exact Nat.sub_eq_of_eq_add hcard.symm

theorem valid_fresh : Valid fresh := by
  have hslot (i : ℕ) (c : Client) (h : fresh.clients[i]? = some c) : c = ⟨0, 0⟩ :=
    List.eq_of_mem_replicate (List.mem_of_getElem? h)
  refine ⟨List.length_replicate, ?_, ?_, ?_⟩
  · intro i j a b ha _ ha₀ _ _
    exact absurd (hslot i a ha ▸ rfl) ha₀
  · intro i c hc _
    rw [hslot i c hc]
  · rw [held, card_bag]
    decide

theorem Valid.activeStarts_eq_zero (h : l.Valid) : l.activeStarts = 0 ↔ l.held = 0 := by
  rw [← Multiset.card_eq_zero, ← h.total]
  exact ⟨fun h₀ ↦ h₀ ▸ rfl, fun h₀ ↦ UInt64.toNat.inj h₀⟩

theorem set_of_getElem? (h : l.clients[i]? = some c) : l.clients.set i c = l.clients := by
  obtain ⟨hi, rfl⟩ := List.getElem?_eq_some_iff.1 h
  exact List.set_getElem_self hi

theorem Valid.stop_set {d : Client} {n : UInt64} (h : Valid ⟨l.clients.set i d, n⟩)
    (hi : l.clients[i]? = some c) (hd : d.starts ≠ 0)
    (hback : (⟨if d.starts - 1 = 0 then 0 else d.id, d.starts - 1⟩ : Client) = c) :
    AudioClientLifecycle.stop ⟨l.clients.set i d, n⟩ d.id = (true, ⟨l.clients, n - 1⟩) := by
  have hslot : Counts ⟨l.clients.set i d, n⟩ d.id i d := by
    obtain ⟨hlt, -⟩ := List.getElem?_eq_some_iff.1 hi
    exact ⟨List.getElem?_set_self hlt, hd, rfl⟩
  rcases stop_cases ⟨l.clients.set i d, n⟩ d.id with ⟨hmem, -⟩ | ⟨j, e, he, hs⟩
  · exact absurd (mem_held.2 ⟨i, d, hslot⟩) hmem
  · have hj := h.counts_inj hslot he
    subst hj
    have hed : e = d := Option.some.inj (he.1.symm.trans hslot.1)
    subst hed
    rw [hs, List.set_set, hback, set_of_getElem? hi]

theorem Valid.stop_start (h : l.Valid) (hs : (l.start clientID).1 = true) :
    (l.start clientID).2.stop clientID = (true, l) := by
  have hv := (h.start clientID).1
  have hpred : l.activeStarts + 1 - 1 = l.activeStarts := by simp
  rcases start_cases l clientID with ⟨i, c, hc, hmax, he⟩ | ⟨i, c, hc, hmax, he⟩ |
    ⟨hmem, i, c, hi, h₀, he⟩ | ⟨hmem, hfull, he⟩ <;> rw [he] at hs hv ⊢
  · cases hs
  · obtain ⟨hi, hact, rfl⟩ := hc
    have hback : c.starts + 1 - 1 = c.starts := by simp
    rw [hv.stop_set hi (starts_succ_ne_zero hmax) (by simp only [hback, if_neg hact]), hpred]
  · have hidle : c = ⟨0, 0⟩ := congrArg₂ Client.mk (h.idle i c hi h₀) h₀
    rw [hv.stop_set hi (by decide : (1 : UInt32) ≠ 0) (by rw [hidle]; simp), hpred]
  · cases hs

end AudioClientLifecycle

inductive AudioIOTransition
  | rejected
  | firstClientStarted
  | additionalClientStarted
  | clientStoppedStillActive
  | lastClientStopped
  | clientNotActive
deriving DecidableEq

structure AudioDeviceLifecycle where
  clients : AudioClientLifecycle
deriving DecidableEq

namespace AudioDeviceLifecycle

def activeStarts (d : AudioDeviceLifecycle) : UInt64 := d.clients.activeStarts

def startIo (d : AudioDeviceLifecycle) (clientID : UInt32) :
    AudioIOTransition × AudioDeviceLifecycle :=
  let wasIdle := d.clients.activeStarts = 0
  let started := d.clients.start clientID
  if started.1 = false then (.rejected, ⟨started.2⟩)
  else (if wasIdle then .firstClientStarted else .additionalClientStarted, ⟨started.2⟩)

def stopped (result : Bool × AudioClientLifecycle) : AudioIOTransition × AudioDeviceLifecycle :=
  if result.1 = false then (.clientNotActive, ⟨result.2⟩)
  else (if result.2.activeStarts = 0 then .lastClientStopped else .clientStoppedStillActive,
    ⟨result.2⟩)

def stopIo (d : AudioDeviceLifecycle) (clientID : UInt32) :
    AudioIOTransition × AudioDeviceLifecycle := stopped (d.clients.stop clientID)

def removeClient (d : AudioDeviceLifecycle) (clientID : UInt32) :
    AudioIOTransition × AudioDeviceLifecycle := stopped (d.clients.removeClient clientID)

def fresh : AudioDeviceLifecycle := ⟨.fresh⟩

def held (d : AudioDeviceLifecycle) : Multiset UInt32 := d.clients.held

def Valid (d : AudioDeviceLifecycle) : Prop := d.clients.Valid

variable {d : AudioDeviceLifecycle}

theorem Valid.activeStarts_eq_zero (h : d.Valid) : d.activeStarts = 0 ↔ d.held = 0 :=
  AudioClientLifecycle.Valid.activeStarts_eq_zero h

/-- A start is refused without a trace, or counted so that a stop undoes it. -/
theorem Valid.startIo (h : d.Valid) (clientID : UInt32) : (d.startIo clientID).2.Valid ∧
    ((d.startIo clientID).1 = .rejected ∧ (d.startIo clientID).2 = d ∨
      (d.startIo clientID).1 ≠ .rejected ∧
      d.held.count clientID < AudioClientLifecycle.maximumStarts.toNat ∧
      (d.startIo clientID).2.held = clientID ::ₘ d.held ∧
      ((d.startIo clientID).2.stopIo clientID).2 = d) := by
  obtain ⟨hv, ⟨hf, hl⟩ | ⟨ht, hlt, hheld⟩⟩ := AudioClientLifecycle.Valid.start h clientID
  · simp only [AudioDeviceLifecycle.startIo, hf, if_true]
    exact ⟨hv, .inl ⟨trivial, congrArg mk hl⟩⟩
  · have hundo := AudioClientLifecycle.Valid.stop_start h ht
    simp only [AudioDeviceLifecycle.startIo, ht, Bool.true_eq_false, if_false]
    refine ⟨hv, .inr ⟨by split_ifs <;> decide, hlt, hheld, ?_⟩⟩
    simp only [stopIo, stopped, hundo, Bool.true_eq_false, if_false]

theorem stopped_true {result : Bool × AudioClientLifecycle} (h : result.1 = true) :
    (stopped result).1 ≠ .clientNotActive ∧
      ((stopped result).1 = .lastClientStopped ↔ (stopped result).2.activeStarts = 0) := by
  simp only [stopped, h, Bool.true_eq_false, if_false]
  split_ifs with h₀
  · exact ⟨by decide, by simp [activeStarts, h₀]⟩
  · exact ⟨by decide, by simp [activeStarts, h₀]⟩

theorem stopped_snd (result : Bool × AudioClientLifecycle) : (stopped result).2 = ⟨result.2⟩ := by
  unfold stopped
  split_ifs <;> rfl

theorem Valid.stopIo (h : d.Valid) (clientID : UInt32) : (d.stopIo clientID).2.Valid ∧
    (clientID ∉ d.held ∧ d.stopIo clientID = (.clientNotActive, d) ∨
      (d.stopIo clientID).1 ≠ .clientNotActive ∧
      clientID ::ₘ (d.stopIo clientID).2.held = d.held ∧
      ((d.stopIo clientID).1 = .lastClientStopped ↔ (d.stopIo clientID).2.activeStarts = 0)) := by
  obtain ⟨hv, ⟨hmem, hs⟩ | ⟨ht, hheld⟩⟩ := AudioClientLifecycle.Valid.stop h clientID
  · refine ⟨by rw [AudioDeviceLifecycle.stopIo, stopped_snd]; exact hv, .inl ⟨hmem, ?_⟩⟩
    rw [AudioDeviceLifecycle.stopIo, hs]
    rfl
  · obtain ⟨hne, hlast⟩ := stopped_true ht
    refine ⟨by rw [AudioDeviceLifecycle.stopIo, stopped_snd]; exact hv, .inr ⟨hne, ?_, hlast⟩⟩
    rw [AudioDeviceLifecycle.stopIo, stopped_snd]
    exact hheld

theorem Valid.removeClient (h : d.Valid) (clientID : UInt32) : (d.removeClient clientID).2.Valid ∧
    (clientID ∉ d.held ∧ d.removeClient clientID = (.clientNotActive, d) ∨
      clientID ∈ d.held ∧ (d.removeClient clientID).2.held = d.held.filter (· ≠ clientID) ∧
      ((d.removeClient clientID).1 = .lastClientStopped ↔
        (d.removeClient clientID).2.activeStarts = 0)) := by
  obtain ⟨hv, ⟨hmem, hs⟩ | ⟨hmem, ht, hheld⟩⟩ := AudioClientLifecycle.Valid.removeClient h clientID
  · refine ⟨by rw [AudioDeviceLifecycle.removeClient, stopped_snd]; exact hv, .inl ⟨hmem, ?_⟩⟩
    rw [AudioDeviceLifecycle.removeClient, hs]
    rfl
  · refine ⟨by rw [AudioDeviceLifecycle.removeClient, stopped_snd]; exact hv,
      .inr ⟨hmem, ?_, (stopped_true ht).2⟩⟩
    rw [AudioDeviceLifecycle.removeClient, stopped_snd]
    exact hheld

end AudioDeviceLifecycle

end NumarkNS6.CoreAudio
