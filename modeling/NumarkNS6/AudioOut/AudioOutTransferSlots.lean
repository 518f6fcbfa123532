import NumarkNS6.AudioOut.AudioOutTransferBatch

namespace NumarkNS6.AudioOut

structure AudioOutTransferSlots where
  packets : List AudioOutTransferBatch
  inUse : List Bool
  accepting : Bool
  inFlight : UInt32

namespace AudioOutTransferSlots

def slotCount : ℕ := 8

def construct : AudioOutTransferSlots where
  packets := List.replicate slotCount .empty
  inUse := List.replicate slotCount false
  accepting := true
  inFlight := 0

def mark (t : AudioOutTransferSlots) (i : ℕ) (used : Bool) : AudioOutTransferSlots :=
  { t with inUse := t.inUse.set i used }

def stopAccepting (t : AudioOutTransferSlots) : AudioOutTransferSlots := { t with accepting := false }

def reserveLoop (ring : AudioOutputRing ℚ) (policy : AudioPacketPolicy)
    (t : AudioOutTransferSlots) : List ℕ →
    Option ℕ × AudioOutTransferSlots × AudioOutputRing ℚ × AudioPacketPolicy
  | [] => (none, t, ring, policy)
  | i :: rest =>
    if t.inUse[i]? = some true then reserveLoop ring policy t rest
    else
      let claimed := t.mark i true
      -- The source looks at `accepting_` again once the slot is its own.
      if !claimed.accepting then (none, claimed.mark i false, ring, policy)
      else
        let built := AudioOutTransferBatch.build ring policy
        let filled := { claimed with packets := claimed.packets.set i built.2.1 }
        if !built.1 then (none, filled.mark i false, built.2.2)
        else (some i, { filled with inFlight := filled.inFlight + 1 }, built.2.2)

/-- `reserve`, with `none` for `kNoSlot`. -/
def reserve (t : AudioOutTransferSlots) (ring : AudioOutputRing ℚ) (policy : AudioPacketPolicy) :
    Option ℕ × AudioOutTransferSlots × AudioOutputRing ℚ × AudioPacketPolicy :=
  if !t.accepting then (none, t, ring, policy)
  else reserveLoop ring policy t (List.range slotCount)

def complete (t : AudioOutTransferSlots) (slot : ℕ) : Bool × AudioOutTransferSlots :=
  if slot ≥ slotCount then (false, t)
  else if t.inUse[slot]? = some true then
    (true, { t.mark slot false with inFlight := t.inFlight - 1 })
  else (false, t)

def packet (t : AudioOutTransferSlots) (slot : ℕ) : Option AudioOutTransferBatch :=
  if slot < slotCount then t.packets[slot]? else none

/-- How `reserve` can end: a slot that was free is marked and counted, or
neither the marks nor the count change. -/
inductive Reserved (t : AudioOutTransferSlots) :
    Option ℕ × AudioOutTransferSlots × AudioOutputRing ℚ × AudioPacketPolicy → Prop
  | refused {t' : AudioOutTransferSlots} {ring : AudioOutputRing ℚ} {policy : AudioPacketPolicy}
      (inUse : t'.inUse = t.inUse) (inFlight : t'.inFlight = t.inFlight) :
      Reserved t (none, t', ring, policy)
  | granted {t' : AudioOutTransferSlots} {ring : AudioOutputRing ℚ} {policy : AudioPacketPolicy}
      {i : ℕ} (free : t.inUse[i]? = some false) (inUse : t'.inUse = t.inUse.set i true)
      (inFlight : t'.inFlight = t.inFlight + 1) : Reserved t (some i, t', ring, policy)

variable {t : AudioOutTransferSlots} {i : ℕ}

theorem set_true_false {flags : List Bool} (h : flags[i]? = some false) :
    (flags.set i true).set i false = flags := by
  obtain ⟨hi, he⟩ := List.getElem?_eq_some_iff.mp h
  rw [List.set_set, ← he, List.set_getElem_self]

theorem reserveLoop_reserved (ring : AudioOutputRing ℚ) (policy : AudioPacketPolicy)
    {slots : List ℕ} (h : ∀ i ∈ slots, i < t.inUse.length) :
    Reserved t (reserveLoop ring policy t slots) := by
  induction slots with
  | nil => exact .refused rfl rfl
  | cons i rest ih =>
    obtain ⟨hi, hrest⟩ := List.forall_mem_cons.mp h
    by_cases hused : t.inUse[i]? = some true
    · simpa only [reserveLoop, if_pos hused] using ih hrest
    · have hfree : t.inUse[i]? = some false := by
        rw [List.getElem?_eq_getElem hi] at hused ⊢
        simpa using hused
      simp only [reserveLoop, if_neg hused]
      split_ifs
      · exact .refused (set_true_false hfree) rfl
      · exact .refused (set_true_false hfree) rfl
      · exact .granted hfree rfl rfl

theorem reserve_reserved (ring : AudioOutputRing ℚ) (policy : AudioPacketPolicy)
    (h : t.inUse.length = slotCount) :
    Reserved t (t.reserve ring policy) := by
  rw [reserve]
  cases t.accepting with
  | false => exact .refused rfl rfl
  | true =>
    refine reserveLoop_reserved ring policy fun i hi ↦ ?_
    rw [h]
    exact List.mem_range.mp hi

theorem complete_of_used (hi : i < slotCount) (h : t.inUse[i]? = some true) :
    (t.complete i).2 = { t.mark i false with inFlight := t.inFlight - 1 } := by
  rw [complete, if_neg (not_le.mpr hi), if_pos h]

theorem complete_stopAccepting (t : AudioOutTransferSlots) (i : ℕ) :
    (t.complete i).2.stopAccepting = (t.stopAccepting.complete i).2 := by
  have hused : t.stopAccepting.inUse[i]? = t.inUse[i]? := rfl
  rw [complete, complete]
  simp only [hused]
  split_ifs <;> rfl

end AudioOutTransferSlots

end NumarkNS6.AudioOut
