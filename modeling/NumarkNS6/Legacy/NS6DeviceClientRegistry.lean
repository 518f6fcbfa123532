import NumarkNS6.Foundation.KeyedSlots
import Mathlib.Data.UInt

namespace NumarkNS6.Legacy

open Foundation.KeyedSlots

structure NS6DeviceClientLease where
  clientId : UInt64
  processId : Int32
  audioActive : Bool
  deriving DecidableEq

namespace NS6DeviceClientLease

def zero : NS6DeviceClientLease := ⟨0, 0, false⟩

def client? (lease : NS6DeviceClientLease) : Option UInt64 :=
  if lease.clientId = 0 then none else some lease.clientId

theorem client?_eq_some_iff {lease : NS6DeviceClientLease} {id : UInt64} :
    lease.client? = some id ↔ id ≠ 0 ∧ lease.clientId = id := by
  rw [client?]
  split_ifs with h
  · refine iff_of_false (by simp) ?_
    rintro ⟨hid, rfl⟩
    exact hid h
  · rw [Option.some_inj]
    constructor
    · rintro rfl
      exact ⟨h, rfl⟩
    · exact fun h ↦ h.2

theorem client?_eq_none_iff {lease : NS6DeviceClientLease} :
    lease.client? = none ↔ lease.clientId = 0 := by
  rw [client?]
  split_ifs with h
  · exact iff_of_true rfl h
  · exact iff_of_false (by simp) h

end NS6DeviceClientLease

def maxClients : ℕ := 8

structure NS6DeviceClientRegistry where
  clients : List NS6DeviceClientLease
  length_eq : clients.length = maxClients
  deriving DecidableEq

namespace NS6DeviceClientRegistry

open NS6DeviceClientLease

def empty : NS6DeviceClientRegistry := ⟨List.replicate maxClients zero, List.length_replicate⟩

variable (registry : NS6DeviceClientRegistry)

/-- A loop that changes the first slot it finds and returns. -/
def update (p : NS6DeviceClientLease → Bool) (f : NS6DeviceClientLease → NS6DeviceClientLease) :
    Option NS6DeviceClientRegistry :=
  match h : updateFirst p f registry.clients with
  | none => none
  | some clients => some ⟨clients, (length_updateFirst h).trans registry.length_eq⟩

def attach (clientId : UInt64) (processId : Int32) : Option NS6DeviceClientRegistry :=
  if clientId = 0 then none
  else
    match registry.update (·.clientId == clientId) ({ · with processId := processId }) with
    | some registry => some registry
    | none => registry.update (·.clientId == 0) fun _ ↦ ⟨clientId, processId, false⟩

def setAudioActive (clientId : UInt64) (audioActive : Bool) : Option NS6DeviceClientRegistry :=
  if clientId = 0 then none
  else registry.update (·.clientId == clientId) ({ · with audioActive := audioActive })

def contains (clientId : UInt64) : Bool :=
  clientId != 0 && registry.clients.any (·.clientId == clientId)

def detach (clientId : UInt64) : Option NS6DeviceClientRegistry :=
  if clientId = 0 then none else registry.update (·.clientId == clientId) fun _ ↦ zero

def ofProcess (processId : Int32) (lease : NS6DeviceClientLease) : Bool :=
  lease.clientId != 0 && lease.processId == processId

def detachProcess (processId : Int32) : NS6DeviceClientRegistry × ℕ :=
  if processId ≤ 0 then (registry, 0)
  else
    (⟨registry.clients.map fun lease ↦ if ofProcess processId lease then zero else lease,
      (List.length_map _).trans registry.length_eq⟩,
      registry.clients.countP (ofProcess processId))

def anyAudioActive : Bool :=
  registry.clients.any fun lease ↦ lease.clientId != 0 && lease.audioActive

def registered : List UInt64 := registry.clients.filterMap client?

def leaseOf (clientId : UInt64) : Option Bool :=
  (registry.clients.find? (·.clientId == clientId)).map (·.audioActive)

variable {registry} {registry' : NS6DeviceClientRegistry}

theorem update_eq_some {p : NS6DeviceClientLease → Bool}
    {f : NS6DeviceClientLease → NS6DeviceClientLease} (h : registry.update p f = some registry') :
    updateFirst p f registry.clients = some registry'.clients := by
  rw [update] at h
  split at h
  · cases h
  · next clients hclients =>
    cases h
    exact hclients

theorem update_eq_none {p : NS6DeviceClientLease → Bool}
    {f : NS6DeviceClientLease → NS6DeviceClientLease} (h : registry.update p f = none) :
    ∀ lease ∈ registry.clients, ¬ p lease := by
  rw [update] at h
  split at h
  · next hnone => exact updateFirst_eq_none_iff.mp hnone
  · cases h

theorem registered_length_le : registry.registered.length ≤ maxClients := by
  rw [← registry.length_eq]
  exact List.length_filterMap_le _ _

theorem anyAudioActive_iff : registry.anyAudioActive = true ↔
    ∃ lease ∈ registry.clients, lease.clientId ≠ 0 ∧ lease.audioActive = true := by
  simp only [anyAudioActive, List.any_eq_true, Bool.and_eq_true, bne_iff_ne]

theorem empty_distinct : Distinct client? empty.clients :=
  List.nodup_nil

theorem attach_distinct {clientId : UInt64} {processId : Int32}
    (h : Distinct client? registry.clients)
    (hattach : registry.attach clientId processId = some registry') :
    Distinct client? registry'.clients := by
  rw [attach] at hattach
  split_ifs at hattach with hid
  split at hattach
  · next registry'' hfound =>
    cases hattach
    exact h.shrink (shrinks_updateFirst (update_eq_some hfound) fun _ _ ↦ .inr rfl)
  · next hnone =>
    refine h.enter (k := clientId) (update_eq_some hattach) ?_ ?_ ?_
    · intro lease hfree
      exact client?_eq_none_iff.mpr (beq_iff_eq.mp hfree)
    · intro lease
      exact client?_eq_some_iff.mpr ⟨hid, rfl⟩
    · intro lease hlease hsome
      exact update_eq_none hnone lease hlease (beq_iff_eq.mpr (client?_eq_some_iff.mp hsome).2)

theorem setAudioActive_distinct {clientId : UInt64} {active : Bool}
    (h : Distinct client? registry.clients)
    (hset : registry.setAudioActive clientId active = some registry') :
    Distinct client? registry'.clients := by
  rw [setAudioActive] at hset
  split_ifs at hset
  exact h.shrink (shrinks_updateFirst (update_eq_some hset) fun _ _ ↦ .inr rfl)

theorem detach_distinct {clientId : UInt64} (h : Distinct client? registry.clients)
    (hdetach : registry.detach clientId = some registry') :
    Distinct client? registry'.clients := by
  rw [detach] at hdetach
  split_ifs at hdetach
  exact h.shrink (shrinks_updateFirst (update_eq_some hdetach) fun _ _ ↦ .inl rfl)

theorem detachProcess_distinct (h : Distinct client? registry.clients) (processId : Int32) :
    Distinct client? (registry.detachProcess processId).1.clients := by
  rw [detachProcess]
  split_ifs
  · exact h
  · refine h.shrink (shrinks_map ?_)
    intro lease
    split_ifs
    · exact .inl rfl
    · exact .inr rfl

theorem detachProcess_of_none {processId : Int32} (h : (registry.detachProcess processId).2 = 0) :
    (registry.detachProcess processId).1 = registry := by
  rw [detachProcess] at h ⊢
  split_ifs with hpid
  · rfl
  · rw [if_neg hpid] at h
    have hnone : ∀ lease ∈ registry.clients, ¬ ofProcess processId lease := List.countP_eq_zero.mp h
    have hsame : (registry.clients.map fun lease ↦ if ofProcess processId lease then zero else lease) =
        registry.clients := by
      conv_rhs => rw [← List.map_id registry.clients]
      apply List.map_congr_left
      intro lease hlease
      exact if_neg (hnone lease hlease)
    cases registry
    simp only [hsame]

theorem contains_iff {clientId : UInt64} : registry.contains clientId = true ↔
    clientId ≠ 0 ∧ ∃ lease ∈ registry.clients, lease.clientId = clientId := by
  simp only [contains, Bool.and_eq_true, bne_iff_ne, List.any_eq_true, beq_iff_eq]

theorem setAudioActive_of_contains {clientId : UInt64} (h : registry.contains clientId = true)
    (active : Bool) : ∃ registry', registry.setAudioActive clientId active = some registry' ∧
      registry'.leaseOf clientId = some active := by
  obtain ⟨hid, lease, hlease, heq⟩ := contains_iff.mp h
  rw [setAudioActive, if_neg hid]
  cases hset : registry.update (·.clientId == clientId) ({ · with audioActive := active }) with
  | none => exact absurd (beq_iff_eq.mpr heq) (update_eq_none hset lease hlease)
  | some registry' =>
    refine ⟨registry', rfl, ?_⟩
    have hfound := find?_updateFirst (update_eq_some hset) fun _ hp ↦ hp
    have hsome : (registry.clients.find? (·.clientId == clientId)).isSome := by
      rw [List.find?_isSome]
      exact ⟨lease, hlease, beq_iff_eq.mpr heq⟩
    obtain ⟨found, hfind⟩ := Option.isSome_iff_exists.mp hsome
    rw [leaseOf, hfound, hfind]
    rfl

theorem detach_of_contains {clientId : UInt64} (h : registry.contains clientId = true) :
    ∃ registry', registry.detach clientId = some registry' := by
  obtain ⟨hid, lease, hlease, heq⟩ := contains_iff.mp h
  rw [detach, if_neg hid]
  cases hdetach : registry.update (·.clientId == clientId) fun _ ↦ zero with
  | none => exact absurd (beq_iff_eq.mpr heq) (update_eq_none hdetach lease hlease)
  | some registry' => exact ⟨registry', rfl⟩

theorem attach_again {clientId : UInt64} (processId : Int32)
    (h : registry.contains clientId = true) :
    ∃ registry', registry.attach clientId processId = some registry' ∧
      registry'.clients.map (fun lease ↦ (lease.clientId, lease.audioActive)) =
        registry.clients.map fun lease ↦ (lease.clientId, lease.audioActive) := by
  obtain ⟨hid, lease, hlease, heq⟩ := contains_iff.mp h
  rw [attach, if_neg hid]
  split
  · next registry' hfound =>
    exact ⟨registry', rfl, map_updateFirst (update_eq_some hfound) fun _ _ ↦ rfl⟩
  · next hnone => exact absurd (beq_iff_eq.mpr heq) (update_eq_none hnone lease hlease)

theorem attach_anyAudioActive {clientId : UInt64} {processId : Int32}
    (hattach : registry.attach clientId processId = some registry') :
    registry'.anyAudioActive = registry.anyAudioActive := by
  have hview {slots slots' : List NS6DeviceClientLease}
      (h : slots'.map (fun lease ↦ lease.clientId != 0 && lease.audioActive) =
        slots.map fun lease ↦ lease.clientId != 0 && lease.audioActive) :
      slots'.any (fun lease ↦ lease.clientId != 0 && lease.audioActive) =
        slots.any fun lease ↦ lease.clientId != 0 && lease.audioActive := by
    have hany := congrArg (List.any · id) h
    simpa only [List.any_map, Function.id_comp] using hany
  rw [attach] at hattach
  split_ifs at hattach with hid
  split at hattach
  · next registry'' hfound =>
    cases hattach
    exact hview (map_updateFirst (update_eq_some hfound) fun _ _ ↦ rfl)
  · refine hview (map_updateFirst (update_eq_some hattach) ?_)
    intro lease hfree
    simp [beq_iff_eq.mp hfree]

end NS6DeviceClientRegistry

end NumarkNS6.Legacy
