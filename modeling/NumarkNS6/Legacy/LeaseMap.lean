import NumarkNS6.Legacy.NS6DeviceMachService
import Mathlib.Data.Set.Card

namespace NumarkNS6.Legacy

open Foundation.KeyedSlots NS6DeviceClientLease

structure Lease where
  processId : Int32
  audioActive : Bool

/-- What the service is for: which client holds which lease, with no slots and no order. -/
abbrev Leases : Type := UInt64 → Option Lease

namespace Leases

variable (leases : Leases)

def none : Leases := fun _ ↦ .none

def attach (clientId : UInt64) (processId : Int32) : Leases :=
  Function.update leases clientId
    (some ⟨processId, (leases clientId).any (·.audioActive)⟩)

def setAudioActive (clientId : UInt64) (audioActive : Bool) : Leases :=
  Function.update leases clientId
    ((leases clientId).map ({ · with audioActive := audioActive }))

def detach (clientId : UInt64) : Leases := Function.update leases clientId .none

def without (gone : Int32 → Bool) : Leases :=
  fun clientId ↦ (leases clientId).filter fun lease ↦ !gone lease.processId

def holders : Set UInt64 := {clientId | leases clientId ≠ .none}

def Playing : Prop := ∃ clientId lease, leases clientId = some lease ∧ lease.audioActive = true

variable {leases} in
theorem mem_holders {clientId : UInt64} {lease : Lease} (h : leases clientId = some lease) :
    clientId ∈ leases.holders := by
  change leases clientId ≠ .none
  rw [h]
  exact Option.some_ne_none lease

end Leases

namespace NS6DeviceService

def Event.clientId? : Event → Option UInt64
  | .hello request _ => some request.clientId
  | .control request _ => some request.clientId
  | .reap _ => none

end NS6DeviceService

namespace Leases

open NS6DeviceService

/-- What the map gives a client that asks for it. A service is made for one size of the shared
memory and for eight clients. -/
def Grants (structSize : UInt64) (leases : Leases) : Event → Prop
  | .hello request _ => protocolVersionSupported request.protocolVersion = true ∧
      request.clientStructSize.toUInt64 = structSize ∧ request.clientId ≠ 0 ∧
      (request.clientId ∈ leases.holders ∨ leases.holders.ncard < maxClients)
  | .control request env => protocolVersionSupported request.protocolVersion = true ∧
      env.session.isCurrent request.sessionId = true ∧ request.clientId ∈ leases.holders ∧
      (request.message = .setAudioActive ∧ request.value ≤ 1 ∨ request.message = .releaseClient)
  | .reap _ => True

/-- The change of the leases with an event, its answer and the processes found dead. -/
inductive Step (structSize : UInt64) (leases : Leases) (gone : Int32 → Bool) :
    Event → Option ServiceStatus → Leases → Prop
  | refused {event : Event} {status : ServiceStatus} (h : ¬ leases.Grants structSize event)
      (hstatus : status ≠ .success) : Step structSize leases gone event (some status) leases
  | hello {request : NS6DeviceHelloRequest} {peerPid : Int32}
      (h : leases.Grants structSize (.hello request peerPid)) :
      Step structSize leases gone (.hello request peerPid) (some .success)
        (leases.attach request.clientId peerPid)
  | setAudioActive {request : NS6DeviceControlRequest} {env : ServiceEnvironment}
      (h : leases.Grants structSize (.control request env))
      (hmessage : request.message = .setAudioActive) :
      Step structSize leases gone (.control request env) (some .success)
        (leases.setAudioActive request.clientId (request.value != 0))
  | releaseClient {request : NS6DeviceControlRequest} {env : ServiceEnvironment}
      (h : leases.Grants structSize (.control request env))
      (hmessage : request.message = .releaseClient) :
      Step structSize leases gone (.control request env) (some .success)
        (leases.detach request.clientId)
  | setStartupBuffer {request : NS6DeviceControlRequest} {env : ServiceEnvironment}
      (hmessage : request.message = .setStartupBuffer) :
      Step structSize leases gone (.control request env) (some .success) leases
  | reap (dead : ℕ → Bool) : Step structSize leases gone (.reap dead) .none (leases.without gone)

/-- What is seen of an event: the answer and, when the service reaps, the processes it finds
dead. -/
structure Observation where
  event : Event
  answer : Option ServiceStatus
  gone : Int32 → Bool

inductive Run (structSize : UInt64) : Leases → List Observation → Leases → Prop
  | nil (leases : Leases) : Run structSize leases [] leases
  | cons {leases leases' leases'' : Leases} {o : Observation} {observed : List Observation}
      (h : Step structSize leases o.gone o.event o.answer leases')
      (hrest : Run structSize leases' observed leases'') :
      Run structSize leases (o :: observed) leases''

variable {structSize : UInt64} {gone : Int32 → Bool} {leases leases' : Leases} {clientId : UInt64}

theorem Step.others {event : Event} {answer : Option ServiceStatus}
    (h : Step structSize leases gone event answer leases')
    (hclient : event.clientId? ≠ some clientId) : leases' clientId = leases clientId ∨
      leases' clientId = .none ∧ (∃ dead, event = .reap dead) ∧
        ∃ lease, leases clientId = some lease ∧ gone lease.processId = true := by
  have hne {other : UInt64} (h : some other ≠ some clientId) : clientId ≠ other :=
    fun heq ↦ h (congrArg some heq.symm)
  cases h with
  | refused => exact .inl rfl
  | hello => exact .inl (Function.update_of_ne (hne hclient) _ _)
  | setAudioActive => exact .inl (Function.update_of_ne (hne hclient) _ _)
  | releaseClient => exact .inl (Function.update_of_ne (hne hclient) _ _)
  | setStartupBuffer => exact .inl rfl
  | reap dead =>
    rw [without]
    cases hlease : leases clientId with
    | none => exact .inl rfl
    | some lease =>
      rw [Option.filter_some]
      cases hgone : gone lease.processId with
      | false => exact .inl rfl
      | true => exact .inr ⟨rfl, ⟨dead, rfl⟩, lease, rfl, hgone⟩

end Leases

namespace NS6DeviceClientLease

def held (lease : NS6DeviceClientLease) : Lease := ⟨lease.processId, lease.audioActive⟩

theorem found_iff {clientId : UInt64} (hid : clientId ≠ 0) (lease : NS6DeviceClientLease) :
    (lease.clientId == clientId) = true ↔ lease.client? = some clientId := by
  rw [beq_iff_eq, client?_eq_some_iff]
  exact ⟨fun h ↦ ⟨hid, h⟩, fun h ↦ h.2⟩

end NS6DeviceClientLease

namespace NS6DeviceClientRegistry

variable {registry registry' : NS6DeviceClientRegistry} {clientId : UInt64} {processId : Int32}

def leases (registry : NS6DeviceClientRegistry) : Leases :=
  fun clientId ↦ (lookup client? registry.clients clientId).map held

theorem leases_eq_none_iff (hid : clientId ≠ 0) :
    registry.leases clientId = none ↔ ∀ lease ∈ registry.clients, ¬ lease.clientId == clientId := by
  rw [leases, Option.map_eq_none_iff, lookup_eq_none_iff]
  simp only [found_iff hid, ne_eq]

theorem empty_leases : empty.leases = Leases.none := by
  funext clientId
  rw [leases, Leases.none, Option.map_eq_none_iff, lookup_eq_none_iff]
  intro lease hlease
  rw [List.eq_of_mem_replicate hlease]
  exact (Option.some_ne_none _).symm

theorem mem_holders_iff : clientId ∈ registry.leases.holders ↔ clientId ∈ registry.registered := by
  change registry.leases clientId ≠ none ↔ _
  rw [leases, ne_eq, Option.map_eq_none_iff, lookup_eq_none_iff, registered, List.mem_filterMap]
  simp only [ne_eq, not_forall, not_not, exists_prop]

theorem contains_iff_mem_holders :
    registry.contains clientId = true ↔ clientId ∈ registry.leases.holders := by
  rw [mem_holders_iff, contains_iff, registered, List.mem_filterMap]
  simp only [client?_eq_some_iff]
  tauto

theorem ncard_holders (hd : Distinct client? registry.clients) :
    registry.leases.holders.ncard = registry.registered.length := by
  have hset : registry.leases.holders = (registry.registered.toFinset : Set UInt64) := by
    ext clientId
    rw [mem_holders_iff, List.coe_toFinset]
    rfl
  rw [hset, Set.ncard_coe_finset]
  exact List.toFinset_card_of_nodup hd

theorem registered_length_lt_iff :
    registry.registered.length < maxClients ↔ ∃ lease ∈ registry.clients, lease.clientId = 0 := by
  rw [registered, List.length_filterMap_eq_countP, ← registry.length_eq,
    List.countP_le_length.lt_iff_ne, ne_eq, List.countP_eq_length]
  simp only [not_forall, Option.not_isSome_iff_eq_none, client?_eq_none_iff, exists_prop]

theorem attach_isSome_iff (hd : Distinct client? registry.clients) (hid : clientId ≠ 0) :
    (registry.attach clientId processId).isSome = true ↔ clientId ∈ registry.leases.holders ∨
      registry.leases.holders.ncard < maxClients := by
  rw [ncard_holders hd, registered_length_lt_iff, ← contains_iff_mem_holders, contains_iff, attach,
    if_neg hid]
  split
  · next registry' hfound =>
    obtain ⟨before, slot, after, hslots, hslot, -⟩ := updateFirst_split (update_eq_some hfound)
    refine iff_of_true rfl (.inl ⟨hid, slot, ?_, beq_iff_eq.mp hslot⟩)
    rw [hslots]
    exact List.mem_append_right _ List.mem_cons_self
  · next hnone =>
    have hnew : ¬ ∃ lease ∈ registry.clients, lease.clientId = clientId := by
      rintro ⟨lease, hmem, heq⟩
      exact update_eq_none hnone lease hmem (beq_iff_eq.mpr heq)
    rw [or_iff_right fun h ↦ hnew h.2]
    cases hfree : registry.update (·.clientId == 0) fun _ ↦ ⟨clientId, processId, false⟩ with
    | none =>
      refine iff_of_false (by simp) ?_
      rintro ⟨lease, hmem, hzero⟩
      exact update_eq_none hfree lease hmem (beq_iff_eq.mpr hzero)
    | some registry' =>
      obtain ⟨before, slot, after, hslots, hslot, -⟩ := updateFirst_split (update_eq_some hfree)
      refine iff_of_true rfl ⟨slot, ?_, beq_iff_eq.mp hslot⟩
      rw [hslots]
      exact List.mem_append_right _ List.mem_cons_self

theorem update_leases {f : NS6DeviceClientLease → NS6DeviceClientLease} {g : Lease → Lease}
    (hid : clientId ≠ 0) (h : registry.update (·.clientId == clientId) f = some registry')
    (hf : ∀ lease, (f lease).clientId = lease.clientId)
    (hg : ∀ lease, (f lease).held = g lease.held) :
    registry'.leases =
      Function.update registry.leases clientId ((registry.leases clientId).map g) := by
  have hkey (lease : NS6DeviceClientLease) : (f lease).client? = lease.client? := by
    rw [client?, hf, client?]
  funext other
  by_cases hother : other = clientId
  · subst hother
    rw [Function.update_self, leases, leases, lookup_updateFirst (update_eq_some h) (found_iff hid)]
    · rw [Option.map_map, Option.map_map]
      exact Option.map_congr fun lease _ ↦ hg lease
    · intro lease hlease
      rw [hkey]
      exact (found_iff hid lease).mp hlease
  · have hne (lease : NS6DeviceClientLease) (hlease : (lease.clientId == clientId) = true) :
        lease.client? ≠ some other := by
      rw [(found_iff hid lease).mp hlease]
      exact fun heq ↦ hother (Option.some.inj heq).symm
    rw [Function.update_of_ne hother, leases, leases,
      lookup_updateFirst_of_ne (update_eq_some h) hne]
    intro lease hlease
    rw [hkey]
    exact hne lease hlease

theorem attach_leases (h : registry.attach clientId processId = some registry') :
    registry'.leases = registry.leases.attach clientId processId := by
  rw [attach] at h
  split_ifs at h with hid
  split at h
  · next registry'' hfound =>
    cases h
    rw [update_leases (g := fun lease ↦ { lease with processId := processId }) hid hfound
      (fun _ ↦ rfl) fun _ ↦ rfl, Leases.attach]
    cases hlease : registry.leases clientId with
    | some lease => rfl
    | none =>
      obtain ⟨before, slot, after, hslots, hslot, -⟩ := updateFirst_split (update_eq_some hfound)
      have hmem : slot ∈ registry.clients := by simp [hslots]
      exact absurd hslot ((leases_eq_none_iff hid).mp hlease slot hmem)
  · next hnone =>
    have hnew : registry.leases clientId = none :=
      (leases_eq_none_iff hid).mpr (update_eq_none hnone)
    have hfree (slot : NS6DeviceClientLease) (hslot : (slot.clientId == 0) = true) :
        slot.client? = none := client?_eq_none_iff.mpr (beq_iff_eq.mp hslot)
    have hentered : client? ⟨clientId, processId, false⟩ = some clientId :=
      client?_eq_some_iff.mpr ⟨hid, rfl⟩
    funext other
    rw [Leases.attach, hnew]
    by_cases hother : other = clientId
    · subst hother
      rw [Function.update_self, leases,
        lookup_enter (update_eq_some h) (Option.map_eq_none_iff.mp hnew) hentered]
      rfl
    · rw [Function.update_of_ne hother, leases, leases, lookup_updateFirst_of_ne (update_eq_some h)]
      · intro slot hslot
        rw [hfree slot hslot]
        exact (Option.some_ne_none _).symm
      · intro slot _
        rw [hentered]
        exact fun heq ↦ hother (Option.some.inj heq).symm

theorem setAudioActive_leases {active : Bool}
    (h : registry.setAudioActive clientId active = some registry') :
    registry'.leases = registry.leases.setAudioActive clientId active := by
  rw [setAudioActive] at h
  split_ifs at h with hid
  exact update_leases hid h (fun _ ↦ rfl) fun _ ↦ rfl

theorem detach_leases (hd : Distinct client? registry.clients)
    (h : registry.detach clientId = some registry') :
    registry'.leases = registry.leases.detach clientId := by
  rw [detach] at h
  split_ifs at h with hid
  have hzero : zero.client? = none := rfl
  funext other
  rw [Leases.detach]
  by_cases hother : other = clientId
  · subst hother
    rw [Function.update_self, leases, hd.lookup_clear (update_eq_some h)
      (fun lease ↦ (found_iff hid lease).mp) fun _ ↦ hzero]
    rfl
  · rw [Function.update_of_ne hother, leases, leases, lookup_updateFirst_of_ne (update_eq_some h)]
    · intro slot hslot
      rw [(found_iff hid slot).mp hslot]
      exact fun heq ↦ hother (Option.some.inj heq).symm
    · intro slot _
      rw [hzero]
      exact (Option.some_ne_none _).symm

def clear (gone : Int32 → Bool) (lease : NS6DeviceClientLease) : NS6DeviceClientLease :=
  if lease.clientId != 0 && gone lease.processId then zero else lease

theorem detachProcess_clients {gone : Int32 → Bool} (hpos : 0 < processId)
    (hgone : ∀ other, gone other = (other == processId)) :
    (registry.detachProcess processId).1.clients = registry.clients.map (clear gone) := by
  rw [detachProcess, if_neg (Int32.not_le.mpr hpos)]
  apply List.map_congr_left
  intro lease _
  rw [clear, hgone, ofProcess]

theorem clear_leases (hd : Distinct client? registry.clients) {gone : Int32 → Bool}
    (h : registry'.clients = registry.clients.map (clear gone)) :
    registry'.leases = registry.leases.without gone := by
  funext clientId
  rw [leases, h]
  unfold clear
  rw [hd.lookup_clearAll rfl, Leases.without, leases, Option.filter_map]
  cases hfound : lookup client? registry.clients clientId with
  | none => rfl
  | some lease =>
    have hused : (lease.clientId != 0) = true := by
      obtain ⟨hid, rfl⟩ := client?_eq_some_iff.mp (key_of_lookup hfound)
      exact bne_iff_ne.mpr hid
    rw [Option.filter_some, Option.filter_some, hused]
    rfl

theorem anyAudioActive_iff_playing (hd : Distinct client? registry.clients) :
    registry.anyAudioActive = true ↔ registry.leases.Playing := by
  rw [anyAudioActive_iff]
  constructor
  · rintro ⟨lease, hlease, hid, hactive⟩
    have hfound := hd.lookup_of_mem hlease (client?_eq_some_iff.mpr ⟨hid, rfl⟩)
    exact ⟨lease.clientId, lease.held, by rw [leases, hfound]; rfl, hactive⟩
  · rintro ⟨clientId, lease, hlease, hactive⟩
    obtain ⟨slot, hslot, rfl⟩ := Option.map_eq_some_iff.mp hlease
    obtain ⟨hid, rfl⟩ := client?_eq_some_iff.mp (key_of_lookup hslot)
    exact ⟨slot, List.mem_of_find?_eq_some hslot, hid, hactive⟩

end NS6DeviceClientRegistry

namespace NS6DeviceService

open NS6DeviceClientRegistry

variable {service : NS6DeviceService}

def reaped (dead : ℕ → Bool) (clients : List NS6DeviceClientLease) (slots : List ℕ)
    (processId : Int32) : Bool :=
  slots.any fun i ↦ dead i && clients[i]?.any fun client ↦
    decide (client.clientId ≠ 0 ∧ 0 < client.processId ∧ client.processId = processId)

theorem reaped_iff {dead : ℕ → Bool} {clients : List NS6DeviceClientLease} {slots : List ℕ}
    {processId : Int32} : reaped dead clients slots processId = true ↔
      ∃ i ∈ slots, dead i = true ∧ ∃ client, clients[i]? = some client ∧
        client.clientId ≠ 0 ∧ 0 < client.processId ∧ client.processId = processId := by
  rw [reaped, List.any_eq_true]
  refine exists_congr fun i ↦ and_congr_right fun _ ↦ ?_
  rw [Bool.and_eq_true_iff]
  refine and_congr_right fun _ ↦ ?_
  cases clients[i]? with
  | none => simp
  | some client => simp

/-- Whether a process is found dead does not depend on the leases of the others. -/
theorem reaped_clear (dead : ℕ → Bool) (clients : List NS6DeviceClientLease) (slots : List ℕ)
    {gone : Int32 → Bool} {processId : Int32} (h : gone processId = false) :
    reaped dead (clients.map (clear gone)) slots processId =
      reaped dead clients slots processId := by
  rw [reaped, reaped]
  congr 1
  funext i
  rw [List.getElem?_map]
  cases clients[i]? with
  | none => rfl
  | some client =>
    rw [Option.map_some, Option.any_some, Option.any_some, clear]
    split_ifs with hclear
    · have hne : client.processId ≠ processId := by
        rintro rfl
        rw [h, Bool.and_false] at hclear
        cases hclear
      simp [hne, zero]
    · rfl

theorem reapClient_clients (dead : ℕ → Bool) (r : NS6DeviceClientRegistry × Bool) (i : ℕ) :
    (reapClient dead r i).1.clients = r.1.clients.map (clear (reaped dead r.1.clients [i])) := by
  have hnone (h : ∀ processId, reaped dead r.1.clients [i] processId = false) :
      r.1.clients.map (clear (reaped dead r.1.clients [i])) = r.1.clients := by
    conv_rhs => rw [← List.map_id r.1.clients]
    apply List.map_congr_left
    intro lease _
    rw [clear, h, Bool.and_false]
    rfl
  rw [reapClient]
  split
  · next hslot => rw [hnone (by simp [reaped, hslot])]
  · next client hslot =>
    have hone (processId : Int32) : reaped dead r.1.clients [i] processId =
        (dead i && decide (client.clientId ≠ 0 ∧ 0 < client.processId ∧
          client.processId = processId)) := by
      rw [reaped, List.any_cons, List.any_nil, Bool.or_false, hslot, Option.any_some]
    split_ifs with hskip hdead
    · refine (hnone fun processId ↦ ?_).symm
      rw [hone, decide_eq_false, Bool.and_false]
      rintro ⟨hid, hpos, -⟩
      exact hskip.elim hid (Int32.not_le.mpr hpos)
    · refine (hnone fun processId ↦ ?_).symm
      rw [Bool.not_eq_eq_eq_not, Bool.not_true] at hdead
      rw [hone, hdead, Bool.false_and]
    all_goals
      rw [not_or, Int32.not_le] at hskip
      rw [Bool.not_eq_true, Bool.not_eq_eq_eq_not, Bool.not_false] at hdead
      refine detachProcess_clients hskip.2 fun other ↦ ?_
      rw [hone, hdead, Bool.true_and, Bool.eq_iff_iff, decide_eq_true_eq, beq_iff_eq]
      exact ⟨fun h ↦ h.2.2.symm, fun h ↦ ⟨hskip.1, hskip.2, h.symm⟩⟩

theorem foldl_reapClient_clients (dead : ℕ → Bool) (slots : List ℕ)
    (r : NS6DeviceClientRegistry × Bool) : (slots.foldl (reapClient dead) r).1.clients =
      r.1.clients.map (clear (reaped dead r.1.clients slots)) := by
  induction slots generalizing r with
  | nil =>
    conv_lhs => rw [List.foldl_nil, ← List.map_id r.1.clients]
    apply List.map_congr_left
    intro lease _
    rw [clear, reaped, List.any_nil, Bool.and_false]
    rfl
  | cons i slots ih =>
    rw [List.foldl_cons, ih, reapClient_clients, List.map_map]
    apply List.map_congr_left
    intro lease _
    have hcons (processId : Int32) : reaped dead r.1.clients (i :: slots) processId =
        (reaped dead r.1.clients [i] processId || reaped dead r.1.clients slots processId) := by
      rw [reaped, List.any_cons, reaped, reaped, List.any_cons, List.any_nil, Bool.or_false]
    rw [Function.comp_apply]
    cases hfirst : reaped dead r.1.clients [i] lease.processId with
    | true =>
      by_cases hid : lease.clientId = 0
      · simp [clear, hid]
      · simp [clear, hid, hcons, hfirst, zero]
    | false =>
      have hkept : clear (reaped dead r.1.clients [i]) lease = lease := by
        rw [clear, hfirst, Bool.and_false]
        rfl
      rw [hkept, clear, clear, hcons, hfirst, Bool.false_or, reaped_clear dead _ slots hfirst]

/-- Reaping ends the leases of the processes that are found dead, all of them at once, and
no other lease. -/
theorem reapDeadClients_leases (hd : Distinct client? service.clients.clients) (dead : ℕ → Bool) :
    (service.reapDeadClients dead).1.clients.leases = service.clients.leases.without
      (reaped dead service.clients.clients (List.range maxClients)) := by
  refine clear_leases hd ?_
  rw [← foldl_reapClient_clients dead (List.range maxClients) (service.clients, false),
    reapDeadClients]
  generalize (List.range maxClients).foldl (reapClient dead) (service.clients, false) = r
  split_ifs
  · rfl
  · rfl

/-- When the processes do not change while the loop runs, it ends the leases of those that
are gone and only those. -/
theorem reapDeadClients_exact (hd : Distinct client? service.clients.clients) {dead : ℕ → Bool}
    {gone : Int32 → Bool} (hdead : ∀ i client, service.clients.clients[i]? = some client →
      dead i = gone client.processId) :
    (service.reapDeadClients dead).1.clients.leases = service.clients.leases.without
      fun processId ↦ decide (0 < processId) && gone processId := by
  rw [reapDeadClients_leases hd]
  funext clientId
  rw [Leases.without, Leases.without]
  cases hlease : service.clients.leases clientId with
  | none => rfl
  | some lease =>
    obtain ⟨slot, hslot, rfl⟩ := Option.map_eq_some_iff.mp hlease
    obtain ⟨hid, rfl⟩ := client?_eq_some_iff.mp (key_of_lookup hslot)
    have hsame : reaped dead service.clients.clients (List.range maxClients) slot.held.processId =
        (decide (0 < slot.held.processId) && gone slot.held.processId) := by
      rw [Bool.eq_iff_iff, reaped_iff, Bool.and_eq_true_iff, decide_eq_true_eq]
      constructor
      · rintro ⟨i, -, hi, client, hclient, -, hpos, heq⟩
        rw [← heq, ← hdead i client hclient]
        exact ⟨hpos, hi⟩
      · rintro ⟨hpos, hgone⟩
        obtain ⟨i, hi⟩ := List.getElem?_of_mem (List.mem_of_find?_eq_some hslot)
        have hlt : i < maxClients := by
          rw [← service.clients.length_eq]
          exact (List.getElem?_eq_some_iff.mp hi).1
        exact ⟨i, List.mem_range.mpr hlt, (hdead i slot hi).trans hgone, slot, hi, hid, hpos, rfl⟩
    rw [Option.filter_some, Option.filter_some, hsame]

theorem handleHello_refines (hd : Distinct client? service.clients.clients) (gone : Int32 → Bool)
    (request : NS6DeviceHelloRequest) (peerPid : Int32) :
    Leases.Step service.structSize service.clients.leases gone (.hello request peerPid)
      (some (service.handleHello request peerPid).1.status)
      (service.handleHello request peerPid).2.clients.leases := by
  rw [handleHello]
  dsimp only
  split_ifs with hbad
  · refine .refused ?_ (by simp)
    rintro ⟨hversion, hsize, hid, -⟩
    simp [hversion, hsize, hid] at hbad
  · simp only [Bool.or_eq_true, Bool.not_eq_eq_eq_not, Bool.not_true, bne_iff_ne, beq_iff_eq, not_or,
      Bool.not_eq_false, not_not] at hbad
    obtain ⟨⟨hversion, hsize⟩, hid⟩ := hbad
    have hattach := @attach_isSome_iff service.clients request.clientId peerPid hd hid
    split
    · next hnone =>
      rw [hnone] at hattach
      refine .refused ?_ (by simp)
      rintro ⟨-, -, -, hroom⟩
      exact absurd (hattach.mpr hroom) (by simp)
    · next clients hsome =>
      rw [hsome] at hattach
      dsimp only
      rw [attach_leases hsome]
      exact .hello ⟨hversion, hsize, hid, hattach.mp rfl⟩

theorem not_grants_of_message {structSize : UInt64} {leases : Leases}
    {request : NS6DeviceControlRequest} {env : ServiceEnvironment}
    (hactive : request.message ≠ .setAudioActive) (hrelease : request.message ≠ .releaseClient) :
    ¬ leases.Grants structSize (.control request env) := by
  rintro ⟨-, -, -, ⟨hmessage, -⟩ | hmessage⟩
  · exact hactive hmessage
  · exact hrelease hmessage

theorem setAudioActive_refines (gone : Int32 → Bool) {request : NS6DeviceControlRequest}
    {env : ServiceEnvironment}
    (hgrants : service.clients.leases.Grants service.structSize (.control request env))
    (hmessage : request.message = .setAudioActive) {clients : NS6DeviceClientRegistry}
    (hset : service.clients.setAudioActive request.clientId (request.value != 0) = some clients) :
    Leases.Step service.structSize service.clients.leases gone (.control request env)
      (some .success) clients.leases := by
  rw [setAudioActive_leases hset]
  exact .setAudioActive hgrants hmessage

theorem releaseClient_refines (hd : Distinct client? service.clients.clients) (gone : Int32 → Bool)
    {request : NS6DeviceControlRequest} {env : ServiceEnvironment}
    (hgrants : service.clients.leases.Grants service.structSize (.control request env))
    (hmessage : request.message = .releaseClient) {clients : NS6DeviceClientRegistry}
    (hdetach : service.clients.detach request.clientId = some clients) :
    Leases.Step service.structSize service.clients.leases gone (.control request env)
      (some .success) clients.leases := by
  rw [detach_leases hd hdetach]
  exact .releaseClient hgrants hmessage

theorem handleControl_refines (hd : Distinct client? service.clients.clients) (gone : Int32 → Bool)
    (request : NS6DeviceControlRequest) (env : ServiceEnvironment) :
    Leases.Step service.structSize service.clients.leases gone (.control request env)
      (some (service.handleControl request env).1)
      (service.handleControl request env).2.1.clients.leases := by
  rw [handleControl]
  by_cases hversion : protocolVersionSupported request.protocolVersion = true
  swap
  · rw [if_pos (by simpa using hversion)]
    exact .refused (fun h ↦ hversion h.1) (by simp)
  rw [if_neg (by simpa using hversion)]
  by_cases hcurrent : env.session.isCurrent request.sessionId = true
  swap
  · rw [if_pos (by simp [hcurrent])]
    exact .refused (fun h ↦ hcurrent h.2.1) (by simp)
  by_cases hknown : service.clients.contains request.clientId = true
  swap
  · rw [if_pos (by simp [hknown])]
    exact .refused (fun h ↦ hknown (contains_iff_mem_holders.mpr h.2.2.1)) (by simp)
  rw [if_neg (by simp [hcurrent, hknown])]
  have hholder := contains_iff_mem_holders.mp hknown
  cases hmessage : request.message with
  | setAudioActive =>
    dsimp only
    split_ifs with hvalue
    · refine .refused ?_ (by simp)
      rintro ⟨-, -, -, ⟨-, hle⟩ | hrelease⟩
      · exact absurd hvalue (UInt32.not_lt.mpr hle)
      · rw [hmessage] at hrelease
        cases hrelease
    · obtain ⟨clients, hset, -⟩ := setAudioActive_of_contains hknown (request.value != 0)
      rw [hset]
      exact setAudioActive_refines gone
        ⟨hversion, hcurrent, hholder, .inl ⟨hmessage, UInt32.not_lt.mp hvalue⟩⟩ hmessage hset
  | releaseClient =>
    obtain ⟨clients, hdetach⟩ := detach_of_contains hknown
    dsimp only
    rw [hdetach]
    exact releaseClient_refines hd gone ⟨hversion, hcurrent, hholder, .inr hmessage⟩ hmessage hdetach
  | setStartupBuffer =>
    have hrefused : ¬ service.clients.leases.Grants service.structSize (.control request env) :=
      not_grants_of_message (by simp [hmessage]) (by simp [hmessage])
    dsimp only
    split_ifs
    · exact .refused hrefused (by simp)
    · exact .refused hrefused (by simp)
    · exact .setStartupBuffer hmessage
    · exact .refused hrefused (by simp)
    · exact .setStartupBuffer hmessage
  | other id =>
    refine .refused ?_ (by simp)
    exact not_grants_of_message (by simp [hmessage]) (by simp [hmessage])

def gone (service : NS6DeviceService) : Event → Int32 → Bool
  | .reap dead => reaped dead service.clients.clients (List.range maxClients)
  | _ => fun _ ↦ false

def observed (service : NS6DeviceService) : List Event → List Leases.Observation
  | [] => []
  | event :: events =>
    ⟨event, (service.step event).1, service.gone event⟩ ::
      observed (service.step event).2.1 events

/-- Every event changes the leases as the map of them prescribes. -/
theorem step_refines (h : service.Inv) (event : Event) :
    Leases.Step service.structSize service.clients.leases (service.gone event) event
      (service.step event).1 (service.step event).2.1.clients.leases := by
  cases event with
  | hello request peerPid => exact handleHello_refines h.distinct _ request peerPid
  | control request env => exact handleControl_refines h.distinct _ request env
  | reap dead =>
    dsimp only [step]
    rw [reapDeadClients_leases h.distinct dead]
    exact .reap dead

theorem run_refines (h : service.Inv) (events : List Event) :
    Leases.Run service.structSize service.clients.leases (service.observed events)
      (service.run events).1.clients.leases := by
  induction events generalizing service with
  | nil => exact .nil _
  | cons event events ih =>
    have hrest := ih (h.step event)
    rw [(step_fixed service event).1] at hrest
    exact .cons (step_refines h event) hrest

theorem Inv.audioActive_iff_playing (h : service.Inv) :
    service.audioActive = true ↔ service.clients.leases.Playing := by
  rw [h.aggregate]
  exact anyAudioActive_iff_playing h.distinct

/-- A published service answers every event and changes its leases as the map of them does,
which grants a lease to at most eight clients and ends those of the processes that the service
finds dead, and it plays when one of the leases does. -/
theorem publish_refines (service : NS6DeviceService) (events : List Event) :
    let reached := (service.publish.run events).1
    Leases.Run service.structSize Leases.none (service.publish.observed events)
        reached.clients.leases ∧
      (reached.audioActive = true ↔ reached.clients.leases.Playing) := by
  intro reached
  have hrun := run_refines (publish_inv service) events
  have hempty : service.publish.clients.leases = Leases.none := empty_leases
  rw [hempty] at hrun
  exact ⟨hrun, ((publish_inv service).run events).audioActive_iff_playing⟩

theorem Inv.others (h : service.Inv) {clientId : UInt64} {events : List Event}
    (hothers : ∀ event ∈ events, event.clientId? ≠ some clientId) :
    (service.run events).1.clients.leases clientId = service.clients.leases clientId ∨
      (service.run events).1.clients.leases clientId = none ∧
        ∃ lease before dead after, service.clients.leases clientId = some lease ∧
          events = before ++ .reap dead :: after ∧
          reaped dead (service.run before).1.clients.clients (List.range maxClients)
            lease.processId = true := by
  induction events generalizing service with
  | nil => exact .inl rfl
  | cons event events ih =>
    obtain ⟨hfirst, hevents⟩ := List.forall_mem_cons.mp hothers
    have hrest := ih (h.step event) hevents
    rcases (step_refines h event).others hfirst with hsame | ⟨hnone, ⟨dead, rfl⟩, lease, hlease, hgone⟩
    · rw [hsame] at hrest
      refine hrest.imp_right fun ⟨hnone, lease, before, dead, after, hlease, hsplit, hreaped⟩ ↦ ?_
      refine ⟨hnone, lease, event :: before, dead, after, hlease, ?_, hreaped⟩
      rw [hsplit, List.cons_append]
    · refine .inr ⟨?_, lease, [], dead, events, hlease, rfl, hgone⟩
      -- a lease that has ended does not come back without a hello of its client
      rcases hrest with hsame | ⟨hgone', -⟩
      · exact hsame.trans hnone
      · exact hgone'

/-- The clients of the service do not disturb each other: whatever the others ask for, in any
order, a lease stays what it is, or one of the reaps among the events finds a slot of its
process, whose id is positive, with the process dead. -/
theorem leases_isolated (service : NS6DeviceService) (events others : List Event)
    {clientId : UInt64} (hothers : ∀ event ∈ others, event.clientId? ≠ some clientId) :
    let reached := (service.publish.run events).1
    let after := (reached.run others).1
    after.clients.leases clientId = reached.clients.leases clientId ∨
      after.clients.leases clientId = none ∧
        ∃ lease before dead rest i slot, reached.clients.leases clientId = some lease ∧
          0 < lease.processId ∧ others = before ++ .reap dead :: rest ∧ dead i = true ∧
          (reached.run before).1.clients.clients[i]? = some slot ∧ slot.clientId ≠ 0 ∧
          slot.processId = lease.processId := by
  intro reached after
  have hinv : reached.Inv := (publish_inv service).run events
  refine (hinv.others hothers).imp_right
    fun ⟨hnone, lease, before, dead, rest, hlease, hsplit, hreaped⟩ ↦ ?_
  obtain ⟨i, -, hdead, slot, hslot, hid, hpos, heq⟩ := reaped_iff.mp hreaped
  exact ⟨hnone, lease, before, dead, rest, i, slot, hlease, heq ▸ hpos, hsplit, hdead, hslot, hid, heq⟩

def vacant : NS6DeviceService := ⟨4096, 8192, 64, .empty, false, 256, 1⟩

theorem leases_isolated_second_client :
    let reached := (vacant.publish.run [.hello ⟨4, 4096, 11⟩ 501]).1
    let others : List Event := [.hello ⟨4, 4096, 12⟩ 502, .reap fun _ ↦ false]
    let after := (reached.run others).1
    after.clients.leases 11 = reached.clients.leases 11 ∨
      after.clients.leases 11 = none ∧
        ∃ lease before dead rest i slot, reached.clients.leases 11 = some lease ∧
          0 < lease.processId ∧ others = before ++ .reap dead :: rest ∧ dead i = true ∧
          (reached.run before).1.clients.clients[i]? = some slot ∧ slot.clientId ≠ 0 ∧
          slot.processId = lease.processId := by
  refine leases_isolated vacant [.hello ⟨4, 4096, 11⟩ 501] _ fun event hevent ↦ ?_
  rcases List.mem_pair.mp hevent with rfl | rfl
  · decide
  · decide

end NS6DeviceService

end NumarkNS6.Legacy
