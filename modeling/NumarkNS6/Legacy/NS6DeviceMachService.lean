import NumarkNS6.Foundation.Runs
import NumarkNS6.Legacy.NS6DeviceClientRegistry
import NumarkNS6.Legacy.NS6DeviceSession

namespace NumarkNS6.Legacy

open Foundation.KeyedSlots Foundation.Runs NS6DeviceClientLease

def protocolVersion : UInt32 := 4

def protocolVersionSupported (version : UInt32) : Bool := version == protocolVersion

structure NS6DeviceHelloRequest where
  protocolVersion : UInt32
  clientStructSize : UInt32
  clientId : UInt64

inductive ControlMessage
  | setAudioActive
  | setStartupBuffer
  | releaseClient
  | other (id : UInt32)
  deriving DecidableEq

structure NS6DeviceControlRequest where
  message : ControlMessage
  protocolVersion : UInt32
  value : UInt32
  sessionId : UInt64
  clientId : UInt64

/-- The codes `KERN_SUCCESS`, `MIG_BAD_ARGUMENTS`, `MIG_BAD_ID`, `KERN_RESOURCE_SHORTAGE` and
`KERN_FAILURE`. -/
inductive ServiceStatus
  | success
  | badArguments
  | badId
  | resourceShortage
  | failure
  deriving DecidableEq

structure NS6DeviceHelloReply where
  status : ServiceStatus
  protocolVersion : UInt32
  sharedStructSize : UInt32
  mappedSize : UInt64
  memoryOffset : UInt64
  sessionId : UInt64
  hasMemoryEntry : Bool

inductive UsbCall
  | setPaused (paused : Bool)
  | setStartupBufferFrames (frames : UInt32)
  | requestRestart
  deriving DecidableEq

/-- The session in the shared memory and the answers of the USB driver during a request. -/
structure ServiceEnvironment where
  session : NS6DeviceSession
  usbReady : Bool
  restarts : Bool

structure NS6DeviceService where
  /-- The size of the shared memory's structure. -/
  structSize : UInt64
  mappingSize : UInt64
  memoryOffset : UInt64
  clients : NS6DeviceClientRegistry
  audioActive : Bool
  startupBufferFrames : UInt32
  sessionId : UInt64
  deriving DecidableEq

namespace NS6DeviceService

variable (service : NS6DeviceService)

def publish : NS6DeviceService := { service with clients := .empty, audioActive := false }

def handleHello (request : NS6DeviceHelloRequest) (peerPid : Int32) :
    NS6DeviceHelloReply × NS6DeviceService :=
  let reply : NS6DeviceHelloReply :=
    ⟨.success, protocolVersion, service.structSize.toUInt32, 0, 0, 0, false⟩
  if !protocolVersionSupported request.protocolVersion ||
      request.clientStructSize.toUInt64 != service.structSize || request.clientId == 0 then
    ({ reply with status := .badArguments }, service)
  else
    match service.clients.attach request.clientId peerPid with
    | none => ({ reply with status := .resourceShortage }, service)
    | some clients =>
      ({ reply with
          mappedSize := service.mappingSize
          memoryOffset := service.memoryOffset
          sessionId := service.sessionId
          hasMemoryEntry := true },
        { service with clients := clients })

def updateAudioActiveFromClients : NS6DeviceService × List UsbCall :=
  let active := service.clients.anyAudioActive
  ({ service with audioActive := active },
    if active then if !service.audioActive then [.setPaused false] else []
    else if service.audioActive then [.setPaused true]
    else [])

/-- One turn of the loop over the slots, with whether a lease was given up so far. `dead i`
is whether `kill` finds no process then. -/
def reapClient (dead : ℕ → Bool) (r : NS6DeviceClientRegistry × Bool) (i : ℕ) :
    NS6DeviceClientRegistry × Bool :=
  match r.1.clients[i]? with
  | none => r
  | some client =>
    if client.clientId = 0 ∨ client.processId ≤ 0 then r
    else if !dead i then r
    else if (r.1.detachProcess client.processId).2 = 0 then
      ((r.1.detachProcess client.processId).1, r.2)
    else ((r.1.detachProcess client.processId).1, true)

def reapDeadClients (dead : ℕ → Bool) : NS6DeviceService × List UsbCall :=
  let r := (List.range maxClients).foldl (reapClient dead) (service.clients, false)
  if r.2 then updateAudioActiveFromClients { service with clients := r.1 }
  else ({ service with clients := r.1 }, [])

def handleControl (request : NS6DeviceControlRequest) (env : ServiceEnvironment) :
    ServiceStatus × NS6DeviceService × List UsbCall :=
  if !protocolVersionSupported request.protocolVersion then (.badArguments, service, [])
  else if !env.session.isCurrent request.sessionId ||
      !service.clients.contains request.clientId then (.badId, service, [])
  else
    match request.message with
    | .setAudioActive =>
      if request.value > 1 then (.badArguments, service, [])
      else
        match service.clients.setAudioActive request.clientId (request.value != 0) with
        | some clients => (.success, updateAudioActiveFromClients { service with clients := clients })
        | none => (.success, updateAudioActiveFromClients service)
    | .releaseClient =>
      match service.clients.detach request.clientId with
      | none => (.badId, service, [])
      | some clients => (.success, updateAudioActiveFromClients { service with clients := clients })
    | .setStartupBuffer =>
      if !service.clients.contains request.clientId then (.badId, service, [])
      else if request.value == 0 || request.value > 65536 then (.badArguments, service, [])
      else
        let changed := service.startupBufferFrames != request.value
        let stored := { service with startupBufferFrames := request.value }
        if changed && env.usbReady then
          (if env.restarts then .success else .failure, stored,
            [.setStartupBufferFrames request.value, .requestRestart])
        else (.success, stored, [.setStartupBufferFrames request.value])
    | .other _ => (.badId, service, [])

/-- What the service thread does between two receives, in any order. -/
inductive Event
  | hello (request : NS6DeviceHelloRequest) (peerPid : Int32)
  | control (request : NS6DeviceControlRequest) (env : ServiceEnvironment)
  | reap (dead : ℕ → Bool)

def step : Event → Option ServiceStatus × NS6DeviceService × List UsbCall
  | .hello request peerPid =>
    (some (service.handleHello request peerPid).1.status,
      (service.handleHello request peerPid).2, [])
  | .control request env =>
    (some (service.handleControl request env).1, (service.handleControl request env).2)
  | .reap dead => (none, service.reapDeadClients dead)

def run (service : NS6DeviceService) : List Event → NS6DeviceService × List UsbCall
  | [] => (service, [])
  | event :: events =>
    ((run (service.step event).2.1 events).1,
      (service.step event).2.2 ++ (run (service.step event).2.1 events).2)

def pauses (calls : List UsbCall) : List Bool :=
  calls.filterMap fun
    | .setPaused paused => some paused
    | _ => none

structure Inv : Prop where
  distinct : Distinct client? service.clients.clients
  aggregate : service.audioActive = service.clients.anyAudioActive

/-- What an event can do: nothing to the leases, a hello that attaches one, or a change
of leases after which the aggregate is computed again. -/
inductive Effect : Option ServiceStatus → NS6DeviceService × List UsbCall → Prop
  | none (answer : Option ServiceStatus) {after : NS6DeviceService} {calls : List UsbCall}
      (hclients : after.clients = service.clients)
      (hactive : after.audioActive = service.audioActive) (hcalls : pauses calls = [])
      (hfixed : after.structSize = service.structSize ∧ after.sessionId = service.sessionId) :
      Effect answer (after, calls)
  | attach {clientId : UInt64} {processId : Int32} {clients : NS6DeviceClientRegistry}
      (h : service.clients.attach clientId processId = some clients) :
      Effect (some .success) ({ service with clients := clients }, [])
  | update {answer : Option ServiceStatus} (hanswer : ∀ status ∈ answer, status = .success)
      {clients : NS6DeviceClientRegistry}
      (h : Distinct client? service.clients.clients → Distinct client? clients.clients) :
      Effect answer (updateAudioActiveFromClients { service with clients := clients })

variable {service}

theorem handleHello_effect (request : NS6DeviceHelloRequest) (peerPid : Int32) :
    Effect service (some (service.handleHello request peerPid).1.status)
      ((service.handleHello request peerPid).2, []) := by
  rw [handleHello]
  split_ifs
  · exact .none _ rfl rfl rfl ⟨rfl, rfl⟩
  · split
    · exact .none _ rfl rfl rfl ⟨rfl, rfl⟩
    · next clients hattach => exact .attach hattach

theorem handleControl_effect (request : NS6DeviceControlRequest) (env : ServiceEnvironment) :
    Effect service (some (service.handleControl request env).1)
      (service.handleControl request env).2 := by
  have hsuccess : ∀ status ∈ some ServiceStatus.success, status = .success :=
    fun _ h ↦ (Option.some.inj h).symm
  rw [handleControl]
  by_cases hversion : (!protocolVersionSupported request.protocolVersion) = true
  · rw [if_pos hversion]
    exact .none _ rfl rfl rfl ⟨rfl, rfl⟩
  by_cases hknown : (!env.session.isCurrent request.sessionId ||
      !service.clients.contains request.clientId) = true
  · rw [if_neg hversion, if_pos hknown]
    exact .none _ rfl rfl rfl ⟨rfl, rfl⟩
  rw [if_neg hversion, if_neg hknown]
  cases request.message with
  | setAudioActive =>
    dsimp only
    split_ifs
    · exact .none _ rfl rfl rfl ⟨rfl, rfl⟩
    · split
      · next clients hset =>
        exact .update hsuccess fun h ↦ NS6DeviceClientRegistry.setAudioActive_distinct h hset
      · exact .update hsuccess fun h ↦ h
  | releaseClient =>
    dsimp only
    split
    · exact .none _ rfl rfl rfl ⟨rfl, rfl⟩
    · next clients hdetach =>
      exact .update hsuccess fun h ↦ NS6DeviceClientRegistry.detach_distinct h hdetach
  | setStartupBuffer =>
    dsimp only
    split_ifs
    all_goals exact .none _ rfl rfl rfl ⟨rfl, rfl⟩
  | other id => exact .none _ rfl rfl rfl ⟨rfl, rfl⟩

theorem reapClient_distinct (dead : ℕ → Bool) {r : NS6DeviceClientRegistry × Bool}
    (h : Distinct client? r.1.clients) (i : ℕ) :
    Distinct client? (reapClient dead r i).1.clients := by
  rw [reapClient]
  split
  · exact h
  · split_ifs
    · exact h
    · exact h
    · exact NS6DeviceClientRegistry.detachProcess_distinct h _
    · exact NS6DeviceClientRegistry.detachProcess_distinct h _

theorem reapClient_untouched (dead : ℕ → Bool) (r : NS6DeviceClientRegistry × Bool) (i : ℕ)
    (h : (reapClient dead r i).2 = false) : reapClient dead r i = r := by
  rw [reapClient] at h ⊢
  split
  · rfl
  · next client hclient =>
    rw [hclient] at h
    dsimp only at h
    split_ifs at h ⊢ with hskip hdead hnone
    · rfl
    · rfl
    · rw [NS6DeviceClientRegistry.detachProcess_of_none hnone]

theorem foldl_reapClient_distinct (dead : ℕ → Bool) (slots : List ℕ)
    {r : NS6DeviceClientRegistry × Bool} (h : Distinct client? r.1.clients) :
    Distinct client? (slots.foldl (reapClient dead) r).1.clients := by
  induction slots generalizing r with
  | nil => exact h
  | cons i slots ih => exact ih (reapClient_distinct dead h i)

theorem foldl_reapClient_untouched (dead : ℕ → Bool) (slots : List ℕ)
    (r : NS6DeviceClientRegistry × Bool) (h : (slots.foldl (reapClient dead) r).2 = false) :
    slots.foldl (reapClient dead) r = r := by
  induction slots generalizing r with
  | nil => rfl
  | cons i slots ih =>
    have hrest := ih (reapClient dead r i) h
    rw [List.foldl_cons] at h ⊢
    rw [hrest] at h ⊢
    exact reapClient_untouched dead r i h

theorem reapDeadClients_effect (dead : ℕ → Bool) :
    Effect service none (service.reapDeadClients dead) := by
  rw [reapDeadClients]
  split_ifs with hreaped
  · refine .update ?_ ?_
    · intro status hstatus
      cases hstatus
    · intro hdistinct
      exact foldl_reapClient_distinct dead _ hdistinct
  · have hsame := foldl_reapClient_untouched dead _ _ (Bool.eq_false_iff.mpr hreaped)
    rw [hsame]
    exact .none none rfl rfl rfl ⟨rfl, rfl⟩

theorem step_effect (service : NS6DeviceService) (event : Event) :
    Effect service (service.step event).1 (service.step event).2 := by
  cases event with
  | hello request peerPid => exact handleHello_effect request peerPid
  | control request env => exact handleControl_effect request env
  | reap dead =>
    dsimp only [step]
    exact reapDeadClients_effect dead

theorem step_fixed (service : NS6DeviceService) (event : Event) :
    (service.step event).2.1.structSize = service.structSize ∧
      (service.step event).2.1.sessionId = service.sessionId := by
  have heffect := step_effect service event
  generalize service.step event = r at heffect
  obtain ⟨answer, after, calls⟩ := r
  cases heffect with
  | none _ hclients hactive hcalls hfixed => exact hfixed
  | attach hattach => exact ⟨rfl, rfl⟩
  | update hanswer hdistinct => exact ⟨rfl, rfl⟩

theorem pauses_append (calls calls' : List UsbCall) :
    pauses (calls ++ calls') = pauses calls ++ pauses calls' := List.filterMap_append

theorem pauses_update (service : NS6DeviceService) : pauses service.updateAudioActiveFromClients.2 =
    (edge (!service.audioActive) (!service.clients.anyAudioActive)).toList := by
  rw [updateAudioActiveFromClients]
  cases service.audioActive <;> cases service.clients.anyAudioActive <;> rfl

theorem pauses_step (h : service.Inv) (event : Event) :
    pauses (service.step event).2.2 = (edge (!service.clients.anyAudioActive)
      (!(service.step event).2.1.clients.anyAudioActive)).toList := by
  have heffect := step_effect service event
  generalize service.step event = r at heffect
  obtain ⟨answer, after, calls⟩ := r
  have hsame (active : Bool) : (edge active active).toList = [] := by
    rw [edge, if_pos rfl]
    rfl
  cases heffect with
  | none _ hclients hactive hcalls hfixed =>
    dsimp only
    rw [hclients, hsame, hcalls]
  | attach hattach =>
    dsimp only
    rw [NS6DeviceClientRegistry.attach_anyAudioActive hattach, hsame]
    rfl
  | @update _ hanswer clients hdistinct =>
    rw [← h.aggregate]
    exact pauses_update { service with clients := clients }

theorem Inv.step (h : service.Inv) (event : Event) : (service.step event).2.1.Inv := by
  have heffect := step_effect service event
  generalize service.step event = r at heffect
  obtain ⟨answer, after, calls⟩ := r
  cases heffect with
  | none _ hclients hactive hcalls hfixed =>
    constructor
    · dsimp only
      rw [hclients]
      exact h.distinct
    · dsimp only
      rw [hclients, hactive]
      exact h.aggregate
  | attach hattach =>
    refine ⟨NS6DeviceClientRegistry.attach_distinct h.distinct hattach, ?_⟩
    exact h.aggregate.trans (NS6DeviceClientRegistry.attach_anyAudioActive hattach).symm
  | update hanswer hdistinct => exact ⟨hdistinct h.distinct, rfl⟩

/-- Only what succeeds changes a lease or pauses the driver. -/
theorem step_refused {event : Event} {status : ServiceStatus}
    (hanswer : (service.step event).1 = some status) (hstatus : status ≠ .success) :
    (service.step event).2.1.clients = service.clients ∧ pauses (service.step event).2.2 = [] := by
  have heffect := step_effect service event
  rw [hanswer] at heffect
  generalize (service.step event).2 = r at heffect
  cases heffect with
  | none _ hclients hactive hcalls hfixed => exact ⟨hclients, hcalls⟩
  | attach hattach => exact absurd rfl hstatus
  | update hsuccess hdistinct => exact absurd (hsuccess status rfl) hstatus

theorem handleHello_again {request : NS6DeviceHelloRequest} {peerPid : Int32}
    (h : service.clients.contains request.clientId = true) :
    (service.handleHello request peerPid).2.clients.clients.map
        (fun lease ↦ (lease.clientId, lease.audioActive)) =
      service.clients.clients.map fun lease ↦ (lease.clientId, lease.audioActive) := by
  obtain ⟨clients, hattach, hsame⟩ :=
    NS6DeviceClientRegistry.attach_again peerPid h
  rw [handleHello]
  dsimp only
  split_ifs
  · rfl
  · rw [hattach]
    exact hsame

theorem publish_inv (service : NS6DeviceService) : service.publish.Inv :=
  ⟨NS6DeviceClientRegistry.empty_distinct, rfl⟩

theorem Inv.run (h : service.Inv) (events : List Event) : (service.run events).1.Inv := by
  induction events generalizing service with
  | nil => exact h
  | cons event events ih => exact ih (h.step event)

/-- The pause calls of a run alternate from the state of the driver it begins in. -/
theorem Inv.alternates (h : service.Inv) (events : List Event) :
    Alternates service.clients.anyAudioActive (pauses (service.run events).2) := by
  induction events generalizing service with
  | nil => trivial
  | cons event events ih =>
    have hrest := ih (h.step event)
    rw [NS6DeviceService.run, pauses_append, pauses_step h event]
    rw [← Bool.not_not (service.step event).2.1.clients.anyAudioActive] at hrest
    have hfirst := @alternates_edge (!service.clients.anyAudioActive) _ _ hrest
    rw [Bool.not_not] at hfirst
    exact hfirst

/-- The leases drive the pause state of the USB driver: in every run of a published
service the ids are different, the aggregate is the disjunction of the leases, every
event pauses or resumes the driver on the edges of the aggregate and not otherwise, a
lease attached again keeps its activity, and what is refused has no effect. -/
theorem leases_drive_pause_state (service : NS6DeviceService) (events : List Event) :
    let reached := (service.publish.run events).1
    reached.clients.registered.Nodup ∧ reached.clients.registered.length ≤ 8 ∧
    (reached.audioActive = true ↔
      ∃ lease ∈ reached.clients.clients, lease.clientId ≠ 0 ∧ lease.audioActive = true) ∧
    (∀ event, pauses (reached.step event).2.2 =
      (edge (!reached.audioActive) (!(reached.step event).2.1.audioActive)).toList) ∧
    Alternates false (pauses (service.publish.run events).2) ∧
    (∀ request peerPid, reached.clients.contains request.clientId = true →
      (reached.handleHello request peerPid).2.clients.clients.map
          (fun lease ↦ (lease.clientId, lease.audioActive)) =
        reached.clients.clients.map fun lease ↦ (lease.clientId, lease.audioActive)) ∧
    ∀ event status, (reached.step event).1 = some status → status ≠ .success →
      (reached.step event).2.1.clients = reached.clients ∧
        pauses (reached.step event).2.2 = [] := by
  intro reached
  have hinv : reached.Inv := (publish_inv service).run events
  refine ⟨hinv.distinct, NS6DeviceClientRegistry.registered_length_le, ?_, ?_, ?_, ?_, ?_⟩
  · rw [hinv.aggregate]
    exact NS6DeviceClientRegistry.anyAudioActive_iff
  · intro event
    rw [hinv.aggregate, (hinv.step event).aggregate]
    exact pauses_step hinv event
  · have hpauses := (publish_inv service).alternates events
    rw [← (publish_inv service).aggregate] at hpauses
    exact hpauses
  · intro request peerPid hcontains
    exact handleHello_again hcontains
  · intro event status hanswer hstatus
    exact step_refused hanswer hstatus

end NS6DeviceService

end NumarkNS6.Legacy
