import NumarkNS6.Legacy.NS6DeviceMachService

namespace NumarkNS6.Legacy

open Foundation.KeyedSlots Foundation.Runs

section Accounting

def needsServiceActivation (activeStarts : UInt32) : Bool := activeStarts == 0

def accountStart (clientStarts activeStarts : UInt32) : UInt32 × UInt32 :=
  (clientStarts + 1, activeStarts + 1)

def accountUntrackedStart (untrackedStarts activeStarts : UInt32) : UInt32 × UInt32 :=
  accountStart untrackedStarts activeStarts

def accountRemove (clientStarts activeStarts : UInt32) : UInt32 × UInt32 :=
  (clientStarts, if activeStarts ≥ clientStarts then activeStarts - clientStarts else 0)

def accountStop (clientStarts : Option UInt32) (untrackedStarts activeStarts : UInt32) :
    Option (Option UInt32 × UInt32 × UInt32) :=
  if activeStarts = 0 then none
  else if clientStarts.any (· != 0) then
    some (clientStarts.map (· - 1), untrackedStarts, activeStarts - 1)
  else if untrackedStarts ≠ 0 then some (clientStarts, untrackedStarts - 1, activeStarts - 1)
  else none

end Accounting

structure NS6ActiveFlow where
  frames : UInt32
  clientId : UInt32
  lastCallbackTick : UInt64
  deriving DecidableEq

structure NS6ActiveFlowSnapshot where
  frames : UInt32
  clientId : UInt32

namespace NS6ActiveFlow

def record (frames clientId : UInt32) (tick : UInt64) : NS6ActiveFlow := ⟨frames, clientId, tick⟩

def clear : NS6ActiveFlow := ⟨0, 0, 0⟩

def snapshot (flow : NS6ActiveFlow) (now maxAgeTicks : UInt64) : NS6ActiveFlowSnapshot :=
  if flow.lastCallbackTick ≠ 0 ∧ now ≥ flow.lastCallbackTick ∧
      now - flow.lastCallbackTick < maxAgeTicks then ⟨flow.frames, flow.clientId⟩
  else ⟨0, 0⟩

def shouldRearm (flow : NS6ActiveFlowSnapshot) (queuedFrames minimumQueuedFrames : UInt32) : Bool :=
  flow.frames == 0 && queuedFrames > 0 && queuedFrames < minimumQueuedFrames

end NS6ActiveFlow

def zeroTimestampKeepAnchor (anchorHostTime currentHostTime : UInt64) : UInt64 :=
  if anchorHostTime ≠ 0 then anchorHostTime else currentHostTime

structure NS6TrackedClient where
  clientId : UInt32
  starts : UInt32
  order : UInt64
  used : Bool
  deriving DecidableEq

inductive HALStatus
  | noError
  | badObject
  | notRunning
  | unspecified
  deriving DecidableEq

/-- The driver's state under `stream_lock`, with the lease that the service holds for it. -/
structure NS6HAL where
  ioClients : UInt32
  untrackedIoStarts : UInt32
  trackedClients : List NS6TrackedClient
  clientOrder : UInt64
  activeFlow : NS6ActiveFlow
  numer : UInt32
  denom : UInt32
  anchorHostTime : UInt64
  seed : UInt32
  enqueueFailures : UInt32
  lastEnqueueLogMs : UInt64
  lease : Bool
  deriving DecidableEq

namespace NS6HAL

def deviceId : UInt32 := 2

def initial (numer denom : UInt32) : NS6HAL where
  ioClients := 0
  untrackedIoStarts := 0
  trackedClients := List.replicate 128 ⟨0, 0, 0, false⟩
  clientOrder := 0
  activeFlow := .clear
  numer := numer
  denom := denom
  anchorHostTime := 0
  seed := 1
  enqueueFailures := 0
  lastEnqueueLogMs := 0
  lease := false

/-- A request to the service that succeeds sets the lease, one that fails leaves it. -/
def setAudioActive (lease active answer : Bool) : Bool := if answer then active else lease

def audioActiveRequest (sessionId clientId : UInt64) (active : Bool) : NS6DeviceControlRequest :=
  ⟨.setAudioActive, protocolVersion, if active then 1 else 0, sessionId, clientId⟩

/-- The service keeps the lease of a registered driver so. -/
theorem lease_of_request {service : NS6DeviceService} {clientId : UInt64} {lease : Bool}
    (hlease : service.clients.leaseOf clientId = some lease) (sessionId : UInt64) (active : Bool)
    (env : ServiceEnvironment) :
    let answer := service.handleControl (audioActiveRequest sessionId clientId active) env
    answer.2.1.clients.leaseOf clientId =
      some (setAudioActive lease active (answer.1 == .success)) := by
  intro answer
  have hvalue : (if active then 1 else 0 : UInt32) ≤ 1 ∧
      ((if active then 1 else 0 : UInt32) != 0) = active := by cases active <;> decide
  by_cases hknown : env.session.isCurrent sessionId = true ∧ service.clients.contains clientId = true
  · obtain ⟨clients, hset, hactive⟩ :=
      NS6DeviceClientRegistry.setAudioActive_of_contains hknown.2 active
    have hanswer : answer =
        (.success, NS6DeviceService.updateAudioActiveFromClients
          { service with clients := clients }) := by
      simp only [answer, NS6DeviceService.handleControl, audioActiveRequest, protocolVersionSupported,
        hknown, hvalue, hset, UInt32.not_lt.mpr hvalue.1]
      simp
    rw [hanswer]
    exact hactive
  · have hanswer : answer = (.badId, service, []) := by
      rw [not_and_or, Bool.not_eq_true, Bool.not_eq_true] at hknown
      simp only [answer, NS6DeviceService.handleControl, audioActiveRequest, protocolVersionSupported]
      rcases hknown with hsession | hclient
      · simp [hsession]
      · simp [hclient]
    rw [hanswer]
    exact hlease

/-- One call of `startIo`: its arguments, what it reads from its surroundings and the
answers of the service to the first and the second request it makes. -/
structure StartCall where
  object : UInt32
  client : UInt32
  devicePresent : Bool
  serviceAvailable : Bool
  mapped : Bool
  now : UInt64
  queued : UInt32
  hostTime : UInt64
  first : Bool
  second : Bool
  deriving DecidableEq

def tracks (client : UInt32) (slot : NS6TrackedClient) : Bool := slot.used && slot.clientId == client

variable (s : NS6HAL)

def rearms (call : StartCall) : Bool :=
  !needsServiceActivation s.ioClients && call.mapped && s.numer != 0 &&
    NS6ActiveFlow.shouldRearm
      (s.activeFlow.snapshot call.now (100000000 * s.denom.toUInt64 / s.numer.toUInt64))
      call.queued 1024

def activate (call : StartCall) : Bool × Bool :=
  if !call.serviceAvailable then (false, s.lease)
  else if needsServiceActivation s.ioClients then
    (call.first, setAudioActive s.lease true call.first)
  else if s.rearms call then
    -- the running service is paused first, and resumed only if that succeeds
    let paused := setAudioActive s.lease false call.first
    if call.first then (call.second, setAudioActive paused true call.second) else (false, paused)
  else (true, s.lease)

def modifyClient (client : UInt32) (f : NS6TrackedClient → NS6TrackedClient) :
    List NS6TrackedClient :=
  (updateFirst (tracks client) f s.trackedClients).getD s.trackedClients

def countStart (client : UInt32) : NS6HAL :=
  match s.trackedClients.find? (tracks client) with
  | some slot =>
    let (starts, clients) := accountStart slot.starts s.ioClients
    { s with
      ioClients := clients
      trackedClients := s.modifyClient client
        ({ · with starts := starts, order := s.clientOrder + 1 })
      clientOrder := s.clientOrder + 1 }
  | none =>
    let (untracked, clients) := accountUntrackedStart s.untrackedIoStarts s.ioClients
    { s with ioClients := clients, untrackedIoStarts := untracked }

def anchor (hostTime : UInt64) : NS6HAL :=
  { s with
    anchorHostTime := zeroTimestampKeepAnchor s.anchorHostTime hostTime
    seed := if s.anchorHostTime = 0 then s.seed + 1 else s.seed
    enqueueFailures := 0
    lastEnqueueLogMs := 0 }

def startIo (call : StartCall) : HALStatus × NS6HAL :=
  if call.object ≠ deviceId then (.badObject, s)
  else if !call.devicePresent then (.notRunning, s)
  else
    let leased := { s with lease := (s.activate call).2 }
    if !(s.activate call).1 then (.unspecified, leased)
    else if s.ioClients = 0 then (.noError, (leased.countStart call.client).anchor call.hostTime)
    else (.noError, leased.countStart call.client)

/-- The store of `io_clients` after a stop or a removal; the last client takes the lease along. -/
def storeClients (clients : UInt32) (answer : Bool) : NS6HAL :=
  if clients = 0 then
    { s with
      ioClients := clients
      activeFlow := .clear
      lease := setAudioActive s.lease false answer }
  else { s with ioClients := clients }

def stopIo (object client : UInt32) (answer : Bool) : HALStatus × NS6HAL :=
  if object ≠ deviceId then (.badObject, s)
  else
    let starts := (s.trackedClients.find? (tracks client)).map (·.starts)
    match accountStop starts s.untrackedIoStarts s.ioClients with
    | none => (.noError, s)
    | some (starts', untracked, clients) =>
      (.noError, { s with
        trackedClients := s.modifyClient client fun slot ↦
          { slot with starts := starts'.getD slot.starts }
        untrackedIoStarts := untracked }.storeClients clients answer)

def addClient (object client : UInt32) : NS6HAL :=
  if object ≠ deviceId then s
  else if s.trackedClients.any (tracks client) then s
  else
    let tracked := updateFirst (!·.used) (fun _ ↦ ⟨client, 0, 0, true⟩) s.trackedClients
    { s with trackedClients := tracked.getD s.trackedClients }

def removeClient (object client : UInt32) (answer : Bool) : NS6HAL :=
  if object ≠ deviceId then s
  else
    match s.trackedClients.find? (tracks client) with
    | none => s
    | some slot =>
      let (released, clients) := accountRemove slot.starts s.ioClients
      let s := { s with trackedClients := s.modifyClient client fun _ ↦ ⟨0, 0, 0, false⟩ }
      if released ≠ 0 then s.storeClients clients answer else s

inductive Event
  | addClient (object client : UInt32)
  | removeClient (object client : UInt32) (answer : Bool)
  | startIo (call : StartCall)
  | stopIo (object client : UInt32) (answer : Bool)
  | write (frames client : UInt32) (tick : UInt64)
  deriving DecidableEq

def next : Event → NS6HAL
  | .addClient object client => s.addClient object client
  | .removeClient object client answer => s.removeClient object client answer
  | .startIo call => (s.startIo call).2
  | .stopIo object client answer => (s.stopIo object client answer).2
  | .write frames client tick => { s with activeFlow := .record frames client tick }

def step (event : Event) : Option NS6HAL := some (s.next event)

def resumeFails (call : StartCall) : Bool :=
  call.serviceAvailable && s.rearms call && call.first && !call.second

def interrupts : Event → Bool
  | .startIo call => call.object == deviceId && call.devicePresent && s.resumeFails call
  | _ => false

def Leased : Prop := s.ioClients ≠ 0 → s.lease = true

variable {s}

theorem rearms_running {call : StartCall} (h : s.rearms call = true) : s.ioClients ≠ 0 := by
  simp only [rearms, Bool.and_eq_true, Bool.not_eq_true', needsServiceActivation,
    beq_eq_false_iff_ne] at h
  exact h.1.1.1

theorem resumeFails_running {call : StartCall} (h : s.resumeFails call = true) :
    s.ioClients ≠ 0 := by
  simp only [resumeFails, Bool.and_eq_true] at h
  exact rearms_running h.1.1.2

section Activate

variable {call : StartCall} (havailable : call.serviceAvailable = true)
include havailable

theorem activate_idle (hidle : s.ioClients = 0) :
    s.activate call = (call.first, setAudioActive s.lease true call.first) := by
  simp [activate, havailable, needsServiceActivation, hidle]

theorem activate_running (hrunning : s.ioClients ≠ 0) (hfresh : s.rearms call = false) :
    s.activate call = (true, s.lease) := by
  simp [activate, havailable, needsServiceActivation, hrunning, hfresh]

theorem activate_stale (hstale : s.rearms call = true) :
    s.activate call = (call.first && call.second, if call.first then call.second else s.lease) := by
  have hrunning := rearms_running hstale
  cases hfirst : call.first with
  | false =>
    simp [activate, havailable, needsServiceActivation, hrunning, hstale, hfirst, setAudioActive]
  | true =>
    cases hsecond : call.second <;>
      simp [activate, havailable, needsServiceActivation, hrunning, hstale, hfirst, hsecond,
        setAudioActive]

end Activate

theorem activate_cases (s : NS6HAL) (call : StartCall) :
    (s.activate call = (false, s.lease) ∧ s.resumeFails call = false) ∨
    (s.activate call = (false, false) ∧ s.resumeFails call = true) ∨
    ∃ lease, s.activate call = (true, lease) ∧ s.resumeFails call = false ∧
      (lease = true ∨ s.ioClients ≠ 0 ∧ lease = s.lease) := by
  by_cases havailable : call.serviceAvailable = true
  swap
  · exact .inl (by simp [activate, resumeFails, havailable])
  by_cases hstale : s.rearms call = true
  · rw [activate_stale havailable hstale, resumeFails, havailable, hstale]
    cases call.first
    · exact .inl ⟨rfl, rfl⟩
    · cases call.second
      · exact .inr (.inl ⟨rfl, rfl⟩)
      · exact .inr (.inr ⟨true, rfl, rfl, .inl rfl⟩)
  · have hfresh : s.rearms call = false := Bool.eq_false_iff.mpr hstale
    have hresume : s.resumeFails call = false := by simp [resumeFails, hfresh]
    rw [hresume]
    by_cases hidle : s.ioClients = 0
    · rw [activate_idle havailable hidle]
      cases call.first
      · exact .inl ⟨rfl, rfl⟩
      · exact .inr (.inr ⟨true, rfl, rfl, .inl rfl⟩)
    · rw [activate_running havailable hidle hfresh]
      exact .inr (.inr ⟨s.lease, rfl, rfl, .inr ⟨hidle, rfl⟩⟩)

theorem countStart_lease (client : UInt32) : (s.countStart client).lease = s.lease := by
  rw [countStart]
  split
  · rfl
  · rfl

/-- What a start does to the lease: nothing if it is refused, unless it interrupts; and
if it succeeds, the lease is active or left to the clients that are running. -/
theorem startIo_cases (s : NS6HAL) (call : StartCall) :
    ((s.startIo call).1 ≠ .noError ∧ (s.startIo call).2 = s ∧
      s.interrupts (.startIo call) = false) ∨
    ((s.startIo call).1 ≠ .noError ∧ (s.startIo call).2 = { s with lease := false } ∧
      s.interrupts (.startIo call) = true) ∨
    ((s.startIo call).1 = .noError ∧ s.interrupts (.startIo call) = false ∧
      ((s.startIo call).2.lease = true ∨
        s.ioClients ≠ 0 ∧ (s.startIo call).2.lease = s.lease)) := by
  by_cases hobject : call.object = deviceId
  swap
  · exact .inl (by simp [startIo, interrupts, hobject])
  by_cases hpresent : call.devicePresent = true
  swap
  · exact .inl (by simp [startIo, interrupts, hobject, hpresent])
  have hinterrupts : s.interrupts (.startIo call) = s.resumeFails call := by
    simp [interrupts, hobject, hpresent]
  rw [hinterrupts]
  obtain ⟨hactivate, hresume⟩ | ⟨hactivate, hresume⟩ | ⟨lease, hactivate, hresume, hlease⟩ :=
    s.activate_cases call
  · exact .inl (by simp [startIo, hobject, hpresent, hactivate, hresume])
  · exact .inr (.inl (by simp [startIo, hobject, hpresent, hactivate, hresume]))
  · refine .inr (.inr ?_)
    have hkept : (s.startIo call).1 = .noError ∧ (s.startIo call).2.lease = lease := by
      simp only [startIo, hobject, hpresent, hactivate]
      by_cases hfirst : s.ioClients = 0
      · simp [hfirst, anchor, countStart_lease]
      · simp [hfirst, countStart_lease]
    rw [hkept.2]
    exact ⟨hkept.1, hresume, hlease⟩

theorem Leased.startIo (h : s.Leased) {call : StartCall}
    (hgood : s.interrupts (.startIo call) = false) : (s.startIo call).2.Leased := by
  obtain ⟨-, hsame, -⟩ | ⟨-, -, hbad⟩ | ⟨-, -, hactive | ⟨hrunning, hsame⟩⟩ := s.startIo_cases call
  · rw [hsame]
    exact h
  · rw [hgood] at hbad
    cases hbad
  · exact fun _ ↦ hactive
  · exact fun _ ↦ hsame.trans (h hrunning)

theorem Leased.storeClients (h : s.lease = true) (clients : UInt32) (answer : Bool) :
    (s.storeClients clients answer).Leased := by
  intro hrunning
  rw [NS6HAL.storeClients] at hrunning ⊢
  split_ifs at hrunning ⊢ with hclients
  · exact absurd hclients hrunning
  · exact h

theorem Leased.stopIo (h : s.Leased) (object client : UInt32) (answer : Bool) :
    (s.stopIo object client answer).2.Leased := by
  rw [NS6HAL.stopIo]
  split_ifs
  · exact h
  · dsimp only
    split
    · exact h
    · next starts untracked clients hstop =>
      have hrunning : s.ioClients ≠ 0 := by
        intro hzero
        rw [accountStop, if_pos hzero] at hstop
        cases hstop
      apply Leased.storeClients
      exact h hrunning

theorem Leased.removeClient (h : s.Leased) (object client : UInt32) (answer : Bool) :
    (s.removeClient object client answer).Leased := by
  rw [NS6HAL.removeClient]
  split_ifs
  · exact h
  · split
    · exact h
    · next slot hslot =>
      dsimp only [accountRemove]
      split_ifs with hreleased henough
      · have hrunning : s.ioClients ≠ 0 := by
          intro hzero
          rw [hzero] at henough
          exact hreleased (UInt32.le_zero_iff.mp henough)
        apply Leased.storeClients
        exact h hrunning
      · intro hrunning
        exact absurd rfl hrunning
      · exact h

theorem Leased.next (h : s.Leased) {event : Event} (hgood : s.interrupts event = false) :
    (s.next event).Leased := by
  cases event with
  | addClient object client =>
    rw [NS6HAL.next, NS6HAL.addClient]
    split_ifs
    · exact h
    · exact h
    · exact h
  | removeClient object client answer => exact h.removeClient object client answer
  | startIo call => exact h.startIo hgood
  | stopIo object client answer => exact h.stopIo object client answer
  | write frames client tick => exact h

/-- As long as no start pauses the running service without resuming it, the clients that
run have the lease, and exactly then a start that fails leaves it as it was. -/
theorem running_clients_keep_lease {numer denom : UInt32} {events : List Event}
    (h : Run step (initial numer denom) events s)
    (hgood : ∀ before event after u, events = before ++ event :: after →
      Run step (initial numer denom) before u → u.interrupts event = false) :
    (s.ioClients ≠ 0 → s.lease = true) ∧
    ∀ call, ((s.startIo call).1 ≠ .noError → (s.startIo call).2.lease = s.lease) ↔
      s.interrupts (.startIo call) = false := by
  have hleased : s.Leased := by
    refine h.invariant_of (I := Leased) ?_ hgood ?_
    · exact fun hrunning ↦ absurd rfl hrunning
    · intro u event t hu hevent ht
      cases ht
      exact hu.next hevent
  refine ⟨hleased, ?_⟩
  intro call
  obtain ⟨hfailed, hsame, hgood⟩ | ⟨hfailed, hlost, hbad⟩ | ⟨hdone, hgood, -⟩ := s.startIo_cases call
  · exact iff_of_true (fun _ ↦ congrArg lease hsame) hgood
  · have hlease : s.lease = true := by
      simp only [interrupts, Bool.and_eq_true] at hbad
      exact hleased (resumeFails_running hbad.2)
    refine iff_of_false ?_ ?_
    · intro hkept
      have hfalse := hkept hfailed
      rw [hlost, hlease] at hfalse
      cases hfalse
    · rw [hbad]
      exact Bool.noConfusion
  · exact iff_of_true (fun hfailed ↦ absurd hdone hfailed) hgood

def oneRunning : List Event :=
  [.addClient deviceId 7, .addClient deviceId 8,
    .startIo ⟨deviceId, 7, true, true, true, 500, 0, 500, true, false⟩, .write 512 7 1000]

/-- A start of the second client a fifth of a second later, while 512 frames are queued;
the service takes the pause and answers `resumed` to the resumption. -/
def staleStart (resumed : Bool) : StartCall :=
  ⟨deviceId, 8, true, true, true, 200001000, 512, 200001000, true, resumed⟩

theorem running_clients_keep_lease_reprimed : ∃ s,
    Run step (initial 1 1) (oneRunning ++ [Event.startIo (staleStart true)]) s ∧ s.ioClients = 2 ∧
      s.lease = true := by
  have hrun : ((oneRunning ++ [Event.startIo (staleStart true)]).foldlM step (initial 1 1)).any
      (fun s ↦ s.ioClients = 2) := by decide +kernel
  obtain ⟨s, hs, hclients⟩ := (Option.any_eq_true _ _).mp hrun
  have htwo : s.ioClients = 2 := of_decide_eq_true hclients
  have hkept := running_clients_keep_lease (.of_foldlM hs) (Run.forall_of_all (by decide +kernel))
  refine ⟨s, .of_foldlM hs, htwo, hkept.1 ?_⟩
  rw [htwo]
  decide

/-- When the service does not resume, the start fails, the first client runs on without
the lease, and a later start takes the service for active. -/
theorem interrupted_start_silences_client : ∃ s,
    Run step (initial 1 1) oneRunning s ∧ s.ioClients = 1 ∧ s.lease = true ∧
      (s.startIo (staleStart false)).1 = .unspecified ∧
      (s.startIo (staleStart false)).2.ioClients = 1 ∧
      (s.startIo (staleStart false)).2.lease = false ∧
      ((s.startIo (staleStart false)).2.startIo { staleStart true with queued := 0 }).1 = .noError ∧
      ((s.startIo (staleStart false)).2.startIo { staleStart true with queued := 0 }).2.lease =
        false := by
  have hrun : (oneRunning.foldlM step (initial 1 1)).any (fun s ↦ s.ioClients = 1 ∧
      s.lease = true ∧ (s.startIo (staleStart false)).1 = .unspecified ∧
      (s.startIo (staleStart false)).2.ioClients = 1 ∧
      (s.startIo (staleStart false)).2.lease = false ∧
      ((s.startIo (staleStart false)).2.startIo { staleStart true with queued := 0 }).1 = .noError ∧
      ((s.startIo (staleStart false)).2.startIo { staleStart true with queued := 0 }).2.lease =
        false) := by decide +kernel
  obtain ⟨s, hs, hsilent⟩ := (Option.any_eq_true _ _).mp hrun
  exact ⟨s, .of_foldlM hs, of_decide_eq_true hsilent⟩

end NS6HAL

end NumarkNS6.Legacy
