import NumarkNS6.Foundation.Runs
import NumarkNS6.Legacy.LeaseMap

namespace NumarkNS6.Legacy

open Foundation.Runs

structure NS6DeviceStateSnapshot where
  connected : Bool
  transportReady : Bool
  firmwareVersion : List UInt8
  activeFrames : UInt32
  deriving DecidableEq

namespace NS6DeviceStateSnapshot

def zero : NS6DeviceStateSnapshot := ⟨false, false, [], 0⟩

def update (snapshot : NS6DeviceStateSnapshot) (connected transportReady : Bool)
    (firmwareVersion : Option (List UInt8)) : NS6DeviceStateSnapshot :=
  { snapshot with
    connected := connected
    transportReady := transportReady
    firmwareVersion := (firmwareVersion.getD []).take 31 }

end NS6DeviceStateSnapshot

/-- The message `GET_STATE`, which `handleControl` does not know. -/
def getStateMessage : ControlMessage := .other 0x4e530005

namespace NS6DeviceService

def handleState (service : NS6DeviceService) (session : NS6DeviceSession)
    (snapshot : NS6DeviceStateSnapshot) (request : NS6DeviceControlRequest) :
    ServiceStatus × NS6DeviceStateSnapshot :=
  (if protocolVersionSupported request.protocolVersion && session.isCurrent request.sessionId &&
      service.clients.contains request.clientId then .success else .badId,
    { snapshot with activeFrames := service.startupBufferFrames })

def peerUidAuthorized (peerUid coreaudiodUid : UInt32) : Bool :=
  peerUid == 0 || (coreaudiodUid != 0xffffffff && peerUid == coreaudiodUid)

end NS6DeviceService

inductive DeviceRequest
  | hello (request : NS6DeviceHelloRequest)
  | control (request : NS6DeviceControlRequest)

def DeviceRequest.clientId : DeviceRequest → UInt64
  | .hello request => request.clientId
  | .control request => request.clientId

/-- A request of a peer that is not authorized is answered with `KERN_NO_ACCESS`,
whatever it asks for. -/
inductive DeviceReply
  | hello (reply : NS6DeviceHelloReply)
  | control (status : ServiceStatus)
  | state (status : ServiceStatus) (snapshot : NS6DeviceStateSnapshot)
  | noAccess

inductive NS6DeviceClientStateResult
  | unavailable
  | ready (snapshot : NS6DeviceStateSnapshot)
  | replaced
  deriving DecidableEq

/-- The port, the mapping and the pointer into it are there or not. -/
structure NS6DeviceClient where
  servicePort : Bool
  mapping : Bool
  sharedMemory : Bool
  sessionId : UInt64
  clientId : UInt64
  connected : Bool
  deriving DecidableEq

namespace NS6DeviceClient

def zero : NS6DeviceClient := ⟨false, false, false, 0, 0, false⟩

/-- What follows the release in `disconnect`: the return of the call that made it, or
the rest of `connect_to_port`. -/
inductive Next
  | finish (connected : Bool)
  | connect

inductive Call
  | hello (clientId : UInt64)
  | release (next : Next)
  | control
  | state

structure Exchange where
  call : Call
  reply : Option DeviceReply

inductive Outcome
  | done (ok : Bool)
  | state (result : NS6DeviceClientStateResult)

/-- What the system answers during a call. `draw` is the client id from the clock, the
address of the client and the counter; `layout` says whether the shared memory has the
version and size that are expected. -/
structure ClientAnswers where
  lookUp : Bool
  sendRelease : Bool
  retain : Bool
  draw : UInt64
  sendHello : Bool
  map : Bool
  layout : Bool

/-- A client with the call it is in. `number` counts its exchanges, each of which has
a reply port of its own; `outcome` is what the last call returned; `ports` and
`mappings` count what the kernel holds for it. `asked` is the activity it last sent
under its id. -/
structure Party where
  client : NS6DeviceClient
  exchange : Option Exchange
  number : ℕ
  outcome : Outcome
  ports : ℕ
  mappings : ℕ
  asked : Bool

/-- A part of a call up to the next wait, with the request that is sent before it. -/
abbrev Turn : Type := Party × Option DeviceRequest

namespace Party

def zero : Party := ⟨.zero, none, 0, .done false, 0, 0, false⟩

variable (p : Party)

def finish (outcome : Outcome) : Turn := ({ p with exchange := none, outcome := outcome }, none)

def exchangeMessage (request : DeviceRequest) (call : Call) (sent : Bool) (failed : Turn) : Turn :=
  if sent then
    ({ p with exchange := some ⟨call, none⟩, number := p.number + 1 }, some request)
  else failed

def helloRequest (structSize draw : UInt64) : NS6DeviceHelloRequest :=
  ⟨protocolVersion, structSize.toUInt32, if draw = 0 then 1 else draw⟩

def controlRequest (message : ControlMessage) (value : UInt32) : NS6DeviceControlRequest :=
  ⟨message, protocolVersion, value, p.client.sessionId, p.client.clientId⟩

def hello (structSize : UInt64) (answers : ClientAnswers) : Turn :=
  if !answers.retain then p.finish (.done false)
  else
    let request := helloRequest structSize answers.draw
    exchangeMessage { p with ports := p.ports + 1 } (.hello request) (.hello request.clientId)
      answers.sendHello (p.finish (.done false))

def clear : Party :=
  { p with
    client := .zero
    ports := p.ports - p.client.servicePort.toNat
    mappings := p.mappings - p.client.mapping.toNat }

def released (structSize : UInt64) (next : Next) (answers : ClientAnswers) : Turn :=
  match next with
  | .finish connected => p.clear.finish (.done connected)
  | .connect => p.clear.hello structSize answers

def disconnect (structSize : UInt64) (next : Next) (answers : ClientAnswers) : Turn :=
  if p.client.connected && p.client.clientId != 0 && p.client.servicePort then
    p.exchangeMessage (.control (p.controlRequest .releaseClient 0)) (.release next)
      answers.sendRelease (p.released structSize next answers)
  else p.released structSize next answers

def connect (structSize : UInt64) (answers : ClientAnswers) : Turn :=
  if !answers.lookUp then p.finish (.done false) else p.disconnect structSize .connect answers

def valid (structSize clientId : UInt64) (reply : NS6DeviceHelloReply) : Bool :=
  protocolVersionSupported reply.protocolVersion &&
    reply.sharedStructSize.toUInt64 == structSize && reply.sessionId != 0 && clientId != 0 &&
    reply.status == .success && reply.hasMemoryEntry && reply.mappedSize != 0 &&
    reply.memoryOffset < reply.mappedSize && structSize ≤ reply.mappedSize - reply.memoryOffset

def attach (clientId sessionId : UInt64) : Party :=
  { p with
    client := { p.client with
      servicePort := true, sessionId := sessionId, clientId := clientId, connected := true }
    asked := false }

def setMapping (sharedMemory : Bool) : Party :=
  { p with
    client := { p.client with mapping := true, sharedMemory := sharedMemory }
    mappings := p.mappings + 1 }

def helloReplied (structSize clientId : UInt64) (reply : Option DeviceReply)
    (answers : ClientAnswers) : Turn :=
  match reply with
  | some (.hello reply) =>
    if !valid structSize clientId reply then { p with ports := p.ports - 1 }.finish (.done false)
    else
      let attached := p.attach clientId reply.sessionId
      if !answers.map then attached.disconnect structSize (.finish false) answers
      else if !answers.layout then
        (attached.setMapping false).disconnect structSize (.finish false) answers
      else (attached.setMapping true).finish (.done true)
  | _ => { p with ports := p.ports - 1 }.finish (.done false)

def sendControl (message : ControlMessage) (value : UInt32) (sent : Bool) : Turn :=
  if !p.client.connected || !p.client.servicePort then p.finish (.done false)
  else
    p.exchangeMessage (.control (p.controlRequest message value)) .control sent
      (p.finish (.done false))

def setAudioActive (active sent : Bool) : Turn :=
  let turn := p.sendControl .setAudioActive (if active then 1 else 0) sent
  if turn.2.isSome then ({ turn.1 with asked := active }, turn.2) else turn

def setStartupBuffer (frames : UInt32) (sent : Bool) : Turn :=
  p.sendControl .setStartupBuffer frames sent

def getStateResult (sent : Bool) : Turn :=
  if !p.client.connected then p.finish (.state .unavailable)
  else
    p.exchangeMessage (.control (p.controlRequest getStateMessage 0)) .state sent
      (p.finish (.state .unavailable))

def resume (structSize : UInt64) (reply : Option DeviceReply) (answers : ClientAnswers) : Turn :=
  match p.exchange with
  | none => (p, none)
  | some ⟨.hello clientId, _⟩ => p.helloReplied structSize clientId reply answers
  | some ⟨.release next, _⟩ => p.released structSize next answers
  | some ⟨.control, _⟩ =>
    p.finish (.done (match reply with
      | some (.control status) => status == .success
      | _ => false))
  | some ⟨.state, _⟩ =>
    p.finish (.state (match reply with
      | some (.state .success snapshot) => .ready snapshot
      | some (.state .badId _) => .replaced
      | _ => .unavailable))

/-- A reply reaches the exchange whose port it is sent to, and no later one. -/
def deliver (port : ℕ) (reply : DeviceReply) : Party :=
  match p.exchange with
  | some ⟨call, none⟩ =>
    if p.number = port then { p with exchange := some ⟨call, some reply⟩ } else p
  | _ => p

end Party

/-- A request in the queue of the service's port. -/
structure Envelope (ι : Type) where
  sender : ι
  processId : Int32
  port : ℕ
  request : DeviceRequest

/-- Who the clients are: their processes, the users these run as, and the size each
was compiled with for the shared memory. -/
structure Setting (ι : Type) where
  processId : ι → Int32
  uid : ι → UInt32
  structSize : ι → UInt64
  coreaudiodUid : UInt32

/-- The service, its clients and the queue between them. `alive` is the process table;
`drawn` lists the ids that were sent in a hello and `sessions` those of the sessions
that were published. -/
structure DeviceSystem (ι : Type) where
  service : NS6DeviceService
  session : NS6DeviceSession
  snapshot : NS6DeviceStateSnapshot
  queue : List (Envelope ι)
  party : ι → Party
  alive : Int32 → Bool
  drawn : List (UInt64 × ι)
  sessions : List UInt64

inductive Action (ι : Type)
  | connect (i : ι) (answers : ClientAnswers)
  | disconnect (i : ι) (answers : ClientAnswers)
  | setAudioActive (i : ι) (active sent : Bool)
  | setStartupBuffer (i : ι) (frames : UInt32) (sent : Bool)
  | getState (i : ι) (sent : Bool)
  | receive (i : ι) (answers : ClientAnswers)
  | timeout (i : ι) (answers : ClientAnswers)
  | serve (usbReady restarts : Bool)
  | idle
  | exit (processId : Int32)
  | spawn (processId : Int32)
  | updateDeviceState (connected transportReady : Bool) (firmwareVersion : Option (List UInt8))
  | restart (draw : UInt64) (keep : Bool)

namespace DeviceSystem

variable {ι : Type} [DecidableEq ι] (setting : Setting ι) (s : DeviceSystem ι)

def draws (i : ι) : Option DeviceRequest → List (UInt64 × ι)
  | some (.hello request) => [(request.clientId, i)]
  | _ => []

def envelope (i : ι) (port : ℕ) (request : DeviceRequest) : Envelope ι :=
  ⟨i, setting.processId i, port, request⟩

def turn (i : ι) (t : Turn) : DeviceSystem ι :=
  { s with
    queue := s.queue ++ (t.2.map (envelope setting i t.1.number)).toList
    party := Function.update s.party i t.1
    drawn := s.drawn ++ draws i t.2 }

def call (i : ι) (f : Party → Turn) : Option (DeviceSystem ι) :=
  if s.alive (setting.processId i) && (s.party i).exchange.isNone then
    some (s.turn setting i (f (s.party i)))
  else none

/-- Whether `kill` finds no process for a slot. -/
def dead (slot : ℕ) : Bool :=
  s.service.clients.clients[slot]?.any fun lease ↦ !s.alive lease.processId

def reap : NS6DeviceService := (s.service.reapDeadClients s.dead).1

def handle (service : NS6DeviceService) (usbReady restarts : Bool) (e : Envelope ι) :
    DeviceReply × NS6DeviceService :=
  match e.request with
  | .hello request =>
    (.hello (service.handleHello request e.processId).1,
      (service.handleHello request e.processId).2)
  | .control request =>
    if request.message = getStateMessage then
      let answer := service.handleState s.session s.snapshot request
      (.state answer.1 answer.2, service)
    else
      let answer := service.handleControl request ⟨s.session, usbReady, restarts⟩
      (.control answer.1, answer.2.1)

def reply (e : Envelope ι) (answer : DeviceReply) : ι → Party :=
  Function.update s.party e.sender ((s.party e.sender).deliver e.port answer)

def serve (usbReady restarts : Bool) : Option (DeviceSystem ι) :=
  match s.queue with
  | [] => none
  | e :: queue =>
    if !NS6DeviceService.peerUidAuthorized (setting.uid e.sender) setting.coreaudiodUid then
      some { s with queue := queue, party := s.reply e .noAccess }
    else
      let answer := s.handle s.reap usbReady restarts e
      some { s with queue := queue, party := s.reply e answer.1, service := answer.2 }

def exit (processId : Int32) : DeviceSystem ι :=
  { s with
    alive := Function.update s.alive processId false
    party := fun i ↦ if setting.processId i = processId then
      { Party.zero with number := (s.party i).number } else s.party i }

def nonzero (draw : UInt64) : UInt64 := if draw = 0 then 1 else draw

/-- The service stops and is published again. Requests that wait in the port are lost
with it, or the port is handed on with them. -/
def restart (draw : UInt64) (keep : Bool) : DeviceSystem ι :=
  { s with
    service := { s.service.publish with sessionId := nonzero draw }
    session := { s.session with activeId := nonzero draw }
    snapshot := s.snapshot.update false false none
    queue := if keep then s.queue else []
    sessions := s.sessions ++ [nonzero draw] }

def step : Action ι → Option (DeviceSystem ι)
  | .connect i answers => s.call setting i (·.connect (setting.structSize i) answers)
  | .disconnect i answers =>
    s.call setting i (·.disconnect (setting.structSize i) (.finish true) answers)
  | .setAudioActive i active sent => s.call setting i (·.setAudioActive active sent)
  | .setStartupBuffer i frames sent => s.call setting i (·.setStartupBuffer frames sent)
  | .getState i sent => s.call setting i (·.getStateResult sent)
  | .receive i answers =>
    match (s.party i).exchange with
    | some ⟨_, some reply⟩ =>
      some (s.turn setting i ((s.party i).resume (setting.structSize i) (some reply) answers))
    | _ => none
  | .timeout i answers =>
    match (s.party i).exchange with
    | some ⟨_, none⟩ =>
      some (s.turn setting i ((s.party i).resume (setting.structSize i) none answers))
    | _ => none
  | .serve usbReady restarts => s.serve setting usbReady restarts
  | .idle => if s.queue.isEmpty then some { s with service := s.reap } else none
  | .exit processId => some (s.exit setting processId)
  | .spawn processId => some { s with alive := Function.update s.alive processId true }
  | .updateDeviceState connected transportReady firmwareVersion =>
    some { s with snapshot := s.snapshot.update connected transportReady firmwareVersion }
  | .restart draw keep => some (s.restart draw keep)

def initial (service : NS6DeviceService) (draw : UInt64) : DeviceSystem ι where
  service := { service.publish with sessionId := nonzero draw }
  session := ⟨nonzero draw, 0⟩
  snapshot := .zero
  queue := []
  party := fun _ ↦ .zero
  alive := fun _ ↦ false
  drawn := []
  sessions := [nonzero draw]

end DeviceSystem

end NS6DeviceClient

end NumarkNS6.Legacy
