import NumarkNS6.AudioOut.AudioOutWorker
import Mathlib.Logic.Function.Basic

namespace NumarkNS6.AudioFeedback

open AudioOut Usb

inductive AudioFeedbackKind
  | valid
  | shortPacket
  | unexpectedLength
  | outOfRange
  | transferError
deriving DecidableEq

structure AudioFeedbackObservation where
  kind : AudioFeedbackKind
  raw : List UInt8
  byteCount : UInt16
  framesPerMillisecond : UInt8
deriving DecidableEq

namespace AudioFeedbackParser

def minimumFramesPerMillisecond : UInt8 := 42

def maximumFramesPerMillisecond : UInt8 := 46

def reportBytes : ℕ := 3

def copyRaw (bytes : List UInt8) (byteCount : ℕ) : List UInt8 :=
  (bytes.take (min byteCount reportBytes)).rightpad reportBytes 0

/-- `bytes` are the bytes behind the pointer, `none` standing for a null pointer. -/
def parse (transferOk frameOk : Bool) (bytes : Option (List UInt8)) (byteCount : ℕ) :
    AudioFeedbackObservation :=
  let counted := UInt16.ofNat (min byteCount 65535)
  match bytes with
  | none => ⟨.transferError, copyRaw [] 0, counted, 0⟩
  | some bytes =>
    let raw := copyRaw bytes byteCount
    let first := bytes.headD 0
    if !transferOk || !frameOk then ⟨.transferError, raw, counted, 0⟩
    else if byteCount < reportBytes then ⟨.shortPacket, raw, counted, 0⟩
    else if byteCount ≠ reportBytes then ⟨.unexpectedLength, raw, counted, 0⟩
    else if first < minimumFramesPerMillisecond ∨ first > maximumFramesPerMillisecond then
      ⟨.outOfRange, raw, counted, 0⟩
    else ⟨.valid, raw, counted, first⟩

end AudioFeedbackParser

structure AudioFeedbackReaderStats where
  packets : UInt64
  valid : UInt64
  shortPackets : UInt64
  unexpectedLengths : UInt64
  outOfRange : UInt64
  transferErrors : UInt64

namespace AudioFeedbackReaderStats

def zero : AudioFeedbackReaderStats := ⟨0, 0, 0, 0, 0, 0⟩

def countTransferError (stats : AudioFeedbackReaderStats) : AudioFeedbackReaderStats :=
  { stats with transferErrors := stats.transferErrors + 1 }

def count (stats : AudioFeedbackReaderStats) (kind : AudioFeedbackKind) :
    AudioFeedbackReaderStats :=
  let stats := { stats with packets := stats.packets + 1 }
  match kind with
  | .valid => { stats with valid := stats.valid + 1 }
  | .shortPacket => { stats with shortPackets := stats.shortPackets + 1 }
  | .unexpectedLength => { stats with unexpectedLengths := stats.unexpectedLengths + 1 }
  | .outOfRange => { stats with outOfRange := stats.outOfRange + 1 }
  | .transferError => stats.countTransferError

end AudioFeedbackReaderStats

namespace AudioFeedbackReader

def slotCount : ℕ := 2

def packetsPerTransfer : ℕ := 4

def packetCapacity : ℕ := 64

/-- A transfer slot, `none` standing for a null pointer. -/
structure Slot where
  data : Option (List UInt8)
  frames : Option (List IsocFrame)
  inFlight : Bool

/-- The results of the system calls made during one entry into the reader. Slot
`n` has its data buffer numbered `2 * n` and its frame list numbered `2 * n + 1`;
`readPipe n` answers the read of slot `n`. -/
structure Answers where
  runLoop : Bool
  createBuffer : ℕ → IOReturn
  acquireEvents : IOReturn
  readPipe : ℕ → IOReturn
  abortPipe : IOReturn
  releaseEvents : IOReturn
  destroyBuffer : ℕ → IOReturn

def Answers.allSucceed : Answers where
  runLoop := true
  createBuffer _ := .success
  acquireEvents := .success
  readPipe _ := .success
  abortPipe := .success
  releaseEvents := .success
  destroyBuffer _ := .success

/-- What the USB stack reports of a read, and its buffer as the stack leaves it. -/
structure Completion where
  status : IOReturn
  frStatus : ℕ → IOReturn
  frActCount : ℕ → UInt16
  data : List UInt8

end AudioFeedbackReader

open AudioFeedbackReader in
structure AudioFeedbackReader where
  session : Bool
  sink : Bool
  slots : Fin slotCount → Slot
  runLoop : Bool
  running : Bool
  sourceAdded : Bool
  initialized : Bool
  stats : AudioFeedbackReaderStats

namespace AudioFeedbackReader

/-- What was asked for and given back: buffers of each slot, event references and
run-loop references. -/
structure Ledger where
  created : Fin slotCount → ℕ
  destroyed : Fin slotCount → ℕ
  acquired : ℕ
  released : ℕ
  retained : ℕ

/-- A reader with the USB stack. `pending` are the slots whose reads the stack has
accepted and not completed, `delivered` the reads it has completed, `published`
the observations the sink has got, and `refused` counts failed submissions. -/
structure System where
  handles : Handles
  reader : AudioFeedbackReader
  phase : Phase
  pending : List (Fin slotCount)
  delivered : List Completion
  published : List AudioFeedbackObservation
  refused : ℕ
  ledger : Ledger
  result : IOReturn

namespace System

def ret (s : System) (result : IOReturn) : System := { s with result := result, phase := .ready }

def slot (s : System) (i : Fin slotCount) : Slot := s.reader.slots i

def setSlot (s : System) (i : Fin slotCount) (slot : Slot) : System :=
  { s with reader := { s.reader with slots := Function.update s.reader.slots i slot } }

def setRunning (s : System) (running : Bool) : System :=
  { s with reader := { s.reader with running := running } }

def inFlightCount (s : System) : ℕ :=
  (List.finRange slotCount).countP fun i ↦ (s.slot i).inFlight

def countRefusal (s : System) : System :=
  { s with
    reader := { s.reader with stats := s.reader.stats.countTransferError }
    refused := s.refused + 1 }

def requests : List IsocFrame :=
  List.replicate packetsPerTransfer ⟨.success, UInt16.ofNat packetCapacity, 0⟩

def accept (s : System) (i : Fin slotCount) : System :=
  { s.setSlot i { s.slot i with inFlight := true } with pending := s.pending ++ [i] }

def prepare (s : System) (i : Fin slotCount) : System :=
  s.setSlot i { s.slot i with frames := (s.slot i).frames.map fun _ ↦ requests }

def submit (answers : Answers) (i : Fin slotCount) (s : System) : IOReturn × System :=
  if !s.reader.running || !s.reader.session || (s.slot i).inFlight then (.notReady, s)
  else if !s.handles.interface then (.noDevice, s)
  else
    let result := answers.readPipe i
    if result = .success then (result, (s.prepare i).accept i) else (result, s.prepare i)

/-- The observation of packet `k` of a slot whose transfer has come to `status`. -/
def observe (slot : Slot) (status : IOReturn) (k : ℕ) : AudioFeedbackObservation :=
  let frame := (slot.frames.getD []).getD k ⟨.success, 0, 0⟩
  AudioFeedbackParser.parse (status = .success) (frame.frStatus = .success)
    (slot.data.map fun data ↦ data.drop (k * packetCapacity)) frame.frActCount.toNat

def note (s : System) (o : AudioFeedbackObservation) : System :=
  { s with
    reader := { s.reader with stats := s.reader.stats.count o.kind }
    published := if s.reader.sink then s.published ++ [o] else s.published }

def resubmit (answers : Answers) (i : Fin slotCount) (s : System) : System :=
  if s.reader.running then
    let t := s.submit answers i
    if t.1 = .success then t.2 else t.2.countRefusal.setRunning false
  else s

def didComplete (answers : Answers) (i : Fin slotCount) (status : IOReturn) (s : System) : System :=
  let observations := (List.range packetsPerTransfer).map (observe (s.slot i) status)
  let s := observations.foldl note s
  let s := s.setSlot i { s.slot i with inFlight := false }
  if status = .noDevice then s.setRunning false else s.resubmit answers i

def arrive (s : System) (k : ℕ) (i : Fin slotCount) (c : Completion) : System :=
  { s.setSlot i { s.slot i with
      data := (s.slot i).data.map fun _ ↦ c.data
      frames := (s.slot i).frames.map fun frames ↦ frames.mapIdx fun n frame ↦
        { frame with frStatus := c.frStatus n, frActCount := c.frActCount n } } with
    pending := s.pending.eraseIdx k
    delivered := s.delivered ++ [c] }

def complete (answers : Answers) (k : ℕ) (c : Completion) (s : System) : Option System :=
  match s.pending[k]? with
  | none => none
  | some i =>
    if c.data.length = packetCapacity * packetsPerTransfer then
      some ((s.arrive k i c).didComplete answers i c.status)
    else none

def destroy (s : System) (i : Fin slotCount) (slot : Slot) : System :=
  { s.setSlot i slot with
    ledger := { s.ledger with
      destroyed := Function.update s.ledger.destroyed i (s.ledger.destroyed i + 1) } }

def releaseData (answers : Answers) (i : Fin slotCount) (r : IOReturn × System) :
    IOReturn × System :=
  if (r.2.slot i).data.isSome then
    (r.1.firstFailure (answers.destroyBuffer (2 * i)),
      r.2.destroy i { r.2.slot i with data := none })
  else r

def releaseFrames (answers : Answers) (i : Fin slotCount) (r : IOReturn × System) :
    IOReturn × System :=
  if (r.2.slot i).frames.isSome then
    (r.1.firstFailure (answers.destroyBuffer (2 * i + 1)),
      r.2.destroy i { r.2.slot i with frames := none })
  else r

def releaseSlot (answers : Answers) (r : IOReturn × System) (i : Fin slotCount) :
    IOReturn × System :=
  releaseFrames answers i (releaseData answers i r)

def releaseBuffers (answers : Answers) (s : System) : IOReturn × System :=
  if !s.reader.session || !s.handles.interface then (.notReady, s)
  else (List.finRange slotCount).foldl (releaseSlot answers) (.success, s)

def releaseEvents (s : System) : System :=
  { s with
    reader := { s.reader with sourceAdded := false }
    ledger := { s.ledger with released := s.ledger.released + 1 } }

def detach (s : System) : System :=
  { s with reader := { s.reader with sink := false, session := false } }

def finishStop (answers : Answers) (result : IOReturn) (start : Option IOReturn) (s : System) :
    System :=
  if s.reader.sourceAdded && s.reader.runLoop then
    let r := s.releaseEvents.releaseBuffers answers
    r.2.detach.ret (start.getD ((result.firstFailure answers.releaseEvents).firstFailure r.1))
  else
    let r := s.releaseBuffers answers
    r.2.detach.ret (start.getD (result.firstFailure r.1))

/-- `stop`, by itself or from a `start` that failed with result `start`. -/
def stop (answers : Answers) (start : Option IOReturn) (s : System) : System :=
  if !s.reader.initialized || !s.reader.session then s.ret (start.getD .success)
  else
    let stopped := s.setRunning false
    if stopped.inFlightCount ≠ 0 ∧ s.handles.interface then
      { stopped with phase := .stopping answers.abortPipe start }
    else stopped.finishStop answers .success start

def submitAll (answers : Answers) : List (Fin slotCount) → System → System
  | [], s => s.ret .success
  | i :: rest, s =>
    let t := s.submit answers i
    if t.1 = .success then submitAll answers rest t.2
    else t.2.countRefusal.stop answers (some t.1)

def create (s : System) (i : Fin slotCount) (slot : Slot) : System :=
  { s.setSlot i slot with
    ledger := { s.ledger with
      created := Function.update s.ledger.created i (s.ledger.created i + 1) } }

def createBuffers (answers : Answers) : List (Fin slotCount) → System → IOReturn × System
  | [], s => (.success, s)
  | i :: rest, s =>
    if answers.createBuffer (2 * i) ≠ .success then (answers.createBuffer (2 * i), s)
    else
      let s := s.create i { s.slot i with
        data := some (List.replicate (packetCapacity * packetsPerTransfer) 0) }
      if answers.createBuffer (2 * i + 1) ≠ .success then (answers.createBuffer (2 * i + 1), s)
      else createBuffers answers rest (s.create i { s.slot i with
        frames := some (List.replicate packetsPerTransfer ⟨.success, 0, 0⟩) })

def attach (s : System) : System :=
  { s with reader := { s.reader with session := true, sink := true } }

def retain (s : System) : System :=
  { s with
    reader := { s.reader with runLoop := true }
    ledger := { s.ledger with retained := s.ledger.retained + 1 } }

def abandonStart (answers : Answers) (result : IOReturn) (s : System) : System :=
  let s := (s.releaseBuffers answers).2.detach
  { s with
    reader := { s.reader with runLoop := false }
    ledger := { s.ledger with retained := s.ledger.retained - 1 } }.ret result

def launch (s : System) : System :=
  { s with
    reader := { s.reader with sourceAdded := true, running := true, initialized := true }
    ledger := { s.ledger with acquired := s.ledger.acquired + 1 } }

def start (answers : Answers) (s : System) : System :=
  if s.reader.initialized || !s.handles.interface || s.handles.pipe = 0 ||
      !s.handles.eventSource then s.ret .notReady
  else if !answers.runLoop then s.attach.ret .notReady
  else
    let t := s.attach.retain.createBuffers answers (List.finRange slotCount)
    if t.1 ≠ .success then t.2.abandonStart answers t.1
    else if answers.acquireEvents ≠ .success then t.2.abandonStart answers answers.acquireEvents
    else t.2.launch.submitAll answers (List.finRange slotCount)

/-- A call of `start` or `stop`, a completion callback, the end of the wait in
`stop` by drain or timeout, or the session changing hands. -/
inductive Action
  | start (answers : Answers)
  | stop (answers : Answers)
  | complete (answers : Answers) (k : ℕ) (c : Completion)
  | drained (answers : Answers)
  | timeout
  | session (handles : Handles)

/-- The session stays as it is while the reader is attached to it. -/
def step (s : System) : Action → Option System
  | .start answers => if s.phase = .ready then some (s.start answers) else none
  | .stop answers => if s.phase = .ready then some (s.stop answers none) else none
  | .complete answers k c => s.complete answers k c
  | .drained answers =>
    match s.phase with
    | .ready => none
    | .stopping abort start =>
      if s.inFlightCount = 0 then some (s.finishStop answers abort start) else none
  | .timeout =>
    match s.phase with
    | .ready => none
    | .stopping _ start =>
      if s.inFlightCount ≠ 0 then some (s.ret (start.getD .timeout)) else none
  | .session handles => if s.reader.session then none else some { s with handles := handles }

def initial (handles : Handles) : System where
  handles := handles
  reader :=
    { session := false
      sink := false
      slots := fun _ ↦ ⟨none, none, false⟩
      runLoop := false
      running := false
      sourceAdded := false
      initialized := false
      stats := .zero }
  phase := .ready
  pending := []
  delivered := []
  published := []
  refused := 0
  ledger := ⟨fun _ ↦ 0, fun _ ↦ 0, 0, 0, 0⟩
  result := .success

end System

end AudioFeedbackReader

end NumarkNS6.AudioFeedback
