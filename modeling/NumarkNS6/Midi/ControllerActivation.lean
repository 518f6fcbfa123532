import NumarkNS6.Midi.ActivationReads
import NumarkNS6.Midi.MIDIOutputWriter
import NumarkNS6.Usb.NS6DeviceSession

namespace NumarkNS6.Midi.ControllerActivation

open Usb

inductive Message
  | hostIdentify
  | jogEnable
  | wake
deriving DecidableEq

def Message.bytes : Message → List UInt8
  | .hostIdentify =>
    [0xf0, 0x00, 0x01, 0x3f, 0x7f, 0x79, 0x50, 0x00, 0x10, 0x04, 0x01, 0x00, 0x00,
      0x00, 0x04, 0x04, 0x0e, 0x0f, 0x00, 0x00, 0x0e, 0x05, 0x0f, 0x04, 0x0c, 0x06,
      0x0b, 0x0f, 0x0d, 0x0c, 0xf7]
  | .jogEnable => [0xb1, 0x3b, 0x01, 0xb2, 0x3b, 0x01, 0xb3, 0x3b, 0x01, 0xb4, 0x3b, 0x01]
  | .wake =>
    [0xf0, 0x00, 0x01, 0x3f, 0x7f, 0x79, 0x60, 0x00, 0x01, 0x49, 0x01, 0x00, 0x00, 0x00,
      0x00, 0xf7]

/-- Times are in nanoseconds. -/
def milliseconds (n : ℕ) : ℕ := n * 1000000

def wakeDeadline (started jogCompleted : ℕ) : ℕ :=
  max (started + milliseconds 796) (jogCompleted + milliseconds 1)

structure Write where
  message : Message
  packet : List UInt8
  time : ℕ
  result : IOReturn

/-- Where the writer thread is: in `sendSequence` from `begin` to `deadline`, or in
the second thread at `wake`. -/
inductive Writer
  | begin
  | identify
  | reply
  | jog
  | jogWritten
  | deadline
  | wake
  | finished
deriving DecidableEq

inductive After
  | threadFailed
  | sequence
  | wake
deriving DecidableEq

/-- Where the calling thread is. In all places but the first and the last it runs
the run loop. -/
inductive Point
  | entry
  | startFailed
  | sequence
  | stopping (after : After) (abort : IOReturn)
  | restartFailed
  | waking
  | returned
deriving DecidableEq

/-- A call of `activate` with the session, the USB stack and the writer threads.
`delivered` are the completions so far, and `expired` says that the deadline for
the reads in flight has passed with one of them left. -/
structure Activation where
  system : SessionSystem
  runLoop : Option ℕ
  reads : Reads
  point : Point
  writer : Writer
  now : ℕ
  deadline : ℕ
  started : ℕ
  jogCompleted : ℕ
  firstError : IOReturn
  result : IOReturn
  replySeen : Bool
  written : List Write
  delivered : List Delivery
  expired : Bool

/-- What the calls answer from `acquireEvents` to the start of a thread. -/
structure StartAnswers where
  clearIn : IOReturn
  clearOut : IOReturn
  submit : Fin 4 → IOReturn
  thread : Bool
  abort : IOReturn

/-- What the calls answer between the two threads; `beforeSessionReopen` is
`success` if there is no callback. -/
structure ReopenAnswers where
  beforeSessionReopen : IOReturn
  close : CloseAnswers
  open_ : OpenAnswers
  start : StartAnswers

namespace Activation

def port (a : Activation) : Port := a.system.session.primary

def setSystem (a : Activation) (system : SessionSystem) : Activation := { a with system := system }

def setPort (a : Activation) (port : Port) : Activation :=
  a.setSystem { a.system with session := { a.system.session with primary := port } }

def acquireEvents (a : Activation) : IOReturn × Activation :=
  let r := a.port.acquireEvents a.runLoop
  (r.1, a.setPort r.2)

def releaseEvents (a : Activation) : IOReturn × Activation :=
  let r := a.port.releaseEvents a.runLoop
  (r.1, a.setPort r.2)

def ret (a : Activation) (result : IOReturn) : Activation := { a with result := result, point := .returned }

def inFlight (a : Activation) : Bool := (List.finRange 4).any fun slot ↦ (a.reads.reads slot).inFlight

def await (a : Activation) (point : Point) : Activation :=
  { a with deadline := a.now + milliseconds 2000, point := point }

def stopReads (a : Activation) (after : After) (abort : IOReturn) : Activation :=
  { a with reads := a.reads.stopRunning }.await (.stopping after abort)

/-- From `acquireEvents` to the thread that writes `first`; `failed` is where a
failure of `startReads` leads. -/
def beginReads (a : Activation) (answers : StartAnswers) (failed running : Point) (first : Writer) :
    Activation :=
  let acquired := a.acquireEvents
  if acquired.1 ≠ .success then acquired.2.ret acquired.1
  else if answers.clearIn ≠ .success then acquired.2.releaseEvents.2.ret answers.clearIn
  else if answers.clearOut ≠ .success then acquired.2.releaseEvents.2.ret answers.clearOut
  else
    let started := { a.reads with reads := fun _ ↦ .init }.startReads answers.submit
    let a := { acquired.2 with reads := started.2 }
    if started.1 ≠ .success then { a with result := started.1 }.await failed
    else if answers.thread then { a with writer := first, point := running }
    else a.stopReads .threadFailed answers.abort

def activate (a : Activation) (answers : StartAnswers) : Activation :=
  let session := a.system.session
  if session.primary.interface.isNone || session.midiInPipe = 0 || session.midiOutPipe = 0 then
    a.ret .notReady
  else a.beginReads answers .startFailed .sequence .begin

def reopen (a : Activation) (answers : ReopenAnswers) : Activation :=
  if answers.beforeSessionReopen ≠ .success then a.ret answers.beforeSessionReopen
  else
    let closed := a.system.close answers.close
    let a := a.setSystem closed.2
    if closed.1 ≠ .success then a.ret closed.1
    else
      let opened := a.system.openSession answers.open_
      let a := a.setSystem opened.2
      if opened.1 ≠ .success then a.ret opened.1
      else a.beginReads answers.start .restartFailed .waking .wake

def resume (a : Activation) (answers : ReopenAnswers) (stopResult : IOReturn) : After → Activation
  | .threadFailed => a.ret .noMemory
  | .sequence =>
    if a.result ≠ .success then a.ret a.result
    else if stopResult ≠ .success then a.ret stopResult
    else a.reopen answers
  | .wake => if a.result = .success ∧ stopResult ≠ .success then a.ret stopResult else a.ret a.result

def mark (a : Activation) : Activation := { a with expired := a.expired || a.inFlight }

def leave (a : Activation) (answers : ReopenAnswers) : Activation :=
  let a := a.mark
  match a.point with
  | .startFailed => if a.inFlight then a.ret .timeout else a.releaseEvents.2.ret a.result
  | .restartFailed => a.releaseEvents.2.ret a.result
  | .stopping after abort =>
    if a.inFlight then a.resume answers .timeout after
    else
      let released := a.releaseEvents
      released.2.resume answers (if abort ≠ .success then abort else released.1) after
  | _ => a

/-- `sendMessage`, with the result of `WritePipeTO`. -/
def sendMessage (a : Activation) (message : Message) (result : IOReturn) : IOReturn × Activation :=
  let session := a.system.session
  if session.primary.interface.isNone || session.midiOutPipe = 0 then (.notReady, a)
  else
    match buildPacket (some message.bytes) message.bytes.length true with
    | none => (.badArgument, a)
    | some packet =>
      (result, { a with written := a.written ++ [⟨message, packet, a.now, result⟩] })

def send (a : Activation) (message : Message) (result : IOReturn) : Activation :=
  let sent := a.sendMessage message result
  { sent.2 with firstError := sent.2.firstError.firstFailure sent.1 }

/-- The next step of the writer thread; `result` answers its write, if it makes one. -/
def write (a : Activation) (result : IOReturn) : Option Activation :=
  match a.writer with
  | .begin => some { a with started := a.now, firstError := .success, writer := .identify }
  | .identify => some { a.send .hostIdentify result with writer := .reply }
  | .reply =>
    if a.reads.handshakeReplySeen ∨ a.started + milliseconds 100 ≤ a.now then
      some { a with writer := .jog }
    else none
  | .jog =>
    if a.started + milliseconds 795 ≤ a.now then
      some { a.send .jogEnable result with writer := .jogWritten }
    else none
  | .jogWritten => some { a with jogCompleted := a.now, writer := .deadline }
  | .deadline =>
    if wakeDeadline a.started a.jogCompleted ≤ a.now then some { a with writer := .finished }
    else none
  | .wake =>
    let sent := a.sendMessage .wake result
    some { sent.2 with firstError := sent.1, writer := .finished }
  | .finished => none

def join (a : Activation) (abort : IOReturn) : Option Activation :=
  if a.writer = .finished then
    match a.point with
    | .sequence => some ({ a with result := a.firstError }.stopReads .sequence abort)
    | .waking =>
      let observedReply := a.reads.handshakeReplySeen
      some ({ a with
        replySeen := observedReply
        result := if observedReply then .success else a.firstError }.stopReads .wake abort)
    | _ => none
  else none

def waits : Point → Bool
  | .startFailed | .restartFailed | .stopping _ _ => true
  | _ => false

def pumps (point : Point) : Bool := point = .sequence || point = .waking || waits point

inductive Action
  | tick (duration : ℕ)
  | activate (answers : StartAnswers)
  | complete (slot : Fin 4) (delivery : Delivery) (resubmit : IOReturn)
  | write (result : IOReturn)
  | join (abort : IOReturn)
  | leave (answers : ReopenAnswers)

def step (a : Activation) : Action → Option Activation
  | .tick duration => some { a with now := a.now + duration }
  | .activate answers => if a.point = .entry then some (a.activate answers) else none
  | .complete slot delivery resubmit =>
    if pumps a.point ∧ (a.reads.reads slot).inFlight then
      some { a with
        reads := a.reads.complete slot delivery resubmit
        delivered := a.delivered ++ [delivery] }
    else none
  | .write result => if a.point = .sequence ∨ a.point = .waking then a.write result else none
  | .join abort => a.join abort
  | .leave answers =>
    if waits a.point ∧ (a.inFlight = false ∨ a.deadline ≤ a.now) then some (a.leave answers)
    else none

def initial (system : SessionSystem) (runLoop : Option ℕ) : Activation where
  system := system
  runLoop := runLoop
  reads := .init
  point := .entry
  writer := .finished
  now := 0
  deadline := 0
  started := 0
  jogCompleted := 0
  firstError := .success
  result := .success
  replySeen := false
  written := []
  delivered := []
  expired := false

end Activation

end NumarkNS6.Midi.ControllerActivation
