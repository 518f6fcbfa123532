import NumarkNS6.Foundation.SlotWindow
import NumarkNS6.Usb.NS6DeviceSession

namespace NumarkNS6.Usb

open Foundation.SlotWindow

variable {δ σ : Type}

/-- What a reader takes from the device session: its interface, pipe and event source. -/
structure Handles where
  interface : Bool
  pipe : UInt8
  eventSource : Bool

/-- The results of the system calls made during one entry into a reader.
`readPipe n` answers the `ReadPipeAsync` numbered `n`, `clearStallAt n` the
stall clear made while the block numbered `n` is processed. -/
structure Answers where
  runLoop : Bool
  malloc : ℕ → Bool
  acquireEvents : IOReturn
  releaseEvents : IOReturn
  clearPipeStall : IOReturn
  abortPipe : IOReturn
  readPipe : UInt64 → IOReturn
  clearStallAt : UInt64 → IOReturn

def Answers.allSucceed : Answers where
  runLoop := true
  malloc _ := true
  acquireEvents := .success
  releaseEvents := .success
  clearPipeStall := .success
  abortPipe := .success
  readPipe _ := .success
  clearStallAt _ := .success

structure Report where
  status : IOReturn
  bytes : UInt32

/-- What the USB stack did with a read: its status and the bytes it stored. -/
structure Delivery where
  status : IOReturn
  payload : List UInt8

/-- The members `AudioInputReader` and `MIDIInputReader` have in common. `client`
is the engine or sink pointer and `own` holds the members of one reader only. -/
structure SlotReader (δ σ : Type) where
  session : Bool
  client : Bool
  runLoop : Bool
  running : Bool
  eventsAcquired : Bool
  slots : List (Slot δ Report)
  nextSubmitSequence : UInt64
  nextProcessSequence : UInt64
  own : σ

/-- Where the two readers differ: their buffers, what they do with a completed
block, and what they set up in `start` and give back in `stop`. -/
structure Kind (δ σ : Type) where
  slotCount : ℕ
  transferBytes : ℕ
  store : δ → List UInt8 → δ
  arrive : UInt64 → σ → σ
  process : SlotReader δ σ → Handles → IOReturn → Slot δ Report → Bool × σ
  submitFailed : IOReturn → σ → σ
  prepare : (ℕ → Bool) → List (Slot δ Report) → σ → IOReturn × List (Slot δ Report) × σ
  release : List (Slot δ Report) → σ → List (Slot δ Report) × σ

/-- A call of `stop`, by itself or from a failing `start` with result `start`,
that runs the run loop until nothing is in flight. -/
inductive Phase
  | ready
  | stopping (abort : IOReturn) (start : Option IOReturn)
deriving DecidableEq

structure Resources where
  acquired : ℕ
  released : ℕ
  retained : ℕ

/-- A reader with the USB stack. `requests` are the reads the stack has accepted,
the ones from `base` on since the last `start` that reset the sequence numbers,
and `processed` of these have been processed. `result` is the last call's result. -/
structure System (δ σ : Type) where
  handles : Handles
  reader : SlotReader δ σ
  phase : Phase
  requests : List (Request Delivery)
  base : ℕ
  processed : ℕ
  resources : Resources
  result : IOReturn

namespace SlotReader

def inFlightCount (r : SlotReader δ σ) : ℕ := r.slots.countP (·.inFlight)

end SlotReader

namespace System

def since (s : System δ σ) : List (Request Delivery) := s.requests.drop s.base

def deliveries (s : System δ σ) : List Delivery := answers s.since s.processed

def next (s : System δ σ) : Option ℕ :=
  Foundation.SlotWindow.next s.reader.slots s.reader.nextProcessSequence

def ret (s : System δ σ) (result : IOReturn) : System δ σ :=
  { s with result := result, phase := .ready }

def setOwn (s : System δ σ) (own : σ) : System δ σ := { s with reader := { s.reader with own := own } }

def setRunning (s : System δ σ) (running : Bool) : System δ σ :=
  { s with reader := { s.reader with running := running } }

def issue (s : System δ σ) (i : ℕ) (slot : Slot δ Report) : System δ σ :=
  { s with
    reader := { s.reader with
      slots := s.reader.slots.set i (slot.issue s.reader.nextSubmitSequence)
      nextSubmitSequence := s.reader.nextSubmitSequence + 1 }
    requests := s.requests ++ [⟨i, s.processed, none⟩] }

def refuse (s : System δ σ) (i : ℕ) (slot : Slot δ Report) : System δ σ :=
  { s with reader := { s.reader with
      slots := s.reader.slots.set i (slot.refuse s.reader.nextSubmitSequence) } }

def submit (answers : Answers) (i : ℕ) (s : System δ σ) : IOReturn × System δ σ :=
  match s.reader.slots[i]? with
  | none => (.notReady, s)
  | some slot =>
    if !s.reader.running || !s.reader.session || slot.inFlight || slot.completed then (.notReady, s)
    else if !s.handles.interface then (.noDevice, s)
    else
      let result := answers.readPipe s.reader.nextSubmitSequence
      if result = .success then (result, s.issue i slot) else (result, s.refuse i slot)

def consume (K : Kind δ σ) (answers : Answers) (i : ℕ) (slot : Slot δ Report) (s : System δ σ) :
    System δ σ :=
  let outcome := K.process s.reader s.handles (answers.clearStallAt slot.sequence) slot
  { s with
    reader := { s.reader with
      running := s.reader.running && outcome.1
      own := outcome.2
      slots := s.reader.slots.set i slot.retire
      nextProcessSequence := s.reader.nextProcessSequence + 1 }
    processed := s.processed + 1 }

def resubmit (K : Kind δ σ) (answers : Answers) (i : ℕ) (s : System δ σ) : System δ σ :=
  if s.reader.running then
    let t := s.submit answers i
    if t.1 = .success then t.2 else (t.2.setOwn (K.submitFailed t.1 t.2.reader.own)).setRunning false
  else s

def processNext (K : Kind δ σ) (answers : Answers) (i : ℕ) (s : System δ σ) : System δ σ :=
  match s.reader.slots[i]? with
  | none => s
  | some slot => (s.consume K answers i slot).resubmit K answers i

def drainCompletions (K : Kind δ σ) (answers : Answers) : ℕ → System δ σ → System δ σ
  | 0, s => s
  | fuel + 1, s =>
    match s.next with
    | none => s
    | some i => drainCompletions K answers fuel (s.processNext K answers i)

def setSlots (s : System δ σ) (slots : List (Slot δ Report)) : System δ σ :=
  { s with reader := { s.reader with slots := slots } }

def arrive (K : Kind δ σ) (elapsed : UInt64) (i : ℕ) (slot : Slot δ Report) (d : Delivery)
    (s : System δ σ) : System δ σ :=
  (s.setOwn (K.arrive elapsed s.reader.own)).setSlots (s.reader.slots.set i
    (slot.finish (K.store slot.data d.payload) ⟨d.status, UInt32.ofNat d.payload.length⟩))

/-- The callback for slot `i`. Every pass of the loop frees a completed slot, so
`slots_` bounds the number of passes. -/
def didComplete (K : Kind δ σ) (answers : Answers) (elapsed : UInt64) (i : ℕ) (d : Delivery)
    (s : System δ σ) : System δ σ :=
  match s.reader.slots[i]? with
  | none => s
  | some slot => (s.arrive K elapsed i slot d).drainCompletions K answers s.reader.slots.length

def answer (s : System δ σ) (k : ℕ) (r : Request Delivery) (d : Delivery) : System δ σ :=
  { s with requests := s.requests.set k { r with answer := some d } }

def complete (K : Kind δ σ) (answers : Answers) (elapsed : UInt64) (k : ℕ) (d : Delivery)
    (s : System δ σ) : Option (System δ σ) :=
  match s.requests[k]? with
  | none => none
  | some r =>
    if r.answer.isNone && d.payload.length ≤ K.transferBytes then
      some ((s.answer k r d).didComplete K answers elapsed r.slot d)
    else none

def releaseEvents (answers : Answers) (s : System δ σ) : System δ σ :=
  { s with
    reader := { s.reader with eventsAcquired := false }
    resources := { s.resources with
      released := s.resources.released + if answers.releaseEvents = .success then 1 else 0 } }

def releaseBuffers (K : Kind δ σ) (s : System δ σ) : System δ σ :=
  let r := K.release s.reader.slots s.reader.own
  { s with reader := { s.reader with slots := r.1, own := r.2 } }

def detach (s : System δ σ) : System δ σ :=
  { s with
    reader := { s.reader with session := false, client := false, runLoop := false }
    resources := { s.resources with
      retained := s.resources.retained - if s.reader.runLoop then 1 else 0 } }

def finishStop (K : Kind δ σ) (answers : Answers) (result : IOReturn) (start : Option IOReturn)
    (s : System δ σ) : System δ σ :=
  let idle := s.setSlots (s.reader.slots.map Slot.retire)
  if s.reader.eventsAcquired then
    (((idle.releaseEvents answers).releaseBuffers K).detach).ret
      (start.getD (result.firstFailure answers.releaseEvents))
  else ((idle.releaseBuffers K).detach).ret (start.getD result)

def stop (K : Kind δ σ) (answers : Answers) (start : Option IOReturn) (s : System δ σ) :
    System δ σ :=
  if !s.reader.session then s.ret (start.getD .success)
  else
    let stopped := s.setRunning false
    if s.reader.inFlightCount ≠ 0 ∧ s.handles.interface then
      { stopped with phase := .stopping answers.abortPipe start }
    else stopped.finishStop K answers .success start

def submitAll (K : Kind δ σ) (answers : Answers) : List ℕ → System δ σ → System δ σ
  | [], s => s.ret .success
  | i :: rest, s =>
    let t := s.submit answers i
    if t.1 = .success then submitAll K answers rest t.2
    else (t.2.setOwn (K.submitFailed t.1 t.2.reader.own)).stop K answers (some t.1)

/-- `start` up to the first allocation: the session is attached and the sequence
numbers begin again at zero. -/
def attach (s : System δ σ) : System δ σ :=
  { s with
    reader := { s.reader with
      session := true
      client := true
      runLoop := true
      nextSubmitSequence := 0
      nextProcessSequence := 0 }
    base := s.requests.length
    processed := 0
    resources := { s.resources with retained := s.resources.retained + 1 } }

def acquireEvents (s : System δ σ) : System δ σ :=
  { s with
    reader := { s.reader with eventsAcquired := true }
    resources := { s.resources with acquired := s.resources.acquired + 1 } }

def prepare (K : Kind δ σ) (answers : Answers) (s : System δ σ) : IOReturn × System δ σ :=
  let p := K.prepare answers.malloc s.reader.slots s.reader.own
  (p.1, { s with reader := { s.reader with slots := p.2.1, own := p.2.2 } })

def launch (K : Kind δ σ) (answers : Answers) (s : System δ σ) : System δ σ :=
  let t := s.attach.prepare K answers
  if t.1 ≠ .success then t.2.detach.ret t.1
  else if answers.acquireEvents ≠ .success then
    (t.2.releaseBuffers K).detach.ret answers.acquireEvents
  else if answers.clearPipeStall ≠ .success then
    ((t.2.acquireEvents.releaseEvents answers).releaseBuffers K).detach.ret answers.clearPipeStall
  else (t.2.acquireEvents.setRunning true).submitAll K answers (List.range K.slotCount)

def start (K : Kind δ σ) (answers : Answers) (s : System δ σ) : System δ σ :=
  if s.reader.running ∨ s.reader.inFlightCount ≠ 0 ∨ !s.handles.interface ∨ s.handles.pipe = 0 ∨
      !s.handles.eventSource then s.ret .notReady
  else if !answers.runLoop then
    { s with reader := { s.reader with session := false, client := false, runLoop := false } }.ret
      .notReady
  else s.launch K answers

/-- A call of `start` or `stop`, a completion callback, the end of the wait in
`stop` by drain or timeout, or the session changing hands. -/
inductive Action
  | start (answers : Answers)
  | stop (answers : Answers)
  | complete (answers : Answers) (elapsed : UInt64) (k : ℕ) (d : Delivery)
  | drained (answers : Answers)
  | timeout
  | session (handles : Handles)

/-- The session stays as it is while a reader is attached to it. -/
def step (K : Kind δ σ) (s : System δ σ) : Action → Option (System δ σ)
  | .start answers => if s.phase = .ready then some (s.start K answers) else none
  | .stop answers => if s.phase = .ready then some (s.stop K answers none) else none
  | .complete answers elapsed k d => s.complete K answers elapsed k d
  | .drained answers =>
    match s.phase with
    | .ready => none
    | .stopping abort start =>
      if s.reader.inFlightCount = 0 then some (s.finishStop K answers abort start) else none
  | .timeout =>
    match s.phase with
    | .ready => none
    | .stopping _ start =>
      if s.reader.inFlightCount ≠ 0 then some (s.ret (start.getD .timeout)) else none
  | .session handles => if s.reader.session then none else some { s with handles := handles }

def initial (K : Kind δ σ) (handles : Handles) (data : δ) (own : σ) : System δ σ where
  handles := handles
  reader :=
    { session := false
      client := false
      runLoop := false
      running := false
      eventsAcquired := false
      slots := List.replicate K.slotCount ⟨data, false, false, ⟨.success, 0⟩, 0⟩
      nextSubmitSequence := 0
      nextProcessSequence := 0
      own := own }
  phase := .ready
  requests := []
  base := 0
  processed := 0
  resources := ⟨0, 0, 0⟩
  result := .success

theorem step_drained {K : Kind δ σ} {answers : Answers} {s s' : System δ σ}
    (h : s.step K (.drained answers) = some s') : ∃ abort start, s.phase = .stopping abort start ∧
      s.reader.inFlightCount = 0 ∧ s' = s.finishStop K answers abort start := by
  cases hp : s.phase with
  | ready => simp [step, hp] at h
  | stopping abort start =>
    simp only [step, hp] at h
    split_ifs at h with hzero
    exact ⟨abort, start, rfl, hzero, (Option.some.inj h).symm⟩

theorem step_timeout {K : Kind δ σ} {s s' : System δ σ} (h : s.step K .timeout = some s') :
    ∃ abort start, s.phase = .stopping abort start ∧ s' = s.ret (start.getD .timeout) := by
  cases hp : s.phase with
  | ready => simp [step, hp] at h
  | stopping abort start =>
    simp only [step, hp] at h
    split_ifs at h
    exact ⟨abort, start, rfl, (Option.some.inj h).symm⟩

end System

end NumarkNS6.Usb
