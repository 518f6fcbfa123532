import NumarkNS6.AudioOut.AudioOutTransferSlots
import NumarkNS6.Usb.SlotReader

namespace NumarkNS6.AudioOut

open Foundation.CircularStore Usb

structure IsocFrame where
  frStatus : IOReturn
  frReqCount : UInt16
  frActCount : UInt16

/-- The buffers of a transfer slot, `none` standing for a null pointer. -/
structure AudioOutWorker.Slot where
  data : Option (List UInt8)
  frames : Option (List IsocFrame)

structure AudioOutWorker where
  ring : AudioOutputRing ℚ
  packetPolicy : AudioPacketPolicy
  transferSlots : AudioOutTransferSlots
  slots : List AudioOutWorker.Slot
  runLoop : Bool
  running : Bool
  sourceAdded : Bool
  initialized : Bool
  submitted : UInt64
  completed : UInt64
  failures : UInt64
  nonSilentSubmitted : UInt64
  ringUnderrunFrames : UInt64

namespace AudioOutWorker

/-- The results of the system calls made during one entry into the worker. Slot
`n` has its data buffer numbered `2 * n` and its frame list numbered `2 * n + 1`;
`writePipe n` answers the write of slot `n`. -/
structure Answers where
  runLoop : Bool
  createBuffer : ℕ → IOReturn
  acquireEvents : IOReturn
  writePipe : ℕ → IOReturn
  abortPipe : IOReturn
  releaseEvents : IOReturn
  destroyBuffer : ℕ → IOReturn

structure Transfer where
  slot : ℕ
  buffers : Slot

structure Completion where
  status : IOReturn
  frStatus : ℕ → IOReturn
  frActCount : ℕ → UInt16

/-- What a worker does that can be seen from outside. `modified` notes whether the
stack held the slot, `written` is a write with its result, `unwritten` a
submission that fails before its write, and `completed` carries the status the
worker settles on. -/
inductive Event
  | modified (slot : ℕ) (held : Bool)
  | written (slot : ℕ) (result : IOReturn)
  | unwritten (result : IOReturn)
  | completed (slot : ℕ) (status : IOReturn)
  | stopped

/-- A worker with the USB stack: `pending` are the transfers accepted and not yet
completed, and `result` is what the last call returned. -/
structure System where
  handles : Handles
  worker : AudioOutWorker
  phase : Phase
  pending : List Transfer
  trace : List Event
  result : IOReturn

namespace System

def ret (s : System) (result : IOReturn) : System := { s with result := result, phase := .ready }

def log (s : System) (e : Event) : System := { s with trace := s.trace ++ [e] }

def holds (s : System) (i : ℕ) : Bool := s.pending.any fun t ↦ t.slot == i

def modify (s : System) (i : ℕ) (f : Slot → Slot) : System :=
  { s with worker := { s.worker with slots := s.worker.slots.modify i f } }.log
    (.modified i (s.holds i))

def slot (s : System) (i : ℕ) : Slot := s.worker.slots.getD i ⟨none, none⟩

def release (s : System) (i : ℕ) : System :=
  { s with worker := { s.worker with transferSlots := (s.worker.transferSlots.complete i).2 } }

def halt (s : System) : System :=
  { s with worker := { s.worker with
      running := false
      transferSlots := s.worker.transferSlots.stopAccepting } }

def countFailure (s : System) : System :=
  { s with worker := { s.worker with failures := s.worker.failures + 1 } }

def reserve (s : System) : Option ℕ × System :=
  let r := s.worker.transferSlots.reserve s.worker.ring s.worker.packetPolicy
  (r.1, { s with worker := { s.worker with
    transferSlots := r.2.1
    ring := r.2.2.1
    packetPolicy := r.2.2.2 } })

def requests (batch : AudioOutTransferBatch) : List IsocFrame :=
  (List.range AudioOutTransferBatch.serviceIntervals).map fun i ↦
    ⟨.success, batch.packetByteCount i, 0⟩

/-- Copy the batch into slot `i`, note whether it is silent and fill the frame list. -/
def fill (s : System) (i : ℕ) (batch : AudioOutTransferBatch) : System :=
  let bytes := batch.bytes.take batch.byteCount
  let s := s.modify i fun slot ↦
    { data := slot.data.map fun data ↦ splice data 0 bytes
      frames := slot.frames.map fun _ ↦ requests batch }
  if bytes.any (· ≠ 0) then
    { s with worker := { s.worker with nonSilentSubmitted := s.worker.nonSilentSubmitted + 1 } }
  else s

def accept (s : System) (i : ℕ) : System :=
  { s with
    worker := { s.worker with submitted := s.worker.submitted + 1 }
    pending := s.pending ++ [⟨i, s.slot i⟩] }

def submitSlot (answers : Answers) (s : System) (i : ℕ) : IOReturn × System :=
  match s.worker.transferSlots.packet i with
  | none => (.badArgument, (s.release i).log (.unwritten .badArgument))
  | some batch =>
    if batch.byteCount > AudioOutTransferBatch.maxBytes then
      (.badArgument, (s.release i).log (.unwritten .badArgument))
    else
      let s := s.fill i batch
      if ((requests batch).map fun frame ↦ frame.frReqCount.toNat).sum ≠ batch.byteCount then
        (.badArgument, (s.release i).log (.unwritten .badArgument))
      else
        let result := answers.writePipe i
        let s := s.log (.written i result)
        if result ≠ .success then (result, s.release i) else (.success, s.accept i)

def submitNext (answers : Answers) (s : System) : IOReturn × System :=
  if !s.worker.running || !s.handles.interface then (.notReady, s.log (.unwritten .notReady))
  else
    match s.reserve with
    | (none, s) => (.noResources, s.log (.unwritten .noResources))
    | (some i, s) => s.submitSlot answers i

end System

def inspect (status : IOReturn) (frame : IsocFrame) : IOReturn :=
  let status := if status = .success ∧ frame.frStatus ≠ .success then frame.frStatus else status
  if status = .success ∧ frame.frActCount ≠ frame.frReqCount then .underrun else status

def judge (status : IOReturn) (frames : List IsocFrame) : IOReturn := frames.foldl inspect status

namespace System

def countCompleted (s : System) (i : ℕ) : System :=
  let missing := match s.worker.transferSlots.packet i with
    | none => 0
    | some batch => batch.missingFrames.toUInt64
  { s with worker := { s.worker with
      completed := s.worker.completed + 1
      ringUnderrunFrames := s.worker.ringUnderrunFrames + missing } }.log (.completed i .success)

def resubmit (answers : Answers) (s : System) : System :=
  if s.worker.running then
    let t := s.submitNext answers
    if t.1 ≠ .success then t.2.countFailure.halt else t.2
  else s

def didComplete (answers : Answers) (i : ℕ) (status : IOReturn) (s : System) : System :=
  let status := judge status ((s.slot i).frames.getD [])
  let s := s.release i
  if status = .success then (s.countCompleted i).resubmit answers
  else
    -- The transfers still pending complete later, without being submitted again.
    (s.countFailure.log (.completed i status)).halt

def arrive (s : System) (k : ℕ) (t : Transfer) (c : Completion) : System :=
  { s with
    pending := s.pending.eraseIdx k
    worker := { s.worker with
      slots := s.worker.slots.modify t.slot fun slot ↦ { slot with
        frames := slot.frames.map fun frames ↦ frames.mapIdx fun n frame ↦ { frame with
          frStatus := c.frStatus n
          frActCount := c.frActCount n } } } }

def complete (answers : Answers) (k : ℕ) (c : Completion) (s : System) : System :=
  match s.pending[k]? with
  | none => s
  | some t => (s.arrive k t c).didComplete answers t.slot c.status

def releaseSlot (answers : Answers) (i : ℕ) (r : IOReturn × System) : IOReturn × System :=
  let r := if (r.2.slot i).data.isSome then
      (r.1.firstFailure (answers.destroyBuffer (2 * i)),
        r.2.modify i fun slot ↦ { slot with data := none })
    else r
  if (r.2.slot i).frames.isSome then
    (r.1.firstFailure (answers.destroyBuffer (2 * i + 1)),
      r.2.modify i fun slot ↦ { slot with frames := none })
  else r

def releaseBuffers (answers : Answers) (s : System) : IOReturn × System :=
  if !s.handles.interface then (.notReady, s)
  else (List.range AudioOutTransferSlots.slotCount).foldl
    (fun r i ↦ releaseSlot answers i r) (.success, s)

def finishStop (answers : Answers) (result : IOReturn) (start : Option IOReturn) (s : System) :
    System :=
  let result := if s.worker.sourceAdded && s.worker.runLoop then
      result.firstFailure answers.releaseEvents
    else result
  let s := if s.worker.sourceAdded && s.worker.runLoop then
      { s with worker := { s.worker with sourceAdded := false } }
    else s
  let released := s.releaseBuffers answers
  released.2.ret (start.getD (result.firstFailure released.1))

/-- `stop`, by itself or from a `start` that failed with result `start`. -/
def stop (answers : Answers) (start : Option IOReturn) (s : System) : System :=
  if !s.worker.initialized then s.ret (start.getD .success)
  else
    let s := s.halt.log .stopped
    if s.worker.transferSlots.inFlight ≠ 0 ∧ s.handles.interface then
      { s with phase := .stopping answers.abortPipe start }
    else s.finishStop answers .success start

def submitAll (answers : Answers) : ℕ → System → System
  | 0, s => s.ret .success
  | n + 1, s =>
    let t := s.submitNext answers
    if t.1 ≠ .success then t.2.countFailure.stop answers (some t.1)
    else submitAll answers n t.2

def createBuffers (answers : Answers) : List ℕ → System → IOReturn × System
  | [], s => (.success, s)
  | i :: rest, s =>
    if answers.createBuffer (2 * i) ≠ .success then (answers.createBuffer (2 * i), s)
    else
      let s := s.modify i fun slot ↦
        { slot with data := some (List.replicate AudioOutTransferBatch.maxBytes 0) }
      if answers.createBuffer (2 * i + 1) ≠ .success then (answers.createBuffer (2 * i + 1), s)
      else createBuffers answers rest (s.modify i fun slot ↦ { slot with
        frames := some (List.replicate AudioOutTransferBatch.serviceIntervals ⟨.success, 0, 0⟩) })

def setRunLoop (s : System) (runLoop : Bool) : System :=
  { s with worker := { s.worker with runLoop := runLoop } }

def abandonStart (answers : Answers) (result : IOReturn) (s : System) : System :=
  ((s.releaseBuffers answers).2.setRunLoop false).ret result

def launch (s : System) : System :=
  { s with worker := { s.worker with sourceAdded := true, running := true, initialized := true } }

def start (answers : Answers) (s : System) : System :=
  if s.worker.initialized ∨ !s.handles.interface ∨ s.handles.pipe = 0 ∨ !s.handles.eventSource then
    s.ret .notReady
  else if !answers.runLoop then (s.setRunLoop false).ret .notReady
  else
    let t := (s.setRunLoop true).createBuffers answers (List.range AudioOutTransferSlots.slotCount)
    if t.1 ≠ .success then t.2.abandonStart answers t.1
    else if answers.acquireEvents ≠ .success then t.2.abandonStart answers answers.acquireEvents
    else t.2.launch.submitAll answers AudioOutTransferSlots.slotCount

/-- A call of `start` or `stop`, a completion callback, the end of the wait in
`stop` by drain or timeout, or the other users of ring and policy at work. -/
inductive Action
  | start (answers : Answers)
  | stop (answers : Answers)
  | complete (answers : Answers) (k : ℕ) (c : Completion)
  | drained (answers : Answers)
  | timeout
  | supply (ring : AudioOutputRing ℚ) (policy : AudioPacketPolicy)

/-- An action that cannot happen now changes nothing. -/
def step (s : System) : Action → System
  | .start answers => if s.phase = .ready then s.start answers else s
  | .stop answers => if s.phase = .ready then s.stop answers none else s
  | .complete answers k c => s.complete answers k c
  | .drained answers =>
    match s.phase with
    | .ready => s
    | .stopping abort start =>
      if s.worker.transferSlots.inFlight = 0 then s.finishStop answers abort start else s
  | .timeout =>
    match s.phase with
    | .ready => s
    | .stopping _ start =>
      if s.worker.transferSlots.inFlight ≠ 0 then s.ret (start.getD .timeout) else s
  | .supply ring policy => { s with worker := { s.worker with ring := ring, packetPolicy := policy } }

def after (s : System) (actions : List Action) : System := actions.foldl step s

def initial (handles : Handles) (ring : AudioOutputRing ℚ) (policy : AudioPacketPolicy) :
    System where
  handles := handles
  worker :=
    { ring := ring
      packetPolicy := policy
      transferSlots := .construct
      slots := List.replicate AudioOutTransferSlots.slotCount ⟨none, none⟩
      runLoop := false
      running := false
      sourceAdded := false
      initialized := false
      submitted := 0
      completed := 0
      failures := 0
      nonSilentSubmitted := 0
      ringUnderrunFrames := 0 }
  phase := .ready
  pending := []
  trace := []
  result := .success

end System

end AudioOutWorker

end NumarkNS6.AudioOut
