import NumarkNS6.Foundation.Runs
import NumarkNS6.Foundation.Services
import NumarkNS6.Usb.NS6DeviceSession

namespace NumarkNS6.CoreAudio.TransportWorker

open Foundation.Runs Foundation.Services Usb

inductive Part
  | output
  | feedback
  | input
  | midi
deriving DecidableEq

/-- Why the worker ends: its set-up failed, its thread has no run loop, or `stop`
was called. -/
inductive Ending
  | failed
  | noRunLoop
  | requested
deriving DecidableEq

namespace Ending

def first : Ending → List Part
  | .failed => [.midi, .input, .output, .feedback]
  | .noRunLoop | .requested => [.midi, .input, .feedback, .output]

def again : Ending → List Part
  | .failed => [.input, .midi, .output, .feedback]
  | .noRunLoop | .requested => [.input, .midi, .feedback, .output]

def resets : Ending → List Part
  | .failed => [.output, .feedback, .input, .midi]
  | .noRunLoop | .requested => [.feedback, .input, .output, .midi]

end Ending

/-- The places in `workerMain` a call of `start` or `stop` returns to. -/
inductive Return
  | outputStarted
  | feedbackStarted
  | feedbackStopped
  | inputStarted
  | midiStarted
  | recoveryStopped
  | recoveryStarted
  | inputRetried
  | inputStopped
  | midiStopped
  | midiRestarted
  | stopped (ending : Ending) (again : Bool) (rest : List Part)
deriving DecidableEq

/-- Where the worker thread is. `start` and `stop` are the places before a call,
`calling` the time until it returns; `make` is an allocation and `replace` the
one of a new output worker; `stops`, `check`, `pump` and `resets` are the parts
of the clean-up. -/
inductive Point
  | make (part : Part)
  | start (part : Part) (return_ : Return)
  | stop (part : Part) (return_ : Return)
  | calling (part : Part) (return_ : Return)
  | prepareMIDI
  | booted
  | head
  | runLoop
  | output
  | replace
  | input
  | midi
  | midiCheck
  | stops (ending : Ending) (again : Bool) (rest : List Part)
  | check (ending : Ending)
  | pump (ending : Ending)
  | resets (ending : Ending) (rest : List Part)
  | finished
deriving DecidableEq

variable (S : Part → Service IOReturn)

/-- The worker thread with what it shares with others. `parts` are its pointers,
`none` standing for a null pointer; `old` is the output worker that a recovery
has put aside; `runLoop` says whether the thread has a run loop; `published` is
what `publishStartResult` was called with; and `fault` is set where the source
follows a null pointer or a destructor calls `std::terminate`. Times are in
nanoseconds. -/
structure Worker where
  parts : ∀ k, Option (S k).State
  old : Option (S .output).State
  point : Point
  result : IOReturn
  stopResult : Part → IOReturn
  inputRunning : Bool
  inputEnabled : Bool
  midiEnabled : Bool
  stopRequested : Bool
  runLoop : Bool
  now : ℕ
  nextOutputRetry : ℕ
  nextInputRetry : ℕ
  nextMIDIRecovery : ℕ
  published : List IOReturn
  fault : Bool

variable {S}

namespace Worker

def second : ℕ := 1000000000

def goto (w : Worker S) (point : Point) : Worker S := { w with point := point }

def setPart (w : Worker S) (k : Part) (s : Option (S k).State) : Worker S :=
  { w with parts := Function.update w.parts k s }

def setResult (w : Worker S) (result : IOReturn) : Worker S := { w with result := result }

def setInputRunning (w : Worker S) (inputRunning : Bool) : Worker S :=
  { w with inputRunning := inputRunning }

def setStopResult (w : Worker S) (k : Part) (result : IOReturn) : Worker S :=
  { w with stopResult := Function.update w.stopResult k result }

def publish (w : Worker S) (result : IOReturn) : Worker S :=
  { w with published := w.published ++ [result] }

def fail (w : Worker S) : Worker S := { w with fault := true }

/-- `std::unique_ptr::reset`: the destructor terminates the process if the
component is active. -/
def reset (w : Worker S) (k : Part) : Worker S :=
  let w' := w.setPart k none
  match w.parts k with
  | none => w'
  | some s => if (S k).active s then w'.fail else w'

def dropOld (w : Worker S) : Worker S :=
  match w.old with
  | none => w
  | some s =>
    let w' := { w with old := none }
    if (S .output).active s then w'.fail else w'

def cleanUp (w : Worker S) (ending : Ending) : Worker S := w.goto (.stops ending false ending.first)

def afterInput (w : Worker S) : Worker S :=
  if w.result = .success then
    if w.midiEnabled then w.goto (.make .midi) else w.goto .booted
  else w.cleanUp .failed

/-- `workerMain` from the return of a call on. -/
def resume (w : Worker S) (k : Part) (result : IOReturn) : Return → Worker S
  | .outputStarted =>
    let w := w.setResult result
    if result = .success then w.goto (.make .feedback) else w.cleanUp .failed
  | .feedbackStarted =>
    if result = .success then w.goto (.make .input) else w.goto (.stop .feedback .feedbackStopped)
  | .feedbackStopped =>
    if result = .success then (w.reset .feedback).goto (.make .input)
    else (w.setResult result).cleanUp .failed
  | .inputStarted => ((w.setResult result).setInputRunning (result = .success)).afterInput
  | .midiStarted => w.goto .booted
  | .recoveryStopped => if result = .success then w.goto .replace else w.goto .input
  | .recoveryStarted => w.dropOld.goto .input
  | .inputRetried =>
    let w := w.setInputRunning (result = .success)
    if result = .success then w.goto .midi
    else { w with nextInputRetry := w.now + second, point := .midi }
  | .inputStopped =>
    if result = .success then (w.setInputRunning false).goto .midi else w.goto .midi
  | .midiStopped => w.goto .midiCheck
  | .midiRestarted => w.goto .head
  | .stopped ending again rest => (w.setStopResult k result).goto (.stops ending again rest)

/-- The run loop runs in the main loop, in the clean-up, and while a call waits. -/
def pumping (w : Worker S) : Bool :=
  w.runLoop && match w.point with
    | .runLoop | .pump _ => true
    | .calling k _ => (w.parts k).any (S k).waiting
    | _ => false

def made (w : Worker S) : Part → Worker S
  | .output => w.goto (.start .output .outputStarted)
  | .feedback => w.goto (.start .feedback .feedbackStarted)
  | .input => if w.inputEnabled then w.goto (.start .input .inputStarted) else w.afterInput
  | .midi => w.goto .prepareMIDI

/-- The next call of `stop` in the clean-up, or the end of a round of calls. The
first round asks every component there is, the others those that have failed. -/
def nextStop (w : Worker S) (ending : Ending) (again : Bool) : List Part → Worker S
  | [] => w.goto (.check ending)
  | k :: rest =>
    if again then
      if w.stopResult k ≠ .success ∧ (w.parts k).isSome then
        w.goto (.stop k (.stopped ending again rest))
      else w.goto (.stops ending again rest)
    else if (w.parts k).isSome then w.goto (.stop k (.stopped ending again rest))
    else (w.setStopResult k .success).goto (.stops ending again rest)

def allStopped (w : Worker S) : Bool :=
  w.stopResult .midi = .success && w.stopResult .input = .success &&
    w.stopResult .output = .success && w.stopResult .feedback = .success

/-- The end of a round: without a run loop nobody looks at the results. -/
def endRound (w : Worker S) (ending : Ending) : Worker S :=
  if ending = .noRunLoop ∨ w.allStopped then w.goto (.resets ending ending.resets)
  else w.goto (.pump ending)

def nextReset (w : Worker S) (ending : Ending) : List Part → Worker S
  | [] =>
    let w := w.goto .finished
    match ending with
    | .failed => w.publish w.result
    | .noRunLoop => w.publish .notReady
    | .requested => w
  | k :: rest => (w.reset k).goto (.resets ending rest)

def checkOutput (w : Worker S) (currentDevice : Bool) : Worker S :=
  match w.parts .output with
  | none => w.fail
  | some s =>
    if !(S .output).running s ∧ w.nextOutputRetry ≤ w.now ∧ currentDevice ∧ !w.stopRequested then
      { w with nextOutputRetry := w.now + second, point := .stop .output .recoveryStopped }
    else w.goto .input

def checkInput (w : Worker S) : Worker S :=
  if w.inputEnabled && !w.inputRunning && w.nextInputRetry ≤ w.now then
    w.goto (.start .input .inputRetried)
  else if !w.inputEnabled && w.inputRunning then w.goto (.stop .input .inputStopped)
  else w.goto .midi

/-- The recovery of MIDI up to its call of `stop`. `forwarder` is the result of
`midiForwarder_.start()`. -/
def recoverMIDI (w : Worker S) (forwarder : Bool) : Worker S :=
  if w.midiEnabled && w.nextMIDIRecovery ≤ w.now then
    let w := { w with nextMIDIRecovery := w.now + second }
    if forwarder then
      match w.parts .midi with
      | none => w.fail
      | some s =>
        if (S .midi).attached s && !(S .midi).running s then w.goto (.stop .midi .midiStopped)
        else w.goto .midiCheck
    else w.goto .head
  else w.goto .head

def checkMIDI (w : Worker S) : Worker S :=
  match w.parts .midi with
  | none => w.fail
  | some s => if (S .midi).attached s then w.goto .head else w.goto (.start .midi .midiRestarted)

end Worker

/-- What can happen: other threads call `setInputEnabled` or `stop`, an event
arrives for a component or for the output worker put aside, or the worker thread
takes its next step with the answers of the system. -/
inductive Action (S : Part → Service IOReturn)
  | setInputEnabled (enabled : Bool)
  | requestStop
  | event (k : Part) (e : (S k).Event)
  | oldEvent (e : (S .output).Event)
  | make (k : Part) (i : Option (S k).Init)
  | replace (i : Option (S .output).Init)
  | call (k : Part) (a : (S k).Answers)
  | returned
  | prepareMIDI (output forwarder : Bool)
  | booted (now : ℕ)
  | enter
  | wake (now : ℕ)
  | checkOutput (currentDevice : Bool)
  | checkInput
  | recoverMIDI (forwarder : Bool)
  | checkMIDI
  | cleanUp

/-- The step of the worker thread with the call it is about to make. A null
pointer that is followed is a fault. -/
def call (w : Worker S) (k : Part) (a : (S k).Answers) : Option (Worker S) :=
  if (S k).loop a = w.runLoop then
    match w.point with
    | .start k' r =>
      if k' = k then
        match w.parts k with
        | none => some w.fail
        | some s => some ((w.setPart k (some ((S k).start a s))).goto (.calling k r))
      else none
    | .stop k' r =>
      if k' = k then
        match w.parts k with
        | none => some w.fail
        | some s => some ((w.setPart k (some ((S k).stop a s))).goto (.calling k r))
      else none
    | _ => none
  else none

def step (w : Worker S) : Action S → Option (Worker S)
  | .setInputEnabled enabled => some { w with inputEnabled := enabled }
  | .requestStop => some { w with stopRequested := true }
  | .event k e =>
    if w.pumping then
      match w.parts k with
      | none => none
      | some s => ((S k).event s e).map fun t ↦ w.setPart k (some t)
    else none
  | .oldEvent e =>
    if w.pumping then
      match w.old with
      | none => none
      | some s => ((S .output).event s e).map fun t ↦ { w with old := some t }
    else none
  | .make k i =>
    if w.point = .make k then
      match i with
      | none => some ((w.setResult .noMemory).cleanUp .failed)
      | some i => some (((w.reset k).setPart k (some ((S k).make i))).made k)
    else none
  | .replace i =>
    if w.point = .replace then
      match i with
      | none => some (w.goto .input)
      | some i => some { w.setPart .output (some ((S .output).make i)) with
          old := w.parts .output
          point := .start .output .recoveryStarted }
    else none
  | .call k a => call w k a
  | .returned =>
    match w.point with
    | .calling k r =>
      match w.parts k with
      | none => none
      | some s => if (S k).waiting s then none else some (w.resume k ((S k).result s) r)
    | _ => none
  | .prepareMIDI output forwarder =>
    if w.point = .prepareMIDI then
      some (if output && forwarder then w.goto (.start .midi .midiStarted) else w.goto .booted)
    else none
  | .booted now =>
    if w.point = .booted then
      some (if w.runLoop then
        { w.publish .success with
          now := now
          nextOutputRetry := now
          nextInputRetry := now
          nextMIDIRecovery := now
          point := .head }
      else w.cleanUp .noRunLoop)
    else none
  | .enter =>
    if w.point = .head then
      some (if w.stopRequested then w.cleanUp .requested else w.goto .runLoop)
    else none
  | .wake now =>
    if w.point = .runLoop ∧ w.now ≤ now then some { w with now := now, point := .output } else none
  | .checkOutput currentDevice =>
    if w.point = .output then some (w.checkOutput currentDevice) else none
  | .checkInput => if w.point = .input then some w.checkInput else none
  | .recoverMIDI forwarder => if w.point = .midi then some (w.recoverMIDI forwarder) else none
  | .checkMIDI => if w.point = .midiCheck then some w.checkMIDI else none
  | .cleanUp =>
    match w.point with
    | .stops ending again rest => some (w.nextStop ending again rest)
    | .check ending => some (w.endRound ending)
    | .pump ending => some (w.goto (.stops ending true ending.again))
    | .resets ending rest => some (w.nextReset ending rest)
    | _ => none

/-- The steps of a worker, with what each of them relies on. -/
inductive Stepped (w : Worker S) : Action S → Worker S → Prop
  | setInputEnabled (enabled : Bool) :
      Stepped w (.setInputEnabled enabled) { w with inputEnabled := enabled }
  | requestStop : Stepped w .requestStop { w with stopRequested := true }
  | event {k : Part} {e : (S k).Event} {s t : (S k).State} (pumping : w.pumping = true)
      (part : w.parts k = some s) (taken : (S k).event s e = some t) :
      Stepped w (.event k e) (w.setPart k (some t))
  | oldEvent {e : (S .output).Event} {s t : (S .output).State} (pumping : w.pumping = true)
      (old : w.old = some s) (taken : (S .output).event s e = some t) :
      Stepped w (.oldEvent e) { w with old := some t }
  | makeFails {k : Part} (point : w.point = .make k) :
      Stepped w (.make k none) ((w.setResult .noMemory).cleanUp .failed)
  | make {k : Part} (i : (S k).Init) (point : w.point = .make k) :
      Stepped w (.make k (some i)) (((w.reset k).setPart k (some ((S k).make i))).made k)
  | replaceFails (point : w.point = .replace) : Stepped w (.replace none) (w.goto .input)
  | replace (i : (S .output).Init) (point : w.point = .replace) :
      Stepped w (.replace (some i)) { w.setPart .output (some ((S .output).make i)) with
        old := w.parts .output
        point := .start .output .recoveryStarted }
  | start {k : Part} {r : Return} {s : (S k).State} (a : (S k).Answers)
      (loop : (S k).loop a = w.runLoop) (point : w.point = .start k r) (part : w.parts k = some s) :
      Stepped w (.call k a) ((w.setPart k (some ((S k).start a s))).goto (.calling k r))
  | stop {k : Part} {r : Return} {s : (S k).State} (a : (S k).Answers)
      (loop : (S k).loop a = w.runLoop) (point : w.point = .stop k r) (part : w.parts k = some s) :
      Stepped w (.call k a) ((w.setPart k (some ((S k).stop a s))).goto (.calling k r))
  | fault {k : Part} {r : Return} (a : (S k).Answers) (loop : (S k).loop a = w.runLoop)
      (point : w.point = .start k r ∨ w.point = .stop k r) (part : w.parts k = none) :
      Stepped w (.call k a) w.fail
  | returned {k : Part} {r : Return} {s : (S k).State} (point : w.point = .calling k r)
      (part : w.parts k = some s) (done : (S k).waiting s = false) :
      Stepped w .returned (w.resume k ((S k).result s) r)
  | prepareMIDI (output forwarder : Bool) (point : w.point = .prepareMIDI) :
      Stepped w (.prepareMIDI output forwarder)
        (if output && forwarder then w.goto (.start .midi .midiStarted) else w.goto .booted)
  | booted (now : ℕ) (point : w.point = .booted) (loop : w.runLoop = true) :
      Stepped w (.booted now) { w.publish .success with
        now := now
        nextOutputRetry := now
        nextInputRetry := now
        nextMIDIRecovery := now
        point := .head }
  | noRunLoop (now : ℕ) (point : w.point = .booted) (loop : w.runLoop = false) :
      Stepped w (.booted now) (w.cleanUp .noRunLoop)
  | leave (point : w.point = .head) (requested : w.stopRequested = true) :
      Stepped w .enter (w.cleanUp .requested)
  | enter (point : w.point = .head) (requested : w.stopRequested = false) :
      Stepped w .enter (w.goto .runLoop)
  | wake {now : ℕ} (point : w.point = .runLoop) (later : w.now ≤ now) :
      Stepped w (.wake now) { w with now := now, point := .output }
  | checkOutput (currentDevice : Bool) (point : w.point = .output) :
      Stepped w (.checkOutput currentDevice) (w.checkOutput currentDevice)
  | checkInput (point : w.point = .input) : Stepped w .checkInput w.checkInput
  | recoverMIDI (forwarder : Bool) (point : w.point = .midi) :
      Stepped w (.recoverMIDI forwarder) (w.recoverMIDI forwarder)
  | checkMIDI (point : w.point = .midiCheck) : Stepped w .checkMIDI w.checkMIDI
  | nextStop {ending : Ending} {again : Bool} {rest : List Part}
      (point : w.point = .stops ending again rest) :
      Stepped w .cleanUp (w.nextStop ending again rest)
  | endRound {ending : Ending} (point : w.point = .check ending) :
      Stepped w .cleanUp (w.endRound ending)
  | pumped {ending : Ending} (point : w.point = .pump ending) :
      Stepped w .cleanUp (w.goto (.stops ending true ending.again))
  | nextReset {ending : Ending} {rest : List Part} (point : w.point = .resets ending rest) :
      Stepped w .cleanUp (w.nextReset ending rest)

section Stepped

variable {w w' : Worker S}

theorem stepped_call {k : Part} {a : (S k).Answers} (hs : call w k a = some w') :
    Stepped w (.call k a) w' := by
  obtain ⟨hloop, hs⟩ := Option.ite_none_right_eq_some.mp hs
  split at hs
  · next k' r hp =>
    obtain ⟨rfl, hs⟩ := Option.ite_none_right_eq_some.mp hs
    split at hs
    · next hk => cases hs; exact .fault a hloop (.inl hp) hk
    · next s hk => cases hs; exact .start a hloop hp hk
  · next k' r hp =>
    obtain ⟨rfl, hs⟩ := Option.ite_none_right_eq_some.mp hs
    split at hs
    · next hk => cases hs; exact .fault a hloop (.inr hp) hk
    · next s hk => cases hs; exact .stop a hloop hp hk
  · cases hs

theorem stepped_cleanUp (hs : step w .cleanUp = some w') : Stepped w .cleanUp w' := by
  simp only [step] at hs
  split at hs
  · next hp => cases hs; exact .nextStop hp
  · next hp => cases hs; exact .endRound hp
  · next hp => cases hs; exact .pumped hp
  · next hp => cases hs; exact .nextReset hp
  · cases hs

theorem stepped_returned (hs : step w .returned = some w') : Stepped w .returned w' := by
  simp only [step] at hs
  split at hs
  · next k r hp =>
    split at hs
    · cases hs
    · next s hk =>
      obtain ⟨hdone, hs⟩ := Option.ite_none_left_eq_some.mp hs
      cases hs
      exact .returned hp hk (Bool.eq_false_iff.mpr hdone)
  · cases hs

theorem stepped {a : Action S} (hs : step w a = some w') : Stepped w a w' := by
  cases a with
  | setInputEnabled enabled => cases hs; exact .setInputEnabled enabled
  | requestStop => cases hs; exact .requestStop
  | event k e =>
    obtain ⟨hp, hs⟩ := Option.ite_none_right_eq_some.mp hs
    split at hs
    · cases hs
    · next s hk =>
      obtain ⟨t, ht, rfl⟩ := Option.map_eq_some_iff.mp hs
      exact .event hp hk ht
  | oldEvent e =>
    obtain ⟨hp, hs⟩ := Option.ite_none_right_eq_some.mp hs
    split at hs
    · cases hs
    · next s hold =>
      obtain ⟨t, ht, rfl⟩ := Option.map_eq_some_iff.mp hs
      exact .oldEvent hp hold ht
  | make k i =>
    obtain ⟨hp, hs⟩ := Option.ite_none_right_eq_some.mp hs
    cases i with
    | none => cases hs; exact .makeFails hp
    | some i => cases hs; exact .make i hp
  | replace i =>
    obtain ⟨hp, hs⟩ := Option.ite_none_right_eq_some.mp hs
    cases i with
    | none => cases hs; exact .replaceFails hp
    | some i => cases hs; exact .replace i hp
  | call k a => exact stepped_call hs
  | returned => exact stepped_returned hs
  | prepareMIDI output forwarder =>
    obtain ⟨hp, hs⟩ := Option.ite_none_right_eq_some.mp hs
    cases hs
    exact .prepareMIDI output forwarder hp
  | booted now =>
    obtain ⟨hp, hs⟩ := Option.ite_none_right_eq_some.mp hs
    cases hs
    split_ifs with hloop
    · exact .booted now hp hloop
    · exact .noRunLoop now hp (Bool.eq_false_iff.mpr hloop)
  | enter =>
    obtain ⟨hp, hs⟩ := Option.ite_none_right_eq_some.mp hs
    cases hs
    split_ifs with hstop
    · exact .leave hp hstop
    · exact .enter hp (Bool.eq_false_iff.mpr hstop)
  | wake now =>
    obtain ⟨hp, hs⟩ := Option.ite_none_right_eq_some.mp hs
    cases hs
    exact .wake hp.1 hp.2
  | checkOutput currentDevice =>
    obtain ⟨hp, hs⟩ := Option.ite_none_right_eq_some.mp hs
    cases hs
    exact .checkOutput currentDevice hp
  | checkInput =>
    obtain ⟨hp, hs⟩ := Option.ite_none_right_eq_some.mp hs
    cases hs
    exact .checkInput hp
  | recoverMIDI forwarder =>
    obtain ⟨hp, hs⟩ := Option.ite_none_right_eq_some.mp hs
    cases hs
    exact .recoverMIDI forwarder hp
  | checkMIDI =>
    obtain ⟨hp, hs⟩ := Option.ite_none_right_eq_some.mp hs
    cases hs
    exact .checkMIDI hp
  | cleanUp => exact stepped_cleanUp hs

end Stepped

def initial (midiEnabled inputEnabled runLoop : Bool) : Worker S where
  parts _ := none
  old := none
  point := .make .output
  result := .noMemory
  stopResult _ := .success
  inputRunning := false
  inputEnabled := inputEnabled
  midiEnabled := midiEnabled
  stopRequested := false
  runLoop := runLoop
  now := 0
  nextOutputRetry := 0
  nextInputRetry := 0
  nextMIDIRecovery := 0
  published := []
  fault := false

end NumarkNS6.CoreAudio.TransportWorker
