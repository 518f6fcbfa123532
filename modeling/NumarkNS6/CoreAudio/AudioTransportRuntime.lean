import NumarkNS6.AudioIn.InputFailures

namespace NumarkNS6.CoreAudio.AudioTransportRuntime

open AudioIn AudioIn.AudioInputReader Foundation.Runs Usb

/-- Where the worker thread is in the main loop of `workerMain`: before the test
of `stopRequested_`, in the run loop, in the recovery of the output, at the
check of the input, in a call of `start` or `stop` on the input reader that has
not returned, or in the recovery of MIDI. -/
inductive Point
  | head
  | runLoop
  | output
  | input
  | starting
  | stopping
  | midi
deriving DecidableEq

/-- The worker with what it shares with other threads. Times are in nanoseconds. -/
structure Worker where
  reader : AudioInputReader
  inputEnabled : Bool
  stopRequested : Bool
  inputRunning : Bool
  nextInputRetry : ℕ
  now : ℕ
  point : Point

namespace Worker

def second : ℕ := 1000000000

/-- The set-up before the main loop that succeeds: input is started if it is
wanted. MIDI is started last, and may run the run loop. -/
def boot (handles : Handles) (inputEnabled : Bool) (answers : Answers) (now : ℕ) : Option Worker :=
  if inputEnabled then
    let reader := AudioInputReader.start answers (AudioInputReader.initial handles)
    if reader.phase = .ready ∧ reader.result = .success then
      some ⟨reader, true, false, true, now, now, .midi⟩
    else none
  else some ⟨AudioInputReader.initial handles, false, false, false, now, now, .midi⟩

/-- Completions arrive in the run loop, which the recoveries of the output and of
MIDI and a waiting `stop` run as well. -/
def pumping (w : Worker) : Bool :=
  w.point = .runLoop || w.point = .output || w.point = .midi || w.reader.phase ≠ .ready

def checkInput (answers : Answers) (w : Worker) : Worker :=
  if w.inputEnabled && !w.inputRunning && w.now ≥ w.nextInputRetry then
    { w with reader := AudioInputReader.start answers w.reader, point := .starting }
  else if !w.inputEnabled && w.inputRunning then
    { w with reader := AudioInputReader.stop answers w.reader, point := .stopping }
  else { w with point := .midi }

def returned (w : Worker) : Option Worker :=
  let inputResult := w.reader.result
  match w.point with
  | .starting =>
    let inputRunning := decide (inputResult = .success)
    some { w with
      inputRunning := inputRunning
      nextInputRetry := if inputRunning then w.nextInputRetry else w.now + second
      point := .midi }
  | .stopping =>
    some { w with
      inputRunning := if inputResult = .success then false else w.inputRunning
      point := .midi }
  | _ => none

end Worker

inductive Action
  | setInputEnabled (enabled : Bool)
  | requestStop
  | complete (answers : Answers) (elapsed : UInt64) (k : ℕ) (d : Delivery)
  | enter
  | wake (now : ℕ)
  | recoverOutput
  | checkInput (answers : Answers)
  | drained (answers : Answers)
  | timeout
  | returned
  | recoverMIDI

def step (w : Worker) : Action → Option Worker
  | .setInputEnabled enabled => some { w with inputEnabled := enabled }
  | .requestStop => some { w with stopRequested := true }
  | .complete answers elapsed k d =>
    if w.pumping then
      (AudioInputReader.step w.reader (.complete answers elapsed k d)).map fun r ↦
        { w with reader := r }
    else none
  | .enter =>
    if w.point = .head ∧ w.stopRequested = false then some { w with point := .runLoop } else none
  | .wake now =>
    if w.point = .runLoop ∧ w.now ≤ now then some { w with now := now, point := .output } else none
  | .recoverOutput => if w.point = .output then some { w with point := .input } else none
  | .checkInput answers => if w.point = .input then some (w.checkInput answers) else none
  | .drained answers =>
    (AudioInputReader.step w.reader (.drained answers)).map fun r ↦ { w with reader := r }
  | .timeout => (AudioInputReader.step w.reader .timeout).map fun r ↦ { w with reader := r }
  | .returned => if w.reader.phase = .ready then w.returned else none
  | .recoverMIDI => if w.point = .midi then some { w with point := .head } else none

def Pending (r : AudioInputReader) : Point → Prop
  | .starting => r.phase = .ready ∧ (r.result = .success → r.reader.running = true) ∨
      ∃ abort e, r.phase = .stopping abort (some e) ∧ e ≠ .success
  | .stopping => r.phase = .ready ∧ r.result = .success ∨ r.phase = .stopping .success none
  | _ => r.phase = .ready

structure Armed (w : Worker) : Prop where
  reading : Reading w.reader
  calm : Calm w.reader
  pending : Pending w.reader w.point
  flag : w.point ≠ .stopping → w.inputRunning = true → w.reader.reader.running = true

/-- The steps after which the flag can still be trusted: completions that do not
make a running reader stop, and calls of `stop` that succeed. -/
def Sound (w : Worker) : Action → Prop
  | .complete answers _ _ d => w.reader.reader.running = true → Benign answers d.status
  | .checkInput answers => w.inputEnabled = false →
      answers.abortPipe = .success ∧ answers.releaseEvents = .success
  | .drained answers => w.point = .stopping → answers.releaseEvents = .success
  | .timeout => w.point ≠ .stopping
  | _ => True

theorem reading_step {r r' : AudioInputReader} {a : System.Action} (h : Reading r)
    (hs : AudioInputReader.step r a = some r') : Reading r' := by
  obtain ⟨order, hinv⟩ := h
  exact hinv.step lawful hs

section Steps

variable {w w' : Worker} {answers : Answers}

theorem Armed.complete (h : Armed w) {elapsed : UInt64} {k : ℕ} {d : Delivery}
    {r : AudioInputReader} (hb : w.reader.reader.running = true → Benign answers d.status)
    (hc : w.reader.complete kind answers elapsed k d = some r) : Armed { w with reader := r } := by
  obtain ⟨hphase, hresult, -⟩ := System.complete_callback hc
  have hrun (hr : w.reader.reader.running = true) : r.reader.running = true :=
    (complete_survives h.reading hr h.calm (hb hr) hc).1
  refine ⟨reading_step h.reading (a := .complete answers elapsed k d) hc,
    complete_calm h.reading h.calm hb hc, ?_, fun hp hf ↦ hrun (h.flag hp hf)⟩
  have hpending := h.pending
  cases hp : w.point <;> simp only [Pending, hp, hphase, hresult] at hpending ⊢
  case starting =>
    rcases hpending with ⟨hready, hok⟩ | hwait
    · exact .inl ⟨hready, hrun ∘ hok⟩
    · exact .inr hwait
  all_goals exact hpending

theorem Armed.wait (h : Armed w) {abort : IOReturn} {start : Option IOReturn}
    {r : AudioInputReader} {a : System.Action} (hs : AudioInputReader.step w.reader a = some r)
    (hphase : w.reader.phase = .stopping abort start) (hready : r.phase = .ready)
    (hrun : r.reader.running = w.reader.reader.running) (hcalm : Calm r)
    (hstart : ∀ e, start = some e → r.result = e)
    (hstop : w.point = .stopping → start = none → abort = .success → r.result = .success) :
    Armed { w with reader := r } := by
  refine ⟨reading_step h.reading hs, hcalm, ?_, fun hp hf ↦ hrun.trans (h.flag hp hf)⟩
  have hpending := h.pending
  cases hp : w.point <;> simp only [hp, Pending, hphase] at hpending
  case starting =>
    rcases hpending with ⟨hno, -⟩ | ⟨abort', e, he, hne⟩
    · cases hno
    · cases he
      exact .inl ⟨hready, fun hok ↦ absurd ((hstart e rfl).symm.trans hok) hne⟩
  case stopping =>
    rcases hpending with ⟨hno, -⟩ | he
    · cases hno
    · cases he
      exact .inl ⟨hready, hstop hp rfl rfl⟩
  all_goals cases hpending

theorem Armed.start (h : Armed w) (hp : w.point = .input) (hf : w.inputRunning = false)
    (answers : Answers) :
    Armed { w with reader := AudioInputReader.start answers w.reader, point := .starting } := by
  have hready : w.reader.phase = .ready := by
    have hpending := h.pending
    rwa [hp] at hpending
  have hreading : Reading (AudioInputReader.start answers w.reader) :=
    reading_step h.reading (a := .start answers) (if_pos hready)
  refine ⟨hreading, start_calm hreading h.calm, ?_, fun _ hr ↦ ?_⟩
  · cases System.start_started (K := kind) w.reader answers with
    | failed hphase hresult _ => exact .inl ⟨hphase, fun hok ↦ absurd hok hresult⟩
    | waiting hphase hresult _ => exact .inr ⟨_, _, hphase, hresult⟩
    | running hphase _ hrun _ => exact .inl ⟨hphase, fun _ ↦ hrun⟩
  · rw [hf] at hr
    cases hr

theorem Armed.stop (h : Armed w) (hp : w.point = .input) (habort : answers.abortPipe = .success)
    (hrelease : answers.releaseEvents = .success) :
    Armed { w with reader := AudioInputReader.stop answers w.reader, point := .stopping } := by
  have hready : w.reader.phase = .ready := by
    have hpending := h.pending
    rwa [hp] at hpending
  obtain ⟨order, hinv⟩ := h.reading
  obtain ⟨hidle, hstop⟩ := System.stop_stopped (K := kind) w.reader answers none
    fun hr ↦ (hinv.tracked.running hr).1
  refine ⟨reading_step h.reading (a := .stop answers) (if_pos hready), calm_of_idle hidle, ?_,
    fun hne ↦ absurd rfl hne⟩
  cases hstop with
  | returned hphase hresult hok => exact .inl ⟨hphase, hresult.trans (hok hrelease)⟩
  | waiting hphase => exact .inr (habort ▸ hphase)

theorem Armed.checkInput (h : Armed w) (hp : w.point = .input) (hs : Sound w (.checkInput answers)) :
    Armed (w.checkInput answers) := by
  unfold Worker.checkInput
  split_ifs with h₁ h₂
  · simp only [Bool.and_eq_true, Bool.not_eq_true'] at h₁
    exact h.start hp h₁.1.2 answers
  · simp only [Bool.and_eq_true, Bool.not_eq_true'] at h₂
    obtain ⟨habort, hrelease⟩ := hs h₂.1
    exact h.stop hp habort hrelease
  · have hpending := h.pending
    rw [hp] at hpending
    exact ⟨h.reading, h.calm, hpending, fun _ ↦ h.flag (by rw [hp]; decide)⟩

theorem Armed.returned (h : Armed w) (hready : w.reader.phase = .ready)
    (hs : w.returned = some w') : Armed w' := by
  have hpending := h.pending
  unfold Worker.returned at hs
  cases hp : w.point <;> simp only [hp] at hs hpending
  case starting =>
    cases hs
    refine ⟨h.reading, h.calm, hready, fun _ hr ↦ ?_⟩
    rcases hpending with ⟨-, hok⟩ | ⟨abort, e, he, -⟩
    · exact hok (of_decide_eq_true hr)
    · rw [hready] at he
      cases he
  case stopping =>
    cases hs
    refine ⟨h.reading, h.calm, hready, fun _ hr ↦ ?_⟩
    rcases hpending with ⟨-, hok⟩ | he
    · rw [if_pos hok] at hr
      cases hr
    · rw [hready] at he
      cases he
  all_goals cases hs

theorem Armed.move (h : Armed w) (hready : w.reader.phase = .ready) (hp : w.point ≠ .stopping)
    {p : Point} (hp' : p ≠ .starting ∧ p ≠ .stopping) {now : ℕ} :
    Armed { w with now := now, point := p } := by
  refine ⟨h.reading, h.calm, ?_, fun _ ↦ h.flag hp⟩
  cases p <;> first | exact hready | exact absurd rfl hp'.1 | exact absurd rfl hp'.2

theorem Armed.step (h : Armed w) {a : Action} (hsound : Sound w a)
    (hs : AudioTransportRuntime.step w a = some w') : Armed w' := by
  have hpending := h.pending
  cases a with
  | setInputEnabled enabled =>
    cases hs
    exact ⟨h.reading, h.calm, h.pending, h.flag⟩
  | requestStop =>
    cases hs
    exact ⟨h.reading, h.calm, h.pending, h.flag⟩
  | complete answers elapsed k d =>
    simp only [AudioTransportRuntime.step] at hs
    split_ifs at hs
    obtain ⟨r, hr, rfl⟩ := Option.map_eq_some_iff.1 hs
    exact h.complete hsound hr
  | enter =>
    simp only [AudioTransportRuntime.step] at hs
    split_ifs at hs with hp
    cases hs
    rw [hp.1] at hpending
    exact h.move hpending (by rw [hp.1]; decide) (by decide)
  | wake now =>
    simp only [AudioTransportRuntime.step] at hs
    split_ifs at hs with hp
    cases hs
    rw [hp.1] at hpending
    exact h.move hpending (by rw [hp.1]; decide) (by decide)
  | recoverOutput =>
    simp only [AudioTransportRuntime.step] at hs
    split_ifs at hs with hp
    cases hs
    rw [hp] at hpending
    exact h.move hpending (by rw [hp]; decide) (by decide)
  | checkInput answers =>
    simp only [AudioTransportRuntime.step] at hs
    split_ifs at hs with hp
    cases hs
    exact h.checkInput hp hsound
  | drained answers =>
    obtain ⟨r, hr, rfl⟩ := Option.map_eq_some_iff.1 hs
    obtain ⟨abort, start, hphase, -, rfl⟩ := System.step_drained hr
    obtain ⟨hready, hrun, e, hresult, hok⟩ :=
      System.finishStop_returns (K := kind) w.reader answers abort start
    refine h.wait hr hphase hready hrun (calm_of_idle (hrun.trans (h.reading.idle hphase))) ?_ ?_
    · rintro e' rfl
      exact hresult
    · rintro hp rfl habort
      exact hresult.trans (hok habort (hsound hp))
  | timeout =>
    obtain ⟨r, hr, rfl⟩ := Option.map_eq_some_iff.1 hs
    obtain ⟨_, start, hphase, rfl⟩ := System.step_timeout hr
    refine h.wait hr hphase rfl rfl h.calm ?_ fun hp ↦ absurd hp hsound
    rintro e rfl
    rfl
  | returned =>
    simp only [AudioTransportRuntime.step] at hs
    split_ifs at hs with hready
    exact h.returned hready hs
  | recoverMIDI =>
    simp only [AudioTransportRuntime.step] at hs
    split_ifs at hs with hp
    cases hs
    rw [hp] at hpending
    exact h.move hpending (by rw [hp]; decide) (by decide)

end Steps

theorem boot_armed {handles : Handles} {inputEnabled : Bool} {answers : Answers} {now : ℕ}
    {w : Worker} (h : Worker.boot handles inputEnabled answers now = some w) : Armed w := by
  have hinitial : Reading (AudioInputReader.initial handles) := ⟨[], System.initial_inv rfl⟩
  unfold Worker.boot at h
  simp only at h
  split_ifs at h with he hok
  · cases h
    have hreading : Reading (AudioInputReader.start answers (AudioInputReader.initial handles)) :=
      reading_step hinitial (a := .start answers) rfl
    refine ⟨hreading, start_calm hreading (calm_of_idle rfl), hok.1, fun _ _ ↦ ?_⟩
    cases System.start_started (K := kind) (AudioInputReader.initial handles) answers with
    | failed _ hresult _ => exact absurd hok.2 hresult
    | waiting hphase _ _ =>
      have hready := hok.1
      rw [AudioInputReader.start, hphase] at hready
      cases hready
    | running _ _ hrun _ => exact hrun
  · cases h
    exact ⟨hinitial, calm_of_idle rfl, rfl, fun _ hr ↦ by cases hr⟩

theorem armed_of_run {w₀ w : Worker} {as : List Action} (h₀ : Armed w₀) (h : Run step w₀ as w)
    (hsound : ∀ bs a cs u, as = bs ++ a :: cs → Run step w₀ bs u → Sound u a) : Armed w :=
  h.invariant_of h₀ hsound fun _ _ _ ha hP hs ↦ ha.step hP hs

/-- As long as no completion makes a running reader stop by itself and no call of
`stop` by the loop fails, the loop's flag can be trusted at its head, and input
that is wanted but not read is started again as soon as the retry is due. -/
theorem input_rearmed {handles : Handles} {inputEnabled : Bool} {answers : Answers} {now : ℕ}
    {w₀ w : Worker} {as : List Action} (h₀ : Worker.boot handles inputEnabled answers now = some w₀)
    (h : Run step w₀ as w)
    (hsound : ∀ bs a cs u, as = bs ++ a :: cs → Run step w₀ bs u → Sound u a) :
    (w.point = .head → w.inputRunning = true → w.reader.reader.running = true) ∧
      (w.point = .input → w.inputEnabled = true → w.reader.reader.running = false →
        w.nextInputRetry ≤ w.now → ∀ answers, step w (.checkInput answers) = some { w with
          reader := AudioInputReader.start answers w.reader, point := .starting }) := by
  have ha := armed_of_run (boot_armed h₀) h hsound
  refine ⟨fun hp ↦ ha.flag (by rw [hp]; decide), fun hp he hr hn answers ↦ ?_⟩
  have hf : w.inputRunning = false := by
    by_contra hf
    have hrun := ha.flag (by rw [hp]; decide) (Bool.eq_true_of_not_eq_false hf)
    rw [hr] at hrun
    cases hrun
  simp [step, hp, Worker.checkInput, he, hf, hn]

theorem input_rearmed_one_pass : ∃ w₀ w : Worker,
    Worker.boot ⟨true, 3, true⟩ true .allSucceed 0 = some w₀ ∧
      Run step w₀ [.recoverMIDI, .enter, .complete .allSucceed 10 0 ⟨.success, [1]⟩, .wake 7,
        .recoverOutput, .checkInput .allSucceed, .recoverMIDI] w ∧
      w.point = .head ∧ w.inputRunning = true ∧ w.reader.reader.running = true := by
  have hboot : Worker.boot ⟨true, 3, true⟩ true .allSucceed 0 = some _ := rfl
  have hrun : Run step ((Worker.boot ⟨true, 3, true⟩ true .allSucceed 0).get rfl)
      [.recoverMIDI, .enter, .complete .allSucceed 10 0 ⟨.success, [1]⟩, .wake 7,
      .recoverOutput, .checkInput .allSucceed, .recoverMIDI] _ := .of_foldlM rfl
  refine ⟨_, _, hboot, hrun, rfl, rfl, (input_rearmed hboot hrun ?_).1 rfl rfl⟩
  intro bs a cs u he _
  have hmem : a ∈ [Action.recoverMIDI, .enter, .complete .allSucceed 10 0 ⟨.success, [1]⟩, .wake 7,
      .recoverOutput, .checkInput .allSucceed, .recoverMIDI] := by simp [he]
  simp only [List.mem_cons, List.not_mem_nil, or_false] at hmem
  rcases hmem with rfl | rfl | rfl | rfl | rfl | rfl | rfl
  case inr.inr.inl => exact fun _ ↦ ⟨by decide, fun _ ↦ rfl, fun _ ↦ rfl⟩
  case inr.inr.inr.inr.inr.inl => exact fun _ ↦ ⟨rfl, rfl⟩
  all_goals trivial

/-- Input is wanted and believed to run, but nothing reads. -/
structure Dead (w : Worker) : Prop where
  wanted : w.inputEnabled = true
  flag : w.inputRunning = true
  idle : w.reader.reader.running = false
  point : w.point ≠ .starting ∧ w.point ≠ .stopping

theorem Dead.checkInput {w : Worker} (h : Dead w) (answers : Answers) :
    w.checkInput answers = { w with point := .midi } := by
  simp [Worker.checkInput, h.wanted, h.flag]

theorem Dead.read {w : Worker} (h : Dead w) {r : AudioInputReader}
    (hr : r.reader.running = true → w.reader.reader.running = true) : Dead { w with reader := r } := by
  refine ⟨h.wanted, h.flag, Bool.eq_false_iff.2 fun hrun ↦ ?_, h.point⟩
  have hidle := h.idle
  rw [hr hrun] at hidle
  cases hidle

theorem Dead.step {w w' : Worker} {a : Action} (h : Dead w) (ha : a ≠ .setInputEnabled false)
    (hs : AudioTransportRuntime.step w a = some w') : Dead w' := by
  cases a with
  | setInputEnabled enabled =>
    cases hs
    cases enabled with
    | false => exact absurd rfl ha
    | true => exact ⟨rfl, h.flag, h.idle, h.point⟩
  | requestStop =>
    cases hs
    exact ⟨h.wanted, h.flag, h.idle, h.point⟩
  | complete answers elapsed k d =>
    simp only [AudioTransportRuntime.step] at hs
    split_ifs at hs
    obtain ⟨r, hr, rfl⟩ := Option.map_eq_some_iff.1 hs
    exact h.read (System.complete_callback (K := kind) hr).running
  | drained answers =>
    obtain ⟨r, hr, rfl⟩ := Option.map_eq_some_iff.1 hs
    obtain ⟨_, _, _, -, rfl⟩ := System.step_drained hr
    exact h.read fun hrun ↦ (System.finishStop_returns _ _ _ _).2.1.symm.trans hrun
  | timeout =>
    obtain ⟨r, hr, rfl⟩ := Option.map_eq_some_iff.1 hs
    obtain ⟨_, _, _, rfl⟩ := System.step_timeout hr
    exact h.read id
  | returned =>
    simp only [AudioTransportRuntime.step] at hs
    split_ifs at hs
    unfold Worker.returned at hs
    cases hp : w.point <;> simp only [hp] at hs
    case starting => exact absurd hp h.point.1
    case stopping => exact absurd hp h.point.2
    all_goals cases hs
  | checkInput answers =>
    simp only [AudioTransportRuntime.step, h.checkInput] at hs
    split_ifs at hs
    cases hs
    exact ⟨h.wanted, h.flag, h.idle, by simp⟩
  | _ =>
    simp only [AudioTransportRuntime.step] at hs
    split_ifs at hs
    cases hs
    exact ⟨h.wanted, h.flag, h.idle, by simp⟩

/-- A reader that has stopped by itself stays stopped while input is wanted. -/
theorem dead_of_run {w w' : Worker} {as : List Action} (h : Dead w) (hr : Run step w as w')
    (hwanted : .setInputEnabled false ∉ as) : Dead w' :=
  hr.invariant_of h (fun _ a _ _ he _ ↦ show a ≠ .setInputEnabled false from fun ha ↦
    hwanted (by simp [he, ha])) fun _ _ _ hd ha hs ↦ hd.step ha hs

/-- The device is lost while input is wanted: the reader stops, the flag stays,
and a pass of the loop that comes long after the retry is due starts nothing. -/
theorem lost_device_not_rearmed : ∃ w₀ w : Worker,
    Worker.boot ⟨true, 3, true⟩ true .allSucceed 0 = some w₀ ∧
      Run step w₀ [.recoverMIDI, .enter, .complete .allSucceed 10 0 ⟨.noDevice, []⟩, .wake 7,
        .recoverOutput, .checkInput .allSucceed, .recoverMIDI, .enter, .wake 5000000000,
        .recoverOutput, .checkInput .allSucceed, .recoverMIDI] w ∧
      w.point = .head ∧ w.inputEnabled = true ∧ w.nextInputRetry ≤ w.now ∧
      w.inputRunning = true ∧ w.reader.reader.running = false ∧ w.reader.requests.length = 8 := by
  have hboot : Worker.boot ⟨true, 3, true⟩ true .allSucceed 0 = some _ := rfl
  exact ⟨_, _, hboot, .of_foldlM rfl, rfl, rfl, by decide, rfl, rfl, rfl⟩

end NumarkNS6.CoreAudio.AudioTransportRuntime
