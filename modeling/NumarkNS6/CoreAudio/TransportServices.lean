import NumarkNS6.AudioFeedback.FeedbackRuns
import NumarkNS6.AudioIn.AudioInputReader
import NumarkNS6.AudioOut.OutputDrain
import NumarkNS6.CoreAudio.TransportTeardown
import NumarkNS6.Midi.MIDIInputReader
import NumarkNS6.Usb.SlotReaderCalls

namespace NumarkNS6.CoreAudio.TransportWorker

open Foundation.Services Usb

/-- What reaches a component through the run loop: the stack completes the `k`-th
transfer, or the wait in `stop` ends by drain or timeout. -/
inductive StackEvent (α γ : Type)
  | complete (answers : α) (k : ℕ) (c : γ)
  | drained (answers : α)
  | timeout

/-- A `stop` inside a `start` that has failed does not turn the failure into a success. -/
def FailedStart (phase : Phase) : Prop :=
  ∀ abort start, phase = .stopping abort (some start) → start ≠ .success

theorem failedStart_ready : FailedStart .ready := by
  intro abort start h
  cases h

section Readers

variable {δ σ : Type} (K : Kind δ σ) (data : δ) (own : σ)

def readerService : Service IOReturn where
  State := System δ σ
  Init := Handles
  Answers := Answers
  Event := StackEvent Answers (UInt64 × Delivery)
  make handles := System.initial K handles data own
  loop answers := answers.runLoop
  start answers s := s.start K answers
  stop answers s := s.stop K answers none
  event s
    | .complete answers k (elapsed, d) => s.step K (.complete answers elapsed k d)
    | .drained answers => s.step K (.drained answers)
    | .timeout => s.step K .timeout
  waiting s := s.phase ≠ .ready
  result s := s.result
  running s := s.reader.running
  attached s := s.reader.session
  outstanding s := s.reader.inFlightCount ≠ 0

variable {K data own} {Ready : δ → Prop} {Stored : δ → Report → Delivery → Prop}
  {T : σ → List Delivery → Prop}

def ReaderInv (K : Kind δ σ) (Ready : δ → Prop) (Stored : δ → Report → Delivery → Prop)
    (T : σ → List Delivery → Prop) (s : System δ σ) : Prop :=
  (∃ order, System.Inv K Ready Stored T s order) ∧ FailedStart s.phase

theorem ReaderInv.detached {s : System δ σ} (h : ReaderInv K Ready Stored T s)
    (hs : s.reader.session = false) : s.reader.running = false ∧ s.reader.inFlightCount = 0 := by
  obtain ⟨⟨order, hinv⟩, -⟩ := h
  have horder : order = [] := by
    by_contra hne
    exact Bool.false_ne_true (hs.symm.trans (hinv.tracked.carried hne))
  subst horder
  refine ⟨?_, System.inFlightCount_eq_zero.mpr fun slot hslot ↦ (hinv.tracked.quiet.idle slot hslot).1⟩
  by_contra hr
  have hsession := (hinv.tracked.running (Bool.eq_true_of_not_eq_false hr)).1
  exact Bool.false_ne_true (hs.symm.trans hsession)

theorem finishStop_session (s : System δ σ) (answers : Answers) (result : IOReturn)
    (start : Option IOReturn) : (s.finishStop K answers result start).reader.session = false := by
  unfold System.finishStop
  dsimp only
  split_ifs <;> rfl

theorem stop_session (s : System δ σ) (answers : Answers)
    (h : (s.stop K answers none).phase = .ready) :
    (s.stop K answers none).reader.session = false := by
  unfold System.stop at h ⊢
  dsimp only at h ⊢
  split_ifs at h ⊢ with hs
  · exact (Bool.not_eq_true' _).mp hs
  · exact finishStop_session ..

theorem ReaderInv.step (L : System.Lawful K Ready Stored T) {s t : System δ σ}
    (h : ReaderInv K Ready Stored T s) {a : System.Action} (hs : s.step K a = some t)
    (hphase : FailedStart t.phase) : ReaderInv K Ready Stored T t := by
  obtain ⟨⟨order, hinv⟩, -⟩ := h
  exact ⟨hinv.step L hs, hphase⟩

theorem start_failedStart (s : System δ σ) (answers : Answers) :
    FailedStart (s.start K answers).phase := by
  intro abort start hp
  cases System.start_started (K := K) s answers with
  | failed hphase => rw [hphase] at hp; cases hp
  | waiting hphase hresult =>
    rw [hphase] at hp
    cases hp
    exact hresult
  | running hphase => rw [hphase] at hp; cases hp

theorem active_reader (s : System δ σ) : (readerService K data own).active s = false ↔
    s.reader.running = false ∧ s.reader.inFlightCount = 0 := by
  simp [Service.active, readerService]

theorem ready_of_waiting {s : System δ σ} (h : (readerService K data own).waiting s = false) :
    s.phase = .ready := by simpa [readerService] using h

theorem complete_outstanding {s t : System δ σ} {order : List ℕ}
    (h : System.Inv K Ready Stored T s order) {answers : Answers} {elapsed : UInt64} {k : ℕ}
    {d : Delivery} (hc : s.complete K answers elapsed k d = some t) :
    s.reader.inFlightCount ≠ 0 := by
  intro hzero
  obtain rfl := h.tracked.settled h.drained hzero
  unfold System.complete at hc
  cases hr : s.requests[k]? with
  | none => simp [hr] at hc
  | some r =>
    have hanswered := h.tracked.quiet.answered k r hr
    simp only [hr] at hc
    split_ifs at hc with hcond
    rw [Bool.and_eq_true, Option.isNone_iff_eq_none] at hcond
    rw [hcond.1] at hanswered
    cases hanswered

theorem stop_failedStart {s : System δ σ} {order : List ℕ}
    (h : System.Inv K Ready Stored T s order) (answers : Answers) :
    FailedStart (s.stop K answers none).phase := by
  obtain ⟨-, hstopped⟩ := System.stop_stopped (K := K) s answers none
    fun hr ↦ (h.tracked.running hr).1
  intro abort start hp
  cases hstopped with
  | returned hphase => rw [hphase] at hp; cases hp
  | waiting hphase => rw [hphase] at hp; cases hp

theorem reader_contract (L : System.Lawful K Ready Stored T) (hown : T own []) :
    Contract (readerService K data own) .success (ReaderInv K Ready Stored T) where
  make handles := by
    have hinv : ReaderInv K Ready Stored T (System.initial K handles data own) :=
      ⟨⟨[], System.initial_inv hown⟩, failedStart_ready⟩
    exact ⟨hinv, rfl, (active_reader _).mpr (hinv.detached rfl)⟩
  start answers h hw :=
    h.step L (a := .start answers) (if_pos (ready_of_waiting hw)) (start_failedStart _ answers)
  stop answers h hw :=
    h.step L (a := .stop answers) (if_pos (ready_of_waiting hw))
      (stop_failedStart h.1.choose_spec answers)
  event {s t e} h he := by
    cases e with
    | complete answers k c =>
      refine h.step L (a := .complete answers c.1 k c.2) he ?_
      rw [(System.complete_callback he).phase]
      exact h.2
    | drained answers =>
      refine h.step L (a := .drained answers) he ?_
      obtain ⟨abort, start, -, -, rfl⟩ := System.step_drained (K := K) he
      rw [(System.finishStop_returns s answers abort start).1]
      exact failedStart_ready
    | timeout =>
      refine h.step L (a := .timeout) he ?_
      obtain ⟨_, start, -, rfl⟩ := System.step_timeout (K := K) he
      exact failedStart_ready
  calm {s t e} h hw he := by
    have hready := ready_of_waiting hw
    obtain ⟨⟨order, hinv⟩, -⟩ := h
    cases e with
    | complete answers k c =>
      have hout := complete_outstanding hinv he
      have hphase := (System.complete_callback he).phase
      refine ⟨?_, ?_⟩
      · simp [readerService, hout]
      · simp [readerService, hphase, hready]
    | drained answers =>
      obtain ⟨_, _, hp, -⟩ := System.step_drained (K := K) he
      rw [hready] at hp
      cases hp
    | timeout =>
      obtain ⟨_, _, hp, -⟩ := System.step_timeout (K := K) he
      rw [hready] at hp
      cases hp
  stopped {s} answers h hw hret _ := by
    have hinv := h.step L (a := .stop answers) (if_pos (ready_of_waiting hw))
      (stop_failedStart h.1.choose_spec answers)
    exact (active_reader _).mpr (hinv.detached (stop_session s answers (ready_of_waiting hret)))
  returned {s t e} h hw he hret hres := by
    cases e with
    | complete answers k c =>
      have hphase := (System.complete_callback he).phase
      simp [readerService, hphase] at hw hret
      exact absurd hret hw
    | drained answers =>
      obtain ⟨abort, start, -, -, rfl⟩ := System.step_drained (K := K) he
      refine (active_reader _).mpr
        (ReaderInv.detached (h.step L (a := .drained answers) he ?_) (finishStop_session ..))
      rw [(System.finishStop_returns s answers abort start).1]
      exact failedStart_ready
    | timeout =>
      obtain ⟨abort, start, hp, rfl⟩ := System.step_timeout (K := K) he
      cases start with
      | none => cases hres
      | some e => exact absurd hres (h.2 abort e hp)
  unsuccessful {s} answers _ _ _ hres := by
    by_contra hloop
    have hnone : answers.runLoop = false := Bool.eq_false_iff.mpr hloop
    have hfail : (s.start K answers).result = .notReady := by
      unfold System.start
      split_ifs with _ hl
      · rfl
      · rfl
      · exact absurd (by rw [hnone]; rfl) hl
    rw [show (s.start K answers).result = .success from hres] at hfail
    cases hfail

theorem reader_settles :
    Settles (readerService K data own) .success (ReaderInv K Ready Stored T)
      fun s ↦ s.reader.session = false where
  asked loop := ⟨{ Answers.allSucceed with runLoop := loop }, rfl⟩
  first {s} answers h hw hout := by
    have hzero : s.reader.inFlightCount = 0 := by simpa [readerService] using hout
    have hready : (s.stop K answers none).phase = .ready := by
      unfold System.stop
      dsimp only
      split_ifs with _ hwait
      · rfl
      · exact absurd hzero hwait.1
      · exact (System.finishStop_returns ..).1
    exact ⟨by simp [readerService, hready], stop_session s answers hready⟩
  again {s} answers h hs := by
    have hstop : s.stop K answers none = s.ret .success := by simp [System.stop, hs]
    simp [readerService, hstop, System.ret]
  done h _ hs := by simp [readerService, (h.detached hs).2]

end Readers

section Feedback

open AudioFeedback AudioFeedback.AudioFeedbackReader

def feedbackService : Service IOReturn where
  State := AudioFeedbackReader.System
  Init := Handles
  Answers := AudioFeedbackReader.Answers
  Event := StackEvent AudioFeedbackReader.Answers Completion
  make := .initial
  loop answers := answers.runLoop
  start answers s := s.start answers
  stop answers s := s.stop answers none
  event s
    | .complete answers k c => s.step (.complete answers k c)
    | .drained answers => s.step (.drained answers)
    | .timeout => s.step .timeout
  waiting s := s.phase ≠ .ready
  result s := s.result
  running s := s.reader.running
  attached s := s.reader.session
  outstanding s := s.inFlightCount ≠ 0

def FeedbackInv (s : AudioFeedbackReader.System) : Prop :=
  AudioFeedbackReader.System.Inv s ∧ FailedStart s.phase

namespace FeedbackCalls

open AudioFeedbackReader.System

variable {s t : AudioFeedbackReader.System} {answers : AudioFeedbackReader.Answers}

theorem step_drained (hs : s.step (.drained answers) = some t) : ∃ abort start,
    s.phase = .stopping abort start ∧ s.inFlightCount = 0 ∧
      t = s.finishStop answers abort start := by
  cases AudioFeedbackReader.System.stepped hs with
  | drained _ hp hzero => exact ⟨_, _, hp, hzero, rfl⟩

theorem step_timeout (hs : s.step .timeout = some t) : ∃ abort start,
    s.phase = .stopping abort start ∧ t = s.ret (start.getD .timeout) := by
  cases AudioFeedbackReader.System.stepped hs with
  | timeout hp => exact ⟨_, _, hp, rfl⟩

theorem finishStop_phase (s : AudioFeedbackReader.System)
    (answers : AudioFeedbackReader.Answers) (abort : IOReturn) (start : Option IOReturn) :
    (s.finishStop answers abort start).phase = .ready := by
  unfold AudioFeedbackReader.System.finishStop
  dsimp only
  split_ifs <;> rfl

theorem stop_phase (s : AudioFeedbackReader.System) (answers : AudioFeedbackReader.Answers)
    (start : Option IOReturn) : (s.stop answers start).phase = .ready ∨
      ∃ abort, (s.stop answers start).phase = .stopping abort start := by
  unfold AudioFeedbackReader.System.stop
  dsimp only
  split_ifs
  · exact .inl rfl
  · exact .inr ⟨_, rfl⟩
  · exact .inl (finishStop_phase ..)

theorem submitAll_failedStart (s : AudioFeedbackReader.System)
    (answers : AudioFeedbackReader.Answers) (l : List (Fin slotCount)) :
    FailedStart (s.submitAll answers l).phase := by
  induction l generalizing s with
  | nil => exact failedStart_ready
  | cons i rest ih =>
    rw [AudioFeedbackReader.System.submitAll]
    split_ifs with hok
    · exact ih _
    · intro abort start hp
      rcases stop_phase (s.submit answers i).2.countRefusal answers (some (s.submit answers i).1)
        with h | ⟨abort', h⟩
      · rw [h] at hp
        cases hp
      · rw [h] at hp
        cases hp
        exact hok

theorem start_failedStart (s : AudioFeedbackReader.System) (answers : AudioFeedbackReader.Answers) :
    FailedStart (s.start answers).phase := by
  unfold AudioFeedbackReader.System.start
  dsimp only
  split_ifs
  · exact failedStart_ready
  · exact failedStart_ready
  · exact failedStart_ready
  · exact failedStart_ready
  · exact submitAll_failedStart _ answers _

theorem stop_failedStart (s : AudioFeedbackReader.System) (answers : AudioFeedbackReader.Answers) :
    FailedStart (s.stop answers none).phase := by
  intro abort start hp
  rcases stop_phase s answers none with h | ⟨abort', h⟩ <;> rw [h] at hp <;> cases hp

theorem submit_phase (s : AudioFeedbackReader.System) (answers : AudioFeedbackReader.Answers)
    (i : Fin slotCount) : (s.submit answers i).2.phase = s.phase := by
  unfold AudioFeedbackReader.System.submit
  dsimp only
  split_ifs <;> rfl

theorem complete_callback (h : Inv s) {k : ℕ} {c : Completion}
    (hc : s.complete answers k c = some t) : t.phase = s.phase ∧ s.inFlightCount ≠ 0 := by
  obtain ⟨i, -, -, hi, rfl⟩ := complete_cases h hc
  refine ⟨?_, fun hzero ↦ ?_⟩
  · split_ifs
    · rfl
    · unfold AudioFeedbackReader.System.resubmit
      dsimp only
      split_ifs
      · exact submit_phase ..
      · exact submit_phase ..
      · rfl
  · exact Bool.false_ne_true ((idle_of_count hzero i).symm.trans hi)

theorem detached (h : Inv s) (hs : s.reader.session = false ∨ s.reader.initialized = false) :
    s.reader.running = false ∧ s.inFlightCount = 0 := by
  refine ⟨?_, List.countP_eq_zero.mpr fun i _ ↦ by simp [h.idle hs i]⟩
  by_contra hr
  obtain ⟨hn, hsession, -⟩ := h.running (Bool.eq_true_of_not_eq_false hr)
  rcases hs with hs | hs
  · exact Bool.false_ne_true (hs.symm.trans hsession)
  · exact Bool.false_ne_true (hs.symm.trans hn)

theorem stop_detached (h : Inv s) (hp : (s.stop answers none).phase = .ready) :
    (s.stop answers none).reader.session = false ∨
      (s.stop answers none).reader.initialized = false := by
  obtain ⟨-, hstopped⟩ := h.stop answers none
  generalize s.stop answers none = u at hp hstopped
  cases hstopped with
  | nothing hnone => exact hnone.symm
  | closed hclosed => exact .inl hclosed.session
  | waiting => cases hp

end FeedbackCalls

open FeedbackCalls (complete_callback detached stop_detached step_drained step_timeout
  finishStop_phase)

theorem active_feedback (s : AudioFeedbackReader.System) : feedbackService.active s = false ↔
    s.reader.running = false ∧ s.inFlightCount = 0 := by
  simp [Service.active, feedbackService]

theorem feedback_ready {s : AudioFeedbackReader.System} (h : feedbackService.waiting s = false) :
    s.phase = .ready := by simpa [feedbackService] using h

theorem feedback_contract : Contract feedbackService .success FeedbackInv where
  make handles := ⟨⟨System.initial_inv handles, failedStart_ready⟩, rfl,
    (active_feedback _).mpr (detached (System.initial_inv handles) (.inl rfl))⟩
  start answers h hw := ⟨h.1.start (feedback_ready hw) answers, FeedbackCalls.start_failedStart _ answers⟩
  stop answers h _ := ⟨(h.1.stop answers none).1, FeedbackCalls.stop_failedStart _ answers⟩
  event {s t e} h he := by
    cases e with
    | complete answers k c =>
      refine ⟨h.1.complete he, ?_⟩
      rw [(complete_callback h.1 he).1]
      exact h.2
    | drained answers =>
      refine ⟨h.1.step (a := .drained answers) he, ?_⟩
      obtain ⟨abort, start, -, -, rfl⟩ := step_drained he
      rw [finishStop_phase s answers abort start]
      exact failedStart_ready
    | timeout =>
      refine ⟨h.1.step (a := .timeout) he, ?_⟩
      obtain ⟨abort, start, -, rfl⟩ := step_timeout he
      exact failedStart_ready
  calm {s t e} h hw he := by
    have hready := feedback_ready hw
    cases e with
    | complete answers k c =>
      obtain ⟨hphase, hout⟩ := complete_callback h.1 he
      refine ⟨?_, ?_⟩
      · simp [feedbackService, hout]
      · simp [feedbackService, hphase, hready]
    | drained answers =>
      obtain ⟨_, _, hp, -⟩ := step_drained he
      rw [hready] at hp
      cases hp
    | timeout =>
      obtain ⟨_, _, hp, -⟩ := step_timeout he
      rw [hready] at hp
      cases hp
  stopped {s} answers h _ hret _ := by
    have hinv := (h.1.stop answers none).1
    exact (active_feedback _).mpr (detached hinv (stop_detached h.1 (feedback_ready hret)))
  returned {s t e} h hw he hret hres := by
    cases e with
    | complete answers k c =>
      have hphase := (complete_callback h.1 he).1
      simp [feedbackService, hphase] at hw hret
      exact absurd hret hw
    | drained answers =>
      obtain ⟨abort, start, hp, hzero, rfl⟩ := step_drained he
      obtain ⟨hinv, hclosed⟩ := h.1.drained answers hp hzero
      exact (active_feedback _).mpr (detached hinv (.inl hclosed.session))
    | timeout =>
      obtain ⟨abort, start, hp, rfl⟩ := step_timeout he
      cases start with
      | none => cases hres
      | some e => exact absurd hres (h.2 abort e hp)
  unsuccessful {s} answers _ _ _ hres := by
    by_contra hloop
    have hnone : answers.runLoop = false := Bool.eq_false_iff.mpr hloop
    have hfail : (s.start answers).result = .notReady := by
      unfold AudioFeedbackReader.System.start
      dsimp only
      split_ifs with _ hl
      · rfl
      · rfl
      all_goals exact absurd (by rw [hnone]; rfl) hl
    rw [show (s.start answers).result = .success from hres] at hfail
    cases hfail

theorem feedback_settles : Settles feedbackService .success FeedbackInv
    fun s ↦ s.reader.session = false ∨ s.reader.initialized = false where
  asked loop := ⟨{ AudioFeedbackReader.Answers.allSucceed with runLoop := loop }, rfl⟩
  first {s} answers h hw hout := by
    have hzero : s.inFlightCount = 0 := by simpa [feedbackService] using hout
    have hready : (s.stop answers none).phase = .ready := by
      unfold AudioFeedbackReader.System.stop
      dsimp only
      split_ifs with _ hwait
      · rfl
      · exact absurd hzero hwait.1
      · exact finishStop_phase ..
    exact ⟨by simp [feedbackService, hready], stop_detached h.1 hready⟩
  again {s} answers h hs := by
    have hstop : s.stop answers none = s.ret .success := by
      rcases hs with hs | hs <;> simp [AudioFeedbackReader.System.stop, hs]
    simp [feedbackService, hstop, AudioFeedbackReader.System.ret]
  done h _ hs := by simp [feedbackService, (detached h.1 hs).2]

end Feedback

section Output

open AudioOut AudioOut.AudioOutWorker

/-- What the other users of ring and policy have made of them by the time a
worker is entered. -/
structure Supply where
  ring : AudioOutputRing ℚ
  policy : AudioPacketPolicy

def Supply.initial : Supply := ⟨⟨4, 2, List.replicate 8 0, 0, 0, 0⟩, .make 44100 8000⟩

def allSucceed : AudioOutWorker.Answers where
  runLoop := true
  createBuffer _ := .success
  acquireEvents := .success
  writePipe _ := .success
  abortPipe := .success
  releaseEvents := .success
  destroyBuffer _ := .success

def Supply.put (supply : Supply) (s : AudioOutWorker.System) : AudioOutWorker.System :=
  s.step (.supply supply.ring supply.policy)

def outputService : Service IOReturn where
  State := AudioOutWorker.System
  Init := Handles × Supply
  Answers := AudioOutWorker.Answers × Supply
  Event := StackEvent (AudioOutWorker.Answers × Supply) AudioOutWorker.Completion
  make i := .initial i.1 i.2.ring i.2.policy
  loop a := a.1.runLoop
  start a s := (a.2.put s).start a.1
  stop a s := s.stop a.1 none
  event s
    | .complete a k c =>
      if k < s.pending.length then some ((a.2.put s).complete a.1 k c) else none
    | .drained a =>
      if s.phase ≠ .ready ∧ s.worker.transferSlots.inFlight = 0 then some (s.step (.drained a.1))
      else none
    | .timeout =>
      if s.phase ≠ .ready ∧ s.worker.transferSlots.inFlight ≠ 0 then some (s.step .timeout)
      else none
  waiting s := s.phase ≠ .ready
  result s := s.result
  running s := s.worker.running
  attached s := s.worker.initialized
  outstanding s := s.worker.transferSlots.inFlight ≠ 0

def OutputInv (s : AudioOutWorker.System) : Prop :=
  AudioOutWorker.System.Inv s [] 0 ∧ FailedStart s.phase

namespace OutputCalls

open AudioOutWorker.System

variable {s t : AudioOutWorker.System} {answers : AudioOutWorker.Answers}

theorem stop_phase (s : AudioOutWorker.System) (answers : AudioOutWorker.Answers)
    (start : Option IOReturn) : (s.stop answers start).phase = .ready ∨
      ∃ abort, (s.stop answers start).phase = .stopping abort start := by
  unfold AudioOutWorker.System.stop
  dsimp only
  split_ifs
  · exact .inl rfl
  · exact .inr ⟨_, rfl⟩
  · exact .inl rfl

theorem submitAll_failedStart (s : AudioOutWorker.System)
    (answers : AudioOutWorker.Answers) (n : ℕ) :
    FailedStart (s.submitAll answers n).phase := by
  induction n generalizing s with
  | zero => exact failedStart_ready
  | succ n ih =>
    rw [AudioOutWorker.System.submitAll]
    split_ifs with hok
    · intro abort start hp
      rcases stop_phase (s.submitNext answers).2.countFailure answers (some (s.submitNext answers).1)
        with h | ⟨abort', h⟩
      · rw [h] at hp
        cases hp
      · rw [h] at hp
        cases hp
        exact hok
    · exact ih _

theorem start_failedStart (s : AudioOutWorker.System) (answers : AudioOutWorker.Answers) :
    FailedStart (s.start answers).phase := by
  unfold AudioOutWorker.System.start
  dsimp only
  split_ifs
  · exact failedStart_ready
  · exact failedStart_ready
  · exact failedStart_ready
  · exact failedStart_ready
  · exact submitAll_failedStart _ answers _

theorem stop_failedStart (s : AudioOutWorker.System) (answers : AudioOutWorker.Answers) :
    FailedStart (s.stop answers none).phase := by
  intro abort start hp
  rcases stop_phase s answers none with h | ⟨abort', h⟩ <;> rw [h] at hp <;> cases hp

theorem submitSlot_phase (s : AudioOutWorker.System) (answers : AudioOutWorker.Answers) (i : ℕ) :
    (s.submitSlot answers i).2.phase = s.phase := by
  unfold AudioOutWorker.System.submitSlot AudioOutWorker.System.fill
  dsimp only
  split
  · rfl
  · split_ifs <;> rfl

theorem complete_phase (s : AudioOutWorker.System) (answers : AudioOutWorker.Answers) (k : ℕ)
    (c : AudioOutWorker.Completion) : (s.complete answers k c).phase = s.phase := by
  have hnext (u : AudioOutWorker.System) : (u.submitNext answers).2.phase = u.phase := by
    unfold AudioOutWorker.System.submitNext
    split_ifs
    · rfl
    · split
      · next v h => exact (congrArg (fun r ↦ r.2.phase) h).symm
      · next i v h =>
        rw [submitSlot_phase]
        exact (congrArg (fun r ↦ r.2.phase) h).symm
  unfold AudioOutWorker.System.complete
  split
  · rfl
  · unfold AudioOutWorker.System.didComplete AudioOutWorker.System.resubmit
    dsimp only
    split_ifs
    · exact hnext _
    · exact hnext _
    · rfl
    · rfl

theorem detached (h : AudioOutWorker.System.Inv s [] 0) (hs : s.worker.initialized = false) :
    s.worker.running = false ∧ s.worker.transferSlots.inFlight = 0 := by
  refine ⟨?_, ?_⟩
  · by_contra hr
    exact Bool.false_ne_true (hs.symm.trans (h.running (Bool.eq_true_of_not_eq_false hr)).1)
  · rw [h.inFlight, (h.fresh hs).1]
    rfl

theorem inFlight_ne_zero (h : AudioOutWorker.System.Inv s [] 0) {k : ℕ}
    (hk : k < s.pending.length) : s.worker.transferSlots.inFlight ≠ 0 := by
  intro hzero
  rw [h.pending_nil hzero] at hk
  exact Nat.not_lt_zero k hk

theorem stop_inv (answers : AudioOutWorker.Answers) (h : AudioOutWorker.System.Inv s [] 0)
    (hp : s.phase = .ready) :
    AudioOutWorker.System.Inv (s.stop answers none) [] 0 := by
  have hstep := h.step (.stop answers)
  rwa [AudioOutWorker.System.step, if_pos hp] at hstep

theorem step_drained (hp : s.phase ≠ .ready) (hf : s.worker.transferSlots.inFlight = 0) :
    ∃ abort start, s.step (.drained answers) = s.finishStop answers abort start := by
  cases hphase : s.phase with
  | ready => exact absurd hphase hp
  | stopping abort start =>
    exact ⟨abort, start, by simp only [AudioOutWorker.System.step, hphase, if_pos hf]⟩

theorem step_timeout (hp : s.phase ≠ .ready) (hf : s.worker.transferSlots.inFlight ≠ 0) :
    ∃ abort start, s.phase = .stopping abort start ∧
      s.step .timeout = s.ret (start.getD .timeout) := by
  cases hphase : s.phase with
  | ready => exact absurd hphase hp
  | stopping abort start =>
    exact ⟨abort, start, rfl, by simp only [AudioOutWorker.System.step, hphase, if_pos hf]⟩

end OutputCalls

open OutputCalls (complete_phase inFlight_ne_zero)

theorem active_output (s : AudioOutWorker.System) : outputService.active s = false ↔
    s.worker.running = false ∧ s.worker.transferSlots.inFlight = 0 := by
  simp [Service.active, outputService]

theorem output_ready {s : AudioOutWorker.System} (h : outputService.waiting s = false) :
    s.phase = .ready := by simpa [outputService] using h

inductive OutputEvent (s t : AudioOutWorker.System) : Prop
  | callback (phase : t.phase = s.phase) (outstanding : s.worker.transferSlots.inFlight ≠ 0)
  | returned (waiting : s.phase ≠ .ready) (ready : t.phase = .ready)
      (idle : t.result = .success →
        t.worker.running = false ∧ t.worker.transferSlots.inFlight = 0)

theorem output_event {s t : AudioOutWorker.System} {e : outputService.Event}
    (h : OutputInv s) (he : outputService.event s e = some t) : OutputInv t ∧ OutputEvent s t := by
  obtain ⟨hinv, hfailed⟩ := h
  have hhalted (hp : s.phase ≠ .ready) : s.worker.running = false := by
    by_contra hr
    exact hp (hinv.running (Bool.eq_true_of_not_eq_false hr)).2.1
  cases e with
  | complete a k c =>
    simp only [outputService] at he
    split_ifs at he with hk
    cases he
    have hphase := complete_phase (a.2.put s) a.1 k c
    refine ⟨⟨(hinv.step _).complete k c, ?_⟩, .callback hphase (inFlight_ne_zero hinv hk)⟩
    rw [hphase]
    exact hfailed
  | drained a =>
    simp only [outputService] at he
    split_ifs at he with hguard
    cases he
    have hstep := hinv.step (.drained a.1)
    obtain ⟨abort, start, heq⟩ := OutputCalls.step_drained hguard.1 hguard.2
    rw [heq] at hstep ⊢
    obtain ⟨hrunning, hslots⟩ := System.finishStop_kept s a.1 abort start
    refine ⟨⟨hstep, failedStart_ready⟩, .returned hguard.1 rfl fun _ ↦ ⟨?_, ?_⟩⟩
    · exact hrunning.trans (hhalted hguard.1)
    · exact (congrArg (·.inFlight) hslots).trans hguard.2
  | timeout =>
    simp only [outputService] at he
    split_ifs at he with hguard
    cases he
    have hstep := hinv.step .timeout
    obtain ⟨abort, start, hp, heq⟩ := OutputCalls.step_timeout hguard.1 hguard.2
    rw [heq] at hstep ⊢
    refine ⟨⟨hstep, failedStart_ready⟩, .returned hguard.1 rfl fun hres ↦ ?_⟩
    cases start with
    | none => cases hres
    | some e => exact absurd hres (hfailed abort e hp)

theorem output_contract : Contract outputService .success OutputInv where
  make i := by
    have hinv := AudioOutWorker.System.inv_initial i.1 i.2.ring i.2.policy
    exact ⟨⟨hinv, failedStart_ready⟩, rfl, (active_output _).mpr (OutputCalls.detached hinv rfl)⟩
  start a h hw :=
    ⟨(h.1.step (.supply a.2.ring a.2.policy)).start (output_ready hw),
      OutputCalls.start_failedStart _ a.1⟩
  stop a h hw := ⟨OutputCalls.stop_inv a.1 h.1 (output_ready hw), OutputCalls.stop_failedStart _ a.1⟩
  event h he := (output_event h he).1
  calm {s t e} h hw he := by
    have hready := output_ready hw
    cases (output_event h he).2 with
    | callback hphase hout =>
      refine ⟨?_, ?_⟩
      · simp [outputService, hout]
      · simp [outputService, hphase, hready]
    | returned hwaiting => exact absurd hready hwaiting
  stopped {s} a h hw hret _ := by
    have hinv := OutputCalls.stop_inv a.1 h.1 (output_ready hw)
    rcases System.stop_drained h.1 (output_ready hret) with hinit | hdrained
    · exact (active_output _).mpr (OutputCalls.detached hinv hinit)
    · exact (active_output _).mpr ⟨hdrained.running, hdrained.inFlight⟩
  returned {s t e} h hw he hret hres := by
    cases (output_event h he).2 with
    | callback hphase =>
      simp [outputService, hphase] at hw hret
      exact absurd hret hw
    | returned _ _ hidle => exact (active_output _).mpr (hidle hres)
  unsuccessful {s} a _ _ _ hres := by
    by_contra hloop
    have hnone : a.1.runLoop = false := Bool.eq_false_iff.mpr hloop
    have hfail : ((a.2.put s).start a.1).result = .notReady := by
      unfold AudioOutWorker.System.start
      dsimp only
      split_ifs with _ hl
      · rfl
      · rfl
      all_goals exact absurd (by rw [hnone]; rfl) hl
    rw [show ((a.2.put s).start a.1).result = .success from hres] at hfail
    cases hfail

theorem output_settles : Settles outputService .success OutputInv
    fun s ↦ s.worker.initialized = false ∨ System.Drained s where
  asked loop := ⟨({ allSucceed with runLoop := loop }, .initial), rfl⟩
  first {s} a h hw hout := by
    have hzero : s.worker.transferSlots.inFlight = 0 := by simpa [outputService] using hout
    have hready : (s.stop a.1 none).phase = .ready := by
      unfold AudioOutWorker.System.stop
      dsimp only
      split_ifs with _ hwait
      · rfl
      · exact absurd hzero hwait.1
      · rfl
    exact ⟨by simp [outputService, hready], System.stop_drained h.1 hready⟩
  again {s} a h hs := by
    have hstop : (s.stop a.1 none).phase = .ready ∧ (s.stop a.1 none).result = .success := by
      rcases hs with hs | hs
      · simp [AudioOutWorker.System.stop, hs, AudioOutWorker.System.ret]
      · exact hs.stop h.1.opened
    simp [outputService, hstop]
  done h _ hs := by
    have hzero := hs.elim (fun hinit ↦ (OutputCalls.detached h.1 hinit).2) (·.inFlight)
    simp [outputService, hzero]

end Output

end NumarkNS6.CoreAudio.TransportWorker
