import NumarkNS6.AudioIn.AudioInputReader
import NumarkNS6.Usb.SlotReaderCalls

namespace NumarkNS6.AudioIn.AudioInputReader

open Foundation.Runs Foundation.SlotWindow Usb

def held (slots : List (Slot Buffer Report)) : ℕ := slots.countP (·.data.isSome)

structure Kept (s t : AudioInputReader) : Prop where
  resources : t.resources = s.resources
  session : t.reader.session = s.reader.session
  runLoop : t.reader.runLoop = s.reader.runLoop
  eventsAcquired : t.reader.eventsAcquired = s.reader.eventsAcquired
  buffers : t.reader.own.buffers = s.reader.own.buffers
  data : t.reader.slots.map (·.data.isSome) = s.reader.slots.map (·.data.isSome)

variable {s t : AudioInputReader} {answers : Answers}

theorem Kept.held_eq (h : Kept s t) : held t.reader.slots = held s.reader.slots := by
  have hcount := congrArg (List.countP id) h.data
  rwa [List.countP_map, List.countP_map] at hcount

theorem map_set_of_eq {slots : List (Slot Buffer Report)} {i : ℕ} {slot new : Slot Buffer Report}
    (hs : slots[i]? = some slot) (h : new.data.isSome = slot.data.isSome) :
    (slots.set i new).map (·.data.isSome) = slots.map (·.data.isSome) := by
  obtain ⟨hlt, rfl⟩ := List.getElem?_eq_some_iff.mp hs
  have hlt' : i < (slots.map (·.data.isSome)).length := by rwa [List.length_map]
  have hget : (slots.map (·.data.isSome))[i] = slots[i].data.isSome := List.getElem_map _
  rw [List.map_set, h, ← hget, List.set_getElem_self hlt']

theorem process_buffers (r : SlotReader Buffer InputState) (h : Handles) (clearStall : IOReturn)
    (slot : Slot Buffer Report) : (process r h clearStall slot).2.buffers = r.own.buffers := by
  unfold process
  simp only
  split <;> rfl

theorem kept_respects (answers : Answers) : System.Respects kind answers Kept where
  refl _ := ⟨rfl, rfl, rfl, rfl, rfl, rfl⟩
  trans h h' := ⟨h'.resources.trans h.resources, h'.session.trans h.session,
    h'.runLoop.trans h.runLoop, h'.eventsAcquired.trans h.eventsAcquired,
    h'.buffers.trans h.buffers, h'.data.trans h.data⟩
  issue hs := ⟨rfl, rfl, rfl, rfl, rfl, map_set_of_eq hs rfl⟩
  refuse hs := ⟨rfl, rfl, rfl, rfl, rfl, map_set_of_eq hs rfl⟩
  halt _ _ := ⟨rfl, rfl, rfl, rfl, rfl, rfl⟩
  consume hs := ⟨rfl, rfl, rfl, rfl, process_buffers .., map_set_of_eq hs rfl⟩
  answer _ _ _ _ := ⟨rfl, rfl, rfl, rfl, rfl, rfl⟩
  arrive _ _ hs := ⟨rfl, rfl, rfl, rfl, rfl, map_set_of_eq hs Option.isSome_map⟩

/-- The books of a reader: every successful acquisition is released or still
noted, every block is reachable from its slot, and so is the run-loop reference.
A reader without a session has nothing. -/
structure Balanced (s : AudioInputReader) : Prop where
  events : s.resources.acquired = s.resources.released + if s.reader.eventsAcquired then 1 else 0
  buffers : s.reader.own.buffers = held s.reader.slots
  references : s.resources.retained = if s.reader.runLoop then 1 else 0
  detached : s.reader.session = false →
    s.reader.eventsAcquired = false ∧ s.reader.runLoop = false ∧ held s.reader.slots = 0

theorem Kept.balanced (h : Kept s t) (hb : Balanced s) : Balanced t where
  events := by rw [h.resources, h.eventsAcquired]; exact hb.events
  buffers := by rw [h.buffers, h.held_eq]; exact hb.buffers
  references := by rw [h.resources, h.runLoop]; exact hb.references
  detached := by rw [h.session, h.eventsAcquired, h.runLoop, h.held_eq]; exact hb.detached

theorem held_release (slots : List (Slot Buffer Report)) (own : InputState) :
    held (releaseBuffers slots own).1 = 0 := by
  simp [held, releaseBuffers]

theorem held_retire (slots : List (Slot Buffer Report)) :
    held (slots.map Slot.retire) = held slots := by
  simp [held, List.countP_map, Function.comp_def, Slot.retire]

theorem Balanced.detach (h : Balanced s) (he : s.reader.eventsAcquired = false)
    (hd : held s.reader.slots = 0) (result : IOReturn) : Balanced (s.detach.ret result) where
  events := h.events
  buffers := h.buffers
  references := (congrArg (· - _) h.references).trans (Nat.sub_self _)
  detached _ := ⟨he, rfl, hd⟩

theorem Balanced.giveBack (h : Balanced s) (he : s.reader.eventsAcquired = false)
    (result : IOReturn) : Balanced ((System.releaseBuffers kind s).detach.ret result) := by
  have hnone : held (System.releaseBuffers kind s).reader.slots = 0 := held_release _ s.reader.own
  have hfreed : Balanced (System.releaseBuffers kind s) :=
    { h with
      buffers := by
        rw [hnone]
        exact (congrArg (· - _) h.buffers).trans (Nat.sub_self _)
      detached := fun hs ↦ ⟨he, (h.detached hs).2.1, hnone⟩ }
  exact hfreed.detach he hnone result

theorem Balanced.releaseEvents (h : Balanced s) (he : s.reader.eventsAcquired = true)
    (ha : answers.releaseEvents = .success) : Balanced (s.releaseEvents answers) where
  events := by
    simp only [System.releaseEvents, ha, if_true, Bool.false_eq_true, if_false, h.events, he]
  buffers := h.buffers
  references := h.references
  detached hs := absurd (he.symm.trans (h.detached hs).1) (by decide)

theorem Balanced.finishStop (h : Balanced s) (ha : answers.releaseEvents = .success)
    (result : IOReturn) (start : Option IOReturn) :
    Balanced (s.finishStop kind answers result start) := by
  have hidle : Balanced (s.setSlots (s.reader.slots.map Slot.retire)) :=
    { h with
      buffers := h.buffers.trans (held_retire _).symm
      detached := fun hs ↦ ⟨(h.detached hs).1, (h.detached hs).2.1,
        (held_retire _).trans (h.detached hs).2.2⟩ }
  rw [System.finishStop]
  split
  · next he => exact (hidle.releaseEvents he ha).giveBack rfl _
  · next he => exact hidle.giveBack (Bool.eq_false_iff.mpr he) _

theorem Balanced.stop (h : Balanced s) (ha : answers.releaseEvents = .success)
    (start : Option IOReturn) : Balanced (System.stop kind answers start s) := by
  simp only [System.stop]
  split_ifs
  · exact { h with }
  · exact { h with }
  · have hhalt : Balanced (s.setRunning false) := { h with }
    exact hhalt.finishStop ha _ _

theorem Balanced.submitAll (h : Balanced s) (ha : answers.releaseEvents = .success)
    (slots : List ℕ) : Balanced (s.submitAll kind answers slots) := by
  induction slots generalizing s with
  | nil => exact { h with }
  | cons i rest ih =>
    have hsub := ((kept_respects answers).submit s i).balanced h
    simp only [System.submitAll]
    split
    · exact ih hsub
    · refine Balanced.stop ?_ ha _
      exact { hsub with }

theorem allocate_held (malloc : ℕ → Bool) (i : ℕ) {slots : List (Slot Buffer Report)}
    (h : held slots = 0) : (allocate malloc i slots).1 = i + held (allocate malloc i slots).2.2 := by
  induction slots generalizing i with
  | nil => rfl
  | cons slot rest ih =>
    have hrest : held rest = 0 := by
      rw [held, List.countP_cons] at h
      exact Nat.eq_zero_of_add_eq_zero_right h
    rw [allocate]
    split
    · rw [held, List.countP_cons_of_pos rfl, ← held, ih (i + 1) hrest]
      omega
    · rw [held, List.countP_cons_of_neg (by simp), ← held, hrest]
      rfl

theorem Balanced.prepare (h : Balanced s) (hs : s.reader.session = false) (answers : Answers) :
    Balanced (s.attach.prepare kind answers).2 ∧
      ((s.attach.prepare kind answers).1 ≠ .success →
        held (s.attach.prepare kind answers).2.reader.slots = 0) := by
  obtain ⟨he, hl, hd⟩ := h.detached hs
  have hcount := allocate_held answers.malloc 0 hd
  have hbuffers := h.buffers
  have hrefs := h.references
  have hslots : (s.attach.prepare kind answers).2.reader.own.buffers =
        held (s.attach.prepare kind answers).2.reader.slots ∧
      ((s.attach.prepare kind answers).1 ≠ .success →
        held (s.attach.prepare kind answers).2.reader.slots = 0) := by
    simp only [System.prepare, System.attach, kind, AudioInputReader.prepare]
    split
    · refine ⟨?_, fun hne ↦ absurd rfl hne⟩
      simp only [hbuffers, hd, hcount, Nat.zero_add]
    · refine ⟨?_, fun _ ↦ held_release _ s.reader.own⟩
      rw [held_release]
      simp only [releaseBuffers, hbuffers, hd, hcount, Nat.zero_add]
      exact Nat.sub_self _
  refine ⟨⟨h.events, hslots.1, ?_, fun h ↦ absurd h.symm Bool.false_ne_true⟩, hslots.2⟩
  rw [hl] at hrefs
  exact congrArg (· + 1) hrefs

theorem Balanced.acquireEvents (h : Balanced s) (he : s.reader.eventsAcquired = false)
    (hs : s.reader.session = true) : Balanced s.acquireEvents where
  events := by
    have hevents := h.events
    rw [he] at hevents
    exact congrArg (· + 1) hevents
  buffers := h.buffers
  references := h.references
  detached hd := absurd (hs.symm.trans hd) (by decide)

theorem Balanced.launch (h : Balanced s) (hs : s.reader.session = false)
    (ha : answers.releaseEvents = .success) : Balanced (s.launch kind answers) := by
  have he : (s.attach.prepare kind answers).2.reader.eventsAcquired = false := (h.detached hs).1
  obtain ⟨hprep, hfail⟩ := h.prepare hs answers
  have hevents := hprep.acquireEvents he rfl
  simp only [System.launch]
  split_ifs with h₁ h₂ h₃
  · exact hprep.detach he (hfail h₁) _
  · exact hprep.giveBack he _
  · exact (hevents.releaseEvents rfl ha).giveBack rfl _
  · refine Balanced.submitAll ?_ ha _
    exact { hevents with }

def MayStart (s : AudioInputReader) : Prop :=
  s.reader.session = false ∨ s.reader.running = true ∨ s.reader.inFlightCount ≠ 0

theorem Balanced.start (h : Balanced s) (hs : MayStart s) (ha : answers.releaseEvents = .success) :
    Balanced (start answers s) := by
  simp only [AudioInputReader.start, System.start]
  split_ifs with hguard hloop
  · exact { h with }
  all_goals
    rw [not_or, not_or] at hguard
    have hd : s.reader.session = false :=
      hs.resolve_right (not_or.mpr ⟨hguard.1, hguard.2.1⟩)
  · exact { h with
      references := by
        have hrefs := h.references
        rwa [(h.detached hd).2.1] at hrefs
      detached := fun _ ↦ ⟨(h.detached hd).1, rfl, (h.detached hd).2.2⟩ }
  · exact h.launch hd ha

/-- The steps in question: events are released with success, and a start
respects a reader that still holds something. -/
def Proper (s : AudioInputReader) : System.Action → Prop
  | .start answers => answers.releaseEvents = .success ∧ MayStart s
  | .stop answers | .drained answers => answers.releaseEvents = .success
  | _ => True

instance (s : AudioInputReader) (a : System.Action) : Decidable (Proper s a) := by
  cases a <;> unfold Proper <;> try unfold MayStart
  all_goals infer_instance

def properStep (s : AudioInputReader) (a : System.Action) : Option AudioInputReader :=
  if Proper s a then step s a else none

theorem properStep_step {a : System.Action} (h : properStep s a = some t) :
    Proper s a ∧ step s a = some t := by
  rw [properStep] at h
  split_ifs at h with hp
  exact ⟨hp, h⟩

theorem Balanced.step (h : Balanced s) {a : System.Action} (ha : Proper s a)
    (hstep : step s a = some t) : Balanced t := by
  rw [AudioInputReader.step] at hstep
  cases a with
  | start answers =>
    simp only [System.step] at hstep
    split_ifs at hstep
    cases hstep
    exact h.start ha.2 ha.1
  | stop answers =>
    simp only [System.step] at hstep
    split_ifs at hstep
    cases hstep
    exact h.stop ha none
  | complete answers elapsed k d => exact ((kept_respects answers).complete hstep).balanced h
  | drained answers =>
    obtain ⟨abort, start, -, -, rfl⟩ := System.step_drained hstep
    exact h.finishStop ha abort start
  | timeout =>
    obtain ⟨_, _, _, rfl⟩ := System.step_timeout hstep
    exact { h with }
  | session handles =>
    simp only [System.step] at hstep
    split_ifs at hstep
    cases hstep
    exact { h with }

theorem initial_balanced (handles : Handles) : Balanced (initial handles) :=
  ⟨rfl, rfl, rfl, fun _ ↦ ⟨rfl, rfl, rfl⟩⟩

structure Free (s : AudioInputReader) : Prop where
  events : s.reader.eventsAcquired = false ∧ s.resources.acquired = s.resources.released
  buffers : s.reader.own.buffers = 0 ∧ held s.reader.slots = 0
  runLoop : s.reader.runLoop = false ∧ s.resources.retained = 0

theorem Balanced.free (h : Balanced s) (hs : s.reader.session = false) : Free s := by
  obtain ⟨he, hl, hd⟩ := h.detached hs
  have hevents := h.events
  have hrefs := h.references
  rw [he] at hevents
  rw [hl] at hrefs
  exact ⟨⟨he, hevents⟩, ⟨h.buffers.trans hd, hd⟩, hl, hrefs⟩

def StopReturns (s t : AudioInputReader) : System.Action → Prop
  | .stop _ => t.phase = .ready
  | .drained _ => ∃ abort, s.phase = .stopping abort none
  | .timeout => ∃ abort, s.phase = .stopping abort none
  | _ => False

theorem finishStop_session (s : AudioInputReader) (answers : Answers) (result : IOReturn)
    (start : Option IOReturn) : (s.finishStop kind answers result start).reader.session = false := by
  rw [System.finishStop]
  split <;> rfl

theorem stopReturns_session {a : System.Action} (hstep : step s a = some t) (ha : StopReturns s t a)
    (hok : t.result = .success) : t.reader.session = false := by
  rw [AudioInputReader.step] at hstep
  cases a with
  | stop answers =>
    simp only [System.step] at hstep
    split_ifs at hstep
    cases hstep
    simp only [StopReturns, System.stop] at ha ⊢
    split_ifs at ha ⊢ with hs
    · simpa [System.ret] using hs
    · exact finishStop_session ..
  | drained answers =>
    obtain ⟨abort, start, -, -, rfl⟩ := System.step_drained hstep
    exact finishStop_session ..
  | timeout =>
    obtain ⟨abort, start, hp, rfl⟩ := System.step_timeout hstep
    obtain ⟨abort', hp'⟩ := ha
    rw [hp] at hp'
    cases hp'
    cases hok
  | start | complete | session => exact ha.elim

/-- In a run in which `start` respects what the reader still holds, acquisitions
and releases balance in every state, and a `stop` that succeeds leaves nothing. -/
theorem balanced_of_run (handles : Handles) (as : List System.Action) (s : AudioInputReader)
    (h : Run properStep (initial handles) as s) :
    Balanced s ∧ s.reader.own.buffers ≤ slotCount ∧
      ∀ a t, properStep s a = some t → StopReturns s t a → t.result = .success → Free t := by
  have hbalanced : Balanced s := by
    refine h.invariant (initial_balanced handles) fun u a v hu hs ↦ ?_
    obtain ⟨hp, hstep⟩ := properStep_step hs
    exact hu.step hp hstep
  have hrun : Run step (initial handles) as s := h.mono fun u a v hs ↦ (properStep_step hs).2
  obtain ⟨order, hinv⟩ := System.run_inv lawful (by rfl) hrun
  refine ⟨hbalanced, ?_, ?_⟩
  · rw [hbalanced.buffers]
    exact List.countP_le_length.trans_eq hinv.tracked.length
  · intro a t hs hreturns hok
    obtain ⟨hp, hstep⟩ := properStep_step hs
    exact (hbalanced.step hp hstep).free (stopReturns_session hstep hreturns hok)

def secondRefused : Answers :=
  { Answers.allSucceed with readPipe := fun n ↦ if n = 1 then .noResources else .success }

/-- A start that fails while its stop times out, the read that completes later, and
then a stop before the next start. -/
theorem balanced_late_completion : ∃ s : AudioInputReader,
    Run properStep (initial ⟨true, 3, true⟩)
      [.start secondRefused, .timeout, .complete .allSucceed 10 0 ⟨.success, [1]⟩,
        .stop .allSucceed, .start .allSucceed] s ∧
      s.resources.acquired = 2 ∧ s.resources.released = 1 ∧ Balanced s :=
  have h : Run properStep (initial ⟨true, 3, true⟩)
      [.start secondRefused, .timeout, .complete .allSucceed 10 0 ⟨.success, [1]⟩,
        .stop .allSucceed, .start .allSucceed] _ := .of_foldlM rfl
  ⟨_, h, rfl, rfl, (balanced_of_run _ _ _ h).1⟩

/-- The same without the stop: the next start acquires, allocates and retains once
more what the reader still holds. -/
theorem late_completion_leaks : ∃ s : AudioInputReader,
    Run step (initial ⟨true, 3, true⟩)
      [.start secondRefused, .timeout, .complete .allSucceed 10 0 ⟨.success, [1]⟩,
        .start .allSucceed] s ∧
      s.resources.acquired = 2 ∧ s.resources.released = 0 ∧ s.reader.eventsAcquired = true ∧
      s.reader.own.buffers = 16 ∧ held s.reader.slots = 8 ∧ s.resources.retained = 2 ∧
      ¬ Balanced s :=
  have h : Run step (initial ⟨true, 3, true⟩)
      [.start secondRefused, .timeout, .complete .allSucceed 10 0 ⟨.success, [1]⟩,
        .start .allSucceed] _ := .of_foldlM rfl
  ⟨_, h, rfl, rfl, rfl, rfl, rfl, rfl, fun hb ↦ absurd hb.events (by decide)⟩

end NumarkNS6.AudioIn.AudioInputReader
