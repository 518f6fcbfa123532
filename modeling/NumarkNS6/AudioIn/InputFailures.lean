import NumarkNS6.AudioIn.AudioInputReader
import NumarkNS6.Usb.SlotReaderCalls

namespace NumarkNS6.AudioIn.AudioInputReader

open Foundation.SlotWindow Usb

/-- None of the three failures that make a reader stop by itself: a lost device,
a stall that cannot be cleared, and a read that is refused. -/
structure Benign (answers : Answers) (status : IOReturn) : Prop where
  device : status ≠ .noDevice
  stall : ∀ n, answers.clearStallAt n = .success
  read : ∀ n, answers.readPipe n = .success

def Calm (s : AudioInputReader) : Prop :=
  s.reader.running = true → ∀ slot ∈ s.reader.slots, slot.completed = true →
    slot.report.status ≠ .noDevice

def Reading (s : AudioInputReader) : Prop := ∃ order, System.Inv kind Ready Stored Published s order

variable {s t : AudioInputReader} {order : List ℕ} {answers : Answers}

theorem process_survives {r : SlotReader Buffer InputState} {h : Handles} {clearStall : IOReturn}
    {slot : Slot Buffer Report} (hd : slot.report.status ≠ .noDevice) (hi : h.interface = true)
    (hc : clearStall = .success) : (process r h clearStall slot).1 = true := by
  by_cases hok : slot.report.status = .success
  · simp [process, hok]
  · simp [process, hok, hd, hi, hc]

theorem consume_survives (hr : s.reader.running = true) (hi : s.handles.interface = true)
    {slot : Slot Buffer Report} (hd : slot.report.status ≠ .noDevice)
    (hstall : ∀ n, answers.clearStallAt n = .success) (i : ℕ) :
    (s.consume kind answers i slot).reader.running = true := by
  simp only [System.consume, hr, Bool.true_and]
  exact process_survives hd hi (hstall _)

theorem resubmit_survives (hr : s.reader.running = true) (hs : s.reader.session = true)
    (hi : s.handles.interface = true) {i : ℕ} {slot : Slot Buffer Report}
    (hslot : s.reader.slots[i]? = some slot) (hf : slot.inFlight = false)
    (hc : slot.completed = false) (hread : ∀ n, answers.readPipe n = .success) :
    s.resubmit kind answers i = s.issue i slot := by
  simp [System.resubmit, System.submit, hr, hs, hi, hslot, hf, hc, hread]

section Drain

variable (hread : ∀ n, answers.readPipe n = .success)
  (hstall : ∀ n, answers.clearStallAt n = .success)
include hread hstall

theorem processNext_survives (h : System.Tracked kind Ready Stored Published s order)
    (hr : s.reader.running = true) (hcalm : Calm s) {i : ℕ} (hi : s.next = some i) :
    (s.processNext kind answers i).reader.running = true ∧
      Calm (s.processNext kind answers i) := by
  obtain ⟨hsess, -⟩ := h.running hr
  have hif := (h.attached hsess).1
  obtain ⟨rest, slot, -, hslot, hf, hconsumed⟩ := h.consume answers lawful hi
  have hlt := (List.getElem?_eq_some_iff.mp hslot).1
  have hc : slot.completed = true := by
    obtain ⟨hlt', hp, -⟩ := List.findIdx?_eq_some_iff_getElem.mp hi
    rw [List.getElem?_eq_getElem hlt'] at hslot
    cases hslot
    exact ((Bool.and_eq_true _ _).mp hp).1
  have hrun := consume_survives hr hif (hcalm hr slot (List.mem_of_getElem? hslot) hc) hstall i
  simp only [System.processNext, hslot]
  rw [resubmit_survives hrun hsess hif (List.getElem?_set_self hlt) hf rfl hread]
  refine ⟨hrun, fun _ ↦ System.forall_set (System.forall_set (hcalm hr) ?_) ?_⟩
  · intro hcompleted
    cases hcompleted
  · intro hcompleted
    cases hcompleted

theorem drainCompletions_survives (fuel : ℕ)
    (h : System.Tracked kind Ready Stored Published s order)
    (hfull : s.reader.running = true → order.length = slotCount)
    (hr : s.reader.running = true) (hcalm : Calm s) :
    (drainCompletions answers fuel s).reader.running = true ∧
      Calm (drainCompletions answers fuel s) := by
  induction fuel generalizing s order with
  | zero => exact ⟨hr, hcalm⟩
  | succ fuel ih =>
    cases hi : s.next with
    | none => simpa only [drainCompletions, System.drainCompletions, hi] using And.intro hr hcalm
    | some i =>
      obtain ⟨order', h', hfull'⟩ := h.processNext answers lawful hfull hi
      obtain ⟨hr', hcalm'⟩ := processNext_survives hread hstall h hr hcalm hi
      simp only [drainCompletions, System.drainCompletions, hi]
      exact ih h' hfull' hr' hcalm'

end Drain

theorem complete_survives (h : Reading s) (hr : s.reader.running = true) (hcalm : Calm s)
    {elapsed : UInt64} {k : ℕ} {d : Delivery} (hb : Benign answers d.status)
    (hc : s.complete kind answers elapsed k d = some t) :
    t.reader.running = true ∧ Calm t := by
  obtain ⟨order, hinv⟩ := h
  unfold System.complete at hc
  cases hreq : s.requests[k]? with
  | none => simp [hreq] at hc
  | some r =>
    simp only [hreq] at hc
    split_ifs at hc with hcond
    simp only [Bool.and_eq_true, Option.isNone_iff_eq_none, decide_eq_true_eq] at hcond
    obtain ⟨slot, hs, ht⟩ := hinv.tracked.deliver lawful hreq hcond.1 hcond.2 elapsed
    simp only [System.didComplete, System.answer, hs, Option.some.injEq] at hc
    subst hc
    refine drainCompletions_survives hb.read hb.stall _ ht hinv.full hr fun _ ↦ ?_
    exact System.forall_set (hcalm hr) fun _ ↦ hb.device

theorem calm_of_idle (h : s.reader.running = false) : Calm s := fun hr ↦ by
  rw [h] at hr
  cases hr

theorem Reading.idle (h : Reading s) {abort : IOReturn} {result : Option IOReturn}
    (hp : s.phase = .stopping abort result) : s.reader.running = false := by
  obtain ⟨order, hinv⟩ := h
  by_contra hr
  have hready := (hinv.tracked.running (Bool.eq_true_of_not_eq_false hr)).2
  rw [hp] at hready
  cases hready

theorem complete_calm (h : Reading s) (hcalm : Calm s) {elapsed : UInt64} {k : ℕ} {d : Delivery}
    (hb : s.reader.running = true → Benign answers d.status)
    (hc : s.complete kind answers elapsed k d = some t) : Calm t := by
  cases hr : s.reader.running with
  | true => exact (complete_survives h hr hcalm (hb hr) hc).2
  | false =>
    refine calm_of_idle (Bool.eq_false_iff.2 fun hrun ↦ ?_)
    rw [(System.complete_callback hc).running hrun] at hr
    cases hr

theorem start_calm (h : Reading (start answers s)) (hcalm : Calm s) : Calm (start answers s) := by
  obtain ⟨order, hinv⟩ := h
  cases System.start_started (K := kind) s answers with
  | failed _ _ hidle =>
    rcases hidle with hsame | hidle
    · intro hr
      rw [start, hsame] at hr ⊢
      exact hcalm hr
    · exact calm_of_idle hidle
  | waiting _ _ hidle => exact calm_of_idle hidle
  | running _ _ _ hfresh =>
    intro _ slot hslot hc
    obtain ⟨i, hi⟩ := List.mem_iff_getElem?.1 hslot
    have hlt := (List.getElem?_eq_some_iff.mp hi).1
    exact absurd (List.mem_range.2 (hinv.tracked.length ▸ hlt)) (hfresh i slot hi hc)

end NumarkNS6.AudioIn.AudioInputReader
