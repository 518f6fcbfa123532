import NumarkNS6.Usb.SlotReaderRuns

namespace NumarkNS6.Usb.System

open Foundation.SlotWindow

variable {δ σ : Type} {K : Kind δ σ} {s t : System δ σ} {answers : Answers}

/-- A preorder that contains every move a callback is made of. -/
structure Respects (K : Kind δ σ) (answers : Answers) (R : System δ σ → System δ σ → Prop) :
    Prop where
  refl (s : System δ σ) : R s s
  trans {s t u : System δ σ} : R s t → R t u → R s u
  issue {s : System δ σ} {i : ℕ} {slot : Slot δ Report} :
    s.reader.slots[i]? = some slot → R s (s.issue i slot)
  refuse {s : System δ σ} {i : ℕ} {slot : Slot δ Report} :
    s.reader.slots[i]? = some slot → R s (s.refuse i slot)
  halt (s : System δ σ) (result : IOReturn) :
    R s ((s.setOwn (K.submitFailed result s.reader.own)).setRunning false)
  consume {s : System δ σ} {i : ℕ} {slot : Slot δ Report} :
    s.reader.slots[i]? = some slot → R s (s.consume K answers i slot)
  answer (s : System δ σ) (k : ℕ) (r : Request Delivery) (d : Delivery) : R s (s.answer k r d)
  arrive {s : System δ σ} {i : ℕ} {slot : Slot δ Report} (elapsed : UInt64) (d : Delivery) :
    s.reader.slots[i]? = some slot → R s (s.arrive K elapsed i slot d)

namespace Respects

variable {R : System δ σ → System δ σ → Prop}

theorem submit (hR : Respects K answers R) (s : System δ σ) (i : ℕ) : R s (s.submit answers i).2 := by
  unfold System.submit
  cases hs : s.reader.slots[i]? with
  | none => exact hR.refl s
  | some slot =>
    simp only
    split_ifs
    · exact hR.refl s
    · exact hR.refl s
    · exact hR.issue hs
    · exact hR.refuse hs

theorem resubmit (hR : Respects K answers R) (s : System δ σ) (i : ℕ) :
    R s (s.resubmit K answers i) := by
  unfold System.resubmit
  simp only
  split_ifs
  · exact hR.submit s i
  · exact hR.trans (hR.submit s i) (hR.halt _ _)
  · exact hR.refl s

theorem processNext (hR : Respects K answers R) (s : System δ σ) (i : ℕ) :
    R s (s.processNext K answers i) := by
  unfold System.processNext
  cases hs : s.reader.slots[i]? with
  | none => exact hR.refl s
  | some slot => exact hR.trans (hR.consume hs) (hR.resubmit _ i)

theorem drainCompletions (hR : Respects K answers R) (fuel : ℕ) (s : System δ σ) :
    R s (s.drainCompletions K answers fuel) := by
  induction fuel generalizing s with
  | zero => exact hR.refl s
  | succ fuel ih =>
    cases hi : s.next with
    | none => simpa only [System.drainCompletions, hi] using hR.refl s
    | some i =>
      simp only [System.drainCompletions, hi]
      exact hR.trans (hR.processNext s i) (ih _)

theorem complete (hR : Respects K answers R) {elapsed : UInt64} {k : ℕ} {d : Delivery}
    (h : s.complete K answers elapsed k d = some t) : R s t := by
  unfold System.complete at h
  cases hr : s.requests[k]? with
  | none => simp [hr] at h
  | some r =>
    simp only [hr] at h
    split_ifs at h
    cases h
    refine hR.trans (hR.answer s k r d) ?_
    unfold System.didComplete
    split
    · exact hR.refl _
    · next slot hs => exact hR.trans (hR.arrive elapsed d hs) (hR.drainCompletions _ _)

end Respects

structure Callback (s t : System δ σ) : Prop where
  phase : t.phase = s.phase
  result : t.result = s.result
  running : t.reader.running = true → s.reader.running = true

theorem callback_respects : Respects K answers (Callback (δ := δ) (σ := σ)) where
  refl _ := ⟨rfl, rfl, id⟩
  trans h h' := ⟨h'.phase.trans h.phase, h'.result.trans h.result, h.running ∘ h'.running⟩
  issue _ := ⟨rfl, rfl, id⟩
  refuse _ := ⟨rfl, rfl, id⟩
  halt _ _ := ⟨rfl, rfl, fun hr ↦ absurd hr Bool.false_ne_true⟩
  consume _ := ⟨rfl, rfl, fun hr ↦ ((Bool.and_eq_true _ _).mp hr).1⟩
  answer _ _ _ _ := ⟨rfl, rfl, id⟩
  arrive _ _ _ := ⟨rfl, rfl, id⟩

theorem complete_callback {elapsed : UInt64} {k : ℕ} {d : Delivery}
    (h : s.complete K answers elapsed k d = some t) : Callback s t := callback_respects.complete h

theorem finishStop_returns (s : System δ σ) (answers : Answers) (result : IOReturn)
    (start : Option IOReturn) : (s.finishStop K answers result start).phase = .ready ∧
      (s.finishStop K answers result start).reader.running = s.reader.running ∧
      ∃ r, (s.finishStop K answers result start).result = start.getD r ∧
        (result = .success → answers.releaseEvents = .success → r = .success) := by
  unfold System.finishStop
  simp only
  split_ifs
  · exact ⟨rfl, rfl, _, rfl, by rintro rfl h; rw [IOReturn.firstFailure, if_pos rfl, h]⟩
  · exact ⟨rfl, rfl, _, rfl, fun h _ ↦ h⟩

inductive Stopped (answers : Answers) (start : Option IOReturn) (t : System δ σ) : Prop
  | returned {r : IOReturn} (phase : t.phase = .ready) (result : t.result = start.getD r)
      (success : answers.releaseEvents = .success → r = .success)
  | waiting (phase : t.phase = .stopping answers.abortPipe start)

theorem stop_stopped (s : System δ σ) (answers : Answers) (start : Option IOReturn)
    (hs : s.reader.running = true → s.reader.session = true) :
    (s.stop K answers start).reader.running = false ∧
      Stopped answers start (s.stop K answers start) := by
  unfold System.stop
  split_ifs with hsess hwait
  · refine ⟨?_, .returned rfl rfl fun _ ↦ rfl⟩
    by_contra hr
    simp [hs (Bool.eq_true_of_not_eq_false hr)] at hsess
  · exact ⟨rfl, .waiting rfl⟩
  · obtain ⟨hphase, hr, r, hresult, hok⟩ :=
      finishStop_returns (K := K) (s.setRunning false) answers .success start
    exact ⟨hr, .returned hphase hresult (hok rfl)⟩

/-- How a call of `start` ends or waits. A reader that runs afterwards runs as
before, or has just submitted every slot in `submitted`. -/
inductive Started (submitted : List ℕ) (s t : System δ σ) : Prop
  | failed (phase : t.phase = .ready) (result : t.result ≠ .success)
      (idle : t.reader = s.reader ∨ t.reader.running = false)
  | waiting {abort r : IOReturn} (phase : t.phase = .stopping abort (some r)) (result : r ≠ .success)
      (idle : t.reader.running = false)
  | running (phase : t.phase = .ready) (result : t.result = .success)
      (running : t.reader.running = true)
      (fresh : ∀ (i : ℕ) (slot : Slot δ Report), t.reader.slots[i]? = some slot →
        slot.completed = true → i ∉ submitted)

theorem submit_success {i : ℕ} (h : (s.submit answers i).1 = .success) :
    ∃ slot, s.reader.slots[i]? = some slot ∧ slot.completed = false ∧
      (s.submit answers i).2 = s.issue i slot := by
  unfold System.submit at h ⊢
  cases hs : s.reader.slots[i]? with
  | none => simp [hs] at h
  | some slot =>
    simp only [hs] at h ⊢
    split_ifs at h ⊢ with hguard hif hok
    · simp only [Bool.or_eq_true, not_or, Bool.not_eq_true] at hguard
      exact ⟨slot, rfl, hguard.2, rfl⟩
    · exact absurd h hok

theorem submit_session (answers : Answers) (s : System δ σ) (i : ℕ) :
    (s.submit answers i).2.reader.session = s.reader.session := by
  unfold System.submit
  cases s.reader.slots[i]? with
  | none => rfl
  | some slot =>
    simp only
    split_ifs <;> rfl

theorem submitAll_started (s₀ : System δ σ) (rest submitted : List ℕ) (s : System δ σ)
    (hr : s.reader.running = true) (hs : s.reader.session = true)
    (hfresh : ∀ (i : ℕ) (slot : Slot δ Report), s.reader.slots[i]? = some slot →
      slot.completed = true → i ∉ submitted) :
    Started (submitted ++ rest) s₀ (s.submitAll K answers rest) := by
  induction rest generalizing s submitted with
  | nil =>
    rw [List.append_nil]
    exact .running rfl rfl hr hfresh
  | cons i rest ih =>
    simp only [submitAll]
    by_cases hok : (s.submit answers i).1 = .success
    · rw [if_pos hok, List.append_cons]
      obtain ⟨slot, hslot, hc, he⟩ := submit_success hok
      rw [he]
      refine ih (submitted ++ [i]) (s.issue i slot) hr hs fun j slot' hj hc' ↦ ?_
      have hlt := (List.getElem?_eq_some_iff.mp hslot).1
      rcases eq_or_ne i j with rfl | hne
      · rw [issue, List.getElem?_set_self hlt] at hj
        cases hj
        rw [Slot.issue, hc] at hc'
        cases hc'
      · rw [issue, List.getElem?_set_ne hne] at hj
        rw [List.mem_append, List.mem_singleton, not_or]
        exact ⟨hfresh j slot' hj hc', hne.symm⟩
    · rw [if_neg hok]
      obtain ⟨hidle, hstop⟩ := stop_stopped (K := K)
        ((s.submit answers i).2.setOwn (K.submitFailed (s.submit answers i).1 _)) answers
        (some (s.submit answers i).1) fun _ ↦ (submit_session answers s i).trans hs
      cases hstop with
      | returned hphase hresult _ => exact .failed hphase (hresult ▸ hok) (.inr hidle)
      | waiting hphase => exact .waiting hphase hok hidle

theorem start_started (s : System δ σ) (answers : Answers) :
    Started (List.range K.slotCount) s (s.start K answers) := by
  unfold System.start
  split_ifs with hguard hloop
  · exact .failed rfl (by simp [System.ret]) (.inl rfl)
  all_goals
    simp only [not_or, Bool.not_eq_true, Bool.not_eq_true', Bool.not_eq_false] at hguard
    have hr : s.reader.running = false := hguard.1
  · exact .failed rfl (by simp [System.ret]) (.inr hr)
  · unfold System.launch
    simp only
    split_ifs with h₁ h₂ h₃
    · exact .failed rfl h₁ (.inr hr)
    · exact .failed rfl h₂ (.inr hr)
    · exact .failed rfl h₃ (.inr hr)
    · exact submitAll_started s _ [] _ rfl rfl (by simp)

structure SameSession (s t : System δ σ) : Prop where
  base : t.base = s.base
  processed : t.processed = s.processed
  requests : t.requests = s.requests

theorem finishStop_sameSession (s : System δ σ) (answers : Answers) (result : IOReturn)
    (start : Option IOReturn) : SameSession s (s.finishStop K answers result start) := by
  unfold System.finishStop
  simp only
  split_ifs
  · exact ⟨rfl, rfl, rfl⟩
  · exact ⟨rfl, rfl, rfl⟩

theorem stop_sameSession (s : System δ σ) (answers : Answers) (start : Option IOReturn) :
    SameSession s (s.stop K answers start) := by
  unfold System.stop
  simp only
  split_ifs
  · exact ⟨rfl, rfl, rfl⟩
  · exact ⟨rfl, rfl, rfl⟩
  · obtain ⟨hbase, hprocessed, hrequests⟩ :=
      finishStop_sameSession (K := K) (s.setRunning false) answers .success start
    exact ⟨hbase, hprocessed, hrequests⟩

theorem submit_mark (answers : Answers) (s : System δ σ) (i : ℕ) :
    (s.submit answers i).2.base = s.base ∧ (s.submit answers i).2.processed = s.processed := by
  unfold System.submit
  cases s.reader.slots[i]? with
  | none => exact ⟨rfl, rfl⟩
  | some slot =>
    simp only
    split_ifs
    all_goals exact ⟨rfl, rfl⟩

theorem submitAll_mark (answers : Answers) (rest : List ℕ) (s : System δ σ) :
    (s.submitAll K answers rest).base = s.base ∧
      (s.submitAll K answers rest).processed = s.processed := by
  induction rest generalizing s with
  | nil => exact ⟨rfl, rfl⟩
  | cons i rest ih =>
    obtain ⟨hbase, hprocessed⟩ := submit_mark answers s i
    simp only [submitAll]
    split_ifs with hok
    · obtain ⟨hb, hp⟩ := ih (s.submit answers i).2
      exact ⟨hb.trans hbase, hp.trans hprocessed⟩
    · obtain ⟨hb, hp, -⟩ := stop_sameSession (K := K)
        ((s.submit answers i).2.setOwn (K.submitFailed (s.submit answers i).1 _)) answers
        (some (s.submit answers i).1)
      exact ⟨hb.trans hbase, hp.trans hprocessed⟩

theorem launch_mark (s : System δ σ) (answers : Answers) :
    (s.launch K answers).base = s.requests.length ∧ (s.launch K answers).processed = 0 := by
  unfold System.launch
  simp only
  split_ifs
  · exact ⟨rfl, rfl⟩
  · exact ⟨rfl, rfl⟩
  · exact ⟨rfl, rfl⟩
  · exact submitAll_mark answers _ _

/-- Every step but a callback stays in the session or begins one with nothing processed. -/
theorem step_session {a : Action} (h : s.step K a = some t)
    (ha : ∀ answers elapsed k d, a ≠ .complete answers elapsed k d) :
    SameSession s t ∨ t.base = s.requests.length ∧ t.processed = 0 := by
  cases a with
  | start answers =>
    simp only [System.step] at h
    split_ifs at h
    cases h
    unfold System.start
    split_ifs
    · exact .inl ⟨rfl, rfl, rfl⟩
    · exact .inl ⟨rfl, rfl, rfl⟩
    · exact .inr (launch_mark s answers)
  | stop answers =>
    simp only [System.step] at h
    split_ifs at h
    cases h
    exact .inl (stop_sameSession s answers none)
  | complete answers elapsed k d => exact absurd rfl (ha answers elapsed k d)
  | drained answers =>
    obtain ⟨abort, start, -, -, rfl⟩ := step_drained h
    exact .inl (finishStop_sameSession s answers abort start)
  | timeout =>
    obtain ⟨_, _, _, rfl⟩ := step_timeout h
    exact .inl ⟨rfl, rfl, rfl⟩
  | session handles =>
    simp only [System.step] at h
    split_ifs at h
    cases h
    exact .inl ⟨rfl, rfl, rfl⟩

end NumarkNS6.Usb.System
