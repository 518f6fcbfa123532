import NumarkNS6.Foundation.Runs
import NumarkNS6.Usb.SlotReader

namespace NumarkNS6.Usb.System

open Foundation.Runs Foundation.SlotWindow

variable {δ σ : Type}

def flags (s : Slot δ Report) : Bool × Bool := (s.inFlight, s.completed)

/-- What a reader has to guarantee of its own part: `Ready` buffers take a read,
`Stored` ties a completed slot to the delivery it holds, and `T` ties its own
members to the deliveries processed since the last start. -/
structure Lawful (K : Kind δ σ) (Ready : δ → Prop) (Stored : δ → Report → Delivery → Prop)
    (T : σ → List Delivery → Prop) : Prop where
  slots : K.slotCount < 2 ^ 64
  store : ∀ b d, Ready b → d.payload.length ≤ K.transferBytes → Ready (K.store b d.payload) ∧
    Stored (K.store b d.payload) ⟨d.status, UInt32.ofNat d.payload.length⟩ d
  arrive : ∀ elapsed own ds, T own ds → T (K.arrive elapsed own) ds
  process : ∀ r h clear slot ds d, r.session = true → r.client = true → h.interface = true →
    T r.own ds → Stored slot.data slot.report d → slot.sequence = UInt64.ofNat ds.length →
    T (K.process r h clear slot).2 (ds ++ [d])
  submitFailed : ∀ result own ds, T own ds → T (K.submitFailed result own) ds
  prepare : ∀ malloc slots own, ((K.prepare malloc slots own).2.1.map flags = slots.map flags) ∧
    T (K.prepare malloc slots own).2.2 [] ∧ ((K.prepare malloc slots own).1 = .success →
      ∀ slot ∈ (K.prepare malloc slots own).2.1, Ready slot.data)
  release : ∀ slots own, ((K.release slots own).1.map flags = slots.map flags) ∧
    ∀ ds, T own ds → T (K.release slots own).2 ds

section

variable (K : Kind δ σ) (Ready : δ → Prop) (Stored : δ → Report → Delivery → Prop)
  (T : σ → List Delivery → Prop)

structure Tracked (s : System δ σ) (order : List ℕ) : Prop where
  window : Window Stored s.reader.slots s.since s.processed order
  length : s.reader.slots.length = K.slotCount
  submit : s.reader.nextSubmitSequence = UInt64.ofNat s.since.length
  process : s.reader.nextProcessSequence = UInt64.ofNat s.processed
  base : s.base ≤ s.requests.length
  earlier : ∀ (n : ℕ) (r : Request Delivery), n < s.base → s.requests[n]? = some r →
    r.answer.isSome
  own : T s.reader.own s.deliveries
  attached : s.reader.session = true → s.handles.interface = true ∧ s.reader.client = true ∧
    ∀ slot ∈ s.reader.slots, Ready slot.data
  carried : order ≠ [] → s.reader.session = true
  running : s.reader.running = true → s.reader.session = true ∧ s.phase = .ready

/-- Between calls and callbacks no completed block is left that could be
processed, and a running reader has every slot outstanding. -/
structure Inv (s : System δ σ) (order : List ℕ) : Prop where
  tracked : Tracked K Ready Stored T s order
  full : s.reader.running = true → order.length = K.slotCount
  drained : s.next = none

end

variable {K : Kind δ σ} {Ready : δ → Prop} {Stored : δ → Report → Delivery → Prop}
  {T : σ → List Delivery → Prop} {s : System δ σ} {order : List ℕ}

theorem idle_of_flags {slots slots' : List (Slot δ Report)} (h : slots'.map flags = slots.map flags)
    (hi : ∀ s ∈ slots, s.inFlight = false ∧ s.completed = false) :
    ∀ s ∈ slots', s.inFlight = false ∧ s.completed = false := by
  intro s hs
  have hmem : flags s ∈ slots.map flags := h ▸ List.mem_map_of_mem hs
  obtain ⟨t, ht, he⟩ := List.mem_map.mp hmem
  obtain ⟨h₁, h₂⟩ := Prod.mk.inj he
  obtain ⟨h₃, h₄⟩ := hi t ht
  exact ⟨h₁ ▸ h₃, h₂ ▸ h₄⟩

theorem flags_length {slots slots' : List (Slot δ Report)}
    (h : slots'.map flags = slots.map flags) : slots'.length = slots.length := by
  simpa using congrArg List.length h

theorem forall_set {P : Slot δ Report → Prop} {slots : List (Slot δ Report)}
    (h : ∀ s ∈ slots, P s) {i : ℕ} {slot : Slot δ Report} (hs : P slot) :
    ∀ s ∈ slots.set i slot, P s := by
  intro t ht
  rcases List.mem_or_eq_of_mem_set ht with ht | rfl
  · exact h t ht
  · exact hs

theorem inFlightCount_eq_zero : s.reader.inFlightCount = 0 ↔
    ∀ slot ∈ s.reader.slots, slot.inFlight = false := by
  simp [SlotReader.inFlightCount, List.countP_eq_zero]

theorem Tracked.settled (h : Tracked K Ready Stored T s order) (hd : s.next = none)
    (hf : s.reader.inFlightCount = 0) : order = [] := by
  rw [next, h.process] at hd
  exact h.window.eq_nil hd (inFlightCount_eq_zero.mp hf)

section Loop

variable (answers : Answers)

theorem since_issue (h : s.base ≤ s.requests.length) (i : ℕ) (slot : Slot δ Report) :
    (s.issue i slot).since = s.since ++ [⟨i, s.processed, none⟩] := by
  simp only [since, issue, List.drop_append_of_le_length h]

theorem Tracked.issue (h : Tracked K Ready Stored T s order) {i : ℕ} {slot : Slot δ Report}
    (hs : s.reader.slots[i]? = some slot) (hf : slot.inFlight = false)
    (hc : slot.completed = false) (hsess : s.reader.session = true) :
    Tracked K Ready Stored T (s.issue i slot) (order ++ [i]) := by
  have hsince := since_issue h.base i slot
  have hw := h.window.issue hs hf hc
  rw [← h.submit, ← hsince] at hw
  refine ⟨hw, ?_, ?_, h.process, ?_, ?_, ?_, ?_, fun _ ↦ hsess, h.running⟩
  · rw [← h.length]; exact List.length_set
  · rw [hsince, List.length_append]
    exact (congrArg (· + 1) h.submit).trans (ofNat_succ _)
  · simp only [System.issue, List.length_append]
    have := h.base
    omega
  · intro n r hn hr
    rw [System.issue, List.getElem?_append_left (Nat.lt_of_lt_of_le hn h.base)] at hr
    exact h.earlier n r hn hr
  · have hle : s.processed ≤ s.since.length := by have := h.window.length; omega
    rw [deliveries, hsince]
    exact (answers_append hle _).symm ▸ h.own
  · intro _
    obtain ⟨h₁, h₂, h₃⟩ := h.attached hsess
    exact ⟨h₁, h₂, forall_set h₃ (h₃ slot (List.mem_of_getElem? hs))⟩

theorem Tracked.refuse (h : Tracked K Ready Stored T s order) {i : ℕ} {slot : Slot δ Report}
    (hs : s.reader.slots[i]? = some slot) (hf : slot.inFlight = false)
    (hc : slot.completed = false) : Tracked K Ready Stored T (s.refuse i slot) order := by
  have hw := h.window.set_idle (h.window.idle_not_mem hs hf hc)
    (show (slot.refuse s.reader.nextSubmitSequence).inFlight = false from rfl) hc
  refine ⟨hw, ?_, h.submit, h.process, h.base, h.earlier, h.own, ?_, h.carried, h.running⟩
  · rw [← h.length]; exact List.length_set
  · intro hsess
    obtain ⟨h₁, h₂, h₃⟩ := h.attached hsess
    exact ⟨h₁, h₂, forall_set h₃ (h₃ slot (List.mem_of_getElem? hs))⟩

theorem Tracked.submit_cases (h : Tracked K Ready Stored T s order) {i : ℕ}
    {slot : Slot δ Report} (hs : s.reader.slots[i]? = some slot) (hf : slot.inFlight = false)
    (hc : slot.completed = false) (hr : s.reader.running = true) :
    (s.submit answers i).1 = .success ∧ (s.submit answers i).2 = s.issue i slot ∨
      (s.submit answers i).1 ≠ .success ∧ (s.submit answers i).2 = s.refuse i slot := by
  have hsess := (h.running hr).1
  have hif := (h.attached hsess).1
  simp only [System.submit, hs, hr, hsess, hf, hc, hif, Bool.not_true, Bool.or_false,
    Bool.false_eq_true, if_false]
  split_ifs with hres
  · exact .inl ⟨hres, rfl⟩
  · exact .inr ⟨hres, rfl⟩

theorem Tracked.setOwn (h : Tracked K Ready Stored T s order) {own : σ} (hT : T own s.deliveries) :
    Tracked K Ready Stored T (s.setOwn own) order :=
  ⟨h.window, h.length, h.submit, h.process, h.base, h.earlier, hT, h.attached, h.carried, h.running⟩

theorem Tracked.halt (h : Tracked K Ready Stored T s order) :
    Tracked K Ready Stored T (s.setRunning false) order :=
  ⟨h.window, h.length, h.submit, h.process, h.base, h.earlier, h.own, h.attached, h.carried,
    fun hr ↦ by cases hr⟩

theorem Tracked.consume (L : Lawful K Ready Stored T) (h : Tracked K Ready Stored T s order)
    {i : ℕ} (hi : s.next = some i) :
    ∃ rest slot, order = i :: rest ∧ s.reader.slots[i]? = some slot ∧ slot.inFlight = false ∧
      Tracked K Ready Stored T (s.consume K answers i slot) rest := by
  rw [next, h.process] at hi
  obtain ⟨rest, slot, r, d, rfl, hs, hseq, hf, hr, hd, hst⟩ :=
    h.window.next_some (h.length ▸ L.slots) hi
  refine ⟨rest, slot, rfl, hs, hf, h.window.retire hs hf, ?_, h.submit, ?_, h.base, h.earlier,
    ?_, ?_, fun _ ↦ h.carried (by simp), ?_⟩
  · rw [← h.length]; exact List.length_set
  · exact (congrArg (· + 1) h.process).trans (ofNat_succ _)
  · have hsess := h.carried (by simp)
    obtain ⟨h₁, h₂, -⟩ := h.attached hsess
    have hlen := h.window.answers_length
    have hnew : (s.consume K answers i slot).deliveries = s.deliveries ++ [d] := answers_succ hr hd
    rw [hnew]
    exact L.process _ _ _ _ _ _ hsess h₂ h₁ h.own hst (hseq.trans (by rw [deliveries, hlen]))
  · intro hsess
    obtain ⟨h₁, h₂, h₃⟩ := h.attached hsess
    exact ⟨h₁, h₂, forall_set h₃ (h₃ slot (List.mem_of_getElem? hs))⟩
  · intro hr
    exact h.running ((Bool.and_eq_true _ _).mp hr).1

theorem Tracked.resubmit (L : Lawful K Ready Stored T) (h : Tracked K Ready Stored T s order)
    {i : ℕ} {slot : Slot δ Report} (hs : s.reader.slots[i]? = some slot)
    (hf : slot.inFlight = false) (hc : slot.completed = false)
    (hfull : s.reader.running = true → order.length + 1 = K.slotCount) :
    ∃ order', Tracked K Ready Stored T (s.resubmit K answers i) order' ∧
      ((s.resubmit K answers i).reader.running = true → order'.length = K.slotCount) := by
  cases hr : s.reader.running with
  | false => exact ⟨order, by simpa [System.resubmit, hr] using h, by simp [System.resubmit, hr]⟩
  | true =>
    rcases h.submit_cases answers hs hf hc hr with ⟨hok, ht⟩ | ⟨hno, ht⟩
    · simp only [System.resubmit, hr, if_true, hok, ht]
      refine ⟨_, h.issue hs hf hc (h.running hr).1, fun _ ↦ ?_⟩
      rw [List.length_append, List.length_singleton]
      exact hfull hr
    · simp only [System.resubmit, hr, if_true, if_neg hno, ht]
      exact ⟨order, ((h.refuse hs hf hc).setOwn (L.submitFailed _ _ _ h.own)).halt,
        fun hr ↦ by cases hr⟩

theorem Tracked.processNext (L : Lawful K Ready Stored T) (h : Tracked K Ready Stored T s order)
    (hfull : s.reader.running = true → order.length = K.slotCount) {i : ℕ} (hi : s.next = some i) :
    ∃ order', Tracked K Ready Stored T (s.processNext K answers i) order' ∧
      ((s.processNext K answers i).reader.running = true → order'.length = K.slotCount) := by
  obtain ⟨rest, slot, rfl, hs, hf, hconsumed⟩ := h.consume answers L hi
  have hlt := (List.getElem?_eq_some_iff.mp hs).1
  simp only [System.processNext, hs]
  refine hconsumed.resubmit answers L (List.getElem?_set_self hlt) hf rfl ?_
  intro hr
  simpa using hfull ((Bool.and_eq_true _ _).mp hr).1

theorem drainCompletions_tracked (L : Lawful K Ready Stored T) (fuel : ℕ)
    (h : Tracked K Ready Stored T s order)
    (hfull : s.reader.running = true → order.length = K.slotCount) :
    ∃ order', Tracked K Ready Stored T (s.drainCompletions K answers fuel) order' ∧
      ((s.drainCompletions K answers fuel).reader.running = true → order'.length = K.slotCount) := by
  induction fuel generalizing s order with
  | zero => exact ⟨order, h, hfull⟩
  | succ fuel ih =>
    cases hi : s.next with
    | none => exact ⟨order, by simpa [drainCompletions, hi] using h, by
        simpa [drainCompletions, hi] using hfull⟩
    | some i =>
      obtain ⟨order', h', hfull'⟩ := h.processNext answers L hfull hi
      simp only [drainCompletions, hi]
      exact ih h' hfull'

def completedCount (s : System δ σ) : ℕ := s.reader.slots.countP (·.completed)

theorem submit_completedCount (s : System δ σ) (i : ℕ) :
    (s.submit answers i).2.completedCount = s.completedCount := by
  unfold submit
  cases hs : s.reader.slots[i]? with
  | none => rfl
  | some slot =>
    obtain ⟨hlt, hget⟩ := List.getElem?_eq_some_iff.mp hs
    simp only
    split_ifs with h₁ h₂ h₃
    · rfl
    · rfl
    all_goals
      simp only [Bool.or_eq_true, not_or, Bool.not_eq_true] at h₁
      simp [completedCount, issue, refuse, Slot.issue, Slot.refuse, List.countP_set, hlt, hget, h₁.2]

theorem resubmit_completedCount (K : Kind δ σ) (s : System δ σ) (i : ℕ) :
    (s.resubmit K answers i).completedCount = s.completedCount := by
  have h := submit_completedCount answers s i
  rw [System.resubmit]
  split_ifs with hr
  · simp only
    split_ifs
    · exact h
    · exact h
  · rfl

theorem processNext_completedCount (K : Kind δ σ) {i : ℕ} (hi : s.next = some i) :
    (s.processNext K answers i).completedCount + 1 = s.completedCount := by
  obtain ⟨hlt, hp, -⟩ := List.findIdx?_eq_some_iff_getElem.mp hi
  have hc : s.reader.slots[i].completed = true := ((Bool.and_eq_true _ _).mp hp).1
  have hpos : 0 < s.completedCount := List.countP_pos_iff.mpr ⟨_, List.getElem_mem hlt, hc⟩
  simp only [processNext, List.getElem?_eq_getElem hlt, resubmit_completedCount]
  simp only [completedCount, consume, List.countP_set hlt, hc, Slot.retire] at hpos ⊢
  simp only [if_true, Bool.false_eq_true, if_false]
  omega

/-- The loop of `drainCompletions` ends by its own test, after at most one pass
for every completed slot. -/
theorem drainCompletions_ends (K : Kind δ σ) (fuel : ℕ) (h : s.completedCount ≤ fuel) :
    (s.drainCompletions K answers fuel).next = none := by
  induction fuel generalizing s with
  | zero =>
    rw [Nat.le_zero, completedCount, List.countP_eq_zero] at h
    refine List.findIdx?_eq_none_iff.mpr fun slot hs ↦ ?_
    simp [h slot hs]
  | succ fuel ih =>
    cases hi : s.next with
    | none => simp only [drainCompletions, hi]
    | some i =>
      have hless := processNext_completedCount answers K hi
      simp only [drainCompletions, hi]
      exact ih (by omega)

theorem drainCompletions_idle (K : Kind δ σ) (h : s.next = none) (fuel : ℕ) :
    s.drainCompletions K answers fuel = s := by
  cases fuel with
  | zero => rfl
  | succ fuel => simp only [drainCompletions, h]

theorem drainCompletions_add (K : Kind δ σ) (fuel k : ℕ) : s.drainCompletions K answers (fuel + k) =
    (s.drainCompletions K answers fuel).drainCompletions K answers k := by
  induction fuel generalizing s with
  | zero => rw [Nat.zero_add, drainCompletions]
  | succ fuel ih =>
    cases hi : s.next with
    | none => simp only [drainCompletions_idle answers K hi]
    | some i =>
      rw [Nat.add_right_comm]
      simp only [drainCompletions, hi]
      exact ih

theorem drainCompletions_stable (K : Kind δ σ) (fuel : ℕ) (h : s.completedCount ≤ fuel) (k : ℕ) :
    s.drainCompletions K answers (fuel + k) = s.drainCompletions K answers fuel := by
  rw [drainCompletions_add, drainCompletions_idle answers K (drainCompletions_ends answers K fuel h)]

theorem Tracked.deliver (L : Lawful K Ready Stored T) (h : Tracked K Ready Stored T s order)
    {k : ℕ} {r : Request Delivery} {d : Delivery} (hr : s.requests[k]? = some r)
    (hp : r.answer = none) (hd : d.payload.length ≤ K.transferBytes) (elapsed : UInt64) :
    ∃ slot, s.reader.slots[r.slot]? = some slot ∧
      Tracked K Ready Stored T ((s.answer k r d).arrive K elapsed r.slot slot d) order := by
  have hk : s.base ≤ k := by
    by_contra hlt
    have := h.earlier k r (by omega) hr
    simp [hp] at this
  obtain ⟨n, rfl⟩ := Nat.exists_eq_add_of_le hk
  have hn : s.since[n]? = some r := by rw [since, List.getElem?_drop]; exact hr
  have hsince : (s.requests.set (s.base + n) { r with answer := some d }).drop s.base =
      s.since.set n { r with answer := some d } := by
    rw [List.drop_set, if_neg (by omega), Nat.add_sub_cancel_left, since]
  obtain ⟨j, slot, rfl, hj, hs, -, -⟩ := h.window.pending hn hp
  have hsess := h.carried (List.ne_nil_of_mem (List.mem_of_getElem? hj))
  obtain ⟨h₁, h₂, h₃⟩ := h.attached hsess
  obtain ⟨hready, hstored⟩ := L.store _ d (h₃ slot (List.mem_of_getElem? hs)) hd
  have hw := h.window.finish hn hp hs hstored
  rw [← hsince] at hw
  refine ⟨slot, hs, hw, ?_, ?_, h.process, ?_, ?_, ?_, fun _ ↦ ⟨h₁, h₂, forall_set h₃ hready⟩,
    fun _ ↦ hsess, h.running⟩
  · rw [← h.length]; exact List.length_set
  · have hlen := congrArg List.length hsince
    rw [List.length_set] at hlen
    exact h.submit.trans (congrArg UInt64.ofNat hlen.symm)
  · exact h.base.trans_eq List.length_set.symm
  · intro m q hm hq
    have hne : s.base + (s.processed + j) ≠ m := Nat.ne_of_gt (Nat.lt_of_lt_of_le hm hk)
    exact h.earlier m q hm ((List.getElem?_set_ne hne).symm.trans hq)
  · have hsame : answers (s.since.set (s.processed + j) { r with answer := some d }) s.processed =
        s.deliveries := answers_set (by omega) _
    have hT := L.arrive elapsed _ _ h.own
    rw [← hsame, ← hsince] at hT
    exact hT

theorem Inv.complete (L : Lawful K Ready Stored T) (h : Inv K Ready Stored T s order)
    {elapsed : UInt64} {k : ℕ} {d : Delivery} {s' : System δ σ}
    (hc : s.complete K answers elapsed k d = some s') : ∃ order', Inv K Ready Stored T s' order' := by
  unfold System.complete at hc
  cases hr : s.requests[k]? with
  | none => simp [hr] at hc
  | some r =>
    simp only [hr] at hc
    split_ifs at hc with hcond
    simp only [Bool.and_eq_true, Option.isNone_iff_eq_none, decide_eq_true_eq] at hcond
    obtain ⟨slot, hs, ht⟩ := h.tracked.deliver L hr hcond.1 hcond.2 elapsed
    simp only [didComplete, System.answer, hs, Option.some.injEq] at hc
    subst hc
    obtain ⟨order', ht', hfull'⟩ := drainCompletions_tracked answers L s.reader.slots.length ht h.full
    refine ⟨order', ht', hfull', drainCompletions_ends answers K _ ?_⟩
    exact List.countP_le_length.trans_eq List.length_set

end Loop

section Calls

variable (K Stored T) in
structure Quiet (s : System δ σ) : Prop where
  window : Window Stored s.reader.slots s.since s.processed []
  length : s.reader.slots.length = K.slotCount
  submit : s.reader.nextSubmitSequence = UInt64.ofNat s.since.length
  process : s.reader.nextProcessSequence = UInt64.ofNat s.processed
  base : s.base ≤ s.requests.length
  earlier : ∀ (n : ℕ) (r : Request Delivery), n < s.base → s.requests[n]? = some r →
    r.answer.isSome
  own : T s.reader.own s.deliveries

theorem Tracked.quiet (h : Tracked K Ready Stored T s []) : Quiet K Stored T s :=
  ⟨h.window, h.length, h.submit, h.process, h.base, h.earlier, h.own⟩

theorem Quiet.idle (h : Quiet K Stored T s) :
    ∀ slot ∈ s.reader.slots, slot.inFlight = false ∧ slot.completed = false := by
  intro slot hs
  obtain ⟨i, hi⟩ := List.getElem?_of_mem hs
  exact h.window.idle i slot hi (by simp)

theorem Quiet.answered (h : Quiet K Stored T s) (n : ℕ) (r : Request Delivery)
    (hr : s.requests[n]? = some r) : r.answer.isSome := by
  rcases Nat.lt_or_ge n s.base with hn | hn
  · exact h.earlier n r hn hr
  · obtain ⟨m, rfl⟩ := Nat.exists_eq_add_of_le hn
    have hm : s.since[m]? = some r := by rw [since, List.getElem?_drop]; exact hr
    have hlt := (List.getElem?_eq_some_iff.mp hm).1
    rw [h.window.length, List.length_nil] at hlt
    exact h.window.answered m r hlt hm

theorem Quiet.tracked (h : Quiet K Stored T s)
    (ha : s.reader.session = true → s.handles.interface = true ∧ s.reader.client = true ∧
      ∀ slot ∈ s.reader.slots, Ready slot.data)
    (hr : s.reader.running = true → s.reader.session = true ∧ s.phase = .ready) :
    Tracked K Ready Stored T s [] :=
  ⟨h.window, h.length, h.submit, h.process, h.base, h.earlier, h.own, ha, fun hn ↦ absurd rfl hn, hr⟩

theorem Quiet.next_eq (h : Quiet K Stored T s) : s.next = none := by
  refine List.findIdx?_eq_none_iff.mpr fun slot hs ↦ ?_
  simp [(h.idle slot hs).2]

theorem Quiet.inv (h : Quiet K Stored T s) (hs : s.reader.session = false)
    (hr : s.reader.running = false) : Inv K Ready Stored T s [] :=
  ⟨h.tracked (by simp [hs]) (by simp [hr]), by simp [hr], h.next_eq⟩

theorem Quiet.releaseBuffers (L : Lawful K Ready Stored T) (h : Quiet K Stored T s) :
    Quiet K Stored T (s.releaseBuffers K) := by
  obtain ⟨hf, hT⟩ := L.release s.reader.slots s.reader.own
  exact ⟨h.window.swap_idle (idle_of_flags hf h.idle), (flags_length hf).trans h.length, h.submit,
    h.process, h.base, h.earlier, hT _ h.own⟩

theorem Quiet.retireAll (h : Quiet K Stored T s) :
    Quiet K Stored T (s.setSlots (s.reader.slots.map Slot.retire)) := by
  refine ⟨h.window.swap_idle ?_, List.length_map _ |>.trans h.length, h.submit, h.process, h.base,
    h.earlier, h.own⟩
  intro slot hs
  obtain ⟨t, ht, rfl⟩ := List.mem_map.mp hs
  exact ⟨(h.idle t ht).1, rfl⟩

theorem Quiet.detached (h : Quiet K Stored T s) (hr : s.reader.running = false)
    (result : IOReturn) : Inv K Ready Stored T (s.detach.ret result) [] :=
  Quiet.inv ⟨h.window, h.length, h.submit, h.process, h.base, h.earlier, h.own⟩ rfl hr

theorem Quiet.finishStop (L : Lawful K Ready Stored T) (h : Quiet K Stored T s)
    (hr : s.reader.running = false) (answers : Answers) (result : IOReturn)
    (start : Option IOReturn) :
    Inv K Ready Stored T (s.finishStop K answers result start) [] := by
  have hidle := h.retireAll
  rw [System.finishStop]
  split_ifs
  · have hreleased : Quiet K Stored T
        ((s.setSlots (s.reader.slots.map Slot.retire)).releaseEvents answers) :=
      ⟨hidle.window, hidle.length, hidle.submit, hidle.process, hidle.base, hidle.earlier, hidle.own⟩
    exact (hreleased.releaseBuffers L).detached hr _
  · exact (hidle.releaseBuffers L).detached hr _

theorem Tracked.stop (L : Lawful K Ready Stored T) (h : Tracked K Ready Stored T s order)
    (hd : s.next = none) (hfull : s.reader.session = false → s.reader.running = false)
    (answers : Answers) (start : Option IOReturn) :
    ∃ order', Inv K Ready Stored T (s.stop K answers start) order' := by
  rw [System.stop]
  cases hs : s.reader.session with
  | false =>
    have hr := hfull hs
    refine ⟨order, ⟨h.window, h.length, h.submit, h.process, h.base, h.earlier, h.own, h.attached,
      h.carried, fun hr' ↦ ?_⟩, fun hr' ↦ ?_, hd⟩
    · exact absurd (hr.symm.trans hr') (by simp)
    · exact absurd (hr.symm.trans hr') (by simp)
  | true =>
    simp only [Bool.not_true, Bool.false_eq_true, if_false]
    split_ifs with hwait
    · exact ⟨order, ⟨h.window, h.length, h.submit, h.process, h.base, h.earlier, h.own, h.attached,
        h.carried, by simp [setRunning]⟩, by simp [setRunning], hd⟩
    · have hzero : s.reader.inFlightCount = 0 := by
        by_contra hne
        exact hwait ⟨hne, (h.attached hs).1⟩
      obtain rfl := h.settled hd hzero
      exact ⟨[], h.halt.quiet.finishStop L rfl answers _ start⟩

theorem submitAll_inv (L : Lawful K Ready Stored T) (answers : Answers) (rest : List ℕ)
    (h : Tracked K Ready Stored T s order) (hr : s.reader.running = true)
    (hc : s.completedCount = 0) (hrest : ∀ i ∈ rest, i ∉ order ∧ i < s.reader.slots.length)
    (hnodup : rest.Nodup) (hlen : order.length + rest.length = K.slotCount) :
    ∃ order', Inv K Ready Stored T (s.submitAll K answers rest) order' := by
  induction rest generalizing s order with
  | nil =>
    refine ⟨order, ⟨h.window, h.length, h.submit, h.process, h.base, h.earlier, h.own, h.attached,
      h.carried, fun hr ↦ ⟨(h.running hr).1, rfl⟩⟩, fun _ ↦ by simpa using hlen, ?_⟩
    exact drainCompletions_ends answers K 0 hc.le
  | cons i rest ih =>
    obtain ⟨hi, hlt⟩ := hrest i List.mem_cons_self
    have hs := List.getElem?_eq_getElem hlt
    obtain ⟨hf, hcm⟩ := h.window.idle i _ hs hi
    have hcount := submit_completedCount answers s i
    rcases h.submit_cases answers hs hf hcm hr with ⟨hok, ht⟩ | ⟨hno, ht⟩
    · rw [ht] at hcount
      simp only [submitAll, hok, ht, if_true]
      refine ih (h.issue hs hf hcm (h.running hr).1) hr (hcount.trans hc) ?_
        (List.nodup_cons.mp hnodup).2 ?_
      · intro k hk
        obtain ⟨hk₁, hk₂⟩ := hrest k (List.mem_cons_of_mem _ hk)
        refine ⟨?_, hk₂.trans_eq List.length_set.symm⟩
        rw [List.mem_append, List.mem_singleton, not_or]
        exact ⟨hk₁, fun he ↦ (List.nodup_cons.mp hnodup).1 (he ▸ hk)⟩
      · simp only [List.length_append, List.length_cons, List.length_nil] at hlen ⊢
        omega
    · rw [ht] at hcount
      simp only [submitAll, if_neg hno, ht]
      refine Tracked.stop L ((h.refuse hs hf hcm).setOwn (L.submitFailed _ _ _ h.own)) ?_ ?_ answers _
      · exact drainCompletions_ends answers K 0 (hcount.trans hc).le
      · intro hsess
        exact absurd ((h.running hr).1.symm.trans hsess) (by simp)

theorem Quiet.prepare (L : Lawful K Ready Stored T) (h : Quiet K Stored T s) (answers : Answers) :
    Quiet K Stored T (s.attach.prepare K answers).2 := by
  obtain ⟨hf, hT, -⟩ := L.prepare answers.malloc s.reader.slots s.reader.own
  have hnone : (s.attach.prepare K answers).2.since = [] := List.drop_length
  refine ⟨?_, (flags_length hf).trans h.length, ?_, rfl, le_rfl, ?_, ?_⟩
  · rw [hnone]
    exact window_empty (idle_of_flags hf h.idle)
  · rw [hnone]; rfl
  · exact fun n r _ hr ↦ h.answered n r hr
  · exact hT

theorem Quiet.launch (L : Lawful K Ready Stored T) (h : Quiet K Stored T s) (answers : Answers)
    (hr : s.reader.running = false) (hp : s.phase = .ready)
    (hi : s.handles.interface = true) :
    ∃ order', Inv K Ready Stored T (s.launch K answers) order' := by
  have hq := h.prepare L answers
  rw [System.launch]
  split_ifs with h₁ h₂ h₃
  · exact ⟨[], hq.detached hr _⟩
  · exact ⟨[], (hq.releaseBuffers L).detached hr _⟩
  · have hreleased : Quiet K Stored T
        ((s.attach.prepare K answers).2.acquireEvents.releaseEvents answers) :=
      ⟨hq.window, hq.length, hq.submit, hq.process, hq.base, hq.earlier, hq.own⟩
    exact ⟨[], (hreleased.releaseBuffers L).detached hr _⟩
  · have hready := (L.prepare answers.malloc s.reader.slots s.reader.own).2.2 (not_not.mp h₁)
    have ht : Tracked K Ready Stored T
        ((s.attach.prepare K answers).2.acquireEvents.setRunning true) [] :=
      ⟨hq.window, hq.length, hq.submit, hq.process, hq.base, hq.earlier, hq.own,
        fun _ ↦ ⟨hi, rfl, hready⟩, fun hn ↦ absurd rfl hn, fun _ ↦ ⟨rfl, hp⟩⟩
    refine submitAll_inv L answers _ ht rfl ?_ ?_ List.nodup_range (by simp)
    · exact List.countP_eq_zero.mpr fun slot hs ↦ by simp [(hq.idle slot hs).2]
    · intro i hi
      exact ⟨by simp, (List.mem_range.mp hi).trans_eq hq.length.symm⟩

theorem Inv.ret (h : Inv K Ready Stored T s order) (result : IOReturn) :
    Inv K Ready Stored T (s.ret result) order :=
  ⟨⟨h.tracked.window, h.tracked.length, h.tracked.submit, h.tracked.process, h.tracked.base,
    h.tracked.earlier, h.tracked.own, h.tracked.attached, h.tracked.carried,
    fun hr ↦ ⟨(h.tracked.running hr).1, rfl⟩⟩, h.full, h.drained⟩

theorem Inv.start (L : Lawful K Ready Stored T) (h : Inv K Ready Stored T s order)
    (hp : s.phase = .ready) (answers : Answers) :
    ∃ order', Inv K Ready Stored T (s.start K answers) order' := by
  rw [System.start]
  split_ifs with hguard hloop
  · exact ⟨order, h.ret _⟩
  all_goals
    simp only [not_or, not_not, Bool.not_eq_true, Bool.not_eq_false'] at hguard
    obtain rfl := h.tracked.settled h.drained hguard.2.1
    have hq := h.tracked.quiet
  · exact ⟨[], Quiet.inv ⟨hq.window, hq.length, hq.submit, hq.process, hq.base, hq.earlier, hq.own⟩
      rfl hguard.1⟩
  · exact hq.launch L answers hguard.1 hp hguard.2.2.1

theorem Inv.step (L : Lawful K Ready Stored T) (h : Inv K Ready Stored T s order) {a : Action}
    {s' : System δ σ} (hstep : s.step K a = some s') : ∃ order', Inv K Ready Stored T s' order' := by
  cases a with
  | start answers =>
    simp only [System.step] at hstep
    split_ifs at hstep with hp
    cases hstep
    exact h.start L hp answers
  | stop answers =>
    simp only [System.step] at hstep
    split_ifs at hstep
    cases hstep
    refine h.tracked.stop L h.drained (fun hs ↦ ?_) answers none
    by_contra hr
    exact absurd ((h.tracked.running (by simpa using hr)).1.symm.trans hs) (by simp)
  | complete answers elapsed k d => exact h.complete answers L hstep
  | drained answers =>
    obtain ⟨abort, start, hp, hzero, rfl⟩ := step_drained hstep
    obtain rfl := h.tracked.settled h.drained hzero
    have hr : s.reader.running = false := by
      by_contra hr
      exact absurd ((h.tracked.running (by simpa using hr)).2.symm.trans hp) (by simp)
    exact ⟨[], h.tracked.quiet.finishStop L hr answers abort start⟩
  | timeout =>
    obtain ⟨_, _, _, rfl⟩ := step_timeout hstep
    exact ⟨order, h.ret _⟩
  | session handles =>
    simp only [System.step] at hstep
    split_ifs at hstep with hs
    cases hstep
    have ht := h.tracked
    exact ⟨order, ⟨ht.window, ht.length, ht.submit, ht.process, ht.base, ht.earlier, ht.own,
      fun hs' ↦ absurd hs' hs, ht.carried, ht.running⟩, h.full, h.drained⟩

theorem initial_inv {handles : Handles} {data : δ} {own : σ} (hT : T own []) :
    Inv K Ready Stored T (initial K handles data own) [] := by
  refine Quiet.inv ⟨window_empty ?_, List.length_replicate, rfl, rfl, le_rfl, ?_, hT⟩ rfl rfl
  · intro slot hs
    rw [List.eq_of_mem_replicate hs]
    exact ⟨rfl, rfl⟩
  · intro n r hn
    exact absurd hn (Nat.not_lt_zero n)

/-- The reads of the stack and the slots of the reader agree in every reachable state. -/
theorem run_inv (L : Lawful K Ready Stored T) {handles : Handles} {data : δ} {own : σ}
    (hT : T own []) {as : List Action} {s : System δ σ}
    (h : Run (System.step K) (initial K handles data own) as s) :
    ∃ order, Inv K Ready Stored T s order :=
  Run.invariant (I := fun s ↦ ∃ order, Inv K Ready Stored T s order) h ⟨[], initial_inv hT⟩
    fun _ _ _ ⟨_, hi⟩ hs ↦ hi.step L hs

end Calls

end NumarkNS6.Usb.System
