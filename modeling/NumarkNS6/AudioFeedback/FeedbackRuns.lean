import NumarkNS6.AudioFeedback.AudioFeedbackReader
import NumarkNS6.Foundation.Runs

namespace NumarkNS6.AudioFeedback.AudioFeedbackReader

open AudioOut Foundation.Runs Usb

namespace Slot

def held (slot : Slot) : ℕ := slot.data.isSome.toNat + slot.frames.isSome.toNat

structure Ready (slot : Slot) : Prop where
  data : ∃ bytes, slot.data = some bytes ∧ bytes.length = packetCapacity * packetsPerTransfer
  frames : ∃ frames, slot.frames = some frames ∧ frames.length = packetsPerTransfer

def emptied (slot : Slot) : Slot := ⟨none, none, slot.inFlight⟩

end Slot

def Completion.decode (c : Completion) : List AudioFeedbackObservation :=
  (List.range packetsPerTransfer).map fun k ↦
    AudioFeedbackParser.parse (c.status = .success) (c.frStatus k = .success)
      (some (c.data.drop (k * packetCapacity))) (c.frActCount k).toNat

namespace System

variable {s t : System} {i j : Fin slotCount} {answers : Answers}

def withSlots (s : System) (slots : Fin slotCount → Slot) (created destroyed : Fin slotCount → ℕ) :
    System :=
  { s with
    reader := { s.reader with slots := slots }
    ledger := { s.ledger with created := created, destroyed := destroyed } }

theorem releaseData_eq (r : IOReturn × System) (i : Fin slotCount) :
    (releaseData answers i r).2 = r.2.withSlots
      (Function.update r.2.reader.slots i { r.2.slot i with data := none }) r.2.ledger.created
      (Function.update r.2.ledger.destroyed i
        (r.2.ledger.destroyed i + (r.2.slot i).data.isSome.toNat)) := by
  unfold releaseData
  cases hd : (r.2.slot i).data with
  | some data => rfl
  | none =>
    have hslot : { r.2.slot i with data := none } = r.2.reader.slots i := by rw [← hd]; rfl
    simp only [Option.isSome_none, Bool.false_eq_true, if_false, hslot, Bool.toNat_false, Nat.add_zero,
      Function.update_eq_self]
    rfl

theorem releaseFrames_eq (r : IOReturn × System) (i : Fin slotCount) :
    (releaseFrames answers i r).2 = r.2.withSlots
      (Function.update r.2.reader.slots i { r.2.slot i with frames := none }) r.2.ledger.created
      (Function.update r.2.ledger.destroyed i
        (r.2.ledger.destroyed i + (r.2.slot i).frames.isSome.toNat)) := by
  unfold releaseFrames
  cases hf : (r.2.slot i).frames with
  | some frames => rfl
  | none =>
    have hslot : { r.2.slot i with frames := none } = r.2.reader.slots i := by rw [← hf]; rfl
    simp only [Option.isSome_none, Bool.false_eq_true, if_false, hslot, Bool.toNat_false, Nat.add_zero,
      Function.update_eq_self]
    rfl

theorem releaseSlot_eq (r : IOReturn × System) (i : Fin slotCount) :
    (releaseSlot answers r i).2 = r.2.withSlots
      (Function.update r.2.reader.slots i (r.2.slot i).emptied) r.2.ledger.created
      (Function.update r.2.ledger.destroyed i (r.2.ledger.destroyed i + (r.2.slot i).held)) := by
  rw [releaseSlot, releaseFrames_eq, releaseData_eq]
  simp [withSlots, slot, Slot.held, Slot.emptied, Nat.add_assoc]

theorem foldl_releaseSlot {l : List (Fin slotCount)} (hl : l.Nodup) (r : IOReturn × System) :
    (l.foldl (releaseSlot answers) r).2 = r.2.withSlots
      (fun i ↦ if i ∈ l then (r.2.slot i).emptied else r.2.slot i) r.2.ledger.created
      (fun i ↦ r.2.ledger.destroyed i + if i ∈ l then (r.2.slot i).held else 0) := by
  induction l generalizing r with
  | nil => rfl
  | cons a l ih =>
    obtain ⟨ha, hl⟩ := List.nodup_cons.mp hl
    rw [List.foldl_cons, ih hl, releaseSlot_eq]
    simp only [withSlots, slot]
    congr 2
    all_goals
      funext i
      by_cases h : i = a
      · subst h
        simp [ha]
      · simp [h]

theorem releaseBuffers_eq (answers : Answers) (hs : s.reader.session = true)
    (hi : s.handles.interface = true) :
    (s.releaseBuffers answers).2 = s.withSlots (fun i ↦ (s.slot i).emptied) s.ledger.created
      (fun i ↦ s.ledger.destroyed i + (s.slot i).held) := by
  simp only [releaseBuffers, hs, hi, Bool.not_true, Bool.or_self, Bool.false_eq_true, if_false,
    foldl_releaseSlot (List.nodup_finRange slotCount), List.mem_finRange, if_true]

/-- What is borrowed is either given back or still noted, and the stack holds
exactly the slots that are marked in flight, with buffers of full size. -/
structure Books (s : System) : Prop where
  buffers : ∀ i, s.ledger.created i = s.ledger.destroyed i + (s.slot i).held
  events : s.ledger.acquired = s.ledger.released + if s.reader.sourceAdded then 1 else 0
  references : s.ledger.retained = if s.reader.runLoop then 1 else 0
  sink : s.reader.sink = s.reader.session
  opened : s.reader.session = true → s.handles.interface = true
  pending : ∀ i, s.pending.count i = if (s.slot i).inFlight then 1 else 0
  ready : ∀ i, (s.slot i).inFlight = true → (s.slot i).Ready
  attached : ∀ i, (s.slot i).inFlight = true → s.reader.session = true ∧ s.reader.initialized = true

structure Inv (s : System) : Prop extends Books s where
  running : s.reader.running = true → s.reader.initialized = true ∧ s.reader.session = true ∧
    s.phase = .ready ∧ ∀ i, (s.slot i).Ready
  added : s.reader.sourceAdded = true → s.reader.runLoop = true
  fresh : s.reader.initialized = false → s.reader.runLoop = false ∧
    s.reader.sourceAdded = false ∧ ∀ i, (s.slot i).held = 0
  detached : s.reader.session = false → s.reader.sourceAdded = false ∧ ∀ i, (s.slot i).held = 0
  stopping : s.phase ≠ .ready → s.reader.session = true ∧ s.reader.initialized = true

theorem Books.idle (h : Books s) (hs : s.reader.session = false ∨ s.reader.initialized = false)
    (i : Fin slotCount) : (s.slot i).inFlight = false := by
  rw [← Bool.not_eq_true]
  intro hf
  obtain ⟨h₁, h₂⟩ := h.attached i hf
  rcases hs with hs | hs
  · exact Bool.false_ne_true (hs.symm.trans h₁)
  · exact Bool.false_ne_true (hs.symm.trans h₂)

theorem Books.inFlight (h : Books s) (hi : i ∈ s.pending) : (s.slot i).inFlight = true := by
  by_contra hn
  have hcount := h.pending i
  rw [if_neg hn] at hcount
  exact List.count_eq_zero.mp hcount hi

theorem slot_setSlot (s : System) (i j : Fin slotCount) (slot : Slot) :
    (s.setSlot i slot).slot j = if j = i then slot else s.slot j :=
  Function.update_apply _ _ _ _

theorem forall_setSlot {P : Fin slotCount → Slot → Prop} {slot : Slot} (hi : P i slot)
    (h : ∀ j, j ≠ i → P j (s.slot j)) : ∀ j, P j ((s.setSlot i slot).slot j) :=
  (Function.forall_update_iff s.reader.slots P).mpr ⟨hi, h⟩

theorem Inv.ret (h : Inv s) (result : IOReturn) : Inv (s.ret result) :=
  { h with
    running := fun hr ↦
      have ⟨hi, hs, _, ha⟩ := h.running hr
      ⟨hi, hs, rfl, ha⟩
    stopping := fun hp ↦ absurd rfl hp }

theorem Inv.halt (h : Inv s) : Inv (s.setRunning false) :=
  { h with running := fun hr ↦ absurd hr (by simp [setRunning]) }

theorem Inv.countRefusal (h : Inv s) : Inv s.countRefusal := { h with }

theorem Inv.setSlot (h : Inv s) {slot : Slot} (hf : slot.inFlight = (s.slot i).inFlight)
    (hh : slot.held = (s.slot i).held) (hr : (s.slot i).Ready → slot.Ready) :
    Inv (s.setSlot i slot) where
  buffers := forall_setSlot (P := fun j slot ↦ s.ledger.created j = s.ledger.destroyed j + slot.held)
    (hh ▸ h.buffers i) fun j _ ↦ h.buffers j
  events := h.events
  references := h.references
  sink := h.sink
  opened := h.opened
  pending := forall_setSlot (P := fun j slot ↦ s.pending.count j = if slot.inFlight then 1 else 0)
    (hf ▸ h.pending i) fun j _ ↦ h.pending j
  ready := forall_setSlot (P := fun _ slot ↦ slot.inFlight = true → slot.Ready)
    (fun hi ↦ hr (h.ready i (hf ▸ hi))) fun j _ ↦ h.ready j
  attached := forall_setSlot (P := fun _ slot ↦ slot.inFlight = true →
    s.reader.session = true ∧ s.reader.initialized = true)
    (fun hi ↦ h.attached i (hf ▸ hi)) fun j _ ↦ h.attached j
  running := fun hrun ↦
    have ⟨hi, hs, hp, ha⟩ := h.running hrun
    ⟨hi, hs, hp, forall_setSlot (P := fun _ slot ↦ slot.Ready) (hr (ha i)) fun j _ ↦ ha j⟩
  added := h.added
  fresh := fun hi ↦
    have ⟨hl, ha, hn⟩ := h.fresh hi
    ⟨hl, ha, forall_setSlot (P := fun _ slot ↦ slot.held = 0) (hh.trans (hn i)) fun j _ ↦ hn j⟩
  detached := fun hs ↦
    have ⟨ha, hn⟩ := h.detached hs
    ⟨ha, forall_setSlot (P := fun _ slot ↦ slot.held = 0) (hh.trans (hn i)) fun j _ ↦ hn j⟩
  stopping := h.stopping

theorem Inv.prepare (h : Inv s) (i : Fin slotCount) : Inv (s.prepare i) := by
  refine h.setSlot rfl ?_ fun hr ↦ ⟨hr.data, ?_⟩
  · simp only [Slot.held]
    cases (s.slot i).frames <;> rfl
  · obtain ⟨frames, hframes, -⟩ := hr.frames
    exact ⟨requests, by simp [hframes], rfl⟩

theorem Inv.accept (h : Inv s) (hr : s.reader.running = true) (hf : (s.slot i).inFlight = false) :
    Inv (s.accept i) := by
  obtain ⟨hi, hs, hp, ha⟩ := h.running hr
  refine
    { h with
      buffers := ?_, pending := ?_, ready := ?_, attached := fun _ _ ↦ ⟨hs, hi⟩, running := ?_
      fresh := fun hn ↦ absurd (hn.symm.trans hi) Bool.false_ne_true
      detached := fun hn ↦ absurd (hn.symm.trans hs) Bool.false_ne_true }
  · exact forall_setSlot (P := fun j slot ↦ s.ledger.created j = s.ledger.destroyed j + slot.held)
      (h.buffers i) fun j _ ↦ h.buffers j
  · apply forall_setSlot (P := fun j slot ↦ (s.pending ++ [i]).count j = if slot.inFlight then 1 else 0)
    · simp [h.pending i, hf]
    · intro j hj
      rw [List.count_append, List.count_singleton, if_neg (by simpa using Ne.symm hj), h.pending j,
        Nat.add_zero]
  · exact forall_setSlot (P := fun _ slot ↦ slot.inFlight = true → slot.Ready)
      (fun _ ↦ ⟨(ha i).data, (ha i).frames⟩) fun j _ ↦ h.ready j
  · exact fun _ ↦ ⟨hi, hs, hp, forall_setSlot (P := fun _ slot ↦ slot.Ready)
      ⟨(ha i).data, (ha i).frames⟩ fun j _ ↦ ha j⟩

theorem Inv.submit (h : Inv s) (answers : Answers) (i : Fin slotCount) :
    Inv (s.submit answers i).2 := by
  unfold System.submit
  dsimp only
  split_ifs with hready
  · exact h
  · exact h
  · simp only [Bool.or_eq_true, Bool.not_eq_true', not_or, Bool.not_eq_true,
      Bool.not_eq_false] at hready
    refine (h.prepare i).accept hready.1.1 ?_
    rw [System.prepare, slot_setSlot, if_pos rfl]
    exact hready.2
  · exact h.prepare i

theorem Inv.resubmit (h : Inv s) (answers : Answers) (i : Fin slotCount) :
    Inv (s.resubmit answers i) := by
  unfold System.resubmit
  simp only
  split_ifs
  · exact h.submit answers i
  · exact (h.submit answers i).countRefusal.halt
  · exact h

theorem foldl_note (os : List AudioFeedbackObservation) (s : System) :
    os.foldl note s = { s with
      reader := { s.reader with stats := os.foldl (fun stats o ↦ stats.count o.kind) s.reader.stats }
      published := if s.reader.sink then s.published ++ os else s.published } := by
  induction os generalizing s with
  | nil => simp
  | cons o os ih =>
    rw [List.foldl_cons, ih]
    cases hs : s.reader.sink <;> simp [note, hs]

theorem Inv.land (h : Inv s) {k : ℕ} (hk : s.pending[k]? = some i) (slot : Slot)
    (hf : slot.inFlight = false) (hh : slot.held = (s.slot i).held)
    (hr : (s.slot i).Ready → slot.Ready) :
    Inv { s.setSlot i slot with pending := s.pending.eraseIdx k } := by
  obtain ⟨hlt, hget⟩ := List.getElem?_eq_some_iff.mp hk
  have hcount (j : Fin slotCount) : s.pending.count j =
      (s.pending.eraseIdx k).count j + if i = j then 1 else 0 := by
    rw [← (List.getElem_cons_eraseIdx_perm hlt).count_eq, List.count_cons, hget]
    simp only [beq_iff_eq]
  have hi := h.inFlight (List.mem_of_getElem? hk)
  obtain ⟨hs, hinit⟩ := h.attached i hi
  refine
    { h with
      buffers := ?_, pending := ?_, ready := ?_, attached := fun _ _ ↦ ⟨hs, hinit⟩, running := ?_
      fresh := fun hn ↦ absurd (hn.symm.trans hinit) Bool.false_ne_true
      detached := fun hn ↦ absurd (hn.symm.trans hs) Bool.false_ne_true }
  · exact forall_setSlot (P := fun j slot ↦ s.ledger.created j = s.ledger.destroyed j + slot.held)
      (hh ▸ h.buffers i) fun j _ ↦ h.buffers j
  · apply forall_setSlot
      (P := fun j slot ↦ (s.pending.eraseIdx k).count j = if slot.inFlight then 1 else 0)
    · have hone := h.pending i
      rw [hcount, hi] at hone
      simpa [hf] using hone
    · intro j hj
      rw [← h.pending j, hcount, if_neg (Ne.symm hj), Nat.add_zero]
  · exact forall_setSlot (P := fun _ slot ↦ slot.inFlight = true → slot.Ready)
      (fun hn ↦ absurd (hf.symm.trans hn) Bool.false_ne_true) fun j _ ↦ h.ready j
  · intro hrun
    obtain ⟨-, -, hp, ha⟩ := h.running hrun
    exact ⟨hinit, hs, hp, forall_setSlot (P := fun _ slot ↦ slot.Ready) (hr (ha i)) fun j _ ↦ ha j⟩

def Slot.filled (slot : Slot) (c : Completion) : Slot where
  data := slot.data.map fun _ ↦ c.data
  frames := slot.frames.map fun frames ↦ frames.mapIdx fun n frame ↦
    { frame with frStatus := c.frStatus n, frActCount := c.frActCount n }
  inFlight := false

def landed (s : System) (k : ℕ) (i : Fin slotCount) (c : Completion) : System :=
  { s.setSlot i (Slot.filled (s.slot i) c) with
    pending := s.pending.eraseIdx k
    delivered := s.delivered ++ [c]
    published := s.published ++ c.decode
    reader := { s.reader with
      slots := Function.update s.reader.slots i (Slot.filled (s.slot i) c)
      stats := c.decode.foldl (fun stats o ↦ stats.count o.kind) s.reader.stats } }

theorem observe_filled {slot : Slot} (h : slot.Ready) (c : Completion) (inFlight : Bool) :
    (List.range packetsPerTransfer).map
      (observe { Slot.filled slot c with inFlight := inFlight } c.status) = c.decode := by
  obtain ⟨bytes, hbytes, -⟩ := h.data
  obtain ⟨frames, hframes, hlen⟩ := h.frames
  apply List.map_congr_left
  intro k hk
  have hlt : k < frames.length := hlen ▸ List.mem_range.mp hk
  simp [observe, Slot.filled, hbytes, hframes, List.getD_eq_getElem?_getD, hlt]

theorem complete_cases (h : Inv s) {k : ℕ} {c : Completion}
    (hc : s.complete answers k c = some t) : ∃ i, s.pending[k]? = some i ∧
      c.data.length = packetCapacity * packetsPerTransfer ∧ (s.slot i).inFlight = true ∧
      t = if c.status = .noDevice then (s.landed k i c).setRunning false
        else (s.landed k i c).resubmit answers i := by
  unfold System.complete at hc
  cases hk : s.pending[k]? with
  | none => simp [hk] at hc
  | some i =>
    simp only [hk] at hc
    split_ifs at hc with hlen
    have hi := h.inFlight (List.mem_of_getElem? hk)
    refine ⟨i, rfl, hlen, hi, ?_⟩
    have hsink : (s.arrive k i c).reader.sink = true := h.sink.trans (h.attached i hi).1
    have hslot : (s.arrive k i c).slot i = { Slot.filled (s.slot i) c with inFlight := true } := by
      rw [← hi]
      exact (slot_setSlot s i i _).trans (if_pos rfl)
    have hland : (s.landed k i c) = (c.decode.foldl note (s.arrive k i c)).setSlot i
        { (s.arrive k i c).slot i with inFlight := false } := by
      rw [hslot, foldl_note, hsink]
      simp only [System.landed, System.arrive, System.setSlot, Function.update_idem, if_true]
      rfl
    have hobserved := observe_filled (h.ready i hi) c true
    rw [← hslot] at hobserved
    have hkept : (c.decode.foldl note (s.arrive k i c)).slot i = (s.arrive k i c).slot i := by
      rw [foldl_note]
      rfl
    rw [← Option.some.inj hc, hland]
    simp only [didComplete, hobserved, hkept]

theorem Inv.landed (h : Inv s) {k : ℕ} {c : Completion} (hk : s.pending[k]? = some i)
    (hc : c.data.length = packetCapacity * packetsPerTransfer) : Inv (s.landed k i c) := by
  have hland := h.land hk (Slot.filled (s.slot i) c) rfl
    (by simp [Slot.held, Slot.filled]) fun hr ↦ by
      obtain ⟨bytes, hbytes, -⟩ := hr.data
      obtain ⟨frames, hframes, hlen⟩ := hr.frames
      refine ⟨⟨c.data, ?_, hc⟩, ⟨_, congrArg (Option.map _) hframes, ?_⟩⟩
      · rw [Slot.filled, hbytes]
        rfl
      · rw [List.length_mapIdx, hlen]
  exact { hland with }

theorem Inv.complete (h : Inv s) {k : ℕ} {c : Completion}
    (hc : s.complete answers k c = some t) : Inv t := by
  obtain ⟨i, hk, hlen, -, rfl⟩ := complete_cases h hc
  split_ifs
  · exact (h.landed hk hlen).halt
  · exact (h.landed hk hlen).resubmit answers i

structure Closed (s : System) : Prop where
  session : s.reader.session = false
  running : s.reader.running = false
  sourceAdded : s.reader.sourceAdded = false
  slots : ∀ i, s.slot i = ⟨none, none, false⟩

theorem Books.release (h : Books s) (answers : Answers) (hs : s.reader.session = true)
    (hidle : ∀ i, (s.slot i).inFlight = false) :
    Books (s.releaseBuffers answers).2.detach ∧
      ∀ i, (s.releaseBuffers answers).2.detach.slot i = ⟨none, none, false⟩ := by
  rw [releaseBuffers_eq answers hs (h.opened hs)]
  have hslots (i : Fin slotCount) : (s.slot i).emptied = ⟨none, none, false⟩ := by
    rw [Slot.emptied, hidle]
  refine ⟨?_, hslots⟩
  exact
    { h with
      buffers := fun i ↦ h.buffers i
      sink := rfl
      opened := fun hn ↦ absurd hn Bool.false_ne_true
      ready := fun i hi ↦ absurd ((hidle i).symm.trans hi) Bool.false_ne_true
      attached := fun i hi ↦ absurd ((hidle i).symm.trans hi) Bool.false_ne_true }

theorem Books.releaseEvents (h : Books s) (ha : s.reader.sourceAdded = true) :
    Books s.releaseEvents :=
  { h with
    events := by
      have he := h.events
      rw [if_pos ha] at he
      exact he }

theorem Inv.close (h : Books s) (hs : s.reader.session = true) (hr : s.reader.running = false)
    (hn : s.reader.initialized = true) (ha : s.reader.sourceAdded = false)
    (hidle : ∀ i, (s.slot i).inFlight = false) (result : IOReturn) :
    Inv ((s.releaseBuffers answers).2.detach.ret result) ∧
      Closed ((s.releaseBuffers answers).2.detach.ret result) := by
  obtain ⟨hbooks, hslots⟩ := h.release answers hs hidle
  have hkept := releaseBuffers_eq answers hs (h.opened hs)
  have hheld (i : Fin slotCount) :
      ((s.releaseBuffers answers).2.detach.slot i).held = 0 := by rw [hslots]; rfl
  generalize (s.releaseBuffers answers).2 = u at hbooks hslots hkept hheld
  subst hkept
  refine ⟨{ hbooks with
    running := fun hn ↦ absurd (hr.symm.trans hn) Bool.false_ne_true
    added := fun hn ↦ absurd (ha.symm.trans hn) Bool.false_ne_true
    fresh := fun hf ↦ absurd (hf.symm.trans hn) Bool.false_ne_true
    detached := fun _ ↦ ⟨ha, hheld⟩
    stopping := fun hp ↦ absurd rfl hp }, ⟨rfl, hr, ha, hslots⟩⟩

theorem Inv.finishStop (h : Inv s) (answers : Answers) (hs : s.reader.session = true)
    (hr : s.reader.running = false)
    (hn : s.reader.initialized = true) (hidle : ∀ i, (s.slot i).inFlight = false)
    (result : IOReturn) (start : Option IOReturn) :
    Inv (s.finishStop answers result start) ∧ Closed (s.finishStop answers result start) := by
  unfold System.finishStop
  dsimp only
  split_ifs with ha
  · rw [Bool.and_eq_true] at ha
    exact Inv.close (h.releaseEvents ha.1) hs hr hn rfl hidle _
  · have hsource : s.reader.sourceAdded = false := by
      by_contra hsource
      have hadded := Bool.eq_true_of_not_eq_false hsource
      exact ha (by rw [hadded, h.added hadded]; rfl)
    exact Inv.close h.toBooks hs hr hn hsource hidle _

theorem idle_of_count (h : s.inFlightCount = 0) (i : Fin slotCount) :
    (s.slot i).inFlight = false := by
  rw [inFlightCount, List.countP_eq_zero] at h
  exact Bool.eq_false_iff.mpr (h i (List.mem_finRange i))

/-- How a call of `stop` can go: nothing was attached, all is given back at once,
or there are reads to wait for. -/
inductive Stopped (s : System) (start : Option IOReturn) : System → Prop
  | nothing (initialized : s.reader.initialized = false ∨ s.reader.session = false) :
      Stopped s start (s.ret (start.getD .success))
  | closed {t : System} (closed : Closed t) (ready : t.phase = .ready) : Stopped s start t
  | waiting (abort : IOReturn) :
      Stopped s start { s.setRunning false with phase := .stopping abort start }

theorem Inv.stop (h : Inv s) (answers : Answers) (start : Option IOReturn) :
    Inv (s.stop answers start) ∧ Stopped s start (s.stop answers start) := by
  unfold System.stop
  dsimp only
  split_ifs with hnone hwait
  · refine ⟨h.ret _, .nothing ?_⟩
    simpa using hnone
  · simp only [Bool.or_eq_true, Bool.not_eq_true', not_or, Bool.not_eq_false] at hnone
    exact ⟨{ h.halt with
      running := fun hr ↦ absurd hr Bool.false_ne_true
      stopping := fun _ ↦ ⟨hnone.2, hnone.1⟩ }, .waiting _⟩
  · simp only [Bool.or_eq_true, Bool.not_eq_true', not_or, Bool.not_eq_false] at hnone
    have hidle : (s.setRunning false).inFlightCount = 0 := by
      by_contra hne
      exact hwait ⟨hne, h.opened hnone.2⟩
    obtain ⟨hinv, hclosed⟩ := h.halt.finishStop answers hnone.2 rfl hnone.1
      (idle_of_count hidle) .success start
    refine ⟨hinv, .closed hclosed ?_⟩
    unfold System.finishStop
    dsimp only
    split_ifs <;> rfl

theorem Inv.submitAll (h : Inv s) (answers : Answers) (l : List (Fin slotCount)) :
    Inv (s.submitAll answers l) := by
  induction l generalizing s with
  | nil => exact h.ret _
  | cons i rest ih =>
    have hsub := h.submit answers i
    rw [System.submitAll]
    split_ifs
    · exact ih hsub
    · exact (hsub.countRefusal.stop answers _).1

structure Grown (s t : System) : Prop where
  eq : t = s.withSlots t.reader.slots t.ledger.created s.ledger.destroyed
  inFlight : ∀ i, (t.slot i).inFlight = (s.slot i).inFlight
  buffers : (∀ i, s.ledger.created i = s.ledger.destroyed i + (s.slot i).held) →
    ∀ i, t.ledger.created i = s.ledger.destroyed i + (t.slot i).held

theorem Grown.trans {u : System} (h : Grown s t) (h' : Grown t u) : Grown s u where
  eq := h'.eq.trans (by rw [h.eq]; rfl)
  inFlight i := (h'.inFlight i).trans (h.inFlight i)
  buffers hb := by
    have hd : t.ledger.destroyed = s.ledger.destroyed := by rw [h.eq]; rfl
    have hu := h'.buffers (hd ▸ h.buffers hb)
    rwa [hd] at hu

theorem create_slot (s : System) (i j : Fin slotCount) (slot : Slot) :
    (s.create i slot).slot j = if j = i then slot else s.slot j := slot_setSlot ..

theorem Grown.create {slot : Slot} (hf : slot.inFlight = (s.slot i).inFlight)
    (hh : slot.held = (s.slot i).held + 1) : Grown s (s.create i slot) where
  eq := rfl
  inFlight := forall_setSlot (P := fun j slot ↦ slot.inFlight = (s.slot j).inFlight) hf fun _ _ ↦ rfl
  buffers hb := by
    intro j
    have hcreated : (s.create i slot).ledger.created j =
        if j = i then s.ledger.created i + 1 else s.ledger.created j :=
      Function.update_apply _ _ _ _
    rw [hcreated, create_slot]
    split_ifs with hj
    · rw [hb i, hh, hj, Nat.add_assoc]
    · exact hb j

def allocated (s : System) (i : Fin slotCount) : System :=
  let s := s.create i { s.slot i with
    data := some (List.replicate (packetCapacity * packetsPerTransfer) 0) }
  s.create i { s.slot i with frames := some (List.replicate packetsPerTransfer ⟨.success, 0, 0⟩) }

theorem createBuffers_cons (s : System) (a : Fin slotCount) (l : List (Fin slotCount)) :
    s.createBuffers answers (a :: l) =
      if answers.createBuffer (2 * a) ≠ .success then (answers.createBuffer (2 * a), s)
      else if answers.createBuffer (2 * a + 1) ≠ .success then
        (answers.createBuffer (2 * a + 1), s.create a { s.slot a with
          data := some (List.replicate (packetCapacity * packetsPerTransfer) 0) })
      else (s.allocated a).createBuffers answers l := rfl

theorem allocated_ready (s : System) (a : Fin slotCount) : ((s.allocated a).slot a).Ready := by
  simp only [allocated, create_slot, if_true]
  exact ⟨⟨_, rfl, List.length_replicate⟩, ⟨_, rfl, List.length_replicate⟩⟩

theorem allocated_of_ne (hi : i ≠ j) : (s.allocated j).slot i = s.slot i := by
  simp only [allocated, create_slot, if_neg hi]

theorem Grown.data (h : (s.slot i).held = 0) (bytes : List UInt8) :
    Grown s (s.create i { s.slot i with data := some bytes }) :=
  .create rfl (by simp_all [Slot.held])

theorem Grown.allocated (h : (s.slot i).held = 0) : Grown s (s.allocated i) := by
  refine (Grown.data h _).trans (.create rfl ?_)
  simp_all [Slot.held, create_slot]

theorem createBuffers_grown (answers : Answers) {l : List (Fin slotCount)} (hl : l.Nodup)
    (hheld : ∀ i ∈ l, (s.slot i).held = 0) : Grown s (s.createBuffers answers l).2 := by
  induction l generalizing s with
  | nil => exact ⟨rfl, fun _ ↦ rfl, id⟩
  | cons a l ih =>
    obtain ⟨ha, hl⟩ := List.nodup_cons.mp hl
    have hnone := hheld a List.mem_cons_self
    rw [createBuffers_cons]
    split_ifs
    · exact ⟨rfl, fun _ ↦ rfl, id⟩
    · exact .data hnone _
    · refine (Grown.allocated hnone).trans (ih hl fun i hi ↦ ?_)
      have hne : i ≠ a := by
        rintro rfl
        exact ha hi
      rw [allocated_of_ne hne]
      exact hheld i (List.mem_cons_of_mem a hi)

theorem createBuffers_ready {l : List (Fin slotCount)}
    (hok : (s.createBuffers answers l).1 = .success) {i : Fin slotCount}
    (hi : i ∈ l ∨ (s.slot i).Ready) : ((s.createBuffers answers l).2.slot i).Ready := by
  induction l generalizing s with
  | nil => exact hi.resolve_left List.not_mem_nil
  | cons a l ih =>
    rw [createBuffers_cons] at hok ⊢
    split_ifs at hok ⊢ with h₁ h₂
    · exact absurd hok h₁
    · exact absurd hok h₂
    · refine ih hok ?_
      by_cases ha : i = a
      · exact .inr (ha ▸ allocated_ready s i)
      · rw [allocated_of_ne ha]
        exact hi.imp_left fun hm ↦ (List.mem_cons.mp hm).resolve_left ha

theorem Books.grown (h : Books s) (hidle : ∀ i, (s.slot i).inFlight = false) (hg : Grown s t) :
    Books t := by
  have hbuffers := hg.buffers h.buffers
  have hfree (i : Fin slotCount) : (t.slot i).inFlight = false := (hg.inFlight i).trans (hidle i)
  have hpending (i : Fin slotCount) :
      s.pending.count i = if (t.slot i).inFlight then 1 else 0 := by
    rw [hg.inFlight]
    exact h.pending i
  have heq := hg.eq
  generalize t.reader.slots = slots, t.ledger.created = created at heq
  subst heq
  exact
    { h with
      buffers := hbuffers
      pending := hpending
      ready := fun i hi ↦ absurd ((hfree i).symm.trans hi) Bool.false_ne_true
      attached := fun i hi ↦ absurd ((hfree i).symm.trans hi) Bool.false_ne_true }

theorem Inv.attach (h : Inv s) (hi : s.handles.interface = true) : Inv s.attach :=
  { h with
    sink := rfl
    opened := fun _ ↦ hi
    attached := fun i hf ↦ ⟨rfl, (h.attached i hf).2⟩
    running := fun hr ↦
      have ⟨hn, _, hp, ha⟩ := h.running hr
      ⟨hn, rfl, hp, ha⟩
    detached := fun hn ↦ absurd hn.symm Bool.false_ne_true
    stopping := fun hp ↦ ⟨rfl, (h.stopping hp).2⟩ }

theorem Books.retain (h : Books s) (hr : s.reader.runLoop = false) : Books s.retain :=
  { h with
    references := by
      have hzero := h.references
      rw [hr] at hzero
      exact congrArg (· + 1) hzero }

theorem Inv.abandonStart (h : Books s) (hs : s.reader.session = true)
    (hl : s.reader.runLoop = true) (hn : s.reader.initialized = false)
    (hr : s.reader.running = false) (ha : s.reader.sourceAdded = false) (result : IOReturn) :
    Inv (s.abandonStart answers result) ∧ Closed (s.abandonStart answers result) := by
  obtain ⟨hbooks, hslots⟩ := h.release answers hs (h.idle (.inr hn))
  have hkept := releaseBuffers_eq answers hs (h.opened hs)
  have hheld (i : Fin slotCount) :
      ((s.releaseBuffers answers).2.detach.slot i).held = 0 := by rw [hslots]; rfl
  unfold System.abandonStart
  generalize (s.releaseBuffers answers).2 = u at hbooks hslots hkept hheld
  subst hkept
  have hone := hbooks.references
  refine ⟨{ hbooks with
    references := ?_
    running := fun hn ↦ absurd (hr.symm.trans hn) Bool.false_ne_true
    added := fun hn ↦ absurd (ha.symm.trans hn) Bool.false_ne_true
    fresh := fun _ ↦ ⟨rfl, ha, hheld⟩
    detached := fun _ ↦ ⟨ha, hheld⟩
    stopping := fun hp ↦ absurd rfl hp }, ⟨rfl, hr, ha, hslots⟩⟩
  have hone := h.references
  rw [hl] at hone
  exact congrArg (· - 1) hone

theorem Inv.launch (h : Books s) (hs : s.reader.session = true) (hl : s.reader.runLoop = true)
    (ha : s.reader.sourceAdded = false) (hp : s.phase = .ready) (hready : ∀ i, (s.slot i).Ready) :
    Inv s.launch :=
  { h with
    events := by
      have he := h.events
      rw [ha] at he
      exact congrArg (· + 1) he
    attached := fun i hi ↦ ⟨hs, rfl⟩
    running := fun _ ↦ ⟨rfl, hs, hp, hready⟩
    added := fun _ ↦ hl
    fresh := fun hn ↦ absurd hn.symm Bool.false_ne_true
    detached := fun hn ↦ absurd (hn.symm.trans hs) Bool.false_ne_true
    stopping := fun hn ↦ absurd hp hn }

structure Prepared (s : System) : Prop extends Books s where
  session : s.reader.session = true
  runLoop : s.reader.runLoop = true
  initialized : s.reader.initialized = false
  running : s.reader.running = false
  sourceAdded : s.reader.sourceAdded = false
  phase : s.phase = .ready

theorem Inv.prepared (h : Inv s) (hi : s.handles.interface = true)
    (hn : s.reader.initialized = false) (hp : s.phase = .ready) (answers : Answers) :
    Prepared (s.attach.retain.createBuffers answers (List.finRange slotCount)).2 := by
  obtain ⟨hl, ha, hheld⟩ := h.fresh hn
  have hgrown := createBuffers_grown (s := s.attach.retain) answers
    (List.nodup_finRange slotCount) fun i _ ↦ hheld i
  have hbooks := ((h.attach hi).retain hl).grown (h.idle (.inr hn)) hgrown
  have hr : s.reader.running = false := by
    by_contra hr
    have hinit := (h.running (Bool.eq_true_of_not_eq_false hr)).1
    exact Bool.false_ne_true (hn.symm.trans hinit)
  generalize (s.attach.retain.createBuffers answers (List.finRange slotCount)).2 = u
    at hgrown hbooks
  have heq := hgrown.eq
  generalize u.reader.slots = slots, u.ledger.created = created at heq
  subst heq
  exact ⟨hbooks, rfl, rfl, hn, hr, ha, hp⟩

theorem Inv.start (h : Inv s) (hp : s.phase = .ready) (answers : Answers) :
    Inv (s.start answers) := by
  unfold System.start
  dsimp only
  split_ifs with hguard hloop hfailed hacquire
  · exact h.ret _
  all_goals
    simp only [Bool.or_eq_true, Bool.not_eq_true', not_or, Bool.not_eq_false,
      Bool.not_eq_true] at hguard
  · exact (h.attach hguard.1.1.2).ret _
  all_goals have hu := h.prepared hguard.1.1.2 hguard.1.1.1 hp answers
  · exact (Inv.abandonStart hu.toBooks hu.session hu.runLoop hu.initialized hu.running
      hu.sourceAdded _).1
  · exact (Inv.abandonStart hu.toBooks hu.session hu.runLoop hu.initialized hu.running
      hu.sourceAdded _).1
  · refine (Inv.launch hu.toBooks hu.session hu.runLoop hu.sourceAdded hu.phase fun i ↦ ?_).submitAll
      answers _
    exact createBuffers_ready (not_not.mp hfailed) (.inl (List.mem_finRange i))

theorem Inv.waiting (h : Inv s) {abort : IOReturn} {start : Option IOReturn}
    (hp : s.phase = .stopping abort start) : s.reader.running = false := by
  by_contra hr
  have hready := (h.running (Bool.eq_true_of_not_eq_false hr)).2.2.1
  rw [hp] at hready
  cases hready

inductive Stepped (s : System) : Action → System → Prop
  | start (answers : Answers) (ready : s.phase = .ready) :
      Stepped s (.start answers) (s.start answers)
  | stop (answers : Answers) (ready : s.phase = .ready) :
      Stepped s (.stop answers) (s.stop answers none)
  | complete {answers : Answers} {k : ℕ} {c : Completion} {t : System}
      (completed : s.complete answers k c = some t) : Stepped s (.complete answers k c) t
  | drained (answers : Answers) {abort : IOReturn} {start : Option IOReturn}
      (waiting : s.phase = .stopping abort start) (idle : s.inFlightCount = 0) :
      Stepped s (.drained answers) (s.finishStop answers abort start)
  | timeout {abort : IOReturn} {start : Option IOReturn}
      (waiting : s.phase = .stopping abort start) : Stepped s .timeout (s.ret (start.getD .timeout))
  | session (handles : Handles) (detached : s.reader.session ≠ true) :
      Stepped s (.session handles) { s with handles := handles }

theorem stepped {a : Action} (hs : s.step a = some t) : Stepped s a t := by
  cases a with
  | complete answers k c => exact .complete hs
  | drained answers =>
    cases hp : s.phase with
    | ready => simp [System.step, hp] at hs
    | stopping abort start =>
      simp only [System.step, hp] at hs
      split_ifs at hs with hzero
      cases hs
      exact .drained answers hp hzero
  | timeout =>
    cases hp : s.phase with
    | ready => simp [System.step, hp] at hs
    | stopping abort start =>
      simp only [System.step, hp] at hs
      split_ifs at hs
      cases hs
      exact .timeout hp
  | _ =>
    simp only [System.step] at hs
    split_ifs at hs with hguard
    cases hs
    constructor
    exact hguard

theorem Inv.drained (h : Inv s) (answers : Answers) {abort : IOReturn} {start : Option IOReturn}
    (hp : s.phase = .stopping abort start) (hzero : s.inFlightCount = 0) :
    Inv (s.finishStop answers abort start) ∧ Closed (s.finishStop answers abort start) := by
  obtain ⟨hsession, hinit⟩ := h.stopping (by simp [hp])
  exact h.finishStop answers hsession (h.waiting hp) hinit (idle_of_count hzero) abort start

theorem Inv.step (h : Inv s) {a : Action} (hs : s.step a = some t) : Inv t := by
  cases stepped hs with
  | start answers hp => exact h.start hp answers
  | stop answers => exact (h.stop answers none).1
  | complete hc => exact h.complete hc
  | drained answers hp hzero => exact (h.drained answers hp hzero).1
  | timeout => exact h.ret _
  | session handles hn => exact { h with opened := fun hs ↦ absurd hs hn }

theorem initial_inv (handles : Handles) : Inv (initial handles) where
  buffers _ := rfl
  events := rfl
  references := rfl
  sink := rfl
  opened hs := absurd hs Bool.false_ne_true
  pending _ := rfl
  ready _ hi := absurd hi Bool.false_ne_true
  attached _ hi := absurd hi Bool.false_ne_true
  running hr := absurd hr Bool.false_ne_true
  added ha := absurd ha Bool.false_ne_true
  fresh _ := ⟨rfl, rfl, fun _ ↦ rfl⟩
  detached _ := ⟨rfl, fun _ ↦ rfl⟩
  stopping hp := absurd rfl hp

theorem run_inv {handles : Handles} {as : List Action} (h : Run step (initial handles) as s) :
    Inv s :=
  h.invariant (initial_inv handles) fun _ _ _ hi hs ↦ hi.step hs

/-- Nothing is borrowed and nothing is under way. -/
structure Quiet (s : System) : Prop where
  running : s.reader.running = false
  pending : s.pending = []
  buffers : s.ledger.created = s.ledger.destroyed
  events : s.ledger.acquired = s.ledger.released

theorem Inv.quiet (h : Inv s) (hr : s.reader.running = false) (ha : s.reader.sourceAdded = false)
    (hheld : ∀ i, (s.slot i).held = 0) (hidle : ∀ i, (s.slot i).inFlight = false) : Quiet s where
  running := hr
  pending := by
    apply List.eq_nil_iff_forall_not_mem.mpr
    intro i hi
    have hcount := h.pending i
    rw [hidle] at hcount
    exact List.count_eq_zero.mp hcount hi
  buffers := by
    funext i
    rw [h.buffers, hheld, Nat.add_zero]
  events := by
    have he := h.events
    rwa [ha] at he

theorem Closed.quiet (hc : Closed s) (h : Inv s) : Quiet s :=
  h.quiet hc.running hc.sourceAdded (fun i ↦ by rw [hc.slots]; rfl) fun i ↦ by rw [hc.slots]

/-- A `stop` that does not have to wait leaves nothing behind. -/
theorem Inv.stop_quiet (h : Inv s) (hp : (s.stop answers none).phase = .ready) :
    Quiet (s.stop answers none) := by
  obtain ⟨hinv, hstopped⟩ := h.stop answers none
  generalize s.stop answers none = t at hp hinv hstopped
  cases hstopped with
  | nothing hnone =>
    have hnotRunning : s.reader.running = false := by
      by_contra hr
      obtain ⟨hn, hs, -, -⟩ := h.running (Bool.eq_true_of_not_eq_false hr)
      rcases hnone with hnone | hnone
      · exact Bool.false_ne_true (hnone.symm.trans hn)
      · exact Bool.false_ne_true (hnone.symm.trans hs)
    obtain ⟨ha, hheld⟩ : s.reader.sourceAdded = false ∧ ∀ i, (s.slot i).held = 0 := by
      rcases hnone with hnone | hnone
      · exact (h.fresh hnone).2
      · exact h.detached hnone
    exact hinv.quiet hnotRunning ha hheld (h.idle hnone.symm)
  | closed hclosed _ => exact hclosed.quiet hinv
  | waiting => cases hp

/-- After every run the buffers, event references and run-loop references that are
out are the ones the reader still points to; the stack holds each slot at most
once and only with buffers that have room for its whole transfer; and a `stop`
that returns without having timed out leaves nothing behind. -/
theorem feedback_resources {handles : Handles} {as : List Action}
    (h : Run step (initial handles) as s) :
    ((∀ i, s.ledger.created i = s.ledger.destroyed i + (s.slot i).held) ∧
      s.ledger.acquired = s.ledger.released + (if s.reader.sourceAdded then 1 else 0) ∧
      s.ledger.retained = if s.reader.runLoop then 1 else 0) ∧
    (s.pending.Nodup ∧ ∀ i ∈ s.pending, (s.slot i).Ready ∧ s.reader.session = true ∧
      s.reader.sink = true) ∧
    ∀ answers t, s.step (.stop answers) = some t ∧ t.phase = .ready ∨
      s.step (.drained answers) = some t → Quiet t := by
  have hinv := run_inv h
  refine ⟨⟨hinv.buffers, hinv.events, hinv.references⟩, ⟨?_, ?_⟩, ?_⟩
  · rw [List.nodup_iff_count_le_one]
    intro i
    rw [hinv.pending]
    split_ifs <;> omega
  · intro i hi
    have hf := hinv.inFlight hi
    obtain ⟨hs, -⟩ := hinv.attached i hf
    exact ⟨hinv.ready i hf, hs, hinv.sink.trans hs⟩
  · rintro answers t (⟨hs, hp⟩ | hs)
    · cases stepped hs
      exact hinv.stop_quiet hp
    · cases stepped hs with
      | drained _ hwait hzero =>
        obtain ⟨hi, hclosed⟩ := hinv.drained answers hwait hzero
        exact hclosed.quiet hi

def fourPackets : Completion where
  status := .success
  frStatus _ := .success
  frActCount k := if k = 1 then 2 else 3
  data := (List.range 256).map fun n ↦ if n = 0 then 44 else if n = 128 then 45 else 99

set_option maxRecDepth 4000 in
theorem feedback_resources_stopped : ∃ s t, Run step (initial ⟨true, 5, true⟩)
    [.start .allSucceed, .stop .allSucceed, .complete .allSucceed 0 fourPackets,
      .complete .allSucceed 0 fourPackets] s ∧
      s.step (.drained .allSucceed) = some t ∧ Quiet t ∧ t.reader.stats.packets = 8 := by
  have hrun : Run step (initial ⟨true, 5, true⟩) [.start .allSucceed, .stop .allSucceed,
      .complete .allSucceed 0 fourPackets, .complete .allSucceed 0 fourPackets] _ := .of_foldlM rfl
  exact ⟨_, _, hrun, rfl, (feedback_resources hrun).2.2 .allSucceed _ (.inr rfl), rfl⟩

end System

end NumarkNS6.AudioFeedback.AudioFeedbackReader
