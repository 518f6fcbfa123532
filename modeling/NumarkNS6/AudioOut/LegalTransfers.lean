import NumarkNS6.AudioOut.TransferAccounting
import NumarkNS6.AudioOut.TransferContents

namespace NumarkNS6.AudioOut

open Foundation.CircularStore Usb

/-- The policies that feedback and whole batches lead to, whatever ring a batch is built from. -/
inductive AudioPacketPolicy.Reachable : AudioPacketPolicy → Prop
  | make : Reachable (make 44100 8000)
  | observeFeedback {p : AudioPacketPolicy} (framesPerMillisecond : UInt8) :
      Reachable p → Reachable (p.observeFeedback framesPerMillisecond)
  | observeInvalidFeedback {p : AudioPacketPolicy} :
      Reachable p → Reachable p.observeInvalidFeedback
  | build {p : AudioPacketPolicy} (ring : AudioOutputRing ℚ) :
      Reachable p → Reachable (AudioOutTransferBatch.build ring p).2.2.2

open AudioPacketPolicy (Reachable Ready)

variable {ring : AudioOutputRing ℚ} {policy : AudioPacketPolicy}

theorem AudioPacketPolicy.Reachable.ready (h : Reachable policy) : Ready policy := by
  induction h with
  | make => exact AudioPacketPolicy.make_ready
  | observeFeedback v _ ih => exact ih.observe (.observeFeedback v) nofun
  | observeInvalidFeedback _ ih => exact ih.observe .observeInvalidFeedback nofun
  | build ring _ ih =>
    by_cases hc : ring.channels = AudioOutPacket.channels
    · exact (AudioOutTransferBatch.build_legal ih hc).2.2.2
    · rw [AudioOutTransferBatch.build_refused _ hc]
      exact ih

namespace AudioOutTransferSlots

variable {t : AudioOutTransferSlots}

def Exhausted (t : AudioOutTransferSlots) : Prop :=
  t.accepting = false ∨ ∀ i < slotCount, t.inUse[i]? = some true

inductive Supplied (t : AudioOutTransferSlots) (ring : AudioOutputRing ℚ)
    (policy : AudioPacketPolicy) :
    Option ℕ × AudioOutTransferSlots × AudioOutputRing ℚ × AudioPacketPolicy → Prop
  | refused (reason : Exhausted t) : Supplied t ring policy (none, t, ring, policy)
  | granted {t' : AudioOutTransferSlots} {i : ℕ} (slot : i < slotCount)
      (packets : t'.packets = t.packets.set i (AudioOutTransferBatch.build ring policy).2.1)
      (inUse : t'.inUse.length = t.inUse.length) :
      Supplied t ring policy (some i, t', (AudioOutTransferBatch.build ring policy).2.2)

theorem reserveLoop_supplied (ha : t.accepting = true)
    (hbuild : (AudioOutTransferBatch.build ring policy).1 = true) {slots : List ℕ}
    (hslots : ∀ i ∈ slots, i < slotCount)
    (hused : ∀ i < slotCount, i ∈ slots ∨ t.inUse[i]? = some true) :
    Supplied t ring policy (reserveLoop ring policy t slots) := by
  induction slots with
  | nil => exact .refused (.inr fun i hi ↦ (hused i hi).resolve_left List.not_mem_nil)
  | cons i rest ih =>
    obtain ⟨hi, hrest⟩ := List.forall_mem_cons.mp hslots
    by_cases hmark : t.inUse[i]? = some true
    · rw [reserveLoop, if_pos hmark]
      refine ih hrest fun j hj ↦ ?_
      rcases hused j hj with hmem | hj
      · rcases List.mem_cons.mp hmem with rfl | hmem
        · exact .inr hmark
        · exact .inl hmem
      · exact .inr hj
    · have haccept : (t.mark i true).accepting = true := ha
      simp only [reserveLoop, if_neg hmark, haccept, hbuild, Bool.not_true, Bool.false_eq_true,
        if_false]
      exact .granted hi rfl (List.length_set ..)

theorem reserve_supplied (t : AudioOutTransferSlots)
    (hbuild : (AudioOutTransferBatch.build ring policy).1 = true) :
    Supplied t ring policy (t.reserve ring policy) := by
  rw [reserve]
  cases ha : t.accepting with
  | false => exact .refused (.inl ha)
  | true =>
    exact reserveLoop_supplied ha hbuild (fun i ↦ List.mem_range.mp)
      fun i hi ↦ .inl (List.mem_range.mpr hi)

theorem complete_lengths (t : AudioOutTransferSlots) (i : ℕ) :
    (t.complete i).2.packets = t.packets ∧ (t.complete i).2.inUse.length = t.inUse.length := by
  rw [complete]
  split_ifs
  · exact ⟨rfl, rfl⟩
  · exact ⟨rfl, List.length_set ..⟩
  · exact ⟨rfl, rfl⟩

end AudioOutTransferSlots

namespace AudioOutWorker.System

open AudioOutTransferBatch AudioOutTransferSlots

/-- A worker whose ring and policy are those of the driver, and which has never
refused a batch. -/
structure Fed (s : System) : Prop where
  channels : s.worker.ring.channels = AudioOutPacket.channels
  policy : Reachable s.worker.packetPolicy
  packets : s.worker.transferSlots.packets.length = slotCount
  flags : s.worker.transferSlots.inUse.length = slotCount
  trace : .unwritten .badArgument ∉ s.trace

variable {s : System} {answers : Answers} {i : ℕ}

theorem Fed.halt (h : Fed s) : Fed s.halt := { h with }

theorem Fed.countFailure (h : Fed s) : Fed s.countFailure := { h with }

theorem Fed.setRunLoop (h : Fed s) (runLoop : Bool) : Fed (s.setRunLoop runLoop) := { h with }

theorem Fed.ret (h : Fed s) (result : IOReturn) : Fed (s.ret result) := { h with }

theorem Fed.log (h : Fed s) {e : Event} (he : e ≠ .unwritten .badArgument) : Fed (s.log e) :=
  { h with
    trace := by
      rw [System.log, List.mem_append, List.mem_singleton]
      exact not_or.mpr ⟨h.trace, he.symm⟩ }

theorem Fed.modify (h : Fed s) (i : ℕ) (f : Slot → Slot) : Fed (s.modify i f) := by
  have hchanged : Fed { s with worker := { s.worker with slots := s.worker.slots.modify i f } } :=
    { h with }
  rw [System.modify]
  exact hchanged.log (by simp)

theorem Fed.release (h : Fed s) (i : ℕ) : Fed (s.release i) :=
  have ⟨hp, hf⟩ := complete_lengths s.worker.transferSlots i
  { h with
    packets := (congrArg List.length hp).trans h.packets
    flags := hf.trans h.flags }

theorem Fed.fill (h : Fed s) (i : ℕ) (batch : AudioOutTransferBatch) : Fed (s.fill i batch) := by
  have hmod := h.modify i fun slot ↦
    { data := slot.data.map fun data ↦ splice data 0 (batch.bytes.take batch.byteCount)
      frames := slot.frames.map fun _ ↦ requests batch }
  rw [System.fill]
  split
  · exact { hmod with }
  · exact hmod

theorem requests_sum {batch : AudioOutTransferBatch} {ps : List Part} (h : Legal batch ps) :
    ((requests batch).map fun frame ↦ frame.frReqCount.toNat).sum = batch.byteCount := by
  have hlen : batch.packetByteCounts.length = serviceIntervals := by
    rw [h.counts, List.length_map, h.packets]
  have hcounts : (List.range serviceIntervals).map batch.packetByteCount =
      batch.packetByteCounts := by
    apply List.ext_getElem?
    intro i
    by_cases hi : i < serviceIntervals
    · simp [packetByteCount, hi, hlen]
    · simp [hi, hlen]
  rw [h.byteCount, ← hcounts, requests, List.map_map, List.map_map]
  rfl

theorem Fed.submitSlot (h : Fed s) {batch : AudioOutTransferBatch} {ps : List Part}
    (hbatch : s.worker.transferSlots.packet i = some batch) (hl : Legal batch ps) :
    Fed (s.submitSlot answers i).2 := by
  rw [System.submitSlot, hbatch]
  simp only [if_neg (Nat.not_lt.mpr hl.bound), requests_sum hl, ne_eq, not_true_eq_false, if_false]
  have hwritten : Fed ((s.fill i batch).log (.written i (answers.writePipe i))) :=
    (h.fill i batch).log (by simp)
  split
  · exact hwritten.release i
  · exact { hwritten with }

theorem Fed.submitNext (h : Fed s) : Fed (s.submitNext answers).2 := by
  rw [System.submitNext]
  split
  · exact h.log (by simp)
  · obtain ⟨hbuilt, hlegal, hchannels, -⟩ := build_legal h.policy.ready h.channels
    have hres := reserve_supplied s.worker.transferSlots hbuilt
    rw [System.reserve]
    generalize s.worker.transferSlots.reserve s.worker.ring s.worker.packetPolicy = r at hres
    cases hres with
    | refused => exact Fed.log { h with } (by simp)
    | @granted t' i hi hp hu =>
      have hpacket : t'.packet i = some (build s.worker.ring s.worker.packetPolicy).2.1 := by
        rw [packet, if_pos hi, hp, List.getElem?_set_self (by rw [h.packets]; exact hi)]
      refine Fed.submitSlot ?_ hpacket hlegal
      exact { h with
        channels := hchannels
        policy := .build _ h.policy
        packets := by rw [hp, List.length_set]; exact h.packets
        flags := hu.trans h.flags }

theorem Fed.resubmit (h : Fed s) : Fed (s.resubmit answers) := by
  have hsub : Fed (s.submitNext answers).2 := h.submitNext
  simp only [System.resubmit]
  split_ifs
  · exact hsub.countFailure.halt
  · exact hsub
  · exact h

theorem Fed.countCompleted (h : Fed s) (i : ℕ) : Fed (s.countCompleted i) := by
  simp only [System.countCompleted]
  refine Fed.log ?_ nofun
  exact { h with }

theorem Fed.complete (h : Fed s) (k : ℕ) (c : Completion) : Fed (s.complete answers k c) := by
  rw [System.complete]
  split
  · exact h
  · next t _ =>
    have harrive : Fed (s.arrive k t c) := { h with }
    simp only [System.didComplete]
    split
    · exact ((harrive.release t.slot).countCompleted t.slot).resubmit
    · refine Fed.halt (Fed.log ?_ (by simp))
      exact (harrive.release t.slot).countFailure

theorem Fed.releaseBuffers (h : Fed s) : Fed (s.releaseBuffers answers).2 :=
  releaseBuffers_of_modify (fun _ i f h ↦ h.modify i f) h

theorem Fed.finishStop (h : Fed s) (result : IOReturn) (start : Option IOReturn) :
    Fed (s.finishStop answers result start) := by
  refine Fed.ret (Fed.releaseBuffers ?_) _
  split
  · exact { h with }
  · exact h

theorem Fed.stop (h : Fed s) (start : Option IOReturn) : Fed (s.stop answers start) := by
  have hhalt : Fed (s.halt.log .stopped) := h.halt.log nofun
  simp only [System.stop]
  split_ifs
  · exact h.ret _
  · exact { hhalt with }
  · exact hhalt.finishStop _ _

theorem Fed.submitAll (h : Fed s) (n : ℕ) : Fed (s.submitAll answers n) := by
  induction n generalizing s with
  | zero => exact h.ret _
  | succ n ih =>
    have hsub : Fed (s.submitNext answers).2 := h.submitNext
    simp only [System.submitAll]
    split
    · exact hsub.countFailure.stop _
    · exact ih hsub

theorem Fed.createBuffers (h : Fed s) (slots : List ℕ) : Fed (s.createBuffers answers slots).2 := by
  induction slots generalizing s with
  | nil => exact h
  | cons i rest ih =>
    simp only [System.createBuffers]
    split_ifs
    · exact h
    · exact h.modify i _
    · exact ih ((h.modify i _).modify i _)

theorem Fed.abandonStart (h : Fed s) (result : IOReturn) : Fed (s.abandonStart answers result) :=
  (h.releaseBuffers.setRunLoop false).ret result

theorem Fed.start (h : Fed s) : Fed (s.start answers) := by
  have hmade : Fed ((s.setRunLoop true).createBuffers answers (List.range slotCount)).2 :=
    (h.setRunLoop true).createBuffers _
  simp only [System.start]
  split_ifs
  · exact h.ret _
  · exact (h.setRunLoop false).ret _
  · exact hmade.abandonStart _
  · exact hmade.abandonStart _
  · refine Fed.submitAll ?_ _
    exact { hmade with }

def Action.Proper : Action → Prop
  | .supply ring policy => ring.channels = AudioOutPacket.channels ∧ Reachable policy
  | _ => True

theorem Fed.step (h : Fed s) {a : Action} (ha : a.Proper) : Fed (s.step a) := by
  cases a with
  | start answers =>
    rw [System.step]
    split
    · exact h.start
    · exact h
  | stop answers =>
    rw [System.step]
    split
    · exact h.stop none
    · exact h
  | complete answers k c => exact h.complete k c
  | drained answers =>
    rw [System.step]
    split
    · exact h
    · split
      · exact h.finishStop _ _
      · exact h
  | timeout =>
    rw [System.step]
    split
    · exact h
    · split
      · exact h.ret _
      · exact h
  | supply ring policy => exact { h with channels := ha.1, policy := ha.2 }

theorem Fed.after (h : Fed s) {actions : List Action} (ha : ∀ a ∈ actions, a.Proper) :
    Fed (s.after actions) := by
  induction actions generalizing s with
  | nil => exact h
  | cons a actions ih =>
    obtain ⟨hhead, hrest⟩ := List.forall_mem_cons.mp ha
    exact ih (h.step hhead) hrest

theorem fed_initial (handles : Handles) (hc : ring.channels = AudioOutPacket.channels)
    (hp : Reachable policy) : Fed (initial handles ring policy) where
  channels := hc
  policy := hp
  packets := rfl
  flags := rfl
  trace := nofun

/-- Every batch is a legal transfer, so that a worker never refuses one and is
short of a slot only when all are in use or it no longer accepts. -/
theorem transfers_legal (handles : Handles) (hp : Reachable policy)
    (hc : ring.channels = AudioOutPacket.channels) {actions : List Action}
    (ha : ∀ a ∈ actions, a.Proper) :
    ((build ring policy).1 = true ∧
      Legal (build ring policy).2.1 (parts serviceIntervals ring policy)) ∧
    Event.unwritten .badArgument ∉ ((initial handles ring policy).after actions).trace ∧
    (((initial handles ring policy).after actions).reserve.1 = none →
      Exhausted ((initial handles ring policy).after actions).worker.transferSlots) := by
  obtain ⟨hbuilt, hlegal, -, -⟩ := build_legal hp.ready hc
  have hfed := (fed_initial handles hc hp).after ha
  refine ⟨⟨hbuilt, hlegal⟩, hfed.trace, ?_⟩
  obtain ⟨hnext, -, -, -⟩ := build_legal hfed.policy.ready hfed.channels
  have hres := reserve_supplied ((initial handles ring policy).after actions).worker.transferSlots hnext
  rw [System.reserve]
  generalize AudioOutTransferSlots.reserve _ _ _ = r at hres
  cases hres with
  | refused reason => exact fun _ ↦ reason
  | granted => exact fun hnone ↦ absurd hnone (Option.some_ne_none _)

/-- A first start over a small empty ring, after one feedback value. -/
theorem transfers_legal_first_start :
    let ring : AudioOutputRing ℚ := ⟨8, 4, List.replicate 32 0, 0, 0, 0⟩
    let policy := (AudioPacketPolicy.make 44100 8000).observeFeedback 45
    let started := (initial ⟨true, 1, true⟩ ring policy).after [.start
      ⟨true, fun _ ↦ .success, .success, fun _ ↦ .success, .success, .success, fun _ ↦ .success⟩]
    ((build ring policy).1 = true ∧
      Legal (build ring policy).2.1 (parts serviceIntervals ring policy)) ∧
    Event.unwritten .badArgument ∉ started.trace ∧
    (started.reserve.1 = none → Exhausted started.worker.transferSlots) :=
  transfers_legal _ (.observeFeedback 45 .make) rfl (List.forall_mem_singleton.mpr trivial)

end AudioOutWorker.System

end NumarkNS6.AudioOut
