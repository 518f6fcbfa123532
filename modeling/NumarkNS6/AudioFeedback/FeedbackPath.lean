import NumarkNS6.AudioFeedback.FeedbackRuns
import NumarkNS6.AudioOut.ReferenceScheduler
import Mathlib.Data.List.ReduceOption

namespace NumarkNS6.AudioFeedback

open AudioOut AudioFeedbackReader AudioFeedbackReader.System Foundation.Runs
open Usb (Handles IOReturn)

namespace AudioFeedbackReaderStats

def counter (stats : AudioFeedbackReaderStats) : AudioFeedbackKind → UInt64
  | .valid => stats.valid
  | .shortPacket => stats.shortPackets
  | .unexpectedLength => stats.unexpectedLengths
  | .outOfRange => stats.outOfRange
  | .transferError => stats.transferErrors

theorem counter_count (stats : AudioFeedbackReaderStats) (kind k : AudioFeedbackKind) :
    (stats.count kind).counter k = stats.counter k + if kind = k then 1 else 0 := by
  cases kind <;> cases k <;> simp [count, counter, countTransferError]

theorem packets_count (stats : AudioFeedbackReaderStats) (kind : AudioFeedbackKind) :
    (stats.count kind).packets = stats.packets + 1 := by cases kind <;> rfl

theorem counter_countTransferError (stats : AudioFeedbackReaderStats) (k : AudioFeedbackKind) :
    stats.countTransferError.counter k =
      stats.counter k + if k = .transferError then 1 else 0 := by
  cases k <;> simp [counter, countTransferError]

end AudioFeedbackReaderStats

def tally (os : List AudioFeedbackObservation) (k : AudioFeedbackKind) : ℕ :=
  os.countP (·.kind = k)

theorem length_eq_tally (os : List AudioFeedbackObservation) : os.length =
    tally os .valid + tally os .shortPacket + tally os .unexpectedLength + tally os .outOfRange +
      tally os .transferError := by
  induction os with
  | nil => rfl
  | cons o os ih =>
    simp only [tally, List.countP_cons, List.length_cons] at ih ⊢
    rw [ih]
    cases o.kind <;> simp <;> omega

theorem foldl_count (os : List AudioFeedbackObservation) (stats : AudioFeedbackReaderStats) :
    (os.foldl (fun stats o ↦ stats.count o.kind) stats).packets =
        stats.packets + UInt64.ofNat os.length ∧
      ∀ k, (os.foldl (fun stats o ↦ stats.count o.kind) stats).counter k =
        stats.counter k + UInt64.ofNat (tally os k) := by
  induction os generalizing stats with
  | nil => exact ⟨by simp, fun k ↦ by simp [tally]⟩
  | cons o os ih =>
    obtain ⟨hpackets, hcounter⟩ := ih (stats.count o.kind)
    refine ⟨?_, fun k ↦ ?_⟩
    · rw [List.foldl_cons, hpackets, AudioFeedbackReaderStats.packets_count, List.length_cons,
        Nat.add_comm, UInt64.ofNat_add]
      ac_rfl
    · rw [List.foldl_cons, hcounter, AudioFeedbackReaderStats.counter_count, tally, tally,
        List.countP_cons, UInt64.ofNat_add]
      simp only [decide_eq_true_eq]
      split_ifs
      · rw [UInt64.ofNat_one]
        ac_rfl
      · simp

namespace AudioFeedbackReader.System

variable {s t : System} {i : Fin slotCount} {answers : Answers}

/-- Every completed read has been published packet by packet, and every counter
says how many packets of its kind there were; failed submissions count as
transfer errors too. -/
structure Counted (s : System) : Prop where
  published : s.published = s.delivered.flatMap Completion.decode
  packets : s.reader.stats.packets = UInt64.ofNat s.published.length
  counters : ∀ k, s.reader.stats.counter k =
    UInt64.ofNat (tally s.published k + if k = .transferError then s.refused else 0)

structure Silent (s t : System) : Prop where
  delivered : t.delivered = s.delivered
  published : t.published = s.published
  stats : t.reader.stats = s.reader.stats
  refused : t.refused = s.refused

theorem Silent.refl (s : System) : Silent s s := ⟨rfl, rfl, rfl, rfl⟩

theorem Silent.trans {u : System} (h : Silent s t) (h' : Silent t u) : Silent s u :=
  ⟨h'.delivered.trans h.delivered, h'.published.trans h.published, h'.stats.trans h.stats,
    h'.refused.trans h.refused⟩

theorem Silent.counted (h : Silent s t) (hc : Counted s) : Counted t where
  published := by rw [h.published, h.delivered]; exact hc.published
  packets := by rw [h.stats, h.published]; exact hc.packets
  counters := by rw [h.stats, h.published, h.refused]; exact hc.counters

theorem silent_submit (s : System) (answers : Answers) (i : Fin slotCount) :
    Silent s (s.submit answers i).2 := by
  unfold System.submit
  dsimp only
  split_ifs <;> exact ⟨rfl, rfl, rfl, rfl⟩

theorem silent_releaseBuffers (s : System) (answers : Answers) :
    Silent s (s.releaseBuffers answers).2 := by
  unfold System.releaseBuffers
  split_ifs
  · exact .refl s
  · rw [foldl_releaseSlot (List.nodup_finRange slotCount)]
    exact ⟨rfl, rfl, rfl, rfl⟩

theorem silent_finishStop (s : System) (answers : Answers) (result : IOReturn)
    (start : Option IOReturn) : Silent s (s.finishStop answers result start) := by
  unfold System.finishStop
  dsimp only
  split_ifs
  · have h := silent_releaseBuffers s.releaseEvents answers
    exact ⟨h.delivered, h.published, h.stats, h.refused⟩
  · have h := silent_releaseBuffers s answers
    exact ⟨h.delivered, h.published, h.stats, h.refused⟩

theorem silent_stop (s : System) (answers : Answers) (start : Option IOReturn) :
    Silent s (s.stop answers start) := by
  unfold System.stop
  dsimp only
  split_ifs
  · exact ⟨rfl, rfl, rfl, rfl⟩
  · exact ⟨rfl, rfl, rfl, rfl⟩
  · exact Silent.trans (t := s.setRunning false) ⟨rfl, rfl, rfl, rfl⟩ (silent_finishStop ..)

theorem silent_createBuffers (s : System) (answers : Answers) (l : List (Fin slotCount)) :
    Silent s (s.createBuffers answers l).2 := by
  induction l generalizing s with
  | nil => exact .refl s
  | cons a l ih =>
    rw [createBuffers_cons]
    split_ifs
    · exact .refl s
    · exact ⟨rfl, rfl, rfl, rfl⟩
    · exact Silent.trans (t := s.allocated a) ⟨rfl, rfl, rfl, rfl⟩ (ih _)

theorem Counted.countRefusal (h : Counted s) : Counted s.countRefusal where
  published := h.published
  packets := h.packets
  counters k := by
    change s.reader.stats.countTransferError.counter k = UInt64.ofNat (tally s.published k +
      if k = .transferError then s.refused + 1 else 0)
    rw [AudioFeedbackReaderStats.counter_countTransferError, h.counters]
    split_ifs
    · rw [← Nat.add_assoc, UInt64.ofNat_add _ 1]
      rfl
    · simp

theorem Counted.submitAll (h : Counted s) (answers : Answers) (l : List (Fin slotCount)) :
    Counted (s.submitAll answers l) := by
  induction l generalizing s with
  | nil => exact { h with }
  | cons i rest ih =>
    have hsub := (silent_submit s answers i).counted h
    rw [System.submitAll]
    split_ifs
    · exact ih hsub
    · exact (silent_stop ..).counted hsub.countRefusal

theorem Counted.start (h : Counted s) (answers : Answers) : Counted (s.start answers) := by
  unfold System.start
  dsimp only
  have hcreated := (silent_createBuffers s.attach.retain answers (List.finRange slotCount)).counted
    { h with }
  split_ifs
  · exact { h with }
  · exact { h with }
  · have hreleased := (silent_releaseBuffers _ answers).counted hcreated
    exact { hreleased with }
  · have hreleased := (silent_releaseBuffers _ answers).counted hcreated
    exact { hreleased with }
  · have hlaunched : Counted
        (s.attach.retain.createBuffers answers (List.finRange slotCount)).2.launch := { hcreated with }
    exact hlaunched.submitAll answers _

theorem Counted.landed (h : Counted s) (k : ℕ) (i : Fin slotCount) (c : Completion) :
    Counted (s.landed k i c) := by
  obtain ⟨hpackets, hcounters⟩ := foldl_count c.decode s.reader.stats
  refine ⟨?_, ?_, fun kind ↦ ?_⟩
  · change s.published ++ c.decode = (s.delivered ++ [c]).flatMap Completion.decode
    rw [List.flatMap_append, List.flatMap_singleton, h.published]
  · change _ = UInt64.ofNat (s.published ++ c.decode).length
    rw [List.length_append, UInt64.ofNat_add, ← h.packets]
    exact hpackets
  · change _ = UInt64.ofNat (tally (s.published ++ c.decode) kind + _)
    rw [tally, List.countP_append, Nat.add_right_comm, UInt64.ofNat_add, ← tally, ← tally,
      show (s.landed k i c).refused = s.refused from rfl, ← h.counters]
    exact hcounters kind

theorem Counted.resubmit (h : Counted s) (answers : Answers) (i : Fin slotCount) :
    Counted (s.resubmit answers i) := by
  have hsub := (silent_submit s answers i).counted h
  unfold System.resubmit
  dsimp only
  split_ifs
  · exact hsub
  · exact { hsub.countRefusal with }
  · exact h

theorem Counted.step (h : Counted s) (hi : Inv s) {a : Action} (hs : s.step a = some t) :
    Counted t := by
  cases stepped hs with
  | start answers => exact h.start answers
  | stop answers => exact (silent_stop ..).counted h
  | @complete answers k c _ hc =>
    obtain ⟨i, -, -, -, rfl⟩ := complete_cases hi hc
    have hlanded := h.landed k i c
    split_ifs
    · exact { hlanded with }
    · exact hlanded.resubmit answers i
  | drained answers => exact (silent_finishStop ..).counted h
  | timeout => exact { h with }
  | session handles => exact { h with }

def received : Action → List Completion
  | .complete _ _ c => [c]
  | _ => []

theorem submitAll_delivered (s : System) (answers : Answers) (l : List (Fin slotCount)) :
    (s.submitAll answers l).delivered = s.delivered := by
  induction l generalizing s with
  | nil => rfl
  | cons i rest ih =>
    have hsub := (silent_submit s answers i).delivered
    rw [System.submitAll]
    split_ifs
    · exact (ih _).trans hsub
    · exact (silent_stop ..).delivered.trans hsub

theorem start_delivered (s : System) (answers : Answers) :
    (s.start answers).delivered = s.delivered := by
  have hcreated := silent_createBuffers s.attach.retain answers (List.finRange slotCount)
  unfold System.start
  dsimp only
  split_ifs
  · rfl
  · rfl
  · exact (silent_releaseBuffers _ answers).delivered.trans hcreated.delivered
  · exact (silent_releaseBuffers _ answers).delivered.trans hcreated.delivered
  · exact (submitAll_delivered _ answers _).trans hcreated.delivered

theorem resubmit_delivered (s : System) (answers : Answers) (i : Fin slotCount) :
    (s.resubmit answers i).delivered = s.delivered := by
  have hsub := (silent_submit s answers i).delivered
  unfold System.resubmit
  dsimp only
  split_ifs
  · exact hsub
  · exact hsub
  · rfl

theorem step_delivered (hi : Inv s) {a : Action} (hs : s.step a = some t) :
    t.delivered = s.delivered ++ received a := by
  cases stepped hs with
  | start answers => exact (start_delivered s answers).trans (List.append_nil _).symm
  | stop answers => exact (silent_stop ..).delivered.trans (List.append_nil _).symm
  | complete hc =>
    obtain ⟨i, -, -, -, rfl⟩ := complete_cases hi hc
    split_ifs
    · rfl
    · exact resubmit_delivered ..
  | drained answers => exact (silent_finishStop ..).delivered.trans (List.append_nil _).symm
  | timeout => exact (List.append_nil _).symm
  | session handles => exact (List.append_nil _).symm

theorem run_counted {handles : Handles} {as : List Action} (h : Run step (initial handles) as s) :
    Counted s := by
  have hstart : Counted (initial handles) := ⟨rfl, rfl, fun k ↦ by cases k <;> rfl⟩
  have hboth := h.invariant (I := fun s ↦ Inv s ∧ Counted s) ⟨initial_inv handles, hstart⟩ (by
    rintro s a t ⟨hi, hc⟩ hs
    exact ⟨hi.step hs, hc.step hi hs⟩)
  exact hboth.2

theorem decode_length (cs : List Completion) :
    (cs.flatMap Completion.decode).length = packetsPerTransfer * cs.length := by
  induction cs with
  | nil => rfl
  | cons c cs ih =>
    rw [List.flatMap_cons, List.length_append, ih, List.length_cons, Completion.decode,
      List.length_map, List.length_range]
    ring

/-- After every run the sink has got the four packets of every completed read,
each once and in order, and the counters account for every packet: the reader
counts four packets for each completed read, every one of them under exactly one
kind, and every failed submission as one more transfer error. -/
theorem feedback_accounted {handles : Handles} {as : List Action}
    (h : Run step (initial handles) as s) :
    s.published = s.delivered.flatMap Completion.decode ∧
      s.reader.stats.packets = UInt64.ofNat (4 * s.delivered.length) ∧
      (∀ k, s.reader.stats.counter k =
        UInt64.ofNat (tally s.published k + if k = .transferError then s.refused else 0)) ∧
      s.reader.stats.packets + UInt64.ofNat s.refused =
        s.reader.stats.valid + s.reader.stats.shortPackets + s.reader.stats.unexpectedLengths +
          s.reader.stats.outOfRange + s.reader.stats.transferErrors := by
  have hc := run_counted h
  have hlen : s.published.length = packetsPerTransfer * s.delivered.length := by
    rw [hc.published, decode_length]
  refine ⟨hc.published, hlen ▸ hc.packets, hc.counters, ?_⟩
  have hvalid := hc.counters .valid
  have hshort := hc.counters .shortPacket
  have hunexpected := hc.counters .unexpectedLength
  have hrange := hc.counters .outOfRange
  have herrors := hc.counters .transferError
  simp only [AudioFeedbackReaderStats.counter, reduceCtorEq, if_false, Nat.add_zero,
    if_true] at hvalid hshort hunexpected hrange herrors
  rw [hc.packets, hvalid, hshort, hunexpected, hrange, herrors, length_eq_tally]
  simp only [UInt64.ofNat_add]
  ac_rfl

set_option maxRecDepth 4000 in
theorem feedback_accounted_four_packets : ∃ s, Run step (initial ⟨true, 5, true⟩)
    [.start .allSucceed, .complete .allSucceed 0 fourPackets] s ∧
      s.reader.stats.packets = UInt64.ofNat (4 * s.delivered.length) ∧
      s.reader.stats.packets = 4 ∧ s.reader.stats.valid = 2 ∧ s.reader.stats.shortPackets = 1 := by
  have hrun : Run step (initial ⟨true, 5, true⟩)
      [.start .allSucceed, .complete .allSucceed 0 fourPackets] _ := .of_foldlM rfl
  exact ⟨_, hrun, (feedback_accounted hrun).2.1, rfl, rfl, rfl⟩

end AudioFeedbackReader.System

/-- `AudioTransportRuntime::publish` -/
def publish (packetPolicy : AudioPacketPolicy) (o : AudioFeedbackObservation) :
    AudioPacketPolicy :=
  if o.kind = .valid then packetPolicy.observeFeedback o.framesPerMillisecond
  else if o.kind ≠ .transferError then packetPolicy.observeInvalidFeedback
  else packetPolicy

/-- The feedback reader, the packet policy it feeds, and the sizes of the packets
that have been asked for so far. -/
structure FeedbackPath where
  feedback : System
  packetPolicy : AudioPacketPolicy
  emitted : List UInt32

namespace FeedbackPath

inductive Action
  | feedback (a : System.Action)
  | nextPacketFrames

/-- The sink is called in the callback, so that the policy has seen all
observations of a completed read before anything else happens. -/
def step (p : FeedbackPath) : Action → Option FeedbackPath
  | .feedback a => (p.feedback.step a).map fun t ↦ { p with
      feedback := t
      packetPolicy := (t.published.drop p.feedback.published.length).foldl publish p.packetPolicy }
  | .nextPacketFrames => some { p with
      packetPolicy := p.packetPolicy.nextPacketFrames.2
      emitted := p.emitted ++ [p.packetPolicy.nextPacketFrames.1] }

/-- What an observation means for the scheduler: a packet that was not
transferred means nothing. -/
def op (o : AudioFeedbackObservation) : Option ReferenceScheduler.Op :=
  match o.kind with
  | .valid => some (.observeFeedback o.framesPerMillisecond)
  | .transferError => none
  | _ => some .observeInvalidFeedback

def Action.ops : Action → List ReferenceScheduler.Op
  | .feedback a => ((received a).flatMap Completion.decode).filterMap op
  | .nextPacketFrames => [.nextPacketFrames]

def initial (handles : Handles) : FeedbackPath where
  feedback := .initial handles
  packetPolicy := .make 44100 8000
  emitted := []

structure Kept (p : FeedbackPath) (ops : List ReferenceScheduler.Op) : Prop where
  inv : Inv p.feedback
  counted : Counted p.feedback
  policy : p.packetPolicy =
    ReferenceScheduler.after ReferenceScheduler.policyStep (.make 44100 8000) ops
  emitted : p.emitted = (ReferenceScheduler.results ReferenceScheduler.policyStep
    (.make 44100 8000) ops).reduceOption

theorem results_append {σ : Type} (step : σ → ReferenceScheduler.Op → Option UInt32 × σ) (s : σ)
    (xs ys : List ReferenceScheduler.Op) : ReferenceScheduler.results step s (xs ++ ys) =
      ReferenceScheduler.results step s xs ++
        ReferenceScheduler.results step (ReferenceScheduler.after step s xs) ys := by
  induction xs generalizing s with
  | nil => rfl
  | cons x xs ih => exact congrArg (_ :: ·) (ih _)

theorem publish_op (packetPolicy : AudioPacketPolicy) (o : AudioFeedbackObservation) :
    (op o = none ∧ publish packetPolicy o = packetPolicy) ∨
      ∃ x, op o = some x ∧ ReferenceScheduler.policyStep packetPolicy x =
        (none, publish packetPolicy o) := by
  unfold op publish
  cases o.kind with
  | transferError => exact .inl ⟨rfl, rfl⟩
  | _ => exact .inr ⟨_, rfl, rfl⟩

theorem foldl_publish (os : List AudioFeedbackObservation) (packetPolicy : AudioPacketPolicy) :
    os.foldl publish packetPolicy =
        ReferenceScheduler.after ReferenceScheduler.policyStep packetPolicy (os.filterMap op) ∧
      (ReferenceScheduler.results ReferenceScheduler.policyStep packetPolicy
        (os.filterMap op)).reduceOption = [] := by
  induction os generalizing packetPolicy with
  | nil => exact ⟨rfl, rfl⟩
  | cons o os ih =>
    rw [List.foldl_cons]
    rcases publish_op packetPolicy o with ⟨hop, hp⟩ | ⟨x, hop, hp⟩
    · rw [List.filterMap_cons_none hop, hp]
      exact ih packetPolicy
    · rw [List.filterMap_cons_some hop, ReferenceScheduler.results, ReferenceScheduler.after,
        List.foldl_cons, hp]
      exact ih _

theorem Kept.step {p q : FeedbackPath} {ops : List ReferenceScheduler.Op} (h : Kept p ops)
    {a : Action} (hs : p.step a = some q) : Kept q (ops ++ a.ops) := by
  cases a with
  | feedback a =>
    obtain ⟨t, ht, rfl⟩ := Option.map_eq_some_iff.mp hs
    have hcounted := h.counted.step h.inv ht
    have hnew : t.published = p.feedback.published ++ (received a).flatMap Completion.decode := by
      rw [hcounted.published, step_delivered h.inv ht, List.flatMap_append, ← h.counted.published]
    have hdrop : t.published.drop p.feedback.published.length =
        (received a).flatMap Completion.decode := by rw [hnew, List.drop_left]
    obtain ⟨hafter, hresults⟩ := foldl_publish ((received a).flatMap Completion.decode) p.packetPolicy
    refine ⟨h.inv.step ht, hcounted, ?_, ?_⟩
    · dsimp only
      rw [hdrop, hafter, h.policy, ReferenceScheduler.after, ReferenceScheduler.after,
        ← List.foldl_append]
      rfl
    · rw [results_append, List.reduceOption_append, ← h.policy, Action.ops, hresults,
        List.append_nil]
      exact h.emitted
  | nextPacketFrames =>
    cases hs
    refine ⟨h.inv, h.counted, ?_, ?_⟩
    · dsimp only
      rw [Action.ops, ReferenceScheduler.after_concat, ← h.policy]
      rfl
    · rw [Action.ops, results_append, List.reduceOption_append, ← h.policy, ← h.emitted]
      rfl

theorem run_kept {handles : Handles} {as : List Action} {p : FeedbackPath}
    (h : Run step (initial handles) as p) : Kept p (as.flatMap Action.ops) := by
  induction h with
  | nil => exact ⟨initial_inv handles, ⟨rfl, rfl, fun k ↦ by cases k <;> rfl⟩, rfl, rfl⟩
  | snoc _ hs ih =>
    rw [List.flatMap_append, List.flatMap_singleton]
    exact ih.step hs

/-- From the wire to the packet sizes: whatever the device sends and in whatever
order reads complete, are refused, aborted or time out, the packets handed out
are the ones the reference scheduler hands out for the feedback that arrived. A
packet of three bytes whose first is 42 to 46 counts as that value, any other
packet that arrived as a lost one, and one that did not arrive not at all. -/
theorem feedback_refines_scheduler {handles : Handles} {as : List Action} {p : FeedbackPath}
    (h : Run step (initial handles) as p) : p.emitted =
      (ReferenceScheduler.results ReferenceScheduler.step .initial
        (as.flatMap Action.ops)).reduceOption := by
  rw [(run_kept h).emitted, ReferenceScheduler.make_simulates.results]

set_option maxRecDepth 4000 in
theorem feedback_refines_scheduler_one_read : ∃ p, Run step (initial ⟨true, 5, true⟩)
    [.feedback (.start .allSucceed), .feedback (.complete .allSucceed 0 fourPackets),
      .nextPacketFrames] p ∧ p.emitted = (ReferenceScheduler.results ReferenceScheduler.step .initial
        (((fourPackets.decode.filterMap op)) ++ [.nextPacketFrames])).reduceOption := by
  have hrun : Run step (initial ⟨true, 5, true⟩) [.feedback (.start .allSucceed),
      .feedback (.complete .allSucceed 0 fourPackets), .nextPacketFrames] _ := .of_foldlM rfl
  exact ⟨_, hrun, feedback_refines_scheduler hrun⟩

end FeedbackPath

end NumarkNS6.AudioFeedback
