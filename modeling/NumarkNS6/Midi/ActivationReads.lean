import Mathlib.Logic.Function.Basic
import NumarkNS6.Midi.HandshakeReply
import NumarkNS6.Midi.MIDIInputReader
import NumarkNS6.Midi.StreamGrammar

namespace NumarkNS6.Midi.ControllerActivation

open Foundation.CircularStore Foundation.Runs Foundation.StreamSearch HandshakeReplyParser Usb

/-- One of the reads kept outstanding. `attached` says that the pointers to the
shared parser and flags are set. -/
structure InputRead where
  attached : Bool
  data : ReportBuffer
  running : Bool
  inFlight : Bool

def InputRead.init : InputRead where
  attached := false
  data := ⟨List.replicate packetBytes 0, rfl⟩
  running := false
  inFlight := false

def InputRead.submit (read : InputRead) (result : IOReturn) : IOReturn × InputRead :=
  if !read.running || read.inFlight then (.notReady, read)
  else (result, { read with inFlight := result = .success })

structure Reads where
  reads : Fin 4 → InputRead
  handshakeReplyParser : HandshakeReplyParser
  handshakeReplySeen : Bool
  firstCompletionLogged : Bool

namespace Reads

def init : Reads where
  reads _ := .init
  handshakeReplyParser := .fresh
  handshakeReplySeen := false
  firstCompletionLogged := false

def stopRunning (s : Reads) : Reads :=
  { s with reads := fun slot ↦ { s.reads slot with running := false } }

def startSlots (s : Reads) (results : Fin 4 → IOReturn) : List (Fin 4) → IOReturn × Reads
  | [] => (.success, s)
  | slot :: slots =>
    let submitted := InputRead.submit { s.reads slot with attached := true, running := true }
      (results slot)
    let s := { s with reads := Function.update s.reads slot submitted.2 }
    if submitted.1 ≠ .success then (submitted.1, s.stopRunning) else s.startSlots results slots

def startReads (s : Reads) (results : Fin 4 → IOReturn) : IOReturn × Reads :=
  s.startSlots results [0, 1, 2, 3]

/-- The completion callback of `submit`, after the stack has stored the bytes of
the delivery. The whole buffer, terminator included, goes to the parser. -/
def complete (s : Reads) (slot : Fin 4) (delivery : Delivery) (resubmit : IOReturn) : Reads :=
  let completed := { s.reads slot with
    data := (s.reads slot).data.store delivery.payload
    inFlight := false }
  let length := min delivery.payload.length packetBytes
  let success := delivery.status = .success
  let consumed := s.handshakeReplyParser.consume (some completed.data.bytes) length
  { reads := Function.update s.reads slot
      (if success ∧ completed.running then (completed.submit resubmit).2 else completed)
    handshakeReplyParser :=
      if success ∧ completed.attached then consumed.2 else s.handshakeReplyParser
    handshakeReplySeen :=
      if success ∧ completed.attached then s.handshakeReplySeen || consumed.1
      else s.handshakeReplySeen
    firstCompletionLogged := s.firstCompletionLogged || success }

/-- What happens to the reads during one activation: they are started, before the
session is reopened and again after it, completed by the stack, and stopped. -/
inductive Action
  | startReads (results : Fin 4 → IOReturn)
  | complete (slot : Fin 4) (delivery : Delivery) (resubmit : IOReturn)
  | stopReads

def step (s : Reads) : Action → Option Reads
  | .startReads results =>
    if ∃ slot, (s.reads slot).inFlight then none
    else some (({ s with reads := fun _ ↦ .init }).startReads results).2
  | .complete slot delivery resubmit =>
    if (s.reads slot).inFlight then some (s.complete slot delivery resubmit) else none
  | .stopReads => some s.stopRunning

def deliveries (actions : List Action) : List Delivery :=
  actions.filterMap fun
    | .complete _ delivery _ => some delivery
    | _ => none

def fed (deliveries : List Delivery) : List (List UInt8) :=
  deliveries.filterMap fun delivery ↦
    if delivery.status = .success then some (delivery.payload.take packetBytes) else none

theorem deliveries_append (as bs : List Action) :
    deliveries (as ++ bs) = deliveries as ++ deliveries bs := List.filterMap_append

theorem fed_append (as bs : List Delivery) : fed (as ++ bs) = fed as ++ fed bs :=
  List.filterMap_append

theorem store_take (b : ReportBuffer) (payload : List UInt8) :
    (b.store payload).bytes.take (min payload.length packetBytes) = payload.take packetBytes := by
  have hlen : (payload.take packetBytes).length = min payload.length packetBytes := by
    rw [List.length_take, Nat.min_comm]
  simp only [ReportBuffer.store, splice, List.take_zero, List.nil_append]
  rw [← hlen]
  exact List.take_left

/-- Every read in flight is attached to the parser, and the parser awaits the rest
of a reply to what it was fed, unless one was seen. -/
structure Inv (s : Reads) (chunks : List (List UInt8)) : Prop where
  attached : ∀ slot, (s.reads slot).inFlight = true → (s.reads slot).attached = true
  seen : s.handshakeReplySeen = true → replyPrefix <:+: received chunks
  unseen : s.handshakeReplySeen = false → s.handshakeReplyParser.Awaits (received chunks)

theorem init_inv : Inv init [] where
  attached _ h := absurd h Bool.false_ne_true
  seen h := absurd h Bool.false_ne_true
  unseen _ := fresh_awaits

theorem submit_attached (read : InputRead) (result : IOReturn) :
    (read.submit result).2.attached = read.attached := by
  unfold InputRead.submit
  split_ifs <;> rfl

theorem attached_update {s : Reads} (slot : Fin 4) (read : InputRead)
    (h : ∀ slot, (s.reads slot).inFlight = true → (s.reads slot).attached = true)
    (hread : read.inFlight = true → read.attached = true) (other : Fin 4)
    (hflight : (Function.update s.reads slot read other).inFlight = true) :
    (Function.update s.reads slot read other).attached = true := by
  by_cases ho : other = slot
  · subst ho
    rw [Function.update_self] at hflight ⊢
    exact hread hflight
  · rw [Function.update_of_ne ho] at hflight ⊢
    exact h other hflight

theorem Inv.startSlots {s : Reads} {chunks : List (List UInt8)} (h : Inv s chunks)
    (results : Fin 4 → IOReturn) (slots : List (Fin 4)) :
    Inv (s.startSlots results slots).2 chunks := by
  induction slots generalizing s with
  | nil => exact h
  | cons slot slots ih =>
    rw [Reads.startSlots]
    have hnext := attached_update slot (InputRead.submit
      { s.reads slot with attached := true, running := true } (results slot)).2 h.attached
      fun _ ↦ submit_attached _ _
    dsimp only
    split_ifs
    · exact ⟨hnext, h.seen, h.unseen⟩
    · exact ih ⟨hnext, h.seen, h.unseen⟩

theorem received_concat (chunks : List (List UInt8)) (bytes : List UInt8) :
    received (chunks ++ [bytes]) = received chunks ++ significant bytes := by
  rw [received, List.flatten_append, significant_append, List.flatten_singleton]
  rfl

theorem Inv.complete {s : Reads} {chunks : List (List UInt8)} (h : Inv s chunks) {slot : Fin 4}
    (hflight : (s.reads slot).inFlight = true) (delivery : Delivery) (resubmit : IOReturn) :
    Inv (s.complete slot delivery resubmit) (chunks ++ fed [delivery]) := by
  have hslot := h.attached slot hflight
  have hreads := attached_update slot
    (if delivery.status = .success ∧ (s.reads slot).running = true then
        (InputRead.submit { s.reads slot with
          data := (s.reads slot).data.store delivery.payload, inFlight := false } resubmit).2
      else { s.reads slot with
        data := (s.reads slot).data.store delivery.payload, inFlight := false }) h.attached (by
      intro _
      split_ifs
      · rw [submit_attached]
        exact hslot
      · exact hslot)
  by_cases hsuccess : delivery.status = .success
  · have hchunks : chunks ++ fed [delivery] = chunks ++ [delivery.payload.take packetBytes] := by
      simp [fed, hsuccess]
    have hconsume (hseen : s.handshakeReplySeen = false) := (h.unseen hseen).consume
      ((s.reads slot).data.store delivery.payload).bytes
      (min delivery.payload.length packetBytes)
    simp only [store_take, ← received_concat] at hconsume
    rw [hchunks]
    refine ⟨hreads, ?_, ?_⟩
    · intro hseen
      simp only [Reads.complete, hsuccess, hslot, and_self, if_true, Bool.or_eq_true] at hseen
      cases hbefore : s.handshakeReplySeen with
      | true =>
        rw [received_concat]
        exact (h.seen hbefore).trans (List.prefix_append _ _).isInfix
      | false =>
        rw [hbefore] at hseen
        obtain ⟨-, hin⟩ | ⟨hreturn, -⟩ := hconsume hbefore
        · exact hin
        · exact absurd (hseen.resolve_left Bool.false_ne_true) (by rw [hreturn]; decide)
    · intro hseen
      simp only [Reads.complete, hsuccess, hslot, and_self, if_true, Bool.or_eq_false_iff] at hseen ⊢
      obtain ⟨hreturn, -⟩ | ⟨-, hnext⟩ := hconsume hseen.1
      · exact absurd hseen.2 (by rw [hreturn]; decide)
      · exact hnext
  · have hchunks : chunks ++ fed [delivery] = chunks := by simp [fed, hsuccess]
    rw [hchunks]
    refine ⟨hreads, ?_, ?_⟩
    · simpa only [Reads.complete, hsuccess, false_and, if_false] using h.seen
    · simpa only [Reads.complete, hsuccess, false_and, if_false] using h.unseen

theorem Inv.step {s s' : Reads} {chunks : List (List UInt8)} {a : Action} (h : Inv s chunks)
    (hstep : step s a = some s') : Inv s' (chunks ++ fed (deliveries [a])) := by
  cases a with
  | startReads results =>
    simp only [Reads.step, Option.ite_none_left_eq_some, Option.some.injEq] at hstep
    obtain ⟨-, rfl⟩ := hstep
    have hfresh : Inv { s with reads := fun _ ↦ .init } chunks :=
      ⟨fun _ hflight ↦ absurd hflight Bool.false_ne_true, h.seen, h.unseen⟩
    simpa [deliveries, fed, startReads] using hfresh.startSlots results [0, 1, 2, 3]
  | complete slot delivery resubmit =>
    simp only [Reads.step, Option.ite_none_right_eq_some, Option.some.injEq] at hstep
    obtain ⟨hflight, rfl⟩ := hstep
    exact h.complete hflight delivery resubmit
  | stopReads =>
    simp only [Reads.step, Option.some.injEq] at hstep
    subst hstep
    have hstop : Inv s.stopRunning chunks := ⟨h.attached, h.seen, h.unseen⟩
    simpa [deliveries, fed] using hstop

theorem run_inv {actions : List Action} {s : Reads} (h : Run step init actions s) :
    Inv s (fed (deliveries actions)) := by
  induction h with
  | nil => exact init_inv
  | snoc _ hstep ih =>
    rw [deliveries_append, fed_append]
    exact ih.step hstep

/-- Whatever is completed, with whatever status and length: the reply is seen
exactly when it stands in what the successful completions delivered. -/
theorem seen_iff {actions : List Action} {s : Reads} (h : Run step init actions s) :
    s.handshakeReplySeen = true ↔ replyPrefix <:+: received (fed (deliveries actions)) := by
  have hinv := run_inv h
  refine ⟨hinv.seen, fun hin ↦ ?_⟩
  by_contra hunseen
  exact (hinv.unseen (Bool.not_eq_true _ ▸ hunseen)).absent hin

section Terminators

def terminator (report : FullReport) : UInt8 := report.val.getD MIDIInputParser.reportPayloadBytes 0

/-- The bytes of the reports that the parser looks at, with the terminators marked. -/
def marked (reports : List FullReport) : List (UInt8 × Bool) :=
  (reports.flatMap fun report ↦ (report.val.take MIDIInputParser.reportPayloadBytes).map (·, false) ++
    [(terminator report, true)]).filter (·.1 ≠ filler)

def succeeded (reports : List FullReport) : List Delivery :=
  reports.map fun report ↦ ⟨.success, report.val⟩

theorem report_split (report : FullReport) :
    report.val = report.val.take MIDIInputParser.reportPayloadBytes ++ [terminator report] := by
  have hlast : MIDIInputParser.reportPayloadBytes < report.val.length := by
    rw [report.property]
    decide
  have hdrop : report.val.drop (MIDIInputParser.reportPayloadBytes + 1) = [] := by
    rw [List.drop_eq_nil_iff, report.property]
    rfl
  have hterminator : terminator report = report.val[MIDIInputParser.reportPayloadBytes] := by
    rw [terminator, List.getD_eq_getElem?_getD, List.getElem?_eq_getElem hlast, Option.getD_some]
  nth_rewrite 1 [← List.take_append_drop MIDIInputParser.reportPayloadBytes report.val]
  rw [List.drop_eq_getElem_cons hlast, hdrop, hterminator]

theorem fed_succeeded (reports : List FullReport) :
    fed (succeeded reports) = reports.map Subtype.val := by
  have htake (report : FullReport) : report.val.take packetBytes = report.val :=
    List.take_of_length_le report.property.le
  simp only [fed, succeeded, List.filterMap_map, Function.comp_def, if_true, htake,
    List.filterMap_eq_map']

theorem received_eq_marked (reports : List FullReport) :
    received (reports.map Subtype.val) = (marked reports).map Prod.fst := by
  have hbytes : ((reports.flatMap fun report ↦
      (report.val.take MIDIInputParser.reportPayloadBytes).map (·, false) ++
        [(terminator report, true)]).map Prod.fst) = (reports.map Subtype.val).flatten := by
    rw [List.map_flatMap, List.flatMap_def]
    refine congrArg List.flatten (List.map_congr_left fun report _ ↦ ?_)
    rw [List.map_append, List.map_map]
    exact ((congrArg (· ++ _) (List.map_id _))).trans (report_split report).symm
  rw [received, significant, marked, ← hbytes, List.filter_map]
  rfl

theorem stream_eq_marked (reports : List FullReport) : stream reports = signal (marked reports) := by
  have hbytes : signal (reports.flatMap fun report ↦
      (report.val.take MIDIInputParser.reportPayloadBytes).map (·, false) ++
        [(terminator report, true)]) =
      (reports.map (·.val.take MIDIInputParser.reportPayloadBytes)).flatten := by
    induction reports with
    | nil => rfl
    | cons report reports ih =>
      rw [List.flatMap_cons, signal_append, ih, signal_cut, signal_quiet]
      simp [signal]
  rw [stream, significant, ← hbytes, signal, signal, marked, List.filter_map, List.filter_filter,
    List.filter_filter]
  congr 2
  funext x
  exact Bool.and_comm _ _

theorem exists_run (reports : List FullReport) :
    ∃ actions s, Run step init actions s ∧ deliveries actions = succeeded reports := by
  have hcomplete (reports : List FullReport) (s : Reads) (hrun : (s.reads 0).running = true)
      (hflight : (s.reads 0).inFlight = true) :
      ∃ t, Run step s (reports.map fun r ↦ .complete 0 ⟨.success, r.val⟩ .success) t := by
    induction reports generalizing s with
    | nil => exact ⟨s, .nil s⟩
    | cons report reports ih =>
      obtain ⟨t, ht⟩ := ih (s.complete 0 ⟨.success, report.val⟩ .success)
        (by simp [complete, InputRead.submit, hrun]) (by simp [complete, InputRead.submit, hrun])
      exact ⟨t, .cons (if_pos hflight) ht⟩
  let started := (init.startReads fun _ ↦ .success).2
  have hidle : ¬ ∃ slot, (init.reads slot).inFlight = true := fun ⟨_, h⟩ ↦ absurd h Bool.false_ne_true
  have hstart : step init (.startReads fun _ ↦ .success) = some started := by
    rw [step, if_neg hidle]
    rfl
  obtain ⟨t, ht⟩ := hcomplete reports started rfl rfl
  refine ⟨_, t, .cons hstart ht, ?_⟩
  simp [deliveries, succeeded, List.filterMap_map]

/-- For every sequence of reports: activation recognises the reply by their MIDI payload just
if a reply stands there with no terminator between its bytes, or otherwise one stands there with
a terminator between its bytes just if a terminator takes part in one. -/
theorem recognised_iff {reports : List FullReport} {actions : List Action} {s : Reads}
    (hrun : Run step init actions s) (hdelivered : deliveries actions = succeeded reports) :
    (s.handshakeReplySeen = true ↔ replyPrefix <:+: stream reports) ↔
      Clean replyPrefix (marked reports) ∨
        (Cut replyPrefix (marked reports) ↔ Forged replyPrefix (marked reports)) := by
  rw [seen_iff hrun, hdelivered, fed_succeeded, received_eq_marked, stream_eq_marked]
  exact infix_fst_iff_infix_signal (by decide)

def ordinaryReply : List FullReport :=
  [⟨List.replicate 41 0xfd ++ [0], rfl⟩,
    ⟨[0xf0, 0x00, 0x01, 0x3f, 0x00, 0x79, 0x51, 0xf7] ++ List.replicate 33 0xfd ++ [0], rfl⟩]

theorem ordinaryReply_recognised : ∃ actions s, Run step init actions s ∧
    deliveries actions = succeeded ordinaryReply ∧ s.handshakeReplySeen = true := by
  obtain ⟨actions, s, hrun, hdelivered⟩ := exists_run ordinaryReply
  have hclean : Clean replyPrefix (marked ordinaryReply) := by decide
  refine ⟨actions, s, hrun, hdelivered, ?_⟩
  exact ((recognised_iff hrun hdelivered).mpr (.inl hclean)).mpr (by decide)

/-- A reply that begins with the last payload byte of one report and goes on in
the next, both with the terminator zero. -/
def straddledReply : List FullReport :=
  [⟨List.replicate 40 0xfd ++ [0xf0] ++ [0], rfl⟩,
    ⟨[0x00, 0x01, 0x3f, 0x00, 0x79, 0x51] ++ List.replicate 35 0xfd ++ [0], rfl⟩]

theorem straddledReply_missed : ∃ actions s, Run step init actions s ∧
    deliveries actions = succeeded straddledReply ∧ replyPrefix <:+: stream straddledReply ∧
    s.handshakeReplySeen = false := by
  obtain ⟨actions, s, hrun, hdelivered⟩ := exists_run straddledReply
  refine ⟨actions, s, hrun, hdelivered, by decide, ?_⟩
  rw [← Bool.not_eq_true, seen_iff hrun, hdelivered, fed_succeeded]
  decide

end Terminators

end Reads

end NumarkNS6.Midi.ControllerActivation
