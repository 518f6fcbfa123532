import NumarkNS6.Foundation.CircularStore
import NumarkNS6.Midi.MIDIInputParser
import NumarkNS6.Usb.SlotReaderRuns

namespace NumarkNS6.Midi

open Foundation.CircularStore Foundation.Runs Foundation.SlotWindow Usb

/-- The members of `MIDIInputReader` beside those of every slot reader. `published`
lists the batches handed to the sink since the last start, each with the
sequence number of the report that completed it. -/
structure MIDIState where
  parser : MIDIInputParser
  reports : UInt64
  publishedBatches : UInt64
  transferErrors : UInt64
  nonzeroTerminators : UInt64
  lastError : IOReturn
  published : List (UInt64 × List UInt8)

structure ReportBuffer where
  bytes : List UInt8
  length_eq : bytes.length = MIDIInputParser.reportBytes

namespace ReportBuffer

/-- The stack stores at most as many bytes as were asked for. -/
def store (b : ReportBuffer) (payload : List UInt8) : ReportBuffer where
  bytes := splice b.bytes 0 (payload.take MIDIInputParser.reportBytes)
  length_eq := by
    rw [splice_length, b.length_eq]
    rw [List.length_take, b.length_eq]
    omega

end ReportBuffer

abbrev MIDIInputReader := System ReportBuffer MIDIState

namespace MIDIInputReader

def slotCount : ℕ := 4

def countError (error : IOReturn) (own : MIDIState) : MIDIState :=
  { own with transferErrors := own.transferErrors + 1, lastError := error }

def publish (sink : Bool) (sequence : UInt64) (messages : List UInt8) (own : MIDIState) : MIDIState :=
  if messages.length ≠ 0 ∧ sink then
    { own with
      publishedBatches := own.publishedBatches + 1
      published := own.published ++ [(sequence, messages)] }
  else own

@[simp] theorem parser_publish (sink : Bool) (sequence : UInt64) (messages : List UInt8)
    (own : MIDIState) : (publish sink sequence messages own).parser = own.parser := by
  unfold publish
  split_ifs <;> rfl

@[simp] theorem publish_published (sink : Bool) (sequence : UInt64) (messages : List UInt8)
    (own : MIDIState) : (publish sink sequence messages own).published =
      if messages.length ≠ 0 ∧ sink then own.published ++ [(sequence, messages)]
      else own.published := by
  unfold publish
  split_ifs <;> rfl

/-- The body of `drainCompletions` up to the release of the slot. A report that
failed or has another length ends reading and leaves the parser as it is. -/
def process (r : SlotReader ReportBuffer MIDIState) (_ : Handles) (_ : IOReturn)
    (slot : Slot ReportBuffer Report) : Bool × MIDIState :=
  let status := slot.report.status
  if status = .success ∧ slot.report.bytes.toNat = MIDIInputParser.reportBytes then
    let terminator := slot.data.bytes.getD MIDIInputParser.reportPayloadBytes 0
    let fed := r.own.parser.feedReport (some slot.data.bytes) slot.report.bytes.toNat true
    (true, publish r.client slot.sequence fed.1 { r.own with
      reports := r.own.reports + 1
      nonzeroTerminators :=
        if terminator ≠ 0 then r.own.nonzeroTerminators + 1 else r.own.nonzeroTerminators
      parser := fed.2 })
  else (false, countError (if status = .success then .underrun else status) r.own)

def fresh : MIDIState := ⟨.fresh, 0, 0, 0, 0, .success, []⟩

def kind : Kind ReportBuffer MIDIState where
  slotCount := slotCount
  transferBytes := MIDIInputParser.reportBytes
  store := ReportBuffer.store
  arrive _ own := own
  process := process
  submitFailed := countError
  prepare _ slots _ := (.success, slots, fresh)
  release slots own := (slots, own)

def step (s : MIDIInputReader) (a : System.Action) : Option MIDIInputReader := System.step kind s a

def initial (handles : Handles) : MIDIInputReader :=
  System.initial kind handles ⟨List.replicate MIDIInputParser.reportBytes 0, rfl⟩ fresh

def Good (d : Delivery) : Prop :=
  d.status = .success ∧ d.payload.length = MIDIInputParser.reportBytes

instance (d : Delivery) : Decidable (Good d) := inferInstanceAs (Decidable (_ ∧ _))

def payload (d : Delivery) : List UInt8 := d.payload.take MIDIInputParser.reportPayloadBytes

def stream (ds : List Delivery) : List UInt8 := ds.flatMap fun d ↦ significant (payload d)

structure Replay where
  pending : List UInt8
  log : List (ℕ × List (List UInt8))

def replayStep (r : Replay) (d : Delivery) (n : ℕ) : Replay :=
  if Good d then
    let f := feed r.pending (payload d)
    ⟨f.2, if f.1 = [] then r.log else r.log ++ [(n, f.1)]⟩
  else r

def replay (ds : List Delivery) : Replay :=
  ds.zipIdx.foldl (fun r d ↦ replayStep r d.1 d.2) ⟨[], []⟩

theorem replay_concat (ds : List Delivery) (d : Delivery) :
    replay (ds ++ [d]) = replayStep (replay ds) d ds.length := by
  simp [replay, List.zipIdx_append]

def LossesBetweenMessages (ds : List Delivery) : Prop :=
  ∀ (n : ℕ) (d : Delivery), ds[n]? = some d → ¬ Good d → (replay (ds.take n)).pending = []

/-- The messages completed by report `b` lie in one piece in the reports `a` to
`b`, none of which was lost. -/
def Unspliced (ds : List Delivery) (b : ℕ) (messages : List (List UInt8)) : Prop :=
  b < ds.length ∧ ∀ m ∈ messages, IsMessage m ∧ ∃ a ≤ b,
    (∀ (n : ℕ), a ≤ n → n ≤ b → ∃ d, ds[n]? = some d ∧ Good d) ∧
      m <:+: stream ((ds.take (b + 1)).drop a)

theorem Unspliced.concat {ds : List Delivery} {b : ℕ} {ms : List (List UInt8)}
    (h : Unspliced ds b ms) (d : Delivery) : Unspliced (ds ++ [d]) b ms := by
  obtain ⟨hb, hm⟩ := h
  refine ⟨by rw [List.length_append]; omega, fun m hmem ↦ ?_⟩
  obtain ⟨hmsg, a, hab, hgood, hin⟩ := hm m hmem
  refine ⟨hmsg, a, hab, fun n han hnb ↦ ?_, ?_⟩
  · rw [List.getElem?_append_left (by omega)]
    exact hgood n han hnb
  · rwa [List.take_append_of_le_length (by omega)]

def Segment (ds : List Delivery) (pending : List UInt8) : Prop :=
  ∃ a ≤ ds.length, (∀ (n : ℕ), a ≤ n → n < ds.length → ∃ d, ds[n]? = some d ∧ Good d) ∧
    pending <:+ stream (ds.drop a)

theorem LossesBetweenMessages.init {ds : List Delivery} {d : Delivery}
    (h : LossesBetweenMessages (ds ++ [d])) : LossesBetweenMessages ds := by
  intro n e hn hbad
  have hlt := (List.getElem?_eq_some_iff.mp hn).1
  have he := h n e (by rwa [List.getElem?_append_left hlt]) hbad
  rwa [List.take_append_of_le_length hlt.le] at he

theorem replay_pending (ds : List Delivery) :
    IsPending (replay ds).pending ∧ ∀ e ∈ (replay ds).log, ∀ m ∈ e.2, IsMessage m := by
  induction ds using List.reverseRecOn with
  | nil => exact ⟨.inl rfl, by simp [replay]⟩
  | append_singleton ds d ih =>
    rw [replay_concat, replayStep]
    split_ifs with hgood
    · obtain ⟨hp, hm⟩ := feed_shape ih.1 (payload d)
      refine ⟨hp, fun e he ↦ ?_⟩
      simp only at he
      split_ifs at he
      · exact ih.2 e he
      · rcases List.mem_append.mp he with he | he
        · exact ih.2 e he
        · rw [List.mem_singleton.mp he]
          exact hm
    · exact ih

/-- Without a loss in the middle of a message nothing is spliced: the induction
is on the reports, and what carries it is the segment since the last loss. -/
theorem replay_unspliced (ds : List Delivery) (h : LossesBetweenMessages ds) :
    Segment ds (replay ds).pending ∧ ∀ e ∈ (replay ds).log, Unspliced ds e.1 e.2 := by
  induction ds using List.reverseRecOn with
  | nil => exact ⟨⟨0, le_rfl, by simp, by simp [replay, stream]⟩, by simp [replay]⟩
  | append_singleton ds d ih =>
    obtain ⟨⟨a, ha, hgoods, hp⟩, hlog⟩ := ih h.init
    have hpending := replay_pending ds
    rw [replay_concat, replayStep]
    split_ifs with hgood
    · obtain ⟨hp', hm'⟩ := feed_contiguous hp (payload d)
      have hshape := (feed_shape hpending.1 (payload d)).2
      have hstream : stream ((ds ++ [d]).drop a) =
          stream (ds.drop a) ++ significant (payload d) := by
        rw [List.drop_append_of_le_length ha]
        simp [stream]
      have hgoods' : ∀ n, a ≤ n → n < (ds ++ [d]).length →
          ∃ e, (ds ++ [d])[n]? = some e ∧ Good e := by
        intro n han hn
        rcases Nat.lt_or_ge n ds.length with hlt | hge
        · rw [List.getElem?_append_left hlt]
          exact hgoods n han hlt
        · rw [List.length_append, List.length_singleton] at hn
          obtain rfl : n = ds.length := by omega
          exact ⟨d, by simp, hgood⟩
      have hlen : (ds ++ [d]).length = ds.length + 1 := by simp
      rw [← hstream] at hp' hm'
      refine ⟨⟨a, by omega, hgoods', hp'⟩, fun e he ↦ ?_⟩
      simp only at he
      split_ifs at he
      · exact (hlog e he).concat d
      · rcases List.mem_append.mp he with he | he
        · exact (hlog e he).concat d
        · rw [List.mem_singleton.mp he]
          refine ⟨by omega, fun m hm ↦ ⟨hshape m hm, a, ha, fun n han hn ↦ hgoods' n han (by omega), ?_⟩⟩
          rw [List.take_of_length_le (by omega)]
          exact hm' m hm
    · have hnil := h ds.length d (by simp) hgood
      rw [List.take_left' rfl] at hnil
      refine ⟨⟨ds.length + 1, by simp, fun n hn hlt ↦ ?_, ?_⟩, fun e he ↦ (hlog e he).concat d⟩
      · rw [List.length_append, List.length_singleton] at hlt
        omega
      · rw [hnil]
        exact List.nil_suffix

def Stored (b : ReportBuffer) (report : Report) (d : Delivery) : Prop :=
  report.status = d.status ∧ report.bytes.toNat = d.payload.length ∧
    b.bytes.take d.payload.length = d.payload

def Replays (own : MIDIState) (ds : List Delivery) : Prop :=
  own.parser.Represents (replay ds).pending ∧
    own.published = (replay ds).log.map fun e ↦ (UInt64.ofNat e.1, e.2.flatten)

theorem process_good {r : SlotReader ReportBuffer MIDIState} {slot : Slot ReportBuffer Report}
    {d : Delivery} {ds : List Delivery} (hgood : Good d) (hc : r.client = true)
    (hT : Replays r.own ds) (hst : Stored slot.data slot.report d)
    (hseq : slot.sequence = UInt64.ofNat ds.length) (h : Handles) (clear : IOReturn) :
    Replays (process r h clear slot).2 (ds ++ [d]) := by
  obtain ⟨hstatus, hbytes, hdata⟩ := hst
  rw [hgood.2, ← slot.data.length_eq, List.take_length] at hdata
  obtain ⟨hout, hrep⟩ := MIDIInputParser.feedBytes_refines hT.1 (payload d)
  have hms := (feed_shape (replay_pending ds).1 (payload d)).2
  have hfed : r.own.parser.feedReport (some slot.data.bytes) slot.report.bytes.toNat true =
      r.own.parser.feedBytes (payload d) := by
    rw [hbytes, hdata]
    exact MIDIInputParser.feedReport_eq _ hgood.2
  have hcond : slot.report.status = .success ∧
      slot.report.bytes.toNat = MIDIInputParser.reportBytes :=
    ⟨hstatus.trans hgood.1, hbytes.trans hgood.2⟩
  simp only [Replays, process, if_pos hcond, hfed, replay_concat, replayStep, if_pos hgood, hc,
    parser_publish, publish_published]
  have hiff : (r.own.parser.feedBytes (payload d)).1.length ≠ 0 ↔
      ¬ (feed (replay ds).pending (payload d)).1 = [] := by
    rw [hout, ne_eq, List.length_eq_zero_iff, flatten_eq_nil hms]
  refine ⟨hrep, ?_⟩
  simp only [and_true, hiff]
  split_ifs
  · exact hT.2
  · rw [hT.2, hout, hseq]
    simp

theorem lawful : System.Lawful kind (fun _ ↦ True) Stored Replays where
  slots := by decide
  store := by
    intro b d _ hd
    have hbytes : (UInt32.ofNat d.payload.length).toNat = d.payload.length := by
      rw [UInt32.toNat_ofNat']
      exact Nat.mod_eq_of_lt (lt_of_le_of_lt hd (by decide))
    have hd' : d.payload.length ≤ MIDIInputParser.reportBytes := hd
    refine ⟨trivial, rfl, hbytes, ?_⟩
    simp [kind, ReportBuffer.store, splice, List.take_of_length_le hd']
  arrive _ _ _ h := h
  process := by
    intro r h clear slot ds d _ hc _ hT hst hseq
    by_cases hgood : Good d
    · exact process_good hgood hc hT hst hseq h clear
    · have hcond : ¬ (slot.report.status = .success ∧
          slot.report.bytes.toNat = MIDIInputParser.reportBytes) := by
        rw [hst.1, hst.2.1]
        exact hgood
      simpa only [Replays, kind, process, if_neg hcond, replay_concat, replayStep, if_neg hgood,
        countError] using hT
  submitFailed _ _ _ h := h
  prepare _ slots _ := ⟨rfl, ⟨MIDIInputParser.fresh_represents, rfl⟩, fun _ _ _ ↦ trivial⟩
  release _ _ := ⟨rfl, fun _ h ↦ h⟩

/-- In every run that loses reports only between messages, every batch handed to
the sink consists of unspliced messages. -/
theorem published_unspliced (handles : Handles) (as : List System.Action) (s : MIDIInputReader)
    (h : Run step (initial handles) as s) (hloss : LossesBetweenMessages s.deliveries)
    (batch : UInt64 × List UInt8) (hbatch : batch ∈ s.reader.own.published) :
    ∃ b messages, batch = (UInt64.ofNat b, messages.flatten) ∧
      Unspliced s.deliveries b messages := by
  obtain ⟨order, hinv⟩ := System.run_inv lawful ⟨MIDIInputParser.fresh_represents, rfl⟩ h
  rw [hinv.tracked.own.2] at hbatch
  obtain ⟨e, he, rfl⟩ := List.mem_map.mp hbatch
  exact ⟨e.1, e.2, rfl, (replay_unspliced _ hloss).2 e he⟩

def padded (midi : List UInt8) : List UInt8 :=
  midi ++ List.replicate (MIDIInputParser.reportPayloadBytes - midi.length) filler ++ [0]

/-- A note that begins in one report and ends in the next. -/
theorem published_unspliced_note : ∃ s : MIDIInputReader,
    Run step (initial ⟨true, 2, true⟩)
      [.start .allSucceed, .complete .allSucceed 0 0 ⟨.success, padded [0x90, 0x3c]⟩,
        .complete .allSucceed 0 1 ⟨.success, padded [0x40]⟩] s ∧
      s.reader.own.published = [(1, [0x90, 0x3c, 0x40])] ∧
      ∃ b messages, ((1 : UInt64), ([0x90, 0x3c, 0x40] : List UInt8)) =
        (UInt64.ofNat b, messages.flatten) ∧ Unspliced s.deliveries b messages := by
  have h : Run step (initial ⟨true, 2, true⟩)
      [.start .allSucceed, .complete .allSucceed 0 0 ⟨.success, padded [0x90, 0x3c]⟩,
        .complete .allSucceed 0 1 ⟨.success, padded [0x40]⟩] _ := .of_foldlM rfl
  refine ⟨_, h, rfl, published_unspliced _ _ _ h ?_ _ (List.mem_singleton.mpr rfl)⟩
  intro n d hn hbad
  refine absurd ?_ hbad
  match n, hn with
  | 0, hn => cases hn; decide
  | 1, hn => cases hn; decide

/-- The same note with a failed report between its bytes and its last byte: the
reader has three more reads queued when the second fails, and parses the third. -/
theorem lost_report_spliced : ∃ s : MIDIInputReader,
    Run step (initial ⟨true, 2, true⟩)
      [.start .allSucceed, .complete .allSucceed 0 0 ⟨.success, padded [0x90, 0x3c]⟩,
        .complete .allSucceed 0 1 ⟨.notResponding, []⟩,
        .complete .allSucceed 0 2 ⟨.success, padded [0x40]⟩] s ∧
      s.reader.own.published = [(2, [0x90, 0x3c, 0x40])] ∧
      ¬ ∃ b messages, ((2 : UInt64), ([0x90, 0x3c, 0x40] : List UInt8)) =
        (UInt64.ofNat b, messages.flatten) ∧ Unspliced s.deliveries b messages := by
  have h : Run step (initial ⟨true, 2, true⟩)
      [.start .allSucceed, .complete .allSucceed 0 0 ⟨.success, padded [0x90, 0x3c]⟩,
        .complete .allSucceed 0 1 ⟨.notResponding, []⟩,
        .complete .allSucceed 0 2 ⟨.success, padded [0x40]⟩] _ := .of_foldlM rfl
  refine ⟨_, h, rfl, ?_⟩
  rintro ⟨b, messages, he, hb, hm⟩
  obtain ⟨hseq, hbytes⟩ := Prod.mk.inj he
  obtain rfl : b = 2 := by
    have hb' : b < 3 := hb
    obtain rfl | rfl | rfl : b = 0 ∨ b = 1 ∨ b = 2 := by omega
    · exact absurd hseq (by decide)
    · exact absurd hseq (by decide)
    · rfl
  cases messages with
  | nil => cases hbytes
  | cons m rest =>
    obtain ⟨hmsg, a, ha, hgood, hin⟩ := hm m List.mem_cons_self
    -- report 1 is lost, so the reports a to 2 are report 2 alone
    obtain rfl : a = 2 := by
      by_contra hne
      obtain ⟨d, hd, hg⟩ := hgood 1 (by omega) (by omega)
      cases hd
      exact absurd hg (by decide)
    have hle : m.length ≤ 1 := hin.length_le
    have := hmsg.two_le_length
    omega

end MIDIInputReader

end NumarkNS6.Midi
