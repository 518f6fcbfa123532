import NumarkNS6.Midi.MIDIInputReader
import NumarkNS6.Midi.MIDIUserSessionBridge
import NumarkNS6.Midi.StreamGrammar
import NumarkNS6.Usb.SlotReaderCalls

namespace NumarkNS6.Midi

open Foundation.Runs Foundation.SlotWindow MIDIUserSessionBridge Usb

/-- `socket` says whether `socket_` is open. -/
structure LocalMIDIForwarder where
  socket : Bool
  sentDatagrams : UInt64
  sentBytes : UInt64
  sendFailures : UInt64

namespace LocalMIDIForwarder

def initial : LocalMIDIForwarder := ⟨false, 0, 0, 0⟩

def start (opened : Bool) (f : LocalMIDIForwarder) : LocalMIDIForwarder :=
  if f.socket then f else { f with socket := opened }

def stop (f : LocalMIDIForwarder) : LocalMIDIForwarder := { f with socket := false }

def Offers (f : LocalMIDIForwarder) (bytes : List UInt8) : Prop :=
  f.socket = true ∧ 0 < bytes.length ∧ bytes.length ≤ 128

instance (f : LocalMIDIForwarder) (bytes : List UInt8) : Decidable (f.Offers bytes) :=
  inferInstanceAs (Decidable (_ ∧ _))

/-- `sent` is what `sendto` returns if it is called. -/
def publish (sent : ℤ) (bytes : List UInt8) (f : LocalMIDIForwarder) : LocalMIDIForwarder :=
  if f.Offers bytes then
    if sent = bytes.length then
      { f with
        sentDatagrams := f.sentDatagrams + 1
        sentBytes := f.sentBytes + UInt64.ofNat bytes.length }
    else { f with sendFailures := f.sendFailures + 1 }
  else f

@[simp] theorem publish_socket (sent : ℤ) (bytes : List UInt8) (f : LocalMIDIForwarder) :
    (f.publish sent bytes).socket = f.socket := by
  unfold publish
  split_ifs <;> rfl

end LocalMIDIForwarder

/-- What becomes of a datagram: `sendto` returns `sent`, and a datagram it took is
queued at the bridge's socket or lost. -/
structure Sendto where
  sent : ℤ
  queued : Bool

/-- The controller's input on its way from the USB stack to the applications. The
forwarder is the only sender to the bridge's port; `queue` holds the datagrams that
wait there and `application` the packets `MIDIReceived` has taken. `handed` are the
batches the reader has given to the forwarder and `accepted` those `sendto` took;
`earlier` lists the reports of each session of the reader before the present one. -/
structure InputPath where
  reader : MIDIInputReader
  forwarder : LocalMIDIForwarder
  queue : List (List UInt8)
  application : List (List UInt8)
  handed : List (List UInt8)
  accepted : List (List UInt8)
  earlier : List (List Delivery)

namespace InputPath

/-- `sizeof(input)` in the bridge's `main`. -/
def inputBytes : ℕ := 128

inductive Action
  | reader (a : System.Action) (sends : ℕ → Sendto)
  | forwarderStart (opened : Bool)
  | forwarderStop
  | receive (added delivered : Bool)
  | bridgeExit

def forward (answer : Sendto) (bytes : List UInt8) (p : InputPath) : InputPath :=
  let taken := p.forwarder.Offers bytes ∧ answer.sent = bytes.length
  { p with
    forwarder := p.forwarder.publish answer.sent bytes
    handed := p.handed ++ [bytes]
    accepted := if taken then p.accepted ++ [bytes] else p.accepted
    queue := if taken ∧ answer.queued = true then p.queue ++ [bytes] else p.queue }

def forwardAll : List (List UInt8) → (ℕ → Sendto) → InputPath → InputPath
  | [], _, p => p
  | batch :: rest, sends, p => forwardAll rest (fun n ↦ sends (n + 1)) (p.forward (sends 0) batch)

def publishedSince (s t : MIDIInputReader) : List (List UInt8) :=
  (t.reader.own.published.drop s.reader.own.published.length).map Prod.snd

def advance (sends : ℕ → Sendto) (p : InputPath) (t : MIDIInputReader) : InputPath :=
  forwardAll (publishedSince p.reader t) sends { p with
    reader := t
    earlier := if t.base = p.reader.base then p.earlier else p.earlier ++ [p.reader.deliveries] }

def starts : System.Action → Bool
  | .start _ => true
  | _ => false

/-- One pass of the bridge's loop with a datagram at its socket: `recv` cuts it to the
buffer, and `MIDIPacketListAdd` and `MIDIReceived` take the packet or do not. -/
def receive (added delivered : Bool) (datagram : List UInt8) (rest : List (List UInt8))
    (p : InputPath) : InputPath :=
  let input := datagram.take inputBytes
  { p with
    queue := rest
    application :=
      if 0 < input.length ∧ added = true ∧ delivered = true then p.application ++ [input]
      else p.application }

/-- The transport worker opens the forwarder before it starts the reader, and closes
it when the reader is gone. -/
def step (p : InputPath) : Action → Option InputPath
  | .reader a sends =>
    if starts a && !p.forwarder.socket then none
    else (MIDIInputReader.step p.reader a).map (p.advance sends)
  | .forwarderStart opened => some { p with forwarder := p.forwarder.start opened }
  | .forwarderStop =>
    if p.reader.reader.session then none else some { p with forwarder := p.forwarder.stop }
  | .receive added delivered =>
    match p.queue with
    | [] => none
    | datagram :: rest => some (p.receive added delivered datagram rest)
  | .bridgeExit => some { p with queue := [] }

def initial (handles : Handles) : InputPath :=
  ⟨MIDIInputReader.initial handles, .initial, [], [], [], [], []⟩

open MIDIInputReader

def batches (ds : List Delivery) : List (List UInt8) := (replay ds).log.map (·.2.flatten)

structure Sound (d : List UInt8) : Prop where
  nonempty : 0 < d.length
  short : d.length ≤ 43
  whole : WholeMessages d

theorem replay_sound (ds : List Delivery) : ∀ e ∈ (replay ds).log, Sound e.2.flatten := by
  induction ds using List.reverseRecOn with
  | nil => simp [replay]
  | append_singleton ds d ih =>
    rw [replay_concat, replayStep]
    split_ifs with hgood
    · intro e he
      simp only at he
      split_ifs at he with hnone
      · exact ih e he
      · rcases List.mem_append.mp he with he | he
        · exact ih e he
        obtain rfl := List.mem_singleton.mp he
        have hpending := (replay_pending ds).1
        have hms := (feed_shape hpending (payload d)).2
        refine ⟨?_, ?_, _, rfl, hms⟩
        · apply List.length_pos_of_ne_nil
          exact mt (flatten_eq_nil hms).mp hnone
        · have hlength := feed_length (replay ds).pending (payload d)
          have htwo := hpending.length_le
          have htake : (payload d).length ≤ 41 := List.length_take_le _ _
          simp only
          omega
    · exact ih

theorem batches_sound {ds : List Delivery} {d : List UInt8} (h : d ∈ batches ds) : Sound d := by
  obtain ⟨e, he, rfl⟩ := List.mem_map.mp h
  exact replay_sound ds e he

/-- Failed reports apart, a session is one stretch of the stream. -/
theorem replay_feed (ds : List Delivery) :
    feed [] ((ds.filter (Good ·)).flatMap payload) =
      ((replay ds).log.flatMap Prod.snd, (replay ds).pending) := by
  induction ds using List.reverseRecOn with
  | nil => rfl
  | append_singleton ds d ih =>
    rw [replay_concat, replayStep, List.filter_append]
    split_ifs with hgood
    · have hone : [d].filter (Good ·) = [d] := by simp [hgood]
      rw [hone, List.flatMap_append, feed_append, ih, List.flatMap_singleton]
      simp only [Prod.mk.injEq, and_true]
      split_ifs with hnone
      · rw [hnone, List.append_nil]
      · rw [List.flatMap_append, List.flatMap_singleton]
    · have hnone : [d].filter (Good ·) = [] := by simp [hgood]
      rw [hnone, List.append_nil, ih]

theorem batches_reference (ds : List Delivery) :
    (batches ds).flatten = reference (MIDIInputReader.stream (ds.filter (Good ·))) := by
  have hstream : significant ((ds.filter (Good ·)).flatMap payload) =
      MIDIInputReader.stream (ds.filter (Good ·)) := by
    rw [significant, List.filter_flatMap]
    rfl
  rw [← hstream, ← feed_eq_reference, replay_feed, batches]
  simp only [List.flatMap, List.flatten_flatten, List.map_map]
  rfl

/-- Losing datagrams of whole messages loses their messages and no others. -/
theorem feed_sublist {ds es : List (List UInt8)} (h : ds.Sublist es)
    (hes : ∀ e ∈ es, WholeMessages e) :
    (feed [] ds.flatten).1.Sublist (feed [] es.flatten).1 ∧ (feed [] ds.flatten).2 = [] := by
  induction h with
  | slnil => exact ⟨.slnil, rfl⟩
  | @cons ds es e _ ih =>
    obtain ⟨⟨ms, rfl, hms⟩, hrest⟩ := List.forall_mem_cons.mp hes
    obtain ⟨hsub, hnil⟩ := ih hrest
    refine ⟨?_, hnil⟩
    rw [List.flatten_cons, feed_append, feed_messages hms]
    exact hsub.trans (List.sublist_append_right _ _)
  | @cons_cons ds es e _ ih =>
    obtain ⟨⟨ms, rfl, hms⟩, hrest⟩ := List.forall_mem_cons.mp hes
    obtain ⟨hsub, hnil⟩ := ih hrest
    rw [List.flatten_cons, List.flatten_cons, feed_append, feed_append, feed_messages hms]
    exact ⟨hsub.append_left _, hnil⟩

theorem feed_whole {ds : List (List UInt8)} (h : ∀ d ∈ ds, WholeMessages d) :
    (feed [] ds.flatten).1.flatten = ds.flatten := by
  induction ds with
  | nil => rfl
  | cons d ds ih =>
    obtain ⟨⟨ms, rfl, hms⟩, hrest⟩ := List.forall_mem_cons.mp h
    rw [List.flatten_cons, feed_append, feed_messages hms, List.flatten_append, ih hrest]

structure Onward (s t : MIDIInputReader) : Prop where
  published : t.base = s.base → s.reader.own.published <+: t.reader.own.published
  renewed : t.base ≠ s.base → t.deliveries = []
  attached : publishedSince s t ≠ [] → s.reader.session = true

structure Continued (s t : MIDIInputReader) : Prop where
  base : t.base = s.base
  session : t.reader.session = s.reader.session
  published : s.reader.own.published <+: t.reader.own.published

theorem process_published (r : SlotReader ReportBuffer MIDIState) (h : Handles) (clear : IOReturn)
    (slot : Slot ReportBuffer Report) : r.own.published <+: (process r h clear slot).2.published := by
  unfold process
  by_cases hgood : slot.report.status = .success ∧
      slot.report.bytes.toNat = MIDIInputParser.reportBytes
  · simp only [if_pos hgood, publish_published]
    split_ifs
    · exact List.prefix_append _ _
    all_goals exact List.prefix_rfl
  · simp only [if_neg hgood]
    exact List.prefix_rfl

theorem continued_respects (answers : Answers) : System.Respects kind answers Continued where
  refl _ := ⟨rfl, rfl, List.prefix_rfl⟩
  trans h h' := ⟨h'.base.trans h.base, h'.session.trans h.session, h.published.trans h'.published⟩
  issue _ := ⟨rfl, rfl, List.prefix_rfl⟩
  refuse _ := ⟨rfl, rfl, List.prefix_rfl⟩
  halt _ _ := ⟨rfl, rfl, List.prefix_rfl⟩
  consume _ := ⟨rfl, rfl, process_published _ _ _ _⟩
  answer _ _ _ _ := ⟨rfl, rfl, List.prefix_rfl⟩
  arrive _ _ _ := ⟨rfl, rfl, List.prefix_rfl⟩

def Kept (s : MIDIInputReader) : Prop :=
  ∃ order, System.Inv kind (fun _ ↦ True) Stored Replays s order

theorem Kept.published {s : MIDIInputReader} (h : Kept s) :
    s.reader.own.published.map Prod.snd = batches s.deliveries := by
  obtain ⟨order, hinv⟩ := h
  rw [hinv.tracked.own.2, batches, List.map_map]
  rfl

theorem Kept.published_nil {s : MIDIInputReader} (h : Kept s) (hs : s.deliveries = []) :
    s.reader.own.published = [] := by
  have hmap := h.published
  rw [hs] at hmap
  exact List.map_eq_nil_iff.mp hmap

theorem deliveries_nil {s : MIDIInputReader} (h : s.processed = 0) : s.deliveries = [] := by
  rw [System.deliveries, h]
  rfl

theorem publishedSince_nil {s t : MIDIInputReader}
    (h : t.reader.own.published = [] ∨ t.reader.own.published = s.reader.own.published) :
    publishedSince s t = [] := by
  rcases h with h | h
  · rw [publishedSince, h, List.drop_nil, List.map_nil]
  · rw [publishedSince, h, List.drop_length, List.map_nil]

variable {s t : MIDIInputReader}

theorem Kept.complete_session (h : Kept s) {answers : Answers} {elapsed : UInt64} {k : ℕ}
    {d : Delivery} (hstep : s.complete kind answers elapsed k d = some t) :
    s.reader.session = true := by
  obtain ⟨order, hinv⟩ := h
  unfold System.complete at hstep
  cases hr : s.requests[k]? with
  | none => simp [hr] at hstep
  | some r =>
    simp only [hr] at hstep
    split_ifs at hstep with hguard
    simp only [Bool.and_eq_true, Option.isNone_iff_eq_none, decide_eq_true_eq] at hguard
    obtain ⟨slot, hslot, htracked⟩ := hinv.tracked.deliver lawful hr hguard.1 hguard.2 elapsed
    apply htracked.carried
    rintro rfl
    have hidle := htracked.window.idle r.slot _
      (List.getElem?_set_self (List.getElem?_eq_some_iff.mp hslot).1) (by simp)
    exact absurd hidle.2 (by simp [Slot.finish])

theorem Kept.sameSession (h : Kept s) (h' : Kept t) (hsame : System.SameSession s t) :
    t.reader.own.published = s.reader.own.published := by
  obtain ⟨order, hinv⟩ := h
  obtain ⟨order', hinv'⟩ := h'
  have hds : t.deliveries = s.deliveries := by
    rw [System.deliveries, System.since, hsame.base, hsame.processed, hsame.requests]
    rfl
  rw [hinv'.tracked.own.2, hinv.tracked.own.2, hds]

theorem Kept.newSession (h : Kept s) (h' : Kept t) (hbase : t.base = s.requests.length)
    (hprocessed : t.processed = 0) : Onward s t := by
  have hnil := h'.published_nil (deliveries_nil hprocessed)
  refine ⟨fun hsame ↦ ?_, fun _ ↦ deliveries_nil hprocessed, fun hne ↦ ?_⟩
  · have hsince : s.since = [] := by
      rw [System.since, ← hsame, hbase, List.drop_length]
    have hds : s.deliveries = [] := by
      rw [System.deliveries, hsince, answers, List.take_nil, List.filterMap_nil]
    rw [h.published_nil hds]
    exact List.nil_prefix
  · exact absurd (publishedSince_nil (.inl hnil)) hne

theorem Kept.step (h : Kept s) {a : System.Action} (hstep : MIDIInputReader.step s a = some t) :
    Kept t ∧ Onward s t := by
  have ht : Kept t := by
    obtain ⟨order, hinv⟩ := h
    exact hinv.step lawful hstep
  refine ⟨ht, ?_⟩
  by_cases hc : ∃ answers elapsed k d, a = .complete answers elapsed k d
  · obtain ⟨answers, elapsed, k, d, rfl⟩ := hc
    obtain ⟨hbase, -, hpublished⟩ := (continued_respects answers).complete hstep
    exact ⟨fun _ ↦ hpublished, fun hne ↦ absurd hbase hne, fun _ ↦ h.complete_session hstep⟩
  · have hother : ∀ answers elapsed k d, a ≠ .complete answers elapsed k d := by
      intro answers elapsed k d he
      exact hc ⟨answers, elapsed, k, d, he⟩
    rcases System.step_session hstep hother with hsame | ⟨hbase, hprocessed⟩
    · have hpublished := h.sameSession ht hsame
      refine ⟨fun _ ↦ ?_, fun hne ↦ absurd hsame.base hne, fun hne ↦ ?_⟩
      · rw [hpublished]
      · exact absurd (publishedSince_nil (.inr hpublished)) hne
    · exact h.newSession ht hbase hprocessed

theorem step_attached {a : System.Action} (h : MIDIInputReader.step s a = some t)
    (ha : starts a = false) (ht : t.reader.session = true) : s.reader.session = true := by
  cases a with
  | start answers => cases ha
  | stop answers =>
    simp only [MIDIInputReader.step, System.step] at h
    split_ifs at h
    cases h
    unfold System.stop at ht
    by_contra hs
    rw [Bool.not_eq_true] at hs
    simp [hs, System.ret] at ht
  | complete answers elapsed k d =>
    have hc := (continued_respects answers).complete h
    exact hc.session.symm.trans ht
  | drained answers =>
    obtain ⟨abort, start, -, -, rfl⟩ := System.step_drained h
    unfold System.finishStop at ht
    simp only at ht
    split_ifs at ht
    all_goals cases ht
  | timeout =>
    obtain ⟨_, _, _, rfl⟩ := System.step_timeout h
    exact ht
  | session handles =>
    simp only [MIDIInputReader.step, System.step] at h
    split_ifs at h
    cases h
    exact ht

/-- Every datagram on the way is a batch in its place, and the forwarder's counters
have counted each batch once. -/
structure Conserved (p : InputPath) : Prop where
  arrived : (p.application ++ p.queue).Sublist p.accepted
  taken : p.accepted.Sublist p.handed
  sound : ∀ d ∈ p.handed, Sound d
  datagrams : p.forwarder.sentDatagrams = UInt64.ofNat p.accepted.length
  bytes : p.forwarder.sentBytes = UInt64.ofNat p.accepted.flatten.length
  failures : p.forwarder.sentDatagrams + p.forwarder.sendFailures = UInt64.ofNat p.handed.length

/-- The batches are those of the sessions of the reader, which is never attached to a
closed forwarder. -/
structure Sourced (p : InputPath) : Prop where
  reader : Kept p.reader
  handed : p.handed = p.earlier.flatMap batches ++ p.reader.reader.own.published.map Prod.snd
  socket : p.reader.reader.session = true → p.forwarder.socket = true

variable {p : InputPath}

theorem Conserved.forward (h : Conserved p) (hsocket : p.forwarder.socket = true)
    {batch : List UInt8} (hbatch : Sound batch) (answer : Sendto) :
    Conserved (p.forward answer batch) := by
  have hoffers : p.forwarder.Offers batch := ⟨hsocket, hbatch.nonempty, by
    have := hbatch.short
    omega⟩
  have hsound : ∀ d ∈ p.handed ++ [batch], Sound d := by
    intro d hd
    rcases List.mem_append.mp hd with hd | hd
    · exact h.sound d hd
    · rwa [List.mem_singleton.mp hd]
  have hcount : UInt64.ofNat (p.handed ++ [batch]).length =
      p.forwarder.sentDatagrams + p.forwarder.sendFailures + 1 := by
    rw [h.failures, ofNat_succ, List.length_append, List.length_singleton]
  by_cases hsent : answer.sent = batch.length
  · have harrived : (p.application ++
        if answer.queued = true then p.queue ++ [batch] else p.queue).Sublist
          (p.accepted ++ [batch]) := by
      split_ifs
      · rw [← List.append_assoc]
        exact h.arrived.append_right _
      · exact h.arrived.trans (List.sublist_append_left _ _)
    refine ⟨?_, ?_, hsound, ?_, ?_, ?_⟩
    · simpa only [InputPath.forward, hoffers, hsent, true_and, and_self, if_true] using harrived
    · simpa only [InputPath.forward, hoffers, hsent, and_self, if_true] using h.taken.append_right _
    · simp only [InputPath.forward, LocalMIDIForwarder.publish, hoffers, hsent, and_self, if_true,
        h.datagrams, ofNat_succ, List.length_append, List.length_singleton]
    · simp only [InputPath.forward, LocalMIDIForwarder.publish, hoffers, hsent, and_self, if_true,
        h.bytes, ← UInt64.ofNat_add, List.flatten_append, List.flatten_singleton, List.length_append]
    · simp only [InputPath.forward, LocalMIDIForwarder.publish, hoffers, hsent, if_true]
      rw [hcount, UInt64.add_assoc, UInt64.add_comm 1, ← UInt64.add_assoc]
  · refine ⟨?_, ?_, hsound, ?_, ?_, ?_⟩
    · simpa only [InputPath.forward, hsent, and_false, false_and, if_false] using h.arrived
    · simp only [InputPath.forward, hsent, and_false, if_false]
      exact h.taken.trans (List.sublist_append_left _ _)
    · simpa only [InputPath.forward, LocalMIDIForwarder.publish, hoffers, hsent, and_false, if_true,
        if_false] using h.datagrams
    · simpa only [InputPath.forward, LocalMIDIForwarder.publish, hoffers, hsent, and_false, if_true,
        if_false] using h.bytes
    · simp only [InputPath.forward, LocalMIDIForwarder.publish, hoffers, hsent, if_true, if_false]
      rw [hcount, UInt64.add_assoc]

structure Forwarded (batches : List (List UInt8)) (p q : InputPath) : Prop where
  reader : q.reader = p.reader
  earlier : q.earlier = p.earlier
  socket : q.forwarder.socket = p.forwarder.socket
  handed : q.handed = p.handed ++ batches

theorem forwardAll_forwarded (bs : List (List UInt8)) (sends : ℕ → Sendto) (p : InputPath) :
    Forwarded bs p (forwardAll bs sends p) := by
  induction bs generalizing sends p with
  | nil => exact ⟨rfl, rfl, rfl, (List.append_nil _).symm⟩
  | cons b bs ih =>
    obtain ⟨hreader, hearlier, hsocket, hhanded⟩ := ih (fun n ↦ sends (n + 1)) (p.forward (sends 0) b)
    refine ⟨hreader, hearlier, ?_, ?_⟩
    · exact hsocket.trans (LocalMIDIForwarder.publish_socket _ _ _)
    · exact hhanded.trans (List.append_assoc p.handed [b] bs)

theorem Conserved.forwardAll {bs : List (List UInt8)} (h : Conserved p)
    (hsocket : bs ≠ [] → p.forwarder.socket = true) (hbs : ∀ b ∈ bs, Sound b)
    (sends : ℕ → Sendto) : Conserved (forwardAll bs sends p) := by
  induction bs generalizing sends p with
  | nil => exact h
  | cons b bs ih =>
    have hopen := hsocket (List.cons_ne_nil b bs)
    obtain ⟨hb, hrest⟩ := List.forall_mem_cons.mp hbs
    apply ih (h.forward hopen hb (sends 0))
    · intro _
      exact (LocalMIDIForwarder.publish_socket _ _ _).trans hopen
    · exact hrest

theorem Conserved.advance (h : Conserved p) (hp : Sourced p) {t : MIDIInputReader}
    (ht : Kept t) (hon : Onward p.reader t) (sends : ℕ → Sendto) :
    Conserved (p.advance sends t) := by
  apply Conserved.forwardAll
  · exact ⟨h.arrived, h.taken, h.sound, h.datagrams, h.bytes, h.failures⟩
  · intro hne
    exact hp.socket (hon.attached hne)
  · intro b hb
    obtain ⟨entry, hentry, rfl⟩ := List.mem_map.mp hb
    have hmem : entry.2 ∈ batches t.deliveries := by
      rw [← ht.published]
      exact List.mem_map_of_mem (List.mem_of_mem_drop hentry)
    exact batches_sound hmem

theorem Sourced.advance (h : Sourced p) {t : MIDIInputReader} (ht : Kept t)
    (hon : Onward p.reader t) (hsocket : t.reader.session = true → p.forwarder.socket = true)
    (sends : ℕ → Sendto) : Sourced (p.advance sends t) := by
  obtain ⟨hreader, hearlier, hsock, hhanded⟩ := forwardAll_forwarded (publishedSince p.reader t) sends
    { p with
      reader := t
      earlier := if t.base = p.reader.base then p.earlier else p.earlier ++ [p.reader.deliveries] }
  refine ⟨hreader ▸ ht, ?_, ?_⟩
  · unfold InputPath.advance
    rw [hhanded, hearlier, hreader, h.handed]
    split_ifs with hbase
    · obtain ⟨more, hmore⟩ := hon.published hbase
      rw [publishedSince, ← hmore, List.drop_left, List.map_append, List.append_assoc]
    · have hnil := ht.published_nil (hon.renewed hbase)
      rw [publishedSince_nil (.inl hnil), hnil, h.reader.published, List.flatMap_append,
        List.flatMap_singleton]
      simp only [List.append_nil, List.map_nil]
  · intro hs
    unfold InputPath.advance at hs ⊢
    rw [hreader] at hs
    exact hsock.trans (hsocket hs)

theorem Conserved.receive (h : Conserved p) {datagram : List UInt8} {rest : List (List UInt8)}
    (hq : p.queue = datagram :: rest) (added delivered : Bool) :
    Conserved (p.receive added delivered datagram rest) := by
  have harrived := h.arrived
  rw [hq] at harrived
  have hmem : datagram ∈ p.handed := by
    apply (harrived.trans h.taken).subset
    simp
  have hwhole : datagram.take inputBytes = datagram := by
    apply List.take_of_length_le
    have := (h.sound datagram hmem).short
    rw [inputBytes]
    omega
  refine ⟨?_, h.taken, h.sound, h.datagrams, h.bytes, h.failures⟩
  simp only [InputPath.receive, hwhole]
  split_ifs
  · rwa [List.append_assoc]
  · refine List.Sublist.trans ?_ harrived
    exact (List.sublist_cons_self datagram rest).append_left _

theorem step_inv {q : InputPath} {a : Action} (hc : Conserved p) (hs : Sourced p)
    (h : p.step a = some q) : Conserved q ∧ Sourced q := by
  cases a with
  | reader a sends =>
    simp only [InputPath.step] at h
    split_ifs at h with hguard
    obtain ⟨t, hstep, rfl⟩ := Option.map_eq_some_iff.mp h
    obtain ⟨ht, hon⟩ := hs.reader.step hstep
    refine ⟨hc.advance hs ht hon sends, hs.advance ht hon (fun hsession ↦ ?_) sends⟩
    cases ha : starts a with
    | true => simpa [ha] using hguard
    | false => exact hs.socket (step_attached hstep ha hsession)
  | forwarderStart opened =>
    cases h
    refine ⟨⟨hc.arrived, hc.taken, hc.sound, ?_, ?_, ?_⟩, hs.reader, hs.handed, fun hsession ↦ ?_⟩
    · unfold LocalMIDIForwarder.start
      split_ifs
      all_goals exact hc.datagrams
    · unfold LocalMIDIForwarder.start
      split_ifs
      all_goals exact hc.bytes
    · unfold LocalMIDIForwarder.start
      split_ifs
      all_goals exact hc.failures
    · have hopen := hs.socket hsession
      simp only [LocalMIDIForwarder.start, hopen, if_true]
  | forwarderStop =>
    simp only [InputPath.step] at h
    split_ifs at h with hsession
    cases h
    exact ⟨⟨hc.arrived, hc.taken, hc.sound, hc.datagrams, hc.bytes, hc.failures⟩, hs.reader,
      hs.handed, fun hs' ↦ absurd hs' hsession⟩
  | receive added delivered =>
    simp only [InputPath.step] at h
    cases hq : p.queue with
    | nil => simp [hq] at h
    | cons datagram rest =>
      simp only [hq] at h
      cases h
      exact ⟨hc.receive hq added delivered, hs.reader, hs.handed, hs.socket⟩
  | bridgeExit =>
    cases h
    refine ⟨⟨?_, hc.taken, hc.sound, hc.datagrams, hc.bytes, hc.failures⟩, hs.reader, hs.handed,
      hs.socket⟩
    rw [List.append_nil]
    exact (List.sublist_append_left _ _).trans hc.arrived

theorem run_inv {handles : Handles} {as : List Action}
    (h : Run step (initial handles) as p) : Conserved p ∧ Sourced p := by
  refine h.invariant (I := fun p ↦ Conserved p ∧ Sourced p) ?_ fun _ _ _ hi hstep ↦
    step_inv hi.1 hi.2 hstep
  refine ⟨⟨.slnil, .slnil, by simp [initial], rfl, rfl, rfl⟩, ⟨[], System.initial_inv ?_⟩, rfl, ?_⟩
  · exact ⟨MIDIInputParser.fresh_represents, rfl⟩
  · intro hsession
    cases hsession

/-- In every run, whichever datagrams are refused or lost, the applications get whole
messages only: those of the controller without the lost ones and in their order. The
forwarder counts each batch of the reader as sent or as failed. -/
theorem application_gets_whole_messages (handles : Handles) (as : List Action) (p : InputPath)
    (h : Run step (initial handles) as p) :
    (feed [] p.application.flatten).1.Sublist (feed [] p.handed.flatten).1 ∧
      (feed [] p.application.flatten).2 = [] ∧
      (feed [] p.application.flatten).1.flatten = p.application.flatten ∧
      p.forwarder.sentDatagrams + p.forwarder.sendFailures = UInt64.ofNat p.handed.length ∧
      p.forwarder.sentBytes = UInt64.ofNat p.accepted.flatten.length ∧
      (p.application ++ p.queue).Sublist p.accepted := by
  obtain ⟨hc, -⟩ := run_inv h
  have hsub : p.application.Sublist p.handed :=
    ((List.sublist_append_left _ _).trans hc.arrived).trans hc.taken
  have hwhole : ∀ d ∈ p.handed, WholeMessages d := fun d hd ↦ (hc.sound d hd).whole
  obtain ⟨hmessages, hnil⟩ := feed_sublist hsub hwhole
  refine ⟨hmessages, hnil, ?_, hc.failures, hc.bytes, hc.arrived⟩
  exact feed_whole fun d hd ↦ hwhole d (hsub.subset hd)

def reported (n : ℕ) (midi : List UInt8) (queued : Bool) : Action :=
  .reader (.complete .allSucceed 0 n ⟨.success, padded midi⟩) fun _ ↦ ⟨3, queued⟩

def lossyRun : List Action :=
  [.forwarderStart true, .reader (.start .allSucceed) fun _ ↦ ⟨0, false⟩,
    reported 0 [0x90, 0x3c, 0x40] true, reported 1 [0x90, 0x3d, 0x40] false,
    reported 2 [0x90, 0x3e, 0x40] true, .receive true true, .receive true true]

theorem application_gets_whole_messages_lossy : ∃ p : InputPath,
    Run step (initial ⟨true, 2, true⟩) lossyRun p ∧
      p.application = [[0x90, 0x3c, 0x40], [0x90, 0x3e, 0x40]] ∧
      (feed [] p.application.flatten).1.Sublist (feed [] p.handed.flatten).1 ∧
      p.forwarder.sentDatagrams + p.forwarder.sendFailures = UInt64.ofNat p.handed.length := by
  have h : Run step (initial ⟨true, 2, true⟩) lossyRun _ := .of_foldlM rfl
  obtain ⟨hsub, -, -, hcount, -⟩ := application_gets_whole_messages _ _ _ h
  exact ⟨_, h, rfl, hsub, hcount⟩

/-- While no datagram has been lost, what the applications have got and what is on
its way is the reading of the reports of every session, failed ones apart, in the
order in which the reads were submitted. -/
theorem application_hears_controller (handles : Handles) (as : List Action) (p : InputPath)
    (h : Run step (initial handles) as p)
    (hlossless : p.application.length + p.queue.length = p.handed.length) :
    (p.application ++ p.queue).flatten =
      (p.earlier ++ [p.reader.deliveries]).flatMap fun ds ↦
        reference (MIDIInputReader.stream (ds.filter (Good ·))) := by
  obtain ⟨hc, hs⟩ := run_inv h
  have hall : p.application ++ p.queue = p.handed := by
    apply (hc.arrived.trans hc.taken).eq_of_length
    rw [List.length_append]
    exact hlossless
  have hreading : (fun ds ↦ reference (MIDIInputReader.stream (ds.filter (Good ·)))) =
      fun ds ↦ (batches ds).flatten := by
    funext ds
    exact (batches_reference ds).symm
  rw [hall, hs.handed, hs.reader.published, hreading, List.flatMap_append, List.flatMap_singleton,
    List.flatten_append]
  congr 1
  simp only [List.flatMap, List.flatten_flatten, List.map_map]
  rfl

def splitRun : List Action :=
  [.forwarderStart true, .reader (.start .allSucceed) fun _ ↦ ⟨0, false⟩,
    reported 0 [0x90, 0x3c] true, reported 1 [0x40] true, reported 2 [0x80, 0x3c, 0] true,
    .receive true true]

theorem application_hears_controller_split : ∃ p : InputPath,
    Run step (initial ⟨true, 2, true⟩) splitRun p ∧ p.application = [[0x90, 0x3c, 0x40]] ∧
      p.queue = [[0x80, 0x3c, 0]] ∧
      (p.application ++ p.queue).flatten =
        (p.earlier ++ [p.reader.deliveries]).flatMap fun ds ↦
          reference (MIDIInputReader.stream (ds.filter (Good ·))) := by
  have h : Run step (initial ⟨true, 2, true⟩) splitRun _ := .of_foldlM rfl
  exact ⟨_, h, rfl, rfl, application_hears_controller _ _ _ h rfl⟩

end InputPath

end NumarkNS6.Midi
