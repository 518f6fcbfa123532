import NumarkNS6.Midi.MIDIInputParser

namespace NumarkNS6.Midi

/-- The message a stream begins with: a status byte and, at once, the data bytes
it asks for. -/
def opening : List UInt8 → Option (List UInt8)
  | [] => none
  | status :: rest =>
    let message := status :: rest.take (messageLength status - 1)
    if IsMessage message then some message else none

def messages (stream : List UInt8) : List (List UInt8) := stream.tails.filterMap opening

/-- The reference parser: every message that stands in the stream, in order. -/
def reference (stream : List UInt8) : List UInt8 := (messages stream).flatten

variable {p data xs : List UInt8} {status byte : UInt8}

theorem messages_cons (byte : UInt8) (rest : List UInt8) :
    messages (byte :: rest) = (opening (byte :: rest)).toList ++ messages rest := by
  rw [messages, List.tails_cons, List.filterMap_cons]
  cases opening (byte :: rest) <;> rfl

theorem isMessage_head {m : List UInt8} (h : IsMessage (status :: m)) :
    0x80 ≤ status ∧ status ≤ 0xef ∧ (∀ d ∈ m, d < 0x80) ∧ m.length + 1 = messageLength status := by
  obtain ⟨⟨s, data, he, h₁, h₂, hdata, -⟩, hlen⟩ := h
  obtain ⟨rfl, rfl⟩ := List.cons.inj he
  exact ⟨h₁, h₂, hdata, hlen _ rfl⟩

theorem opening_eq_none (h : ∀ m, IsMessage (status :: m) → m ≠ xs.take (messageLength status - 1)) :
    opening (status :: xs) = none :=
  if_neg fun hm ↦ h _ hm rfl

theorem opening_not_status (h : ¬ (0x80 ≤ byte ∧ byte ≤ 0xef)) : opening (byte :: xs) = none := by
  refine opening_eq_none fun m hm ↦ absurd ?_ h
  obtain ⟨h₁, h₂, -⟩ := isMessage_head hm
  exact ⟨h₁, h₂⟩

theorem opening_message (h : IsMessage (status :: data)) :
    opening (status :: (data ++ xs)) = some (status :: data) := by
  obtain ⟨-, -, -, hlen⟩ := isMessage_head h
  have htake : (data ++ xs).take (messageLength status - 1) = data := by
    rw [← hlen, Nat.add_sub_cancel, List.take_left]
  simp only [opening, htake, if_pos h]

theorem opening_short (h : data.length + 1 < messageLength status) :
    opening (status :: data) = none := by
  refine opening_eq_none fun m hm he ↦ ?_
  obtain ⟨-, -, -, hlen⟩ := isMessage_head hm
  have hle := List.length_take_le (messageLength status - 1) data
  have hle' := List.length_take_le' (messageLength status - 1) data
  rw [← he] at hle'
  omega

theorem opening_interrupted (h : data.length + 1 < messageLength status) (hb : ¬ byte < 0x80) :
    opening (status :: (data ++ byte :: xs)) = none := by
  refine opening_eq_none fun m hm he ↦ ?_
  obtain ⟨-, -, hdata, -⟩ := isMessage_head hm
  have hmem : byte ∈ (data ++ byte :: xs).take (messageLength status - 1) := by
    obtain ⟨n, hn⟩ := Nat.exists_eq_add_of_lt h
    have hsplit : messageLength status - 1 = data.length + (n + 1) := by omega
    rw [hsplit, List.take_length_add_append, List.take_succ_cons]
    exact List.mem_append_right _ List.mem_cons_self
  exact hb (hdata byte (he ▸ hmem))

theorem messages_not_status (h : ¬ (0x80 ≤ byte ∧ byte ≤ 0xef)) :
    messages (byte :: xs) = messages xs := by
  rw [messages_cons, opening_not_status h, Option.toList_none, List.nil_append]

theorem messages_data (h : ∀ d ∈ data, d < 0x80) : messages (data ++ xs) = messages xs := by
  induction data with
  | nil => rfl
  | cons d data ih =>
    obtain ⟨hd, hdata⟩ := List.forall_mem_cons.mp h
    have hstatus : ¬ (0x80 ≤ d ∧ d ≤ 0xef) := fun hs ↦ UInt8.not_le.mpr hd hs.1
    rw [List.cons_append, messages_not_status hstatus, ih hdata]

theorem messages_given_up (hp : IsPending p) (hb : ¬ byte < 0x80) :
    messages (p ++ byte :: xs) = messages (byte :: xs) := by
  obtain rfl | ⟨⟨status, data, rfl, -, -, hdata, -⟩, hlen⟩ := hp
  · rfl
  · rw [List.cons_append, messages_cons, opening_interrupted (hlen status rfl) hb,
      Option.toList_none, List.nil_append, messages_data hdata]

theorem messages_pending (hp : IsPending p) : messages p = [] := by
  obtain rfl | ⟨⟨status, data, rfl, -, -, hdata, -⟩, hlen⟩ := hp
  · rfl
  · have hnone : messages (data ++ []) = [] := messages_data hdata
    rw [List.append_nil] at hnone
    rw [messages_cons, opening_short (hlen status rfl), hnone]
    rfl

theorem advance_messages (hp : IsPending p) (hf : byte ≠ filler) (xs : List UInt8) :
    messages (p ++ byte :: xs) = (advance p byte).1 ++ messages ((advance p byte).2 ++ xs) := by
  have hshape := advance_shape hp byte
  by_cases hs : 0x80 ≤ byte
  · rw [messages_given_up hp (UInt8.not_lt.mpr hs)]
    by_cases hc : byte ≤ 0xef
    · rw [advance_status hs hc]
      rfl
    · simp only [advance, if_neg hf, if_pos hs, if_neg hc, List.nil_append]
      exact messages_not_status fun h ↦ hc h.2
  · have hd : byte < 0x80 := UInt8.not_le.mp hs
    cases p with
    | nil =>
      simp only [advance, if_neg hf, if_neg hs, List.nil_append]
      exact messages_not_status fun h ↦ hs h.1
    | cons status data =>
      have hjoin : status :: data ++ byte :: xs = status :: (data ++ [byte] ++ xs) := by simp
      rw [advance_data hd] at hshape ⊢
      split_ifs at hshape ⊢
      · have hm : IsMessage (status :: (data ++ [byte])) := hshape.2 _ List.mem_cons_self
        rw [hjoin, messages_cons, opening_message hm, messages_data (isMessage_head hm).2.2.1]
        rfl
      · rw [hjoin]
        rfl

/-- The invariant over all prefixes of the stream: what has been completed and
what is in progress together stand for the bytes read. -/
theorem feed_eq_messages (hp : IsPending p) (hf : filler ∉ xs) :
    (feed p xs).1 = messages (p ++ xs) := by
  induction xs generalizing p with
  | nil => rw [List.append_nil, messages_pending hp, feed]
  | cons x xs ih =>
    rw [List.mem_cons, not_or] at hf
    rw [feed, advance_messages hp (Ne.symm hf.1), ih (advance_shape hp x).1 hf.2]

theorem filler_not_significant (xs : List UInt8) : filler ∉ significant xs := by
  simp [significant]

theorem feed_eq_reference (xs : List UInt8) :
    (feed [] xs).1.flatten = reference (significant xs) := by
  rw [← feed_significant, feed_eq_messages (.inl rfl) (filler_not_significant xs), List.nil_append,
    reference]

theorem advance_length (p : List UInt8) (byte : UInt8) :
    (advance p byte).1.flatten.length + (advance p byte).2.length ≤ p.length + 1 := by
  unfold advance
  split_ifs
  · simp
  · simp
  · simp
  · cases p with
    | nil => simp
    | cons status data =>
      simp only
      split_ifs <;> simp

theorem feed_length (p xs : List UInt8) :
    (feed p xs).1.flatten.length + (feed p xs).2.length ≤ p.length + xs.length := by
  induction xs generalizing p with
  | nil => simp [feed]
  | cons x xs ih =>
    have hbyte := advance_length p x
    have hrest := ih (advance p x).2
    simp only [feed, List.flatten_append, List.length_append, List.length_cons]
    omega

theorem IsPending.length_le (hp : IsPending p) : p.length ≤ 2 := by
  obtain rfl | ⟨⟨status, data, rfl, -⟩, hlen⟩ := hp
  · exact Nat.zero_le 2
  · have hlt := hlen status rfl
    have hcases := messageLength_cases status
    omega

abbrev FullReport := { report : List UInt8 // report.length = MIDIInputParser.reportBytes }

def stream (reports : List FullReport) : List UInt8 :=
  significant (reports.map fun report ↦ report.val.take MIDIInputParser.reportPayloadBytes).flatten

namespace MIDIInputParser

def outputs (p : MIDIInputParser) (reports : List FullReport) : List (List UInt8) :=
  p.feedReports (reports.map Subtype.val)

theorem feedReport_stretch {p : MIDIInputParser} {m : List UInt8} (h : Represents p m)
    (report : FullReport) :
    (p.feedReport (some report.val) report.val.length true).1 =
        (feed m (report.val.take reportPayloadBytes)).1.flatten ∧
      Represents (p.feedReport (some report.val) report.val.length true).2
        (feed m (report.val.take reportPayloadBytes)).2 ∧
      (p.feedReport (some report.val) report.val.length true).1.length ≤ 43 := by
  rw [feedReport_eq p report.property]
  obtain ⟨hout, hrep⟩ := feedBytes_refines h (report.val.take reportPayloadBytes)
  refine ⟨hout, hrep, ?_⟩
  have hlength := feed_length m (report.val.take reportPayloadBytes)
  have hpending := h.pending.length_le
  have htake : (report.val.take reportPayloadBytes).length ≤ 41 := List.length_take_le _ _
  rw [hout]
  omega

theorem outputs_stretch {p : MIDIInputParser} {m : List UInt8} (h : Represents p m)
    (reports : List FullReport) :
    (p.outputs reports).flatten =
        (feed m (reports.map fun r ↦ r.val.take reportPayloadBytes).flatten).1.flatten ∧
      ∀ output ∈ p.outputs reports, output.length ≤ 43 := by
  induction reports generalizing p m with
  | nil => exact ⟨rfl, by simp [outputs, feedReports]⟩
  | cons report reports ih =>
    obtain ⟨hout, hrep, hlen⟩ := feedReport_stretch h report
    obtain ⟨houts, hlens⟩ := ih hrep
    have hcons : p.outputs (report :: reports) =
        (p.feedReport (some report.val) report.val.length true).1 ::
          (p.feedReport (some report.val) report.val.length true).2.outputs reports := rfl
    rw [hcons]
    refine ⟨?_, List.forall_mem_cons.mpr ⟨hlen, hlens⟩⟩
    rw [List.flatten_cons, houts, hout, List.map_cons, List.flatten_cons, feed_append,
      List.flatten_append]

/-- Cutting a stream into reports, padding it and the last byte of a report make
no difference: the parser finds the messages that stand in the stream. -/
theorem outputs_reference (reports : List FullReport) :
    (fresh.outputs reports).flatten = reference (stream reports) ∧
      (∀ output ∈ fresh.outputs reports, output.length ≤ 43) ∧
      ∀ other : List FullReport, stream other = stream reports →
        (fresh.outputs other).flatten = (fresh.outputs reports).flatten := by
  have href (rs : List FullReport) : (fresh.outputs rs).flatten = reference (stream rs) := by
    rw [(outputs_stretch fresh_represents rs).1, feed_eq_reference, stream]
  refine ⟨href reports, (outputs_stretch fresh_represents reports).2, ?_⟩
  intro other hstream
  rw [href, href, hstream]

example : reference [0x40, 0x90, 0x3c, 0xc1, 7, 8, 0xf8, 0x80, 1, 2, 3] = [0xc1, 7, 0x80, 1, 2] := by
  decide

end MIDIInputParser

end NumarkNS6.Midi
