import NumarkNS6.Midi.ChannelMessages

namespace NumarkNS6.Midi

structure MIDIInputParser where
  message : List UInt8
  used : UInt8
  expected : UInt8

namespace MIDIInputParser

def reportBytes : ℕ := 42

def reportPayloadBytes : ℕ := 41

def fresh : MIDIInputParser := ⟨[0, 0, 0], 0, 0⟩

def reset (p : MIDIInputParser) : MIDIInputParser := { p with used := 0, expected := 0 }

/-- One pass through the loop of `feedReport`: the bytes it appends to the output. -/
def feedByte (p : MIDIInputParser) (byte : UInt8) : List UInt8 × MIDIInputParser :=
  if byte = 0xfd then ([], p)
  else if byte &&& 0x80 ≠ 0 then
    if byte ≥ 0x80 ∧ byte ≤ 0xef then
      ([], ⟨p.message.set 0 byte, 1, if byte ≥ 0xc0 ∧ byte ≤ 0xdf then 2 else 3⟩)
    else ([], p.reset)
  else if p.expected = 0 ∨ p.used ≥ 3 then ([], p)
  else
    let message := p.message.set p.used.toNat byte
    if p.used + 1 = p.expected then (message.take p.expected.toNat, ⟨message, 0, 0⟩)
    else ([], ⟨message, p.used + 1, p.expected⟩)

def feedBytes (p : MIDIInputParser) : List UInt8 → List UInt8 × MIDIInputParser
  | [] => ([], p)
  | byte :: rest =>
    let a := p.feedByte byte
    let r := feedBytes a.2 rest
    (a.1 ++ r.1, r.2)

/-- `report` and `output` are null where they are `none` and `false`. Byte 41 of
a report is a terminator and not read. -/
def feedReport (p : MIDIInputParser) (report : Option (List UInt8)) (length : ℕ) (output : Bool) :
    List UInt8 × MIDIInputParser :=
  match report, output with
  | some bytes, true =>
    if length ≠ reportBytes then ([], p.reset) else p.feedBytes (bytes.take reportPayloadBytes)
  | _, _ => ([], p)

def feedReports (p : MIDIInputParser) : List (List UInt8) → List (List UInt8)
  | [] => []
  | report :: rest =>
    let r := p.feedReport (some report) report.length true
    r.1 :: r.2.feedReports rest

structure Represents (p : MIDIInputParser) (m : List UInt8) : Prop where
  storage : p.message.length = 3
  pending : IsPending m
  bytes : p.message.take m.length = m
  used : p.used = UInt8.ofNat m.length
  expected : p.expected = match m with
    | [] => 0
    | status :: _ => UInt8.ofNat (messageLength status)

theorem fresh_represents : Represents fresh [] := ⟨rfl, .inl rfl, rfl, rfl, rfl⟩

theorem status_bit (byte : UInt8) : byte &&& 0x80 ≠ 0 ↔ 0x80 ≤ byte := by
  have h : ∀ x : BitVec 8, x &&& 0x80#8 ≠ 0#8 ↔ 0x80#8 ≤ x := by decide +kernel
  rw [UInt8.le_iff_toBitVec_le, ne_eq, ← UInt8.toBitVec_inj]
  exact h byte.toBitVec

theorem reset_represents {p : MIDIInputParser} (h : p.message.length = 3) : Represents p.reset [] :=
  ⟨h, .inl rfl, rfl, rfl, rfl⟩

theorem status_represents {p : MIDIInputParser} (h : p.message.length = 3) {byte : UInt8}
    (hs : 0x80 ≤ byte) (hc : byte ≤ 0xef) :
    Represents ⟨p.message.set 0 byte, 1, if byte ≥ 0xc0 ∧ byte ≤ 0xdf then 2 else 3⟩ [byte] := by
  refine ⟨by simpa using h, ?_, ?_, rfl, ?_⟩
  · refine .inr ⟨opens_singleton hs hc, fun s _ ↦ ?_⟩
    rcases messageLength_cases s with h | h <;> rw [h, List.length_singleton] <;> decide
  · obtain ⟨a, b, c, he⟩ := List.length_eq_three.mp h
    rw [he]
    rfl
  · simp only [messageLength, ge_iff_le]
    split_ifs <;> rfl

theorem counters {n l : ℕ} (hn : n < 3) (hl : l = 2 ∨ l = 3) :
    ¬ (UInt8.ofNat l = 0 ∨ UInt8.ofNat n ≥ 3) ∧ (UInt8.ofNat n + 1 = UInt8.ofNat l ↔ n + 1 = l) := by
  obtain rfl | rfl | rfl : n = 0 ∨ n = 1 ∨ n = 2 := by omega
  all_goals rcases hl with rfl | rfl <;> decide

theorem data_represents {p : MIDIInputParser} {status byte : UInt8} {data : List UInt8}
    (h : Represents p (status :: data)) (hf : byte ≠ filler) (hs : ¬ 0x80 ≤ byte) :
    (p.feedByte byte).1 = (advance (status :: data) byte).1.flatten ∧
      Represents (p.feedByte byte).2 (advance (status :: data) byte).2 := by
  have hshape := (advance_shape h.pending byte).1
  obtain hnil | ⟨-, hlen⟩ := h.pending
  · cases hnil
  have hlt : data.length + 1 < messageLength status := hlen status rfl
  have hle : messageLength status ≤ 3 := by rcases messageLength_cases status with h | h <;> omega
  obtain ⟨n, hn⟩ : ∃ n, n = data.length + 1 := ⟨_, rfl⟩
  obtain ⟨l, hl⟩ : ∃ l, l = messageLength status := ⟨_, rfl⟩
  have hused : p.used = UInt8.ofNat n := by rw [h.used, hn]; rfl
  have hexp : p.expected = UInt8.ofNat l := by rw [h.expected, hl]
  have hset : (p.message.set n byte).take (n + 1) = status :: (data ++ [byte]) := by
    have hb : p.message.take n = status :: data := by rw [hn]; exact h.bytes
    rw [List.take_add_one, List.take_set_of_le le_rfl, hb, List.getElem?_set_self
      (by rw [h.storage]; omega)]
    rfl
  have htoNat : (UInt8.ofNat n).toNat = n := by
    rw [UInt8.toNat_ofNat']; exact Nat.mod_eq_of_lt (by omega)
  obtain ⟨hskip, heq⟩ := counters (show n < 3 by omega) (hl ▸ messageLength_cases status)
  simp only [advance, if_neg hf, if_neg hs] at hshape ⊢
  simp only [List.length_cons, ← hn, ← hl] at hshape
  simp only [feedByte, if_neg (show byte ≠ 0xfd from hf), status_bit, if_neg hs, hused, hexp,
    if_neg hskip, heq, htoNat, List.length_cons, ← hn, ← hl]
  split_ifs at hshape ⊢ with hlast
  · have hlNat : (UInt8.ofNat l).toNat = n + 1 := by
      rw [UInt8.toNat_ofNat', ← hlast]; exact Nat.mod_eq_of_lt (by omega)
    refine ⟨?_, by simpa using h.storage, .inl rfl, rfl, rfl, rfl⟩
    rw [hlNat, hset]
    simp
  · refine ⟨rfl, by simpa using h.storage, hshape, ?_, ?_, by rw [hl]⟩
    · rw [show (([] : List (List UInt8)), status :: (data ++ [byte])).2.length = n + 1 by
        rw [hn]; simp]
      exact hset
    · rw [show (([] : List (List UInt8)), status :: (data ++ [byte])).2.length = n + 1 by
        rw [hn]; simp]
      exact UInt8.ofNat_add n 1 |>.symm

/-- The parser's loop body computes what the stream semantics asks for. -/
theorem feedByte_refines {p : MIDIInputParser} {m : List UInt8} (h : Represents p m) (byte : UInt8) :
    (p.feedByte byte).1 = (advance m byte).1.flatten ∧
      Represents (p.feedByte byte).2 (advance m byte).2 := by
  by_cases hf : byte = filler
  · subst hf
    rw [advance_filler]
    exact ⟨rfl, h⟩
  have hf' : byte ≠ 0xfd := hf
  by_cases hs : 0x80 ≤ byte
  · simp only [feedByte, advance, if_neg hf, if_neg hf', status_bit, hs, ge_iff_le, true_and, if_true]
    by_cases hc : byte ≤ 0xef
    · simp only [if_pos hc]
      exact ⟨rfl, status_represents h.storage hs hc⟩
    · simp only [if_neg hc]
      exact ⟨rfl, reset_represents h.storage⟩
  · cases m with
    | nil =>
      have hidle : p.expected = 0 := h.expected
      simp only [feedByte, advance, if_neg hf, if_neg hf', status_bit, if_neg hs, hidle, true_or,
        if_true]
      exact ⟨rfl, h⟩
    | cons status data => exact data_represents h hf hs

theorem feedBytes_refines {p : MIDIInputParser} {m : List UInt8} (h : Represents p m)
    (xs : List UInt8) :
    (p.feedBytes xs).1 = (feed m xs).1.flatten ∧ Represents (p.feedBytes xs).2 (feed m xs).2 := by
  induction xs generalizing p m with
  | nil => exact ⟨rfl, h⟩
  | cons x xs ih =>
    obtain ⟨hout, hr⟩ := feedByte_refines h x
    obtain ⟨hout', hr'⟩ := ih hr
    refine ⟨?_, hr'⟩
    simp only [feedBytes, feed, List.flatten_append, hout, hout']

theorem feedReport_eq (p : MIDIInputParser) {report : List UInt8} (h : report.length = reportBytes) :
    p.feedReport (some report) report.length true =
      p.feedBytes (report.take reportPayloadBytes) := by
  simp [feedReport, h]

end MIDIInputParser

end NumarkNS6.Midi
