import NumarkNS6.Midi.StreamGrammar

namespace NumarkNS6.Midi

namespace MIDIInputEventEncoder

def word (status data1 data2 : UInt8) : UInt32 :=
  ((0x2 : UInt32) <<< 28) ||| (status.toUInt32 <<< 16) ||| (data1.toUInt32 <<< 8) ||| data2.toUInt32

/-- The loop of `encode`: `rest` are the bytes from `consumed` on, and `words`
are the `count` words written so far. -/
def encodeLoop (capacity : ℕ) : ℕ → List UInt8 → List UInt32 → ℕ × List UInt32
  | 0, _, words => (0, words)
  | fuel + 1, rest, words =>
    match rest with
    | [] => (words.length, words)
    | status :: data =>
      if status < 0x80 ∨ status > 0xef then (0, words)
      else
        let size := messageLength status
        if rest.length < size ∨ words.length = capacity then (0, words)
        else
          let data1 := data.getD 0 0
          let data2 := if size = 3 then data.getD 1 0 else 0
          if data1 &&& 0x80 ≠ 0 ∨ data2 &&& 0x80 ≠ 0 then (0, words)
          else encodeLoop capacity fuel (rest.drop size) (words ++ [word status data1 data2])

/-- The count returned and the words written; `bytes` and `words` are null where
they are `none` and `false`. Every message has at least a byte, so the loop
ends before its fuel does. -/
def encode (bytes : Option (List UInt8)) (words : Bool) (capacity : ℕ) : ℕ × List UInt32 :=
  match bytes, words with
  | some bytes, true => encodeLoop capacity (bytes.length + 1) bytes []
  | _, _ => (0, [])

def messageWord (m : List UInt8) : UInt32 := word (m.getD 0 0) (m.getD 1 0) (m.getD 2 0)

variable {capacity fuel : ℕ} {m rest : List UInt8} {words : List UInt32}

theorem word_toNat (status data1 data2 : UInt8) : (word status data1 data2).toNat =
    2 * 2 ^ 28 + (status.toNat * 2 ^ 16 + (data1.toNat * 2 ^ 8 + data2.toNat)) := by
  have h₀ := status.toNat_lt
  have h₁ := data1.toNat_lt
  have h₂ := data2.toNat_lt
  have hstatus : (status.toUInt32 <<< 16).toNat = status.toNat <<< 16 := by
    rw [UInt32.toNat_shiftLeft, UInt8.toNat_toUInt32]
    exact Nat.mod_eq_of_lt (by rw [Nat.shiftLeft_eq]; change _ * 2 ^ 16 < _; omega)
  have hdata : (data1.toUInt32 <<< 8).toNat = data1.toNat <<< 8 := by
    rw [UInt32.toNat_shiftLeft, UInt8.toNat_toUInt32]
    exact Nat.mod_eq_of_lt (by rw [Nat.shiftLeft_eq]; change _ * 2 ^ 8 < _; omega)
  rw [word, UInt32.toNat_or, UInt32.toNat_or, UInt32.toNat_or, hstatus, hdata,
    UInt8.toNat_toUInt32, Nat.or_assoc, Nat.or_assoc, ← Nat.shiftLeft_add_eq_or_of_lt h₂,
    ← Nat.shiftLeft_add_eq_or_of_lt (by rw [Nat.shiftLeft_eq]; omega)]
  change 2 <<< 28 ||| _ = _
  rw [← Nat.shiftLeft_add_eq_or_of_lt (by simp only [Nat.shiftLeft_eq]; omega)]
  simp only [Nat.shiftLeft_eq]

theorem word_inj {s d e s' d' e' : UInt8} (h : word s d e = word s' d' e') :
    s = s' ∧ d = d' ∧ e = e' := by
  have hnat := congrArg UInt32.toNat h
  rw [word_toNat, word_toNat] at hnat
  have h₁ := d.toNat_lt
  have h₂ := e.toNat_lt
  have h₁' := d'.toNat_lt
  have h₂' := e'.toNat_lt
  refine ⟨UInt8.toNat_inj.mp ?_, UInt8.toNat_inj.mp ?_, UInt8.toNat_inj.mp ?_⟩ <;> omega

/-- The status of a message says how long it is, so its word gives all of it. -/
theorem messageWord_inj {n : List UInt8} (hm : IsMessage m) (hn : IsMessage n)
    (h : messageWord m = messageWord n) : m = n := by
  obtain ⟨⟨s, data, rfl, -⟩, hlen⟩ := hm
  obtain ⟨⟨s', data', rfl, -⟩, hlen'⟩ := hn
  have hl : data.length + 1 = messageLength s := hlen s rfl
  have hl' : data'.length + 1 = messageLength s' := hlen' s' rfl
  obtain ⟨hs, hd, he⟩ := word_inj h
  obtain rfl : s = s' := hs
  rcases messageLength_cases s with h2 | h3
  · obtain ⟨d, rfl⟩ := List.length_eq_one_iff.mp (show data.length = 1 by omega)
    obtain ⟨d', rfl⟩ := List.length_eq_one_iff.mp (show data'.length = 1 by omega)
    obtain rfl : d = d' := hd
    rfl
  · obtain ⟨d, e, rfl⟩ := List.length_eq_two.mp (show data.length = 2 by omega)
    obtain ⟨d', e', rfl⟩ := List.length_eq_two.mp (show data'.length = 2 by omega)
    obtain rfl : d = d' := hd
    obtain rfl : e = e' := he
    rfl

theorem messageWords_inj {ms ns : List (List UInt8)} (hms : ∀ m ∈ ms, IsMessage m)
    (hns : ∀ n ∈ ns, IsMessage n) (h : ms.map messageWord = ns.map messageWord) : ms = ns := by
  induction ms generalizing ns with
  | nil => exact (List.map_eq_nil_iff.mp h.symm).symm
  | cons m ms ih =>
    cases ns with
    | nil => cases h
    | cons n ns =>
      obtain ⟨hm, hms⟩ := List.forall_mem_cons.mp hms
      obtain ⟨hn, hns⟩ := List.forall_mem_cons.mp hns
      obtain ⟨hword, hwords⟩ := List.cons.inj h
      rw [messageWord_inj hm hn hword, ih hms hns hwords]

theorem data_bit (byte : UInt8) : byte &&& 0x80 = 0 ↔ byte < 0x80 := by
  rw [← not_iff_not, ← ne_eq, MIDIInputParser.status_bit, UInt8.not_lt]

theorem encodeLoop_message (hm : IsMessage m) (rest : List UInt8) (words : List UInt32) :
    encodeLoop capacity (fuel + 1) (m ++ rest) words =
      if words.length = capacity then (0, words)
      else encodeLoop capacity fuel rest (words ++ [messageWord m]) := by
  obtain ⟨⟨status, data, rfl, h₁, h₂, hdata, -⟩, hlen⟩ := hm
  have hl : data.length + 1 = messageLength status := hlen status rfl
  have hstatus : ¬ (status < 0x80 ∨ status > 0xef) :=
    not_or.mpr ⟨UInt8.not_lt.mpr h₁, UInt8.not_lt.mpr h₂⟩
  have hroom : ¬ (status :: (data ++ rest)).length < messageLength status := by
    rw [← hl, List.length_cons, List.length_append]
    omega
  simp only [List.cons_append, encodeLoop, if_neg hstatus, hroom, false_or]
  rcases messageLength_cases status with h | h
  · obtain ⟨d, rfl⟩ := List.length_eq_one_iff.mp (show data.length = 1 by omega)
    have hd := (data_bit d).mpr (hdata d List.mem_cons_self)
    simp [h, hd, messageWord]
  · obtain ⟨d, e, rfl⟩ := List.length_eq_two.mp (show data.length = 2 by omega)
    have hd := (data_bit d).mpr (hdata d List.mem_cons_self)
    have he := (data_bit e).mpr (hdata e (List.mem_cons_of_mem _ List.mem_cons_self))
    simp [h, hd, he, messageWord]

theorem encodeLoop_inv (h : (encodeLoop capacity (fuel + 1) rest words).1 ≠ 0) :
    rest = [] ∨ ∃ m rest', IsMessage m ∧ rest = m ++ rest' := by
  cases rest with
  | nil => exact .inl rfl
  | cons status data =>
    by_cases hstatus : status < 0x80 ∨ status > 0xef
    · simp only [encodeLoop, if_pos hstatus] at h
      exact absurd rfl h
    by_cases hroom : (status :: data).length < messageLength status ∨ words.length = capacity
    · simp only [encodeLoop, if_neg hstatus, if_pos hroom] at h
      exact absurd rfl h
    simp only [encodeLoop, if_neg hstatus, if_neg hroom] at h
    obtain ⟨h₁, h₂⟩ := not_or.mp hstatus
    obtain ⟨hlen, -⟩ := not_or.mp hroom
    right
    rcases messageLength_cases status with hsize | hsize
    · rw [hsize, List.length_cons] at hlen
      obtain ⟨d, rest', rfl⟩ := List.exists_cons_of_length_pos (show 0 < data.length by omega)
      refine ⟨[status, d], rest', ?_, rfl⟩
      have hd : d &&& 0x80 = 0 := by
        by_contra hne
        simp [hsize, hne] at h
      exact isMessage_cons (UInt8.not_lt.mp h₁) (UInt8.not_lt.mp h₂)
        (List.forall_mem_singleton.mpr ((data_bit d).mp hd)) hsize.symm
    · rw [hsize, List.length_cons] at hlen
      obtain ⟨d, data', rfl⟩ := List.exists_cons_of_length_pos (show 0 < data.length by omega)
      rw [List.length_cons] at hlen
      obtain ⟨e, rest', rfl⟩ := List.exists_cons_of_length_pos (show 0 < data'.length by omega)
      refine ⟨[status, d, e], rest', ?_, rfl⟩
      have hd : d &&& 0x80 = 0 ∧ e &&& 0x80 = 0 := by
        by_contra hne
        rw [not_and_or] at hne
        simp [hsize, hne] at h
      exact isMessage_cons (UInt8.not_lt.mp h₁) (UInt8.not_lt.mp h₂)
        (List.forall_mem_cons.mpr ⟨(data_bit d).mp hd.1,
          List.forall_mem_singleton.mpr ((data_bit e).mp hd.2)⟩) hsize.symm

theorem encodeLoop_messages (words : List UInt32) {ms : List (List UInt8)}
    (hms : ∀ m ∈ ms, IsMessage m) (hroom : words.length + ms.length ≤ capacity) (hfuel : ms.length < fuel) :
    encodeLoop capacity fuel ms.flatten words =
      (words.length + ms.length, words ++ ms.map messageWord) := by
  induction ms generalizing words fuel with
  | nil =>
    obtain ⟨fuel, rfl⟩ := Nat.exists_eq_add_one_of_ne_zero (Nat.ne_of_gt hfuel)
    simp [encodeLoop]
  | cons m ms ih =>
    obtain ⟨fuel, rfl⟩ := Nat.exists_eq_add_one_of_ne_zero (Nat.ne_zero_of_lt hfuel)
    obtain ⟨hm, hrest⟩ := List.forall_mem_cons.mp hms
    rw [List.length_cons] at hroom hfuel
    have hnext := ih (words ++ [messageWord m]) hrest
      (by rw [List.length_append, List.length_singleton]; omega) (Nat.lt_of_succ_lt_succ hfuel)
    rw [List.flatten_cons, encodeLoop_message hm, if_neg (by omega), hnext]
    simp [Nat.add_assoc, Nat.add_comm 1]

/-- Conversely, what the loop accepts are complete messages that there is room for. -/
theorem encodeLoop_ne_zero (h : (encodeLoop capacity fuel rest words).1 ≠ 0)
    (hwords : words.length ≤ capacity) :
    ∃ ms : List (List UInt8), (∀ m ∈ ms, IsMessage m) ∧ rest = ms.flatten ∧
      words.length + ms.length ≤ capacity := by
  induction fuel generalizing rest words with
  | zero => exact absurd rfl h
  | succ fuel ih =>
    obtain rfl | ⟨m, rest', hm, rfl⟩ := encodeLoop_inv h
    · exact ⟨[], List.forall_mem_nil _, rfl, hwords⟩
    · rw [encodeLoop_message hm] at h
      split_ifs at h with hfull
      · exact absurd rfl h
      have hlen : (words ++ [messageWord m]).length = words.length + 1 := by simp
      obtain ⟨ms, hms, rfl, hroom⟩ := ih h (by omega)
      refine ⟨m :: ms, List.forall_mem_cons.mpr ⟨hm, hms⟩, rfl, ?_⟩
      rw [List.length_cons]
      omega

theorem length_le_flatten {ms : List (List UInt8)} (h : ∀ m ∈ ms, IsMessage m) :
    2 * ms.length ≤ ms.flatten.length := by
  induction ms with
  | nil => exact Nat.zero_le _
  | cons m ms ih =>
    obtain ⟨hm, hms⟩ := List.forall_mem_cons.mp h
    have h2 := hm.two_le_length
    have hrest := ih hms
    rw [List.flatten_cons, List.length_append, List.length_cons]
    omega

theorem encode_messages {ms : List (List UInt8)} (hms : ∀ m ∈ ms, IsMessage m)
    (hroom : ms.length ≤ capacity) :
    encode (some ms.flatten) true capacity = (ms.length, ms.map messageWord) := by
  have hle := length_le_flatten hms
  have hloop := encodeLoop_messages [] hms (by simpa using hroom)
    (show ms.length < ms.flatten.length + 1 by omega)
  rwa [List.length_nil, Nat.zero_add, List.nil_append] at hloop

structure Accepted (bytes : List UInt8) (capacity : ℕ) (ms : List (List UInt8)) : Prop where
  messages : ∀ m ∈ ms, IsMessage m
  nonempty : ms ≠ []
  bytes_eq : bytes = ms.flatten
  room : ms.length ≤ capacity

theorem encode_ne_zero_iff (bytes : List UInt8) (capacity : ℕ) :
    (encode (some bytes) true capacity).1 ≠ 0 ↔ ∃ ms, Accepted bytes capacity ms := by
  constructor
  · intro h
    obtain ⟨ms, hms, rfl, hroom⟩ := encodeLoop_ne_zero h (Nat.zero_le _)
    rw [List.length_nil, Nat.zero_add] at hroom
    refine ⟨ms, hms, ?_, rfl, hroom⟩
    rintro rfl
    exact h rfl
  · rintro ⟨ms, h⟩
    rw [h.bytes_eq, encode_messages h.messages h.room]
    exact Nat.ne_of_gt (List.length_pos_of_ne_nil h.nonempty)

/-- One report yields at most 21 messages, one of them perhaps begun before it. -/
theorem output_accepted {p : MIDIInputParser} {m : List UInt8} (h : p.Represents m)
    (report : FullReport) :
    (p.feedReport (some report.val) report.val.length true).1 = [] ∨
      ∃ ms, Accepted (p.feedReport (some report.val) report.val.length true).1 21 ms := by
  obtain ⟨hout, -, hlen⟩ := MIDIInputParser.feedReport_stretch h report
  have hms := (feed_shape h.pending (report.val.take MIDIInputParser.reportPayloadBytes)).2
  have hcount := length_le_flatten hms
  rw [← hout] at hcount
  by_cases hnil : (feed m (report.val.take MIDIInputParser.reportPayloadBytes)).1 = []
  · exact .inl (by rw [hout, hnil, List.flatten_nil])
  · exact .inr ⟨_, hms, hnil, hout, by omega⟩

theorem outputs_accepted {p : MIDIInputParser} {m : List UInt8} (h : p.Represents m)
    (reports : List FullReport) :
    ∀ output ∈ p.outputs reports, output = [] ∨ ∃ ms, Accepted output 21 ms := by
  induction reports generalizing p m with
  | nil => exact List.forall_mem_nil _
  | cons report reports ih =>
    obtain ⟨-, hrep, -⟩ := MIDIInputParser.feedReport_stretch h report
    exact List.forall_mem_cons.mpr ⟨output_accepted h report, ih hrep⟩

/-- `encode` accepts exactly the non-empty concatenations of complete messages
it has room for and loses nothing of them, and whatever reports the parser is
fed, it is given such concatenations of at most 21 messages. -/
theorem encode_exact :
    (∀ bytes capacity, (encode (some bytes) true capacity).1 ≠ 0 ↔
      ∃ ms, Accepted bytes capacity ms) ∧
    (∀ bytes capacity ms, Accepted bytes capacity ms →
      (encode (some bytes) true capacity).1 = ms.length) ∧
    (∀ bytes bytes' capacity capacity', (encode (some bytes) true capacity).1 ≠ 0 →
      (encode (some bytes') true capacity').1 ≠ 0 →
      (encode (some bytes) true capacity).2 = (encode (some bytes') true capacity').2 →
      bytes = bytes') ∧
    ∀ (reports : List FullReport), ∀ output ∈ MIDIInputParser.fresh.outputs reports,
      output = [] ∨ (encode (some output) true 21).1 ≠ 0 := by
  refine ⟨encode_ne_zero_iff, ?_, ?_, ?_⟩
  · intro bytes capacity ms h
    rw [h.bytes_eq, encode_messages h.messages h.room]
  · intro bytes bytes' capacity capacity' h h' hwords
    obtain ⟨ms, hms⟩ := (encode_ne_zero_iff _ _).mp h
    obtain ⟨ms', hms'⟩ := (encode_ne_zero_iff _ _).mp h'
    rw [hms.bytes_eq, hms'.bytes_eq, encode_messages hms.messages hms.room,
      encode_messages hms'.messages hms'.room] at hwords
    rw [hms.bytes_eq, hms'.bytes_eq, messageWords_inj hms.messages hms'.messages hwords]
  · intro reports output hmem
    exact (outputs_accepted MIDIInputParser.fresh_represents reports output hmem).imp_right
      (encode_ne_zero_iff _ _).mpr

theorem encode_exact_two_messages :
    (encode (some [0xb1, 0x20, 0x37, 0xc1, 0x05]) true 2).1 = 2 :=
  encode_exact.2.1 _ 2 [[0xb1, 0x20, 0x37], [0xc1, 0x05]] ⟨by decide, by decide, by decide, by decide⟩

example : encode (some [0xb1, 0x20, 0x37, 0xc1, 0x05]) true 2 = (2, [0x20b12037, 0x20c10500]) := by
  decide

end MIDIInputEventEncoder

end NumarkNS6.Midi
