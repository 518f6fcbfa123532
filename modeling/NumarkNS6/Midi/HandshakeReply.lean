import NumarkNS6.Foundation.StreamSearch
import NumarkNS6.Midi.MIDIOutputWriter

namespace NumarkNS6.Midi.ControllerActivation

open Foundation Foundation.StreamSearch

structure HandshakeReplyParser where
  matched : ℕ

def replyPrefix : List UInt8 := [0xf0, 0x00, 0x01, 0x3f, 0x00, 0x79, 0x51]

namespace HandshakeReplyParser

def fresh : HandshakeReplyParser := ⟨0⟩

/-- The loop of `consume` over the bytes that are left. A complete reply ends it
at once, with the bytes behind it unread. -/
def consumeBytes (p : HandshakeReplyParser) : List UInt8 → Bool × HandshakeReplyParser
  | [] => (false, p)
  | byte :: rest =>
    if byte = 0xfd then p.consumeBytes rest
    else if replyPrefix[p.matched]? = some byte then
      if p.matched + 1 = replyPrefix.length then (true, ⟨0⟩)
      else consumeBytes ⟨p.matched + 1⟩ rest
    else consumeBytes ⟨if replyPrefix[0]? = some byte then 1 else 0⟩ rest

/-- `bytes` is `none` for a null pointer. -/
def consume (p : HandshakeReplyParser) (bytes : Option (List UInt8)) (length : ℕ) :
    Bool × HandshakeReplyParser :=
  match bytes with
  | none => (false, p)
  | some bytes => p.consumeBytes (bytes.take length)

def answers (p : HandshakeReplyParser) : List (List UInt8) → List Bool
  | [] => []
  | chunk :: chunks =>
    let r := p.consume (some chunk) chunk.length
    r.1 :: r.2.answers chunks

theorem consumeBytes_eq (p : HandshakeReplyParser) (bytes : List UInt8) :
    p.consumeBytes bytes = match search replyPrefix p.matched (significant bytes) with
      | none => (true, fresh)
      | some matched => (false, ⟨matched⟩) := by
  induction bytes generalizing p with
  | nil => rfl
  | cons byte rest ih =>
    rw [consumeBytes]
    by_cases hfiller : byte = 0xfd
    · have hsig : significant (byte :: rest) = significant rest :=
        List.filter_cons_of_neg (by simp [hfiller, filler])
      rw [if_pos hfiller, ih, hsig]
    · have hsig : significant (byte :: rest) = byte :: significant rest :=
        List.filter_cons_of_pos (decide_eq_true hfiller)
      rw [if_neg hfiller, hsig, search, List.foldlM_cons, step, StreamSearch.advance]
      by_cases hmatch : replyPrefix[p.matched]? = some byte
      · rw [if_pos hmatch, if_pos hmatch]
        by_cases hlast : p.matched + 1 = replyPrefix.length
        · rw [if_pos hlast, if_pos hlast]
          rfl
        · rw [if_neg hlast, if_neg hlast, ih]
          rfl
      · have hshort : (if replyPrefix[0]? = some byte then 1 else 0) ≠ replyPrefix.length := by
          split_ifs <;> decide
        rw [if_neg hmatch, if_neg hmatch, if_neg hshort, ih]
        rfl

/-- The parser after the significant bytes `seen`, none of which ended a reply. -/
def Awaits (p : HandshakeReplyParser) (seen : List UInt8) : Prop := Tracks replyPrefix seen p.matched

theorem fresh_awaits : fresh.Awaits [] := tracks_nil (by decide)

theorem Awaits.absent {p : HandshakeReplyParser} {seen : List UInt8} (h : p.Awaits seen) :
    ¬ replyPrefix <:+: seen := Tracks.absent h

theorem Awaits.consume {p : HandshakeReplyParser} {seen : List UInt8} (h : p.Awaits seen)
    (bytes : List UInt8) (length : ℕ) :
    (p.consume (some bytes) length).1 = true ∧
        replyPrefix <:+: seen ++ significant (bytes.take length) ∨
      (p.consume (some bytes) length).1 = false ∧
        (p.consume (some bytes) length).2.Awaits (seen ++ significant (bytes.take length)) := by
  have hunique : (0xf0 : UInt8) ∉ [(0x00 : UInt8), 0x01, 0x3f, 0x00, 0x79, 0x51] := by decide
  rw [HandshakeReplyParser.consume, consumeBytes_eq]
  obtain ⟨hsearch, hin⟩ | ⟨next, hsearch, hnext⟩ :=
    Tracks.search hunique h (significant (bytes.take length))
  · rw [replyPrefix, hsearch]
    exact .inl ⟨rfl, hin⟩
  · rw [replyPrefix, hsearch]
    exact .inr ⟨rfl, hnext⟩

def received (chunks : List (List UInt8)) : List UInt8 := significant chunks.flatten

theorem received_cons (chunk : List UInt8) (chunks : List (List UInt8)) :
    received (chunk :: chunks) = significant chunk ++ received chunks := by
  rw [received, List.flatten_cons, significant_append]
  rfl

def FirstTrue (answers : List Bool) (i : ℕ) : Prop :=
  answers[i]? = some true ∧ ∀ j < i, answers[j]? = some false

theorem Awaits.true_mem_answers {p : HandshakeReplyParser} {seen : List UInt8} (h : p.Awaits seen)
    (chunks : List (List UInt8)) :
    true ∈ p.answers chunks ↔ replyPrefix <:+: seen ++ received chunks := by
  induction chunks generalizing p seen with
  | nil => simpa [answers, received, significant] using h.absent
  | cons chunk chunks ih =>
    rw [answers, received_cons, ← List.append_assoc]
    have hchunk := h.consume chunk chunk.length
    rw [List.take_length] at hchunk
    obtain ⟨hreturn, hin⟩ | ⟨hreturn, hnext⟩ := hchunk
    · refine iff_of_true ?_ (hin.trans (List.prefix_append _ _).isInfix)
      rw [hreturn]
      exact List.mem_cons_self
    · rw [List.mem_cons, hreturn, ih hnext]
      simp

/-- The first call that returns true is the one whose chunk completes the reply. -/
theorem Awaits.firstTrue {p : HandshakeReplyParser} {seen : List UInt8} (h : p.Awaits seen)
    (chunks : List (List UInt8)) (i : ℕ) :
    FirstTrue (p.answers chunks) i ↔ ¬ replyPrefix <:+: seen ++ received (chunks.take i) ∧
      replyPrefix <:+: seen ++ received (chunks.take (i + 1)) := by
  induction chunks generalizing p seen i with
  | nil => simp [FirstTrue, answers, received, significant]
  | cons chunk chunks ih =>
    have hchunk := h.consume chunk chunk.length
    rw [List.take_length] at hchunk
    cases i with
    | zero =>
      have hnone : seen ++ received ((chunk :: chunks).take 0) = seen := by
        simp [received, significant]
      have hone : received ((chunk :: chunks).take 1) = significant chunk := by
        simp [received]
      rw [FirstTrue, hnone, hone, answers]
      obtain ⟨hreturn, hin⟩ | ⟨hreturn, hnext⟩ := hchunk
      · simp [hreturn, hin, h.absent]
      · simp [hreturn, hnext.absent]
    | succ i =>
      rw [List.take_succ_cons, List.take_succ_cons, received_cons, received_cons,
        ← List.append_assoc, ← List.append_assoc]
      obtain ⟨hreturn, hin⟩ | ⟨hreturn, hnext⟩ := hchunk
      · refine iff_of_false ?_ fun hboth ↦ hboth.1 (hin.trans (List.prefix_append _ _).isInfix)
        rintro ⟨-, hbefore⟩
        simpa [answers, hreturn] using hbefore 0 (Nat.succ_pos i)
      · rw [← ih hnext i, FirstTrue, FirstTrue, answers]
        refine and_congr (by simp) ⟨fun hall j hj ↦ ?_, fun hall j hj ↦ ?_⟩
        · simpa using hall (j + 1) (Nat.succ_lt_succ hj)
        · cases j with
          | zero => simp [hreturn]
          | succ j => simpa using hall j (Nat.lt_of_succ_lt_succ hj)

theorem received_take (chunks : List (List UInt8)) (i : ℕ) : received (chunks.take i) =
    (received chunks).take (received (chunks.take i)).length := by
  have hsplit : received chunks = received (chunks.take i) ++ received (chunks.drop i) := by
    rw [received, received, received, ← significant_append, ← List.flatten_append,
      List.take_append_drop]
  rw [hsplit, List.take_left]

/-- However a stream is cut into chunks, `consume` finds the reply exactly when it
is there, and in the chunk with the last byte of its first occurrence. -/
theorem consume_exact (chunks : List (List UInt8)) :
    (true ∈ fresh.answers chunks ↔ replyPrefix <:+: received chunks) ∧
      ∀ i, FirstTrue (fresh.answers chunks) i ↔ ∃ n, FirstAt replyPrefix (received chunks) n ∧
        (received (chunks.take i)).length ≤ n + (replyPrefix.length - 1) ∧
        n + (replyPrefix.length - 1) < (received (chunks.take (i + 1))).length := by
  refine ⟨by simpa using fresh_awaits.true_mem_answers chunks, fun i ↦ ?_⟩
  have hle (j : ℕ) : (received (chunks.take j)).length ≤ (received chunks).length := by
    rw [received_take]
    exact List.length_take_le' _ _
  have hin {n : ℕ} (hn : FirstAt replyPrefix (received chunks) n) (j : ℕ) :
      replyPrefix <:+: received (chunks.take j) ↔
        n + (replyPrefix.length - 1) < (received (chunks.take j)).length := by
    rw [received_take, hn.infix_take _ (hle j), ← received_take, replyPrefix]
    simp only [List.length_cons, List.length_nil]
    omega
  rw [fresh_awaits.firstTrue, List.nil_append, List.nil_append]
  constructor
  · rintro ⟨hbefore, hafter⟩
    have hwhole : replyPrefix <:+: received chunks := by
      rw [received_take] at hafter
      exact hafter.trans (List.take_prefix _ _).isInfix
    obtain ⟨n, hn⟩ := exists_firstAt hwhole
    exact ⟨n, hn, not_lt.mp fun hlt ↦ hbefore ((hin hn i).mpr hlt), (hin hn (i + 1)).mp hafter⟩
  · rintro ⟨n, hn, hbefore, hafter⟩
    exact ⟨fun hi ↦ absurd ((hin hn i).mp hi) (not_lt.mpr hbefore), (hin hn (i + 1)).mpr hafter⟩

example : fresh.answers [[0x90, 0xf0, 0xfd, 0xf0], [0x00, 0x01, 0xfd], [0x3f, 0x00, 0x79],
    [0x51, 0xf7]] = [false, false, false, true] := by decide

end HandshakeReplyParser

end NumarkNS6.Midi.ControllerActivation
