import Mathlib.Data.List.Basic
import Mathlib.Data.UInt

namespace NumarkNS6.Midi

def filler : UInt8 := 0xfd

def messageLength (status : UInt8) : ℕ := if 0xc0 ≤ status ∧ status ≤ 0xdf then 2 else 3

def Opens (m : List UInt8) : Prop :=
  ∃ status data, m = status :: data ∧ 0x80 ≤ status ∧ status ≤ 0xef ∧ (∀ d ∈ data, d < 0x80) ∧
    m.length ≤ messageLength status

def IsMessage (m : List UInt8) : Prop :=
  Opens m ∧ ∀ status, m.head? = some status → m.length = messageLength status

/-- What a report stream parser has collected of the message in progress. -/
def IsPending (p : List UInt8) : Prop :=
  p = [] ∨ Opens p ∧ ∀ status, p.head? = some status → p.length < messageLength status

/-- One byte of the stream, after the bytes `p` of the message in progress: the
messages it completes and what is then in progress. -/
def advance (p : List UInt8) (byte : UInt8) : List (List UInt8) × List UInt8 :=
  if byte = filler then ([], p)
  else if 0x80 ≤ byte then if byte ≤ 0xef then ([], [byte]) else ([], [])
  else match p with
    | [] => ([], [])
    | status :: data =>
      if p.length + 1 = messageLength status then ([status :: (data ++ [byte])], [])
      else ([], status :: (data ++ [byte]))

def feed (p : List UInt8) : List UInt8 → List (List UInt8) × List UInt8
  | [] => ([], p)
  | byte :: rest =>
    let a := advance p byte
    let r := feed a.2 rest
    (a.1 ++ r.1, r.2)

def significant (xs : List UInt8) : List UInt8 := xs.filter (· ≠ filler)

@[simp] theorem significant_append (xs ys : List UInt8) :
    significant (xs ++ ys) = significant xs ++ significant ys := List.filter_append ..

theorem feed_append (p xs ys : List UInt8) : feed p (xs ++ ys) =
    ((feed p xs).1 ++ (feed (feed p xs).2 ys).1, (feed (feed p xs).2 ys).2) := by
  induction xs generalizing p with
  | nil => simp [feed]
  | cons x xs ih => simp [feed, ih, List.append_assoc]

theorem advance_filler (p : List UInt8) : advance p filler = ([], p) := by simp [advance]

theorem feed_significant (p xs : List UInt8) : feed p (significant xs) = feed p xs := by
  induction xs generalizing p with
  | nil => rfl
  | cons x xs ih =>
    by_cases hx : x = filler
    · subst hx
      have hdrop : significant (filler :: xs) = significant xs := by simp [significant]
      rw [hdrop, ih, feed, advance_filler]
      rfl
    · have hkeep : significant (x :: xs) = x :: significant xs := by simp [significant, hx]
      rw [hkeep, feed, feed, ih]

theorem opens_singleton {status : UInt8} (h : 0x80 ≤ status) (h' : status ≤ 0xef) :
    Opens [status] := by
  refine ⟨status, [], rfl, h, h', by simp, ?_⟩
  simp only [messageLength, List.length_singleton]
  split_ifs <;> omega

theorem messageLength_cases (status : UInt8) : messageLength status = 2 ∨ messageLength status = 3 := by
  unfold messageLength
  split_ifs
  · exact .inl rfl
  · exact .inr rfl

theorem isMessage_cons {status : UInt8} {data : List UInt8} (h : 0x80 ≤ status) (h' : status ≤ 0xef)
    (hdata : ∀ d ∈ data, d < 0x80) (hlen : data.length + 1 = messageLength status) :
    IsMessage (status :: data) := by
  refine ⟨⟨status, data, rfl, h, h', hdata, hlen.le⟩, fun s hs ↦ ?_⟩
  obtain rfl : status = s := by simpa using hs
  exact hlen

def isMessage : List UInt8 → Bool
  | [] => false
  | status :: data => decide (0x80 ≤ status) && decide (status ≤ 0xef) &&
      data.all (· < 0x80) && data.length + 1 == messageLength status

theorem isMessage_iff {m : List UInt8} : isMessage m = true ↔ IsMessage m := by
  constructor
  · intro h
    cases m with
    | nil => cases h
    | cons status data =>
      simp only [isMessage, Bool.and_eq_true, decide_eq_true_eq, List.all_eq_true, beq_iff_eq] at h
      exact isMessage_cons h.1.1.1 h.1.1.2 h.1.2 h.2
  · intro h
    obtain ⟨⟨status, data, rfl, h₁, h₂, hdata, -⟩, hlen⟩ := h
    simp only [isMessage, Bool.and_eq_true, decide_eq_true_eq, List.all_eq_true, beq_iff_eq]
    exact ⟨⟨⟨h₁, h₂⟩, hdata⟩, hlen status rfl⟩

instance : DecidablePred IsMessage := fun _ ↦ decidable_of_iff _ isMessage_iff

theorem IsMessage.two_le_length {m : List UInt8} (h : IsMessage m) : 2 ≤ m.length := by
  obtain ⟨⟨status, data, rfl, -⟩, hlen⟩ := h
  rw [hlen status rfl]
  rcases messageLength_cases status with h | h <;> omega

theorem flatten_eq_nil {ms : List (List UInt8)} (h : ∀ m ∈ ms, IsMessage m) :
    ms.flatten = [] ↔ ms = [] := by
  cases ms with
  | nil => simp
  | cons m ms =>
    have hm := (h m List.mem_cons_self).two_le_length
    have hne : m ≠ [] := List.ne_nil_of_length_pos (by omega)
    simp [hne]

theorem IsMessage.length_le_three {m : List UInt8} (h : IsMessage m) : m.length ≤ 3 := by
  obtain ⟨⟨status, data, rfl, -⟩, hlen⟩ := h
  rw [hlen status rfl]
  rcases messageLength_cases status with h | h <;> omega

theorem advance_status {status : UInt8} (h : 0x80 ≤ status) (h' : status ≤ 0xef) (p : List UInt8) :
    advance p status = ([], [status]) := by
  have hne : status ≠ filler := by
    rintro rfl
    exact absurd h' (by decide)
  simp only [advance, if_neg hne, if_pos h, if_pos h']

theorem advance_data {d : UInt8} (h : d < 0x80) (status : UInt8) (data : List UInt8) :
    advance (status :: data) d =
      if data.length + 2 = messageLength status then ([status :: (data ++ [d])], [])
      else ([], status :: (data ++ [d])) := by
  have hne : d ≠ filler := by
    rintro rfl
    exact absurd h (by decide)
  simp only [advance, if_neg hne, if_neg (UInt8.not_le.mpr h), List.length_cons]

/-- A complete message is taken out of the stream whatever was in progress before it. -/
theorem feed_message {m : List UInt8} (h : IsMessage m) (p : List UInt8) : feed p m = ([m], []) := by
  obtain ⟨⟨status, data, rfl, h₁, h₂, hdata, -⟩, hlen⟩ := h
  have hl : data.length + 1 = messageLength status := hlen status rfl
  simp only [feed, advance_status h₁ h₂, List.nil_append]
  rcases messageLength_cases status with h | h
  · obtain ⟨d, rfl⟩ := List.length_eq_one_iff.mp (show data.length = 1 by omega)
    have hd := hdata d List.mem_cons_self
    simp [feed, advance_data hd, h]
  · obtain ⟨d, e, rfl⟩ := List.length_eq_two.mp (show data.length = 2 by omega)
    have hd := hdata d List.mem_cons_self
    have he := hdata e (List.mem_cons_of_mem _ List.mem_cons_self)
    simp [feed, advance_data hd, advance_data he, h]

theorem feed_messages {ms : List (List UInt8)} (h : ∀ m ∈ ms, IsMessage m) :
    feed [] ms.flatten = (ms, []) := by
  induction ms with
  | nil => rfl
  | cons m ms ih =>
    obtain ⟨hm, hms⟩ := List.forall_mem_cons.mp h
    rw [List.flatten_cons, feed_append, feed_message hm, ih hms]
    rfl

theorem advance_shape {p : List UInt8} (hp : IsPending p) (byte : UInt8) :
    IsPending (advance p byte).2 ∧ ∀ m ∈ (advance p byte).1, IsMessage m := by
  unfold advance
  split_ifs with hf hs hc
  · exact ⟨hp, by simp⟩
  · refine ⟨.inr ⟨opens_singleton hs hc, fun status hh ↦ ?_⟩, by simp⟩
    simp only [messageLength, List.length_singleton]
    split_ifs <;> omega
  · exact ⟨.inl rfl, by simp⟩
  · cases p with
    | nil => exact ⟨.inl rfl, by simp⟩
    | cons status data =>
      obtain hp | ⟨⟨_, _, he, h₁, h₂, h₃, -⟩, hlen⟩ := hp
      · cases hp
      obtain ⟨rfl, rfl⟩ := List.cons.inj he
      have hlt := hlen status rfl
      have hdata : ∀ d ∈ data ++ [byte], d < 0x80 := by
        intro d hd
        rcases List.mem_append.mp hd with hd | hd
        · exact h₃ d hd
        · rw [List.mem_singleton.mp hd]
          exact UInt8.not_le.mp hs
      have hlength : (status :: (data ++ [byte])).length = (status :: data).length + 1 := by simp
      have hopens : Opens (status :: (data ++ [byte])) :=
        ⟨status, _, rfl, h₁, h₂, hdata, by omega⟩
      simp only
      split_ifs with hlast
      · refine ⟨.inl rfl, fun m hm ↦ ?_⟩
        rw [List.mem_singleton.mp hm]
        exact isMessage_cons h₁ h₂ hdata (by rw [← hlast]; exact hlength)
      · refine ⟨.inr ⟨hopens, fun t ht ↦ ?_⟩, by simp⟩
        obtain rfl : status = t := by simpa using ht
        change (status :: (data ++ [byte])).length < _
        omega

theorem feed_shape {p : List UInt8} (hp : IsPending p) (xs : List UInt8) :
    IsPending (feed p xs).2 ∧ ∀ m ∈ (feed p xs).1, IsMessage m := by
  induction xs generalizing p with
  | nil => exact ⟨hp, by simp [feed]⟩
  | cons x xs ih =>
    obtain ⟨hp', hm⟩ := advance_shape hp x
    obtain ⟨hp'', hm'⟩ := ih hp'
    refine ⟨hp'', fun m hmem ↦ ?_⟩
    rcases List.mem_append.mp hmem with h | h
    · exact hm m h
    · exact hm' m h

/-- What is in progress ends the stream, and what is completed lies in it in one piece. -/
theorem advance_contiguous {p w : List UInt8} (hp : p <:+ w) (byte : UInt8) :
    (advance p byte).2 <:+ w ++ significant [byte] ∧
      ∀ m ∈ (advance p byte).1, m <:+: w ++ significant [byte] := by
  by_cases hf : byte = filler
  · subst hf
    rw [advance_filler]
    exact ⟨by simpa [significant] using hp, by simp⟩
  · have hw : significant [byte] = [byte] := by simp [significant, hf]
    rw [hw]
    simp only [advance, if_neg hf]
    split_ifs
    · exact ⟨List.suffix_append w [byte], by simp⟩
    · exact ⟨List.nil_suffix, by simp⟩
    · cases p with
      | nil => exact ⟨List.nil_suffix, by simp⟩
      | cons status data =>
        obtain ⟨t, rfl⟩ := hp
        have hsuffix : status :: (data ++ [byte]) <:+ t ++ status :: data ++ [byte] :=
          ⟨t, by simp⟩
        simp only
        split_ifs
        · refine ⟨List.nil_suffix, fun m hm ↦ ?_⟩
          rw [List.mem_singleton.mp hm]
          exact hsuffix.isInfix
        · exact ⟨hsuffix, by simp⟩

theorem feed_contiguous {p w : List UInt8} (hp : p <:+ w) (xs : List UInt8) :
    (feed p xs).2 <:+ w ++ significant xs ∧ ∀ m ∈ (feed p xs).1, m <:+: w ++ significant xs := by
  induction xs generalizing p w with
  | nil => simpa [feed, significant] using hp
  | cons x xs ih =>
    obtain ⟨hp', hm⟩ := advance_contiguous hp x
    obtain ⟨hp'', hm'⟩ := ih hp'
    have hw : w ++ significant (x :: xs) = w ++ significant [x] ++ significant xs := by
      rw [← List.singleton_append, significant_append, List.append_assoc]
    rw [hw]
    refine ⟨hp'', fun m hmem ↦ ?_⟩
    rcases List.mem_append.mp hmem with h | h
    · exact (hm m h).trans (List.prefix_append _ _).isInfix
    · exact hm' m h

end NumarkNS6.Midi
