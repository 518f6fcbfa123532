import NumarkNS6.AudioOut.AudioPacketPolicy
import NumarkNS6.Foundation.CircularStore

namespace NumarkNS6.AudioOut

open AudioFeedbackPatternPolicy AudioPacketPolicy Foundation.CircularTable

inductive Token
  | valid (framesPerMillisecond : UInt8)
  | invalid

def Token.code : Token → UInt8
  | .valid v => v
  | .invalid => 0

def Token.InRange : Token → Prop
  | .valid v => 42 ≤ v ∧ v ≤ 46
  | .invalid => True

/-- The scheduler the packet policy stands for: the feedback waiting, the
patterns of the feedback-driven milliseconds so far, the number of nominal
milliseconds so far, and the packets left in the current millisecond. -/
structure ReferenceScheduler where
  waiting : List Token
  driven : List (List UInt8)
  nominal : ℕ
  rest : List UInt8

namespace ReferenceScheduler

def initial : ReferenceScheduler := ⟨[], [], 0, []⟩

def pattern (v : UInt8) : List UInt8 :=
  match v.toNat with
  | 42 => [6, 5, 5, 5, 6, 5, 5, 5]
  | 43 => [5, 5, 6, 5, 6, 5, 6, 5]
  | 44 => [6, 5, 6, 5, 6, 5, 6, 5]
  | 45 => [6, 6, 5, 6, 5, 6, 5, 6]
  | 46 => [5, 6, 6, 6, 5, 6, 6, 6]
  | _ => []

def initialBlock (k : ℕ) : List UInt8 :=
  if k % 10 = 0 then [6, 6, 5, 6, 5, 6, 5, 6] else [5, 6, 5, 6, 5, 6, 5, 6]

/-- The pattern of sixteen feedback-driven milliseconds ago. -/
def predicted (driven : List (List UInt8)) : List UInt8 :=
  if 16 ≤ driven.length then driven.getD (driven.length - 16) [] else initialBlock driven.length

def wait (s : ReferenceScheduler) (token : Token) : ReferenceScheduler :=
  { s with waiting := (s.waiting ++ [token]).drop ((s.waiting ++ [token]).length - 32) }

def drive (s : ReferenceScheduler) (packets : List UInt8) : List UInt8 × ReferenceScheduler :=
  (packets, { s with waiting := s.waiting.tail, driven := s.driven ++ [packets] })

def millisecond (s : ReferenceScheduler) : List UInt8 × ReferenceScheduler :=
  match s.waiting with
  | .valid v :: _ => drive s (pattern v)
  | .invalid :: _ => drive s (predicted s.driven)
  | [] => (pattern (if (s.nominal + 1) % 10 = 0 then 45 else 44), { s with nominal := s.nominal + 1 })

def nextPacket (s : ReferenceScheduler) : UInt32 × ReferenceScheduler :=
  match s.rest with
  | frames :: rest => (frames.toUInt32, { s with rest := rest })
  | [] =>
    let m := s.millisecond
    ((m.1.headD 0).toUInt32, { m.2 with rest := m.1.tail })

inductive Op
  | observeFeedback (framesPerMillisecond : UInt8)
  | observeInvalidFeedback
  | nextPacketFrames

def step (s : ReferenceScheduler) : Op → Option UInt32 × ReferenceScheduler
  | .observeFeedback v =>
    (none, if 42 ≤ v ∧ v ≤ 46 then s.wait (.valid v) else s)
  | .observeInvalidFeedback => (none, s.wait .invalid)
  | .nextPacketFrames => (some s.nextPacket.1, s.nextPacket.2)

def policyStep (p : AudioPacketPolicy) : Op → Option UInt32 × AudioPacketPolicy
  | .observeFeedback v => (none, p.observeFeedback v)
  | .observeInvalidFeedback => (none, p.observeInvalidFeedback)
  | .nextPacketFrames => (some p.nextPacketFrames.1, p.nextPacketFrames.2)

def results {σ : Type} (step : σ → Op → Option UInt32 × σ) (s : σ) : List Op → List (Option UInt32)
  | [] => []
  | op :: ops => (step s op).1 :: results step (step s op).2 ops

def after {σ : Type} (step : σ → Op → Option UInt32 × σ) (s : σ) (ops : List Op) : σ :=
  ops.foldl (fun s op ↦ (step s op).2) s

theorem after_concat {σ : Type} (step : σ → Op → Option UInt32 × σ) (s : σ) (ops : List Op)
    (op : Op) : after step s (ops ++ [op]) = (step (after step s ops) op).2 := by
  rw [after, List.foldl_append]
  rfl

/-- The sixteen blocks the history holds: initial ones, and then driven ones. -/
def recent (driven : List (List UInt8)) : List (List UInt8) :=
  ((List.range 16).map initialBlock ++ driven).drop driven.length

/-- The policy's queue, history and nominal fraction stand for the scheduler's. -/
structure Follows (p : AudioPacketPolicy) (s : ReferenceScheduler) : Prop where
  rate : p.serviceIntervalsPerSecond = 8000
  queue : p.feedbackQueue.Holds p.feedbackQueueRead (s.waiting.map Token.code)
  count : p.feedbackQueueCount = s.waiting.length
  bound : s.waiting.length ≤ queueCapacity
  tokens : ∀ t ∈ s.waiting, t.InRange
  history : p.patternHistory.Holds p.patternHistoryCursor (recent s.driven).flatten
  blocks : ∀ b ∈ s.driven, b.length = packetsPerMillisecond
  nominal : p.nominalFraction = UInt32.ofNat (100 * (s.nominal % 10))

structure Simulates (p : AudioPacketPolicy) (s : ReferenceScheduler) : Prop where
  follows : Follows p s
  index : p.patternIndex.toNat < packetsPerMillisecond
  rest : s.rest = if p.patternIndex = 0 then [] else p.feedbackPattern.cells.drop p.patternIndex.toNat

theorem recent_concat (driven : List (List UInt8)) (b : List UInt8) :
    recent (driven ++ [b]) = (recent driven).tail ++ [b] := by
  have hlen : driven.length + 1 ≤ ((List.range 16).map initialBlock ++ driven).length := by
    simp only [List.length_append, List.length_map, List.length_range]
    omega
  rw [recent, recent, List.tail_drop, List.length_append, List.length_singleton,
    ← List.append_assoc, List.drop_append_of_le_length hlen]

theorem recent_head (driven : List (List UInt8)) :
    recent driven = predicted driven :: (recent driven).tail := by
  have hlen : driven.length < ((List.range 16).map initialBlock ++ driven).length := by
    simp only [List.length_append, List.length_map, List.length_range]
    omega
  rw [recent, List.tail_drop, List.drop_eq_getElem_cons hlen, predicted]
  congr 1
  split_ifs with h
  · rw [List.getElem_append_right (by simpa using h)]
    simp [List.getD_eq_getElem?_getD, show driven.length - 16 < driven.length by omega]
  · rw [List.getElem_append_left (by simpa using h)]
    simp

theorem recent_shape {driven : List (List UInt8)} (h : ∀ b ∈ driven, b.length = packetsPerMillisecond) :
    (recent driven).length = 16 ∧ ∀ b ∈ recent driven, b.length = packetsPerMillisecond := by
  refine ⟨by simp [recent], fun b hb ↦ ?_⟩
  rcases List.mem_append.mp (List.mem_of_mem_drop hb) with hb | hb
  · obtain ⟨k, -, rfl⟩ := List.mem_map.mp hb
    unfold initialBlock
    split_ifs
    · rfl
    · rfl
  · exact h b hb

theorem flatten_length {bs : List (List UInt8)} (h : ∀ b ∈ bs, b.length = packetsPerMillisecond) :
    bs.flatten.length = bs.length * packetsPerMillisecond := by
  rw [List.length_flatten, List.map_congr_left h, List.map_const', List.sum_replicate_nat]

theorem inRange_cases {v : UInt8} (h : 42 ≤ v ∧ v ≤ 46) :
    v = 42 ∨ v = 43 ∨ v = 44 ∨ v = 45 ∨ v = 46 := by
  have hlow := UInt8.le_iff_toNat_le.mp h.1
  have hhigh := UInt8.le_iff_toNat_le.mp h.2
  simp only [← UInt8.toNat_inj, UInt8.reduceToNat] at hlow hhigh ⊢
  omega

theorem build_inRange {v : UInt8} (h : 42 ≤ v ∧ v ≤ 46) :
    ∃ t, build v = some t ∧ pattern v = t.cells := by
  obtain rfl | rfl | rfl | rfl | rfl := inRange_cases h
  all_goals exact ⟨_, rfl, rfl⟩

theorem pattern_total {v : UInt8} (h : 42 ≤ v ∧ v ≤ 46) :
    (pattern v).length = 8 ∧ ((pattern v).map UInt8.toNat).sum = v.toNat := by
  obtain rfl | rfl | rfl | rfl | rfl := inRange_cases h
  all_goals exact ⟨rfl, rfl⟩

variable {p : AudioPacketPolicy} {s : ReferenceScheduler}

theorem Follows.drop (h : Follows p s) {t : Token} {w : List Token} (hw : s.waiting = t :: w) :
    Follows p.dropFeedback { s with waiting := w } := by
  have hq := h.queue
  have hc := h.count
  have hb := h.bound
  rw [hw] at hq hc hb
  refine ⟨h.rate, ?_, ?_, ?_, ?_, h.history, h.blocks, h.nominal⟩
  · exact (Table.Holds.tail hq).shift (Nat.mod_mod _ _).symm
  · rw [dropFeedback, hc, List.length_cons, Nat.add_sub_cancel]
  · rw [List.length_cons] at hb
    exact Nat.le_of_succ_le hb
  · intro u hu
    exact h.tokens u (hw ▸ List.mem_cons_of_mem t hu)

theorem Follows.record (h : Follows p s) {packets : List UInt8}
    (hlen : packets.length = packetsPerMillisecond) :
    Follows (p.record packets) { s with driven := s.driven ++ [packets] } := by
  obtain ⟨h16, hall⟩ := recent_shape h.blocks
  have hhist := h.history
  have hhead := recent_head s.driven
  have hfirst : (predicted s.driven).length = packetsPerMillisecond :=
    hall _ (hhead ▸ List.mem_cons_self)
  have hrest : ((recent s.driven).tail.flatten).length = 120 := by
    rw [flatten_length fun b hb ↦ hall b (List.mem_of_mem_tail hb), List.length_tail, h16]
    rfl
  rw [hhead, List.flatten_cons] at hhist
  refine ⟨h.rate, h.queue, h.count, h.bound, h.tokens, ?_, ?_, h.nominal⟩
  · have hrot := hhist.rotate (hlen.trans hfirst.symm) (by rw [hfirst, hrest]; rfl)
    rw [recent_concat, List.flatten_append, List.flatten_singleton]
    exact hrot.shift (by rw [hfirst]; exact (Nat.mod_mod _ _).symm)
  · intro b hb
    rcases List.mem_append.mp hb with hb | hb
    · exact h.blocks b hb
    · rw [List.mem_singleton.mp hb, hlen]

theorem Follows.predicted_eq (h : Follows p s) :
    p.patternHistory.get 0 p.patternHistoryCursor packetsPerMillisecond = predicted s.driven := by
  have hhist := h.history
  have hhead := recent_head s.driven
  have hfirst : (predicted s.driven).length = packetsPerMillisecond :=
    (recent_shape h.blocks).2 _ (hhead ▸ List.mem_cons_self)
  rw [hhead, List.flatten_cons] at hhist
  have hget := (Table.holds_append.mp hhist).1.get_eq 0
  rwa [hfirst] at hget

theorem nominal_fraction (n : ℕ) :
    (UInt32.ofNat (100 * (n % 10)) + 100 ≥ 1000 ↔ (n + 1) % 10 = 0) ∧
      (if (n + 1) % 10 = 0 then UInt32.ofNat (100 * (n % 10)) + 100 - 1000
        else UInt32.ofNat (100 * (n % 10)) + 100) = UInt32.ofNat (100 * ((n + 1) % 10)) := by
  have hs : (n + 1) % 10 = (n % 10 + 1) % 10 := by omega
  rw [hs]
  have hlt : n % 10 < 10 := Nat.mod_lt _ (by decide)
  generalize n % 10 = m at hlt
  revert m
  decide

theorem Follows.nominalMillisecond (h : Follows p s) :
    Follows p.nominal { s with nominal := s.nominal + 1 } ∧ p.nominal.feedbackPattern.cells =
      pattern (if (s.nominal + 1) % 10 = 0 then 45 else 44) := by
  obtain ⟨hcarry, hnext⟩ := nominal_fraction s.nominal
  constructor
  · simp only [AudioPacketPolicy.nominal, h.nominal, hcarry]
    exact ⟨h.rate, h.queue, h.count, h.bound, h.tokens, h.history, h.blocks, hnext⟩
  · simp only [AudioPacketPolicy.nominal, h.nominal, hcarry]
    split_ifs <;> rfl

theorem Follows.follow (h : Follows p s) (selected : Table UInt8 packetsPerMillisecond) :
    Follows (p.follow selected) { s with driven := s.driven ++ [selected.cells] } ∧
      (p.follow selected).feedbackPattern = selected := by
  have hrec := h.record selected.length_eq
  unfold AudioPacketPolicy.follow
  simp only
  split_ifs
  all_goals exact ⟨⟨hrec.rate, hrec.queue, hrec.count, hrec.bound, hrec.tokens, hrec.history,
    hrec.blocks, hrec.nominal⟩, rfl⟩

theorem Follows.predict (h : Follows p s) :
    Follows p.predict { s with driven := s.driven ++ [predicted s.driven] } ∧
      p.predict.feedbackPattern.cells = predicted s.driven := by
  have hpred := h.predicted_eq
  have hrec := h.record (get_length p.patternHistory p.patternHistoryCursor packetsPerMillisecond)
  rw [hpred] at hrec
  refine ⟨⟨hrec.rate, hrec.queue, hrec.count, hrec.bound, hrec.tokens, ?_, hrec.blocks,
    hrec.nominal⟩, hpred⟩
  simp only [AudioPacketPolicy.predict, hpred]
  exact hrec.history

theorem millisecond_nil (hw : s.waiting = []) : s.millisecond =
    (pattern (if (s.nominal + 1) % 10 = 0 then 45 else 44), { s with nominal := s.nominal + 1 }) := by
  cases s
  cases hw
  rfl

theorem millisecond_cons {t : Token} {w : List Token} (hw : s.waiting = t :: w) : s.millisecond =
    match t with
    | .valid v => (pattern v, { s with waiting := w, driven := s.driven ++ [pattern v] })
    | .invalid => (predicted s.driven,
        { s with waiting := w, driven := s.driven ++ [predicted s.driven] }) := by
  cases s
  cases hw
  cases t <;> rfl

theorem Follows.beginMillisecond (h : Follows p s) :
    Follows p.beginMillisecond s.millisecond.2 ∧
      p.beginMillisecond.feedbackPattern.cells = s.millisecond.1 := by
  have hc := h.count
  cases hw : s.waiting with
  | nil =>
    have hzero : p.feedbackQueueCount = 0 := by rw [hc, hw, List.length_nil]
    rw [millisecond_nil hw, AudioPacketPolicy.beginMillisecond, if_neg (not_not.mpr hzero)]
    exact h.nominalMillisecond
  | cons t w =>
    have hne : p.feedbackQueueCount ≠ 0 := by rw [hc, hw, List.length_cons]; omega
    have hq := h.queue
    rw [hw, List.map_cons] at hq
    have hdrop := h.drop hw
    rw [millisecond_cons hw, AudioPacketPolicy.beginMillisecond, if_pos hne, hq.read_head]
    cases t with
    | valid v =>
      obtain ⟨selected, hb, hp⟩ := build_inRange (h.tokens (.valid v) (hw ▸ List.mem_cons_self))
      obtain ⟨hfollow, hpat⟩ := hdrop.follow selected
      simp only [Token.code, hb, hp]
      exact ⟨hfollow, by rw [hpat]⟩
    | invalid => exact hdrop.predict

theorem Follows.push (h : Follows p s) (hlt : s.waiting.length < queueCapacity) {t : Token}
    (ht : t.InRange) :
    Follows { p with
      feedbackQueue := p.feedbackQueue.write (p.feedbackQueueRead + p.feedbackQueueCount) t.code
      feedbackQueueCount := p.feedbackQueueCount + 1 } { s with waiting := s.waiting ++ [t] } := by
  refine ⟨h.rate, ?_, ?_, ?_, ?_, h.history, h.blocks, h.nominal⟩
  · have hpush := h.queue.push (by rw [List.length_map]; exact hlt) t.code
    rw [List.length_map, ← h.count] at hpush
    simpa only [List.map_append, List.map_singleton] using hpush
  · simp only [List.length_append, List.length_singleton, h.count]
  · simp only [List.length_append, List.length_singleton]
    omega
  · intro u hu
    rcases List.mem_append.mp hu with hu | hu
    · exact h.tokens u hu
    · rw [List.mem_singleton.mp hu]
      exact ht

theorem Follows.wait (h : Follows p s) {t : Token} (ht : t.InRange) :
    Follows (p.enqueue t.code) (s.wait t) := by
  have hb := h.bound
  by_cases hfull : s.waiting.length = queueCapacity
  · cases hw : s.waiting with
    | nil => rw [hw] at hfull; cases hfull
    | cons u w =>
      have hwait : s.wait t = { s with waiting := w ++ [t] } := by
        have hl : w.length = 31 := by rw [hw] at hfull; exact Nat.succ.inj hfull
        simp [ReferenceScheduler.wait, hw, hl]
      rw [hwait, enqueue, if_pos (h.count.trans hfull)]
      refine (h.drop hw).push ?_ ht
      rw [hw, List.length_cons] at hfull
      exact Nat.lt_of_succ_le hfull.le
  · have hlt : s.waiting.length < queueCapacity := lt_of_le_of_ne hb hfull
    have hwait : s.wait t = { s with waiting := s.waiting ++ [t] } := by
      have hsub : (s.waiting ++ [t]).length - 32 = 0 := by
        rw [List.length_append, List.length_singleton]
        exact Nat.sub_eq_zero_of_le hlt
      rw [ReferenceScheduler.wait, hsub, List.drop_zero]
    rw [hwait, enqueue, if_neg (by rw [h.count]; exact hfull)]
    exact h.push hlt ht

theorem takePacket_spec (p : AudioPacketPolicy) (hi : p.patternIndex.toNat < packetsPerMillisecond) :
    ∃ frames, p.takePacket.1 = frames.toUInt32 ∧
      p.takePacket.2.patternIndex.toNat < packetsPerMillisecond ∧
      p.feedbackPattern.cells.drop p.patternIndex.toNat = frames ::
        if p.takePacket.2.patternIndex = 0 then []
        else p.feedbackPattern.cells.drop p.takePacket.2.patternIndex.toNat := by
  generalize hn : p.patternIndex.toNat = i at hi
  have hi8 : i < 8 := hi
  have hlen := p.feedbackPattern.length_eq
  have hlt : i < p.feedbackPattern.cells.length := hlen.symm ▸ hi
  have hidx : p.takePacket.2.patternIndex = UInt8.ofNat ((i + 1) % 8) := by rw [takePacket, hn]; rfl
  have hnat : (UInt8.ofNat ((i + 1) % 8)).toNat = (i + 1) % 8 := by
    rw [UInt8.toNat_ofNat']
    omega
  refine ⟨p.feedbackPattern.cells[i], ?_, ?_, ?_⟩
  · simp [takePacket, hn, Table.read, Nat.mod_eq_of_lt hi, hlt]
  · rw [hidx, hnat]
    exact Nat.mod_lt _ (by decide)
  · rw [List.drop_eq_getElem_cons hlt, hidx]
    congr 1
    rcases Nat.lt_or_ge (i + 1) 8 with h | h
    · have hne : ¬ UInt8.ofNat ((i + 1) % 8) = 0 := by
        intro h0
        have := congrArg UInt8.toNat h0
        rw [hnat, UInt8.toNat_zero] at this
        omega
      rw [if_neg hne, hnat, Nat.mod_eq_of_lt h]
    · obtain rfl : i = 7 := by omega
      exact List.drop_eq_nil_of_le hlen.le

theorem beginMillisecond_patternIndex (p : AudioPacketPolicy) :
    p.beginMillisecond.patternIndex = p.patternIndex := by
  unfold AudioPacketPolicy.beginMillisecond
  split_ifs
  · split
    · unfold AudioPacketPolicy.follow
      simp only
      split_ifs <;> rfl
    · rfl
  · rfl

theorem Follows.takePacket (h : Follows p s) : Follows p.takePacket.2 s :=
  ⟨h.rate, h.queue, h.count, h.bound, h.tokens, h.history, h.blocks, h.nominal⟩

theorem Follows.setRest (h : Follows p s) (rest : List UInt8) : Follows p { s with rest := rest } :=
  ⟨h.rate, h.queue, h.count, h.bound, h.tokens, h.history, h.blocks, h.nominal⟩

theorem Simulates.nextPacket (h : Simulates p s) : p.nextPacketFrames.1 = s.nextPacket.1 ∧
    Simulates p.nextPacketFrames.2 s.nextPacket.2 := by
  have hrest := h.rest
  rw [AudioPacketPolicy.nextPacketFrames, if_pos h.follows.rate]
  by_cases h0 : p.patternIndex = 0
  · rw [if_pos h0] at hrest ⊢
    obtain ⟨hf, hpat⟩ := h.follows.beginMillisecond
    have hidx : p.beginMillisecond.patternIndex = 0 := by rw [beginMillisecond_patternIndex, h0]
    obtain ⟨frames, hout, hi, hdrop⟩ := takePacket_spec p.beginMillisecond (by rw [hidx]; decide)
    rw [hidx, UInt8.toNat_zero, List.drop_zero] at hdrop
    simp only [ReferenceScheduler.nextPacket, hrest, ← hpat]
    rw [hdrop]
    exact ⟨hout, hf.takePacket.setRest _, hi, rfl⟩
  · rw [if_neg h0] at hrest ⊢
    obtain ⟨frames, hout, hi, hdrop⟩ := takePacket_spec p h.index
    rw [hdrop] at hrest
    simp only [ReferenceScheduler.nextPacket, hrest]
    exact ⟨hout, h.follows.takePacket.setRest _, hi, rfl⟩

theorem enqueue_frame (p : AudioPacketPolicy) (feedback : UInt8) :
    (p.enqueue feedback).patternIndex = p.patternIndex ∧
      (p.enqueue feedback).feedbackPattern = p.feedbackPattern := by
  simp only [enqueue]
  split_ifs <;> exact ⟨rfl, rfl⟩

theorem Simulates.wait (h : Simulates p s) {t : Token} (ht : t.InRange) :
    Simulates (p.enqueue t.code) (s.wait t) := by
  obtain ⟨hi, hp⟩ := enqueue_frame p t.code
  exact ⟨h.follows.wait ht, by rw [hi]; exact h.index, by rw [hi, hp]; exact h.rest⟩

theorem Simulates.measure (h : Simulates p s) (v : UInt8) : Simulates (p.measure v) s :=
  ⟨⟨h.follows.rate, h.follows.queue, h.follows.count, h.follows.bound, h.follows.tokens,
    h.follows.history, h.follows.blocks, h.follows.nominal⟩, h.index, h.rest⟩

/-- Every call returns the same and keeps the two in step. -/
theorem Simulates.step (h : Simulates p s) (op : Op) :
    (policyStep p op).1 = (s.step op).1 ∧ Simulates (policyStep p op).2 (s.step op).2 := by
  cases op with
  | observeFeedback v =>
    refine ⟨rfl, ?_⟩
    simp only [policyStep, ReferenceScheduler.step, AudioPacketPolicy.observeFeedback]
    by_cases hv : 42 ≤ v ∧ v ≤ 46
    · rw [if_pos hv, if_pos (show v ≥ minimumFrames ∧ v ≤ maximumFrames from hv)]
      exact (h.measure v).wait (t := .valid v) hv
    · rw [if_neg hv, if_neg (show ¬ (v ≥ minimumFrames ∧ v ≤ maximumFrames) from hv)]
      exact h
  | observeInvalidFeedback => exact ⟨rfl, h.wait (t := .invalid) trivial⟩
  | nextPacketFrames =>
    obtain ⟨hout, hs⟩ := h.nextPacket
    exact ⟨congrArg some hout, hs⟩

theorem Simulates.results (h : Simulates p s) (ops : List Op) :
    results policyStep p ops = results ReferenceScheduler.step s ops := by
  induction ops generalizing p s with
  | nil => rfl
  | cons op ops ih =>
    obtain ⟨hout, hs⟩ := h.step op
    rw [ReferenceScheduler.results, ReferenceScheduler.results, hout, ih hs]

theorem Simulates.after (h : Simulates p s) (ops : List Op) :
    Simulates (after policyStep p ops) (after ReferenceScheduler.step s ops) := by
  induction ops generalizing p s with
  | nil => exact h
  | cons op ops ih => exact ih (h.step op).2

theorem make_history : (make 44100 8000).patternHistory.Holds 0 (recent []).flatten := by
  have hcells : (make 44100 8000).patternHistory.cells = (recent []).flatten := by decide
  intro i hi
  rw [← hcells] at hi ⊢
  rw [Nat.zero_add, Nat.mod_eq_of_lt hi]

theorem make_simulates : Simulates (make 44100 8000) initial :=
  ⟨⟨rfl, .nil _ _, rfl, by decide, by simp [initial], make_history, by simp [initial], rfl⟩,
    by decide, rfl⟩

/-- The policy for 44100 Hz and 8000 service intervals returns what the
reference scheduler returns, whatever calls are made in whatever order. -/
theorem policy_refines_scheduler : construct 44100 8000 = .ok (make 44100 8000) ∧
    (∀ v : UInt8, 42 ≤ v ∧ v ≤ 46 →
      (pattern v).length = 8 ∧ ((pattern v).map UInt8.toNat).sum = v.toNat) ∧
    ∀ ops, results policyStep (make 44100 8000) ops = results step initial ops :=
  ⟨rfl, fun _ hv ↦ pattern_total hv, make_simulates.results⟩

end ReferenceScheduler

end NumarkNS6.AudioOut
