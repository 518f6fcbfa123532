import NumarkNS6.AudioOut.MeasuredClock
import NumarkNS6.AudioOut.PacketSizes
import NumarkNS6.Legacy.NS6ClockControl

namespace NumarkNS6.Legacy.NS6ClockControl

open AudioOut Foundation.CircularTable
open AudioOut.ReferenceScheduler (Simulates)

def policyStep (p : AudioPacketPolicy) : Op → List ℕ × AudioPacketPolicy
  | .observe v => ([], p.observeFeedback v)
  | .nextMillisecond => AudioPacketPolicy.packetFrames 8 p

def policyPackets (p : AudioPacketPolicy) : List Op → List (List ℕ)
  | [] => []
  | op :: ops => (policyStep p op).1 :: policyPackets (policyStep p op).2 ops

def policyAfter (p : AudioPacketPolicy) (ops : List Op) : AudioPacketPolicy :=
  ops.foldl (fun p op ↦ (policyStep p op).2) p

/-- With `waiting` values in the queue, the calls never make it more than 32. -/
def AtMost32 : ℕ → List Op → Prop
  | _, [] => True
  | waiting, .observe v :: ops =>
    if feedbackValueIsValid v then waiting + 1 ≤ 32 ∧ AtMost32 (waiting + 1) ops
    else AtMost32 waiting ops
  | waiting, .nextMillisecond :: ops => AtMost32 (waiting - 1) ops

structure SameGauge (c : NS6ClockControl) (p : AudioPacketPolicy) : Prop where
  window : c.feedbackWindow = p.feedbackWindow
  sum : c.feedbackSum = p.feedbackSum
  count : c.feedbackCount.toNat = p.feedbackCount
  index : c.feedbackIndex.toNat = p.feedbackIndex
  rate : c.rateMillihz = p.measuredClockMilliHz
  count_le : p.feedbackCount ≤ 40000
  index_lt : p.feedbackIndex < 40000

variable {c : NS6ClockControl} {p : AudioPacketPolicy} {s : ReferenceScheduler}

theorem SameGauge.full_iff (h : SameGauge c p) :
    c.feedbackCount = feedbackWindowSize ↔ p.feedbackCount = AudioPacketPolicy.feedbackWindowSize := by
  rw [← UInt32.toNat_inj, h.count]
  rfl

theorem SameGauge.enterWindow (h : SameGauge c p) (v : UInt8) :
    (c.enterWindow v).feedbackWindow = (p.measure v).feedbackWindow ∧
      (c.enterWindow v).feedbackSum = (p.measure v).feedbackSum ∧
      (c.enterWindow v).feedbackCount.toNat = (p.measure v).feedbackCount ∧
      (c.enterWindow v).feedbackIndex.toNat = (p.measure v).feedbackIndex ∧
      (c.enterWindow v).rateMillihz = c.rateMillihz := by
  have hle := h.count_le
  have hindex : ((c.feedbackIndex + 1) % feedbackWindowSize).toNat =
      (p.feedbackIndex + 1) % AudioPacketPolicy.feedbackWindowSize := by
    have hlt := h.index_lt
    rw [UInt32.toNat_mod, UInt32.toNat_add, h.index, UInt32.toNat_one]
    change (p.feedbackIndex + 1) % 2 ^ 32 % 40000 = (p.feedbackIndex + 1) % 40000
    omega
  by_cases hfull : p.feedbackCount = AudioPacketPolicy.feedbackWindowSize
  · simp only [NS6ClockControl.enterWindow, AudioPacketPolicy.measure, if_pos hfull,
      if_pos (h.full_iff.mpr hfull), h.window, h.sum, h.index]
    exact ⟨trivial, trivial, h.count, hindex, trivial⟩
  · have hcount : (c.feedbackCount + 1).toNat = p.feedbackCount + 1 := by
      rw [UInt32.toNat_add, h.count, UInt32.toNat_one]
      omega
    simp only [NS6ClockControl.enterWindow, AudioPacketPolicy.measure, if_neg hfull,
      if_neg (mt h.full_iff.mp hfull), h.window, h.sum, h.index]
    exact ⟨trivial, trivial, hcount, hindex, trivial⟩

theorem measureRate_eq (c : NS6ClockControl) : c.measureRate =
    { c with rateMillihz := if c.feedbackCount = feedbackWindowSize then
        c.feedbackSum * 1000000 / feedbackWindowSize.toUInt64 else c.rateMillihz } := by
  unfold measureRate
  split_ifs <;> rfl

theorem SameGauge.measure (h : SameGauge c p) (v : UInt8) :
    SameGauge (c.enterWindow v).measureRate (p.measure v) := by
  obtain ⟨hwindow, hsum, hcount, hindex, hrate⟩ := h.enterWindow v
  have hle := h.count_le
  have hfull : (c.enterWindow v).feedbackCount = feedbackWindowSize ↔
      (p.measure v).feedbackCount = AudioPacketPolicy.feedbackWindowSize := by
    rw [← UInt32.toNat_inj, hcount]
    rfl
  rw [measureRate_eq]
  refine ⟨hwindow, hsum, hcount, hindex, ?_, ?_, Nat.mod_lt _ (by decide)⟩
  · simp only [hfull, hsum, hrate, h.rate]
    rfl
  · change (if p.feedbackCount = 40000 then p.feedbackCount else p.feedbackCount + 1) ≤ 40000
    split_ifs <;> omega

def gauge (c : NS6ClockControl) : Table UInt8 40000 × UInt64 × UInt32 × UInt32 × UInt64 :=
  (c.feedbackWindow, c.feedbackSum, c.feedbackCount, c.feedbackIndex, c.rateMillihz)

theorem gauge_queuePattern (c : NS6ClockControl) (v : UInt8) : (c.queuePattern v).gauge = c.gauge := by
  unfold queuePattern gauge
  dsimp only
  split_ifs <;> rfl

theorem gauge_patternFrames (c : NS6ClockControl) : c.patternFrames.2.gauge = c.gauge := by
  unfold patternFrames fixedFrames gauge
  dsimp only
  split_ifs <;> rfl

theorem gauge_measureRate {c c' : NS6ClockControl} (h : c'.gauge = c.gauge) :
    c'.measureRate.gauge = c.measureRate.gauge := by
  simp only [gauge, Prod.mk.injEq] at h
  obtain ⟨hwindow, hsum, hcount, hindex, hrate⟩ := h
  simp only [gauge, measureRate_eq, hwindow, hsum, hcount, hindex, hrate]

theorem SameGauge.congr (h : SameGauge c p) {c' : NS6ClockControl} {p' : AudioPacketPolicy}
    (hc : c'.gauge = c.gauge) (hp : p'.gauge = p.gauge) : SameGauge c' p' := by
  simp only [NS6ClockControl.gauge, Prod.mk.injEq] at hc
  simp only [AudioPacketPolicy.gauge, Prod.mk.injEq] at hp
  obtain ⟨hcw, hcs, hcc, hci, hcr⟩ := hc
  obtain ⟨hpw, hps, hpc, hpi, hpr⟩ := hp
  exact ⟨by rw [hcw, hpw, h.window], by rw [hcs, hps, h.sum], by rw [hcc, hpc, h.count],
    by rw [hci, hpi, h.index], by rw [hcr, hpr, h.rate], by rw [hpc]; exact h.count_le,
    by rw [hpi]; exact h.index_lt⟩

theorem gauge_packetFrames (n : ℕ) (p : AudioPacketPolicy) :
    (AudioPacketPolicy.packetFrames n p).2.gauge = p.gauge := by
  induction n generalizing p with
  | zero => rfl
  | succ n ih =>
    rw [AudioPacketPolicy.packetFrames]
    exact (ih _).trans (AudioPacketPolicy.gauge_nextPacketFrames p)

/-- The legacy queue and the legacy cadence stand for the scheduler's. -/
structure Queues (c : NS6ClockControl) (s : ReferenceScheduler) : Prop where
  queue : c.patternQueue.Holds c.patternQueueRead.toNat (s.waiting.map Token.code)
  count : c.patternQueueCount.toNat = s.waiting.length
  bound : s.waiting.length ≤ 32
  read_lt : c.patternQueueRead.toNat < 256
  valid : ∀ t ∈ s.waiting, ∃ v, t = .valid v
  nominal : c.fixedFraction = UInt64.ofNat (100 * (s.nominal % 10))

def cadence (c : NS6ClockControl) : Table UInt8 256 × UInt16 × UInt16 × UInt64 :=
  (c.patternQueue, c.patternQueueRead, c.patternQueueCount, c.fixedFraction)

theorem Queues.congr (h : Queues c s) {c' : NS6ClockControl} (hc : c'.cadence = c.cadence) :
    Queues c' s := by
  simp only [cadence, Prod.mk.injEq] at hc
  obtain ⟨hqueue, hread, hcount, hfraction⟩ := hc
  exact ⟨by rw [hqueue, hread]; exact h.queue, by rw [hcount]; exact h.count, h.bound,
    by rw [hread]; exact h.read_lt, h.valid, by rw [hfraction]; exact h.nominal⟩

theorem cadence_enterWindow (c : NS6ClockControl) (v : UInt8) :
    (c.enterWindow v).cadence = c.cadence := by
  unfold NS6ClockControl.enterWindow cadence
  dsimp only
  split_ifs <;> rfl

theorem Queues.push (h : Queues c s) (hroom : s.waiting.length < 32) (v : UInt8) :
    Queues (c.queuePattern v) (s.wait (.valid v)) := by
  have hnotfull : ¬ c.patternQueueCount = patternQueueCapacity := by
    rw [← UInt16.toNat_inj, h.count]
    change ¬ s.waiting.length = 256
    omega
  have hwait : s.wait (.valid v) = { s with waiting := s.waiting ++ [.valid v] } := by
    have hsub : (s.waiting ++ [Token.valid v]).length - 32 = 0 := by
      rw [List.length_append, List.length_singleton]
      exact Nat.sub_eq_zero_of_le hroom
    rw [ReferenceScheduler.wait, hsub, List.drop_zero]
  have hread := h.read_lt
  have hindex : ((c.patternQueueRead + c.patternQueueCount) % patternQueueCapacity).toNat % 256 =
      (c.patternQueueRead.toNat + s.waiting.length) % 256 := by
    rw [UInt16.toNat_mod, UInt16.toNat_add, h.count]
    change (c.patternQueueRead.toNat + s.waiting.length) % 2 ^ 16 % 256 % 256 = _
    omega
  have hwrite : c.patternQueue.write
      ((c.patternQueueRead + c.patternQueueCount) % patternQueueCapacity).toNat v =
      c.patternQueue.write (c.patternQueueRead.toNat + s.waiting.length) v := by
    simp only [Table.write, hindex]
  have hpush := h.queue.push (by rw [List.length_map]; omega) v
  rw [List.length_map] at hpush
  rw [hwait, queuePattern, if_neg hnotfull]
  refine ⟨?_, ?_, ?_, hread, ?_, h.nominal⟩
  · simp only [hwrite, List.map_append, List.map_singleton]
    exact hpush
  · rw [UInt16.toNat_add, h.count, UInt16.toNat_one, List.length_append, List.length_singleton]
    omega
  · rw [List.length_append, List.length_singleton]
    omega
  · exact List.forall_mem_append.mpr ⟨h.valid, List.forall_mem_singleton.mpr ⟨v, rfl⟩⟩

theorem fixed_fraction (n : ℕ) :
    (UInt64.ofNat (100 * (n % 10)) + 100 ≥ 1000 ↔ (n + 1) % 10 = 0) ∧
      (if (n + 1) % 10 = 0 then UInt64.ofNat (100 * (n % 10)) + 100 - 1000
        else UInt64.ofNat (100 * (n % 10)) + 100) = UInt64.ofNat (100 * ((n + 1) % 10)) := by
  have hs : (n + 1) % 10 = (n % 10 + 1) % 10 := by omega
  rw [hs]
  have hlt : n % 10 < 10 := Nat.mod_lt _ (by decide)
  generalize n % 10 = m at hlt
  revert m
  decide

/-- The legacy cadence takes its long milliseconds where the scheduler does. -/
theorem Queues.fixedFrames (h : Queues c s) :
    c.fixedFrames.1 = (if (s.nominal + 1) % 10 = 0 then (45 : UInt8) else 44).toUInt32 ∧
      Queues c.fixedFrames.2 { s with nominal := s.nominal + 1 } := by
  obtain ⟨hcarry, hnext⟩ := fixed_fraction s.nominal
  rw [NS6ClockControl.fixedFrames]
  simp only [h.nominal, hcarry]
  by_cases hten : (s.nominal + 1) % 10 = 0
  · rw [if_pos hten] at hnext
    simp only [if_pos hten]
    exact ⟨rfl, h.queue, h.count, h.bound, h.read_lt, h.valid, hnext⟩
  · rw [if_neg hten] at hnext
    simp only [if_neg hten]
    exact ⟨rfl, h.queue, h.count, h.bound, h.read_lt, h.valid, hnext⟩

theorem Queues.dropPattern (h : Queues c s) {t : Token} {w : List Token} (hw : s.waiting = t :: w)
    (driven : List (List UInt8)) :
    Queues c.dropPattern { s with waiting := w, driven := driven } := by
  have hqueue := h.queue
  have hcount := h.count
  have hbound := h.bound
  have hread := h.read_lt
  rw [hw, List.map_cons] at hqueue
  rw [hw, List.length_cons] at hcount hbound
  have hnext : ((c.patternQueueRead + 1) % patternQueueCapacity).toNat =
      (c.patternQueueRead.toNat + 1) % 256 := by
    rw [UInt16.toNat_mod, UInt16.toNat_add, UInt16.toNat_one]
    change (c.patternQueueRead.toNat + 1) % 2 ^ 16 % 256 = _
    omega
  have hone : (1 : UInt16) ≤ c.patternQueueCount := by
    rw [UInt16.le_iff_toNat_le, hcount, UInt16.toNat_one]
    omega
  refine ⟨?_, ?_, Nat.le_of_succ_le hbound, ?_, ?_, h.nominal⟩
  · simp only [NS6ClockControl.dropPattern, hnext]
    exact (Table.Holds.tail hqueue).shift (Nat.mod_mod _ _).symm
  · simp only [NS6ClockControl.dropPattern]
    rw [UInt16.toNat_sub_of_le _ _ hone, hcount]
    rfl
  · simp only [NS6ClockControl.dropPattern, hnext]
    exact Nat.mod_lt _ (by decide)
  · intro u hu
    exact h.valid u (hw ▸ List.mem_cons_of_mem _ hu)

theorem Queues.patternFrames (h : Queues c s) (htokens : ∀ t ∈ s.waiting, t.InRange) :
    ∃ v : UInt8, (42 ≤ v ∧ v ≤ 46) ∧ c.patternFrames.1 = v.toUInt32 ∧
      s.millisecond.1 = ReferenceScheduler.pattern v ∧ Queues c.patternFrames.2 s.millisecond.2 := by
  have hcount := h.count
  cases hw : s.waiting with
  | nil =>
    have hzero : c.patternQueueCount = 0 := by
      rw [← UInt16.toNat_inj, hcount, hw]
      rfl
    obtain ⟨hframes, hqueues⟩ := h.fixedFrames
    rw [ReferenceScheduler.millisecond_nil hw, NS6ClockControl.patternFrames,
      if_neg (not_not.mpr hzero)]
    refine ⟨_, ?_, hframes, rfl, hqueues⟩
    split_ifs
    · decide
    · decide
  | cons t w =>
    obtain ⟨v, rfl⟩ := h.valid t (hw ▸ List.mem_cons_self)
    have hne : c.patternQueueCount ≠ 0 := by
      intro hzero
      rw [hzero, hw, List.length_cons, UInt16.toNat_zero] at hcount
      omega
    have hqueue := h.queue
    rw [hw, List.map_cons] at hqueue
    rw [ReferenceScheduler.millisecond_cons hw, NS6ClockControl.patternFrames, if_pos hne,
      hqueue.read_head]
    exact ⟨v, htokens (.valid v) (hw ▸ List.mem_cons_self), rfl, rfl, h.dropPattern hw _⟩

theorem patternPackets_toNat {v : UInt8} (h : 42 ≤ v ∧ v ≤ 46) :
    (patternPackets v.toUInt32).map UInt32.toNat = (ReferenceScheduler.pattern v).map UInt8.toNat := by
  have hcases : v = 42 ∨ v = 43 ∨ v = 44 ∨ v = 45 ∨ v = 46 := by
    have hlow : 42 ≤ v.toNat := UInt8.le_iff_toNat_le.mp h.1
    have hhigh : v.toNat ≤ 46 := UInt8.le_iff_toNat_le.mp h.2
    simp only [← UInt8.toNat_inj, UInt8.reduceToNat]
    omega
  rcases hcases with rfl | rfl | rfl | rfl | rfl <;> rfl

/-- Between two milliseconds the clock and the policy stand for one scheduler. -/
structure Port (c : NS6ClockControl) (p : AudioPacketPolicy) (s : ReferenceScheduler) : Prop where
  simulates : Simulates p s
  rest : s.rest = []
  queues : Queues c s
  gauge : SameGauge c p

theorem init_port : Port init (.make 44100 8000) .initial where
  simulates := ReferenceScheduler.make_simulates
  rest := rfl
  queues := ⟨.nil _ _, rfl, by decide, by decide, nofun, rfl⟩
  gauge := ⟨rfl, rfl, rfl, rfl, rfl, by decide, by decide⟩

theorem valid_iff (v : UInt8) : feedbackValueIsValid v = true ↔ 42 ≤ v ∧ v ≤ 46 := by
  rw [feedbackValueIsValid, Bool.and_eq_true, decide_eq_true_eq, decide_eq_true_eq]

theorem Port.observe (h : Port c p s) (v : UInt8)
    (hroom : feedbackValueIsValid v = true → s.waiting.length < 32) :
    Port (c.observe .pattern v) (p.observeFeedback v) (s.step (.observeFeedback v)).2 := by
  have hsim : Simulates (p.observeFeedback v) (s.step (.observeFeedback v)).2 :=
    (h.simulates.step (.observeFeedback v)).2
  by_cases hv : feedbackValueIsValid v = true
  · have hrange := (valid_iff v).mp hv
    have hobserve : p.observeFeedback v = (p.measure v).enqueue v := if_pos hrange
    have hwait : (s.step (.observeFeedback v)).2 = s.wait (.valid v) := if_pos hrange
    rw [hwait, hobserve] at hsim ⊢
    rw [NS6ClockControl.observe, if_neg (by rw [hv]; decide)]
    let r : NS6ClockControl := { c with
      targetFramesPerMs := v, requestedTotal := c.requestedTotal + v.toUInt64, locked := true }
    have hr : SameGauge r p := h.gauge.congr (by simp only [NS6ClockControl.gauge, r]) rfl
    have hq : Queues r s := h.queues.congr (by simp only [cadence, r])
    change Port ((r.enterWindow v).queuePattern v).measureRate _ _
    refine ⟨hsim, h.rest, ?_, ?_⟩
    · have hpush := (hq.congr (cadence_enterWindow r v)).push (hroom hv) v
      exact hpush.congr (by simp only [cadence, measureRate_eq])
    · exact (hr.measure v).congr (gauge_measureRate (gauge_queuePattern _ v))
        (AudioPacketPolicy.gauge_enqueue _ v)
  · have hrange : ¬ (42 ≤ v ∧ v ≤ 46) := mt (valid_iff v).mpr hv
    have hobserve : p.observeFeedback v = p := if_neg hrange
    have hwait : (s.step (.observeFeedback v)).2 = s := if_neg hrange
    rw [hwait, hobserve, NS6ClockControl.observe, if_pos (Bool.eq_false_of_not_eq_true hv)]
    exact h

/-- A millisecond gives the same eight packets on both sides. -/
theorem Port.millisecond (h : Port c p s) :
    (c.nextMillisecond .pattern).1.map UInt32.toNat = (AudioPacketPolicy.packetFrames 8 p).1 ∧
      Port (c.nextMillisecond .pattern).2 (AudioPacketPolicy.packetFrames 8 p).2
        { s.millisecond.2 with rest := [] } := by
  obtain ⟨v, hv, hframes, hpattern, hqueues⟩ := h.queues.patternFrames h.simulates.follows.tokens
  have hlen : s.millisecond.1.length = AudioFeedbackPatternPolicy.packetsPerMillisecond := by
    rw [hpattern]
    exact (ReferenceScheduler.pattern_legal hv).1
  obtain ⟨hout, hsim⟩ := AudioPacketPolicy.simulates_packetFrames h.simulates 8
  rw [show (8 : ℕ) = AudioFeedbackPatternPolicy.packetsPerMillisecond from rfl] at hout hsim ⊢
  rw [ReferenceScheduler.take_millisecond h.rest hlen] at hout hsim
  have hnext : c.nextMillisecond .pattern = (patternPackets c.patternFrames.1,
      { c.patternFrames.2 with
        sentTotal := c.patternFrames.2.sentTotal + c.patternFrames.1.toUInt64 }) := rfl
  rw [hnext, hout]
  refine ⟨?_, hsim, rfl, ?_, ?_⟩
  · rw [hframes, hpattern]
    exact patternPackets_toNat hv
  · exact ⟨hqueues.queue, hqueues.count, hqueues.bound, hqueues.read_lt, hqueues.valid,
      hqueues.nominal⟩
  · refine h.gauge.congr ?_ (gauge_packetFrames _ p)
    rw [← gauge_patternFrames c]
    simp only [NS6ClockControl.gauge]

theorem Port.step (h : Port c p s) (op : Op) (ops : List Op)
    (hfit : AtMost32 s.waiting.length (op :: ops)) :
    (c.step .pattern op).1.map UInt32.toNat = (policyStep p op).1 ∧
      ∃ s', Port (c.step .pattern op).2 (policyStep p op).2 s' ∧ AtMost32 s'.waiting.length ops := by
  cases op with
  | observe v =>
    refine ⟨rfl, _, h.observe v ?_, ?_⟩
    · intro hv
      rw [AtMost32, if_pos hv] at hfit
      exact hfit.1
    · by_cases hv : feedbackValueIsValid v = true
      · rw [AtMost32, if_pos hv] at hfit
        have hwait : (s.step (.observeFeedback v)).2 = s.wait (.valid v) :=
          if_pos ((valid_iff v).mp hv)
        have hlen : (s.wait (.valid v)).waiting.length = s.waiting.length + 1 := by
          rw [ReferenceScheduler.wait, List.length_drop, List.length_append, List.length_singleton]
          omega
        rw [hwait, hlen]
        exact hfit.2
      · rw [AtMost32, if_neg hv] at hfit
        have hwait : (s.step (.observeFeedback v)).2 = s := if_neg (mt (valid_iff v).mpr hv)
        rw [hwait]
        exact hfit
  | nextMillisecond =>
    obtain ⟨hout, hport⟩ := h.millisecond
    refine ⟨hout, _, hport, ?_⟩
    have hlen : s.millisecond.2.waiting.length = s.waiting.length - 1 := by
      cases hw : s.waiting with
      | nil => rw [ReferenceScheduler.millisecond_nil hw, hw]; rfl
      | cons t w => rw [ReferenceScheduler.millisecond_cons hw]; cases t <;> rfl
    rw [AtMost32] at hfit
    simp only [hlen]
    exact hfit

theorem Port.run (h : Port c p s) (ops : List Op) (hfit : AtMost32 s.waiting.length ops) :
    (packets .pattern c ops).map (·.map UInt32.toNat) = policyPackets p ops ∧
      (c.after .pattern ops).rateMillihz = (policyAfter p ops).measuredClockMilliHz := by
  induction ops generalizing c p s with
  | nil => exact ⟨rfl, h.gauge.rate⟩
  | cons op ops ih =>
    obtain ⟨hout, s', hport, hfit'⟩ := h.step op ops hfit
    obtain ⟨hpackets, hrate⟩ := ih hport hfit'
    rw [packets, List.map_cons, policyPackets, hout, hpackets]
    exact ⟨rfl, hrate⟩

/-- The packet policy sends what the clock control it was ported from sends, and
measures the same rate, as long as no more than 32 values wait. -/
theorem policy_matches_predecessor (ops : List Op) (h : AtMost32 0 ops) :
    AudioPacketPolicy.construct 44100 8000 = .ok (.make 44100 8000) ∧
      (packets .pattern init ops).map (·.map UInt32.toNat) = policyPackets (.make 44100 8000) ops ∧
      (init.after .pattern ops).rateMillihz =
        (policyAfter (.make 44100 8000) ops).measuredClockMilliHz :=
  ⟨rfl, init_port.run ops h⟩

/-- Nominal milliseconds before and after two that follow feedback. -/
theorem policy_matches_predecessor_two_values :
    AtMost32 0 [.nextMillisecond, .observe 46, .observe 42, .nextMillisecond, .nextMillisecond,
        .nextMillisecond] ∧
      policyPackets (.make 44100 8000) [.nextMillisecond, .observe 46, .observe 42, .nextMillisecond,
        .nextMillisecond, .nextMillisecond] =
      [[6, 5, 6, 5, 6, 5, 6, 5], [], [], [5, 6, 6, 6, 5, 6, 6, 6], [6, 5, 5, 5, 6, 5, 5, 5],
        [6, 5, 6, 5, 6, 5, 6, 5]] := by
  have hfit : AtMost32 0 [.nextMillisecond, .observe 46, .observe 42, .nextMillisecond,
      .nextMillisecond, .nextMillisecond] := by
    simp [AtMost32, feedbackValueIsValid]
  refine ⟨hfit, ?_⟩
  rw [← (policy_matches_predecessor _ hfit).2.1]
  decide +kernel

end NumarkNS6.Legacy.NS6ClockControl
