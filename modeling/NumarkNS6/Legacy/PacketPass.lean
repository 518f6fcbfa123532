import NumarkNS6.Legacy.OutputTimeline

namespace NumarkNS6.Legacy

open NS6Transport NS6TransportShared

theorem limited_mem (x : ℚ) :
    995 / 1000 ≤ (if (if x > 1005 / 1000 then 1005 / 1000 else x) < 995 / 1000 then 995 / 1000
      else if x > 1005 / 1000 then 1005 / 1000 else x) ∧
    (if (if x > 1005 / 1000 then 1005 / 1000 else x) < 995 / 1000 then 995 / 1000
      else if x > 1005 / 1000 then 1005 / 1000 else x) ≤ 1005 / 1000 := by
  split_ifs with h₁ h₂ h₂
  · norm_num at h₂
  · norm_num
  · norm_num
  · exact ⟨not_lt.mp h₂, not_lt.mp h₁⟩

theorem NS6ClockControl.sourceFramesPerOutputFrame_mem (c : NS6ClockControl) (b : ClockBuild)
    (queued : UInt32) : 995 / 1000 ≤ c.sourceFramesPerOutputFrame b queued ∧
      c.sourceFramesPerOutputFrame b queued ≤ 1005 / 1000 :=
  limited_mem _

namespace NS6TransportShared

variable {s : NS6TransportShared} {timeline : List Frame} {fraction step : ℚ} {count : UInt32}

theorem dequeueLoop_length_le (s : NS6TransportShared) (cursor last : UInt64) (step : ℚ) (n : ℕ)
    (phase : ℚ) : (s.dequeueLoop cursor last step n phase).frames.length ≤ n := by
  induction n generalizing phase with
  | zero => exact Nat.le_refl 0
  | succ n ih =>
    rw [dequeueLoop]
    simp only
    generalize (if phase - ((UInt64.ofNat ⌊phase⌋₊).toNat : ℚ) > 0 then (1 : UInt64) else 0) = next
    split_ifs
    · exact Nat.zero_le _
    · exact Nat.zero_le _
    · exact Nat.zero_le _
    · exact Nat.succ_le_succ (ih _)

theorem dequeueResampled_length_le (s : NS6TransportShared) (fraction step : ℚ) (count : UInt32) :
    (s.dequeueResampled fraction count step).1.length ≤ count.toNat := by
  unfold dequeueResampled
  split_ifs
  · exact Nat.zero_le _
  · exact dequeueLoop_length_le _ _ _ _ _ _

def takePacket (s : NS6TransportShared) (fraction : ℚ) (count : UInt32) (step : ℚ) :
    NS6TransportShared × ℚ :=
  let r := s.dequeueResampled fraction count step
  if r.1.length < count.toNat then
    (r.2.2.1.advanceResampled r.2.2.2 (UInt32.ofNat (count.toNat - r.1.length)) step).2
  else r.2.2

theorem usableStep_eq (h : 995 / 1000 ≤ step ∧ step ≤ 1005 / 1000) : usableStep step = step := by
  obtain ⟨hlow, hhigh⟩ := h
  refine if_neg ?_
  rintro (hlt | hgt)
  · linarith
  · linarith

theorem raiseHighWater_initialized (s : NS6TransportShared) (last : UInt64) :
    (s.raiseHighWater last).initialized = s.initialized := by
  unfold raiseHighWater
  split_ifs
  · rfl
  · rfl

theorem enqueue_initialized (hinit : s.initialized = true) (input : Option Bytes) (count : UInt32)
    (format : Option AudioStreamBasicDescription) :
    (s.enqueue input count format).2.initialized = true := by
  cases format with
  | none => exact hinit
  | some format =>
    rw [enqueue, enqueueAt]
    simp only [hinit, if_true]
    split_ifs
    all_goals first
      | exact hinit
      | rfl
      | exact (raiseHighWater_initialized _ _).trans ((storeFrames_fields _ _ _).2.2.trans hinit)
      | exact (raiseHighWater_initialized _ _).trans (storeFrames_fields _ _ _).2.2

/-- A packet takes the timeline from the reader on, as far as it reaches, and moves the
reader by all its frames, whether they were there or not. -/
theorem Spans.takePacket (h : Spans s timeline) (hinit : s.initialized = true)
    (hfraction : 0 ≤ fraction) (hcount : count ≠ 0)
    (hstep : 995 / 1000 ≤ step ∧ step ≤ 1005 / 1000)
    (hbound : (s.readCursor.toNat : ℚ) + fraction + count.toNat * step + 1 < 2 ^ 64) :
    ∃ m ≤ count.toNat,
      (s.dequeueResampled fraction count step).1 = (List.range m).map
        (fun k : ℕ ↦ interpolate timeline (s.readCursor.toNat + (fraction + k * step))) ∧
      (∀ k < m, ⌈(s.readCursor.toNat : ℚ) + (fraction + k * step)⌉₊ < timeline.length) ∧
      (m < count.toNat → timeline.length ≤ ⌈(s.readCursor.toNat : ℚ) + (fraction + m * step)⌉₊) ∧
      Moved s (s.takePacket fraction count step).1 (fraction + count.toNat * step)
        (s.takePacket fraction count step).2 := by
  have hpos : (0 : ℚ) ≤ step := by linarith [hstep.1]
  have hrun : ¬ (count = 0 ∨ s.initialized = false) := by
    rintro (hzero | hfalse)
    · exact hcount hzero
    · rw [hinit] at hfalse
      cases hfalse
  obtain ⟨m, hm, hframes, hphase, hreach, hstop⟩ := h.loop hfraction hpos count.toNat hbound
  have hlength : ((s.dequeueLoop s.readCursor s.highWater step count.toNat fraction).frames).length =
      m := by
    rw [hframes, List.length_map, List.length_range]
  have hless : (m : ℚ) * step ≤ count.toNat * step :=
    mul_le_mul_of_nonneg_right (Nat.cast_le.mpr hm) hpos
  have hmphase : 0 ≤ fraction + m * step := by
    have hprod : (0 : ℚ) ≤ m * step := mul_nonneg (Nat.cast_nonneg m) hpos
    linarith
  have hmoved := moved_advance hmphase (s := s) (by linarith)
  refine ⟨m, hm, ?_, hreach, hstop, ?_⟩
  · rw [dequeueResampled, if_neg hrun, usableStep_eq hstep]
    exact hframes
  · rw [NS6TransportShared.takePacket, dequeueResampled, if_neg hrun, usableStep_eq hstep]
    simp only [hlength, hphase]
    by_cases hmissing : m < count.toNat
    · rw [if_pos hmissing, advanceResampled, if_neg (by rw [hinit]; exact Bool.noConfusion),
        usableStep_eq hstep]
      have hrest : (UInt32.ofNat (count.toNat - m)).toNat = count.toNat - m := by
        have hlt := count.toNat_lt
        rw [UInt32.toNat_ofNat']
        exact Nat.mod_eq_of_lt (by omega)
      have hposition := hmoved.position
      have hcast : ((count.toNat - m : ℕ) : ℚ) = count.toNat - m := Nat.cast_sub hm
      have hover : (0 : ℚ) ≤ (count.toNat - m : ℕ) * step := mul_nonneg (Nat.cast_nonneg _) hpos
      have hsplit : ((count.toNat - m : ℕ) : ℚ) * step = count.toNat * step - m * step := by
        rw [hcast, sub_mul]
      have hleft : 0 ≤ fraction + m * step - (UInt64.ofNat ⌊fraction + m * step⌋₊).toNat +
          (count.toNat - m : ℕ) * step := by
        linarith [hmoved.unit.1]
      have hadvance := moved_advance hleft (s := { s with
          readCursor := s.readCursor + UInt64.ofNat ⌊fraction + m * step⌋₊ }) (by linarith)
      rw [hrest]
      refine ⟨rfl, rfl, rfl, hadvance.unit, ?_⟩
      rw [hadvance.position]
      linarith
    · have hall : m = count.toNat := by omega
      rw [if_neg hmissing]
      rw [hall] at hmoved ⊢
      exact hmoved

end NS6TransportShared

def Packet.missing (p : Packet) : ℕ := if p.kind = .audio then p.count - p.received else 0

namespace NS6USB

variable {b : OutputBuild} {s t : NS6USB} {p : Packet}

theorem le_startupPrefillFrames (configured minimum queueTarget : UInt32) :
    queueTarget ≤ startupPrefillFrames configured minimum queueTarget := by
  unfold startupPrefillFrames
  simp only
  split_ifs with h₁ h₂ h₂
  · exact UInt32.le_refl _
  · exact UInt32.not_lt.mp h₂
  · exact UInt32.le_refl _
  · exact UInt32.not_lt.mp h₂

structure Silent (s t : NS6USB) (p : Packet) : Prop where
  kind : p.kind ≠ .audio
  queued : p.queued < p.threshold
  received : p.received = 0
  length : p.frames.length = p.count
  step : p.step = 1
  shared : t.shared = s.shared
  fraction : t.readFraction = s.readFraction
  awaiting : t.awaitingAudioPrefill = true
  recovery : t.lastRecoverySample = none

/-- A gap fades from the last frame of the queue or, without one, from the sample that was
kept. -/
def Recalls (kept : Option (Fin 4 → ℤ)) (received : List Frame) (last : Option (Fin 4 → ℤ)) : Prop :=
  ∀ sample, last = some sample →
    (∃ frame, received.getLast? = some frame ∧ sample = fun channel ↦ unpack24 (frame channel)) ∨
      received = [] ∧ kept = some sample

/-- The sample that is still kept when a packet is played: none behind a wait. -/
def keptSample (s : NS6USB) : Option (Fin 4 → ℤ) :=
  if s.awaitingAudioPrefill then none else s.lastRecoverySample

theorem recalls_lastSample (s : NS6USB) (received : List Frame) :
    Recalls s.lastRecoverySample received (s.lastSample received) := by
  intro sample hsample
  unfold lastSample at hsample
  split at hsample
  next frame hframe => exact .inl ⟨frame, hframe, (Option.some_inj.mp hsample).symm⟩
  next hnone => exact .inr ⟨List.getLast?_eq_none_iff.mp hnone, hsample⟩

/-- A packet that takes its frames from the queue. -/
structure Plays (s t : NS6USB) (p : Packet) (count : UInt32) : Prop where
  kind : p.kind = .audio
  awaited : s.awaitingAudioPrefill = true → p.threshold ≤ p.queued
  playing : s.awaitingAudioPrefill = false → ¬ (s.outputPaused = true ∧ s.shared.available = 0)
  awaiting : t.awaitingAudioPrefill = false
  step : 995 / 1000 ≤ p.step ∧ p.step ≤ 1005 / 1000
  received : p.received = (s.shared.dequeueResampled s.readFraction count p.step).1.length
  frames : ∃ last, p.frames = (s.shared.dequeueResampled s.readFraction count p.step).1 ++
      standIn last (count.toNat - p.received) ∧
    Recalls s.keptSample (s.shared.dequeueResampled s.readFraction count p.step).1 last ∧
    (t.lastRecoverySample = none ∨ p.received = count.toNat ∧ t.lastRecoverySample = last)
  taken : (t.shared, t.readFraction) = s.shared.takePacket s.readFraction count p.step

/-- What one pass can do. -/
structure Passed (s t : NS6USB) (p : Packet) (count : UInt32) : Prop where
  filling : t.filling = s.filling ++ [p]
  transfers : t.transfers = s.transfers
  timeline : t.timeline = s.timeline
  paused : t.outputPaused = s.outputPaused
  pausing : t.pausing = s.pausing
  position : p.position = s.position
  queued : p.queued = s.shared.available
  threshold : p.threshold = s.startupFrames
  written : p.written = s.timeline.length
  body : Silent s t p ∨ Plays s t p count
  requested : p.count = count.toNat
  underrunFrames : t.underrunFrames = s.underrunFrames + UInt64.ofNat p.missing
  underrunEvents : t.underrunEvents = s.underrunEvents + if 0 < p.missing then 1 else 0
  underrunMaxBurst : t.underrunMaxBurst = max s.underrunMaxBurst (UInt64.ofNat p.missing)

theorem max_ofNat_zero (n : UInt64) : n = max n (UInt64.ofNat 0) := by
  change n = if n ≤ UInt64.ofNat 0 then UInt64.ofNat 0 else n
  split_ifs with h
  · exact UInt64.toNat_inj.mp (Nat.le_antisymm (UInt64.le_iff_toNat_le.mp h) (Nat.zero_le _))
  · rfl

theorem checkFeedback_eq (s : NS6USB) (nowMs : UInt64) :
    ∃ clock resets started valid, s.checkFeedback nowMs =
      { s with
        clock := clock
        feedbackStaleResets := resets
        feedbackStaleResetStartedMs := started
        feedbackLastValidMs := valid } ∧ (clock = s.clock ∨ clock = s.clock.resetFeedback) := by
  unfold checkFeedback
  split_ifs
  · split
    · exact ⟨_, _, _, _, rfl, .inl rfl⟩
    · split_ifs
      · exact ⟨_, _, _, _, rfl, .inr rfl⟩
      · exact ⟨_, _, _, _, rfl, .inl rfl⟩
  · exact ⟨_, _, _, _, rfl, .inl rfl⟩

theorem prepare_eq (s : NS6USB) (b : OutputBuild) (nowMs : UInt64) :
    ∃ clock counts resets started valid, (s.checkFeedback nowMs).nextMillisecond b =
      { s with
        clock := clock
        millisecondFrames := counts
        feedbackStaleResets := resets
        feedbackStaleResetStartedMs := started
        feedbackLastValidMs := valid } := by
  obtain ⟨clock, resets, started, valid, hcheck, -⟩ := s.checkFeedback_eq nowMs
  rw [hcheck, nextMillisecond]
  split_ifs
  · exact ⟨_, _, _, _, _, rfl⟩
  · exact ⟨_, _, _, _, _, rfl⟩

theorem Passed.plays {count : UInt32} (h : Passed s t p count) (hkind : p.kind = .audio) :
    Plays s t p count :=
  h.body.resolve_left fun hsilent ↦ hsilent.kind hkind

theorem playPacket_passed (s : NS6USB) (b : OutputBuild) (count : UInt32)
    (hawaiting : s.awaitingAudioPrefill = false)
    (hplaying : ¬ (s.outputPaused = true ∧ s.shared.available = 0)) :
    ∃ p, Passed s (s.playPacket b count) p count ∧ p.kind = .audio ∧
      (s.playPacket b count).clock = s.clock ∧
      (s.playPacket b count).millisecondFrames = s.millisecondFrames := by
  have hstep := s.clock.sourceFramesPerOutputFrame_mem b.clock s.shared.available
  have hkept : s.keptSample = s.lastRecoverySample := by
    rw [keptSample, hawaiting]
    rfl
  have hawaited : s.awaitingAudioPrefill = true → s.startupFrames ≤ s.shared.available := by
    intro htrue
    rw [hawaiting] at htrue
    cases htrue
  have htaken : s.shared.takePacket s.readFraction count
      (s.clock.sourceFramesPerOutputFrame b.clock s.shared.available) = _ :=
    NS6TransportShared.takePacket.eq_def _ _ _ _
  unfold playPacket
  simp only at htaken ⊢
  generalize hr : s.shared.dequeueResampled s.readFraction count
    (s.clock.sourceFramesPerOutputFrame b.clock s.shared.available) = r at htaken ⊢
  split_ifs with hless
  · rw [if_pos hless] at htaken
    have hmissing : 0 < count.toNat - r.1.length := by omega
    refine ⟨_, ⟨rfl, rfl, rfl, rfl, rfl, rfl, rfl, rfl, rfl, .inr ⟨rfl, hawaited, fun _ ↦ hplaying,
      hawaiting, hstep, ?_, ⟨s.lastSample r.1, ?_, ?_, .inl rfl⟩, ?_⟩, rfl, rfl, ?_, rfl⟩, rfl, rfl,
      rfl⟩
    · exact congrArg (·.1.length) hr.symm
    · exact congrArg (·.1 ++ _) hr.symm
    · rw [hr, hkept]
      exact s.recalls_lastSample r.1
    · exact htaken.symm
    · exact congrArg (_ + ·) (if_pos hmissing).symm
  · rw [if_neg hless] at htaken
    have hmissing : count.toNat - r.1.length = 0 := by omega
    have hall : r.1.length = count.toNat := by
      have hle := s.shared.dequeueResampled_length_le s.readFraction
        (s.clock.sourceFramesPerOutputFrame b.clock s.shared.available) count
      rw [hr] at hle
      omega
    refine ⟨_, ⟨rfl, rfl, rfl, rfl, rfl, rfl, rfl, rfl, rfl, .inr ⟨rfl, hawaited, fun _ ↦ hplaying,
      hawaiting, hstep, ?_, ⟨s.lastSample r.1, ?_, ?_, .inr ⟨hall, rfl⟩⟩, ?_⟩, rfl, ?_, ?_, ?_⟩, rfl,
      rfl, rfl⟩
    · exact congrArg (·.1.length) hr.symm
    · exact congrArg (·.1 ++ _) hr.symm
    · rw [hr, hkept]
      exact s.recalls_lastSample r.1
    · exact htaken.symm
    · change s.underrunFrames = s.underrunFrames + UInt64.ofNat (count.toNat - r.1.length)
      rw [hmissing]
      exact (UInt64.add_zero _).symm
    · change s.underrunEvents = s.underrunEvents + if 0 < count.toNat - r.1.length then 1 else 0
      rw [hmissing]
      exact (UInt64.add_zero _).symm
    · change s.underrunMaxBurst = max s.underrunMaxBurst (UInt64.ofNat (count.toNat - r.1.length))
      rw [hmissing]
      exact max_ofNat_zero _

/-- Every pass makes one packet. -/
theorem pass_passed (s : NS6USB) (b : OutputBuild) (nowMs : UInt64) :
    ∃ p, Passed s (s.pass b nowMs) p
      ((s.pass b nowMs).millisecondFrames.getD (s.filling.length % 8) 0) ∧
      (s.pass b nowMs).clock = ((s.checkFeedback nowMs).nextMillisecond b).clock ∧
      (s.pass b nowMs).millisecondFrames =
        ((s.checkFeedback nowMs).nextMillisecond b).millisecondFrames := by
  obtain ⟨clock, counts, resets, started, valid, hprepare⟩ := s.prepare_eq b nowMs
  rw [pass, hprepare]
  simp only
  split_ifs with hidle hawaiting hless
  · have hqueued : s.shared.available < s.startupFrames := by
      rw [hidle.2]
      exact UInt32.lt_of_lt_of_le (by decide) (le_startupPrefillFrames _ _ _)
    exact ⟨_, ⟨rfl, rfl, rfl, rfl, rfl, rfl, rfl, rfl, rfl, .inl ⟨PacketKind.noConfusion, hqueued, rfl,
      List.length_replicate, rfl, rfl, rfl, rfl, rfl⟩, rfl, (UInt64.add_zero _).symm,
      (UInt64.add_zero _).symm, max_ofNat_zero _⟩, rfl, rfl⟩
  · exact ⟨_, ⟨rfl, rfl, rfl, rfl, rfl, rfl, rfl, rfl, rfl, .inl ⟨PacketKind.noConfusion, hless, rfl,
      List.length_replicate, rfl, rfl, rfl, hawaiting, rfl⟩, rfl, (UInt64.add_zero _).symm,
      (UInt64.add_zero _).symm, max_ofNat_zero _⟩, rfl, rfl⟩
  · obtain ⟨p, h, hkind, hclock, hcounts⟩ := playPacket_passed
      { s with
        clock := clock
        millisecondFrames := counts
        feedbackStaleResets := resets
        feedbackStaleResetStartedMs := started
        feedbackLastValidMs := valid
        awaitingAudioPrefill := false
        lastRecoverySample := none } b (counts.getD (s.filling.length % 8) 0) rfl hidle
    have hplays := h.plays hkind
    have hfull : p.threshold ≤ p.queued := by
      rw [h.threshold, h.queued]
      exact UInt32.not_lt.mp hless
    have hnone : s.keptSample = none := if_pos hawaiting
    obtain ⟨last, hframes, hlast, hkept⟩ := hplays.frames
    have hrecalls : Recalls s.keptSample (s.shared.dequeueResampled s.readFraction
        (counts.getD (s.filling.length % 8) 0) p.step).1 last := by
      rw [hnone]
      exact hlast
    have hnever : s.awaitingAudioPrefill = false →
        ¬ (s.outputPaused = true ∧ s.shared.available = 0) := fun _ ↦ hidle
    rw [hcounts]
    exact ⟨p, ⟨h.filling, h.transfers, h.timeline, h.paused, h.pausing, h.position, h.queued,
      h.threshold, h.written, .inr ⟨hkind, fun _ ↦ hfull, hnever, hplays.awaiting, hplays.step,
      hplays.received, ⟨last, hframes, hrecalls, hkept⟩, hplays.taken⟩, h.requested,
      h.underrunFrames, h.underrunEvents, h.underrunMaxBurst⟩, hclock, rfl⟩
  · obtain ⟨p, h, hkind, hclock, hcounts⟩ := playPacket_passed
      { s with
        clock := clock
        millisecondFrames := counts
        feedbackStaleResets := resets
        feedbackStaleResetStartedMs := started
        feedbackLastValidMs := valid } b (counts.getD (s.filling.length % 8) 0)
      (Bool.eq_false_of_not_eq_true hawaiting) hidle
    have hplays := h.plays hkind
    rw [hcounts]
    exact ⟨p, ⟨h.filling, h.transfers, h.timeline, h.paused, h.pausing, h.position, h.queued,
      h.threshold, h.written, .inr ⟨hkind, hplays.awaited, hplays.playing, hplays.awaiting,
      hplays.step, hplays.received, hplays.frames, hplays.taken⟩, h.requested, h.underrunFrames,
      h.underrunEvents, h.underrunMaxBurst⟩, hclock, rfl⟩

structure Aside (b : OutputBuild) (s t : NS6USB) : Prop where
  transfer : t.filling = s.filling ∧ t.transfers = s.transfers ∨
    s.filling.length = packets ∧ t.filling = [] ∧ t.transfers = s.transfers ++ [s.filling]
  millisecond : t.millisecondFrames = s.millisecondFrames
  clock : t.clock = s.clock ∨ ∃ framesPerMs, t.clock = s.clock.observe b.clock framesPerMs
  awaiting : s.awaitingAudioPrefill = true → t.awaitingAudioPrefill = true
  fraction : t.readFraction = s.readFraction
  shared : t.shared = s.shared ∧ t.timeline = s.timeline ∨ ∃ input count format,
    t.shared = (s.enqueue input count format).shared ∧
      t.timeline = (s.enqueue input count format).timeline
  gate : s.awaitingAudioPrefill = true ∨ s.outputPaused = true ∧ false ∉ s.pausing →
    t.awaitingAudioPrefill = true ∨ t.outputPaused = true ∧ false ∉ t.pausing
  underrunFrames : t.underrunFrames = s.underrunFrames
  underrunEvents : t.underrunEvents = s.underrunEvents
  underrunMaxBurst : t.underrunMaxBurst = s.underrunMaxBurst
  recovery : t.lastRecoverySample = s.lastRecoverySample

theorem setPaused_aside (s : NS6USB) (b : OutputBuild) (paused : Bool) :
    Aside b s (s.setPaused paused) := by
  unfold setPaused
  split_ifs
  · exact ⟨.inl ⟨rfl, rfl⟩, rfl, .inl rfl, id, rfl, .inl ⟨rfl, rfl⟩, id, rfl, rfl, rfl, rfl⟩
  · refine ⟨.inl ⟨rfl, rfl⟩, rfl, .inl rfl, ?_, rfl, .inl ⟨rfl, rfl⟩, ?_, rfl, rfl, rfl, rfl⟩
    · intro hawaiting
      simp only [hawaiting, Bool.true_or]
    · rintro (hawaiting | ⟨hpaused, hnone⟩)
      · simp only [hawaiting, Bool.true_or, true_or]
      · cases paused with
        | false => simp only [hpaused, Bool.not_false, Bool.and_self, Bool.or_true, true_or]
        | true =>
          refine .inr ⟨hpaused, ?_⟩
          rw [List.mem_append, List.mem_singleton]
          rintro (hmem | hfalse)
          · exact hnone hmem
          · cases hfalse

theorem step_cases {a : Action} (h : step b s a = some t) :
    (∃ nowMs, s.filling.length < packets ∧ t = s.pass b nowMs) ∨ Aside b s t := by
  cases a with
  | pass nowMs =>
    simp only [step] at h
    split_ifs at h with hlt
    cases h
    exact .inl ⟨nowMs, hlt, rfl⟩
  | finishFill =>
    simp only [step] at h
    split_ifs at h with hfull
    cases h
    exact .inr ⟨.inr ⟨hfull, rfl, rfl⟩, rfl, .inl rfl, id, rfl, .inl ⟨rfl, rfl⟩, id, rfl, rfl, rfl, rfl⟩
  | enqueue input count format =>
    cases h
    exact .inr ⟨.inl ⟨rfl, rfl⟩, rfl, .inl rfl, id, rfl, .inr ⟨input, count, format, rfl, rfl⟩, id, rfl,
      rfl, rfl, rfl⟩
  | setPaused paused =>
    cases h
    exact .inr (s.setPaused_aside b paused)
  | storePaused call =>
    simp only [step] at h
    split at h
    · cases h
    next paused hcall =>
      cases h
      refine .inr ⟨.inl ⟨rfl, rfl⟩, rfl, .inl rfl, id, rfl, .inl ⟨rfl, rfl⟩, ?_, rfl, rfl, rfl, rfl⟩
      rintro (hawaiting | ⟨-, hnone⟩)
      · exact .inl hawaiting
      · refine .inr ⟨?_, fun hmem ↦ hnone (List.mem_of_mem_eraseIdx hmem)⟩
        cases paused with
        | false => exact absurd (List.mem_of_getElem? hcall) hnone
        | true => rfl
  | setStartupBufferFrames frames =>
    cases h
    exact .inr ⟨.inl ⟨rfl, rfl⟩, rfl, .inl rfl, id, rfl, .inl ⟨rfl, rfl⟩, id, rfl, rfl, rfl, rfl⟩
  | requestRestart =>
    cases h
    exact .inr ⟨.inl ⟨rfl, rfl⟩, rfl, .inl rfl, id, rfl, .inl ⟨rfl, rfl⟩,
      Or.imp_right fun hgate ↦ ⟨rfl, hgate.2⟩, rfl, rfl, rfl, rfl⟩
  | requestRecovery =>
    cases h
    exact .inr ⟨.inl ⟨rfl, rfl⟩, rfl, .inl rfl, id, rfl, .inl ⟨rfl, rfl⟩, id, rfl, rfl, rfl, rfl⟩
  | recover =>
    cases h
    exact .inr ⟨.inl ⟨rfl, rfl⟩, rfl, .inl rfl, id, rfl, .inl ⟨rfl, rfl⟩, id, rfl, rfl, rfl, rfl⟩
  | feedback framesPerMs nowMs =>
    cases h
    unfold feedback
    by_cases hvalid : NS6ClockControl.feedbackValueIsValid framesPerMs = true
    · rw [if_pos hvalid]
      exact .inr ⟨.inl ⟨rfl, rfl⟩, rfl, .inr ⟨framesPerMs, rfl⟩, id, rfl, .inl ⟨rfl, rfl⟩, id, rfl, rfl,
        rfl, rfl⟩
    · rw [if_neg hvalid]
      exact .inr ⟨.inl ⟨rfl, rfl⟩, rfl, .inl rfl, id, rfl, .inl ⟨rfl, rfl⟩, id, rfl, rfl, rfl, rfl⟩

theorem Passed.log {count : UInt32} (h : Passed s t p count) : t.log = s.log ++ [p] := by
  rw [NS6USB.log, NS6USB.log, h.filling, h.transfers, List.append_assoc]

theorem Aside.log (h : Aside b s t) : t.log = s.log := by
  obtain ⟨hfilling, htransfers⟩ | ⟨-, hfilling, htransfers⟩ := h.transfer
  · rw [NS6USB.log, NS6USB.log, hfilling, htransfers]
  · rw [NS6USB.log, NS6USB.log, hfilling, htransfers, List.flatten_append, List.flatten_singleton,
      List.append_nil]

end NS6USB

end NumarkNS6.Legacy
