import NumarkNS6.AudioOut.AudioOutPacket
import NumarkNS6.AudioOut.ReferenceScheduler
import NumarkNS6.Foundation.Runs
import Mathlib.Tactic.FieldSimp
import Mathlib.Tactic.NormNum

namespace NumarkNS6.AudioOut.QueueStability

open AudioOutputRing AudioPacketPolicy Foundation.Runs
open ReferenceScheduler (policyStep)

section SourceStep

variable {p : AudioPacketPolicy}

theorem effectiveClock_bounds (p : AudioPacketPolicy) :
    (44100000 : ℚ) ≤ p.effectiveClockMilliHz.toNat ∧ (p.effectiveClockMilliHz.toNat : ℚ) ≤ 44100300 := by
  have h : 44100000 ≤ p.effectiveClockMilliHz.toNat ∧ p.effectiveClockMilliHz.toNat ≤ 44100300 := by
    rw [effectiveClockMilliHz_toNat]
    omega
  exact_mod_cast h

theorem clamp_bounds {v lo hi : ℚ} (h : lo ≤ hi) : lo ≤ clamp v lo hi ∧ clamp v lo hi ≤ hi := by
  rw [clamp_eq h]
  exact ⟨le_max_left _ _, max_le h (min_le_right _ _)⟩

theorem le_clamp {v lo hi w : ℚ} (hv : w ≤ v) (hw : w ≤ hi) : w ≤ clamp v lo hi := by
  unfold clamp
  split_ifs with h₁ h₂
  · linarith
  · exact hw
  · exact hv

theorem sourceStep_bounds (p : AudioPacketPolicy) (queued : UInt32) :
    995 / 1000 ≤ p.sourceFramesPerOutputFrame queued ∧
      p.sourceFramesPerOutputFrame queued ≤ 1005 / 1000 :=
  clamp_bounds (by norm_num)

theorem clockRatio_bounds (hr : p.sampleRateHz = 44100) :
    44100000 / 44100300 ≤ (p.sampleRateHz.toNat : ℚ) * 1000 / p.effectiveClockMilliHz.toNat ∧
      (p.sampleRateHz.toNat : ℚ) * 1000 / p.effectiveClockMilliHz.toNat ≤ 1 := by
  obtain ⟨hlo, hhi⟩ := effectiveClock_bounds p
  have hpos : (0 : ℚ) < p.effectiveClockMilliHz.toNat := by linarith
  have hnat : p.sampleRateHz.toNat = 44100 := by rw [hr]; rfl
  have hrate : (p.sampleRateHz.toNat : ℚ) * 1000 = 44100000 := by rw [hnat]; norm_num
  rw [hrate]
  constructor
  · exact div_le_div_of_nonneg_left (by norm_num) hpos hhi
  · rw [div_le_one hpos]
    exact hlo

theorem sourceStep_high (hr : p.sampleRateHz = 44100) {queued : UInt32}
    (h : 6596 ≤ queued.toNat) : 100499 / 100000 ≤ p.sourceFramesPerOutputFrame queued := by
  have hq : (6596 : ℚ) ≤ queued.toNat := by exact_mod_cast h
  have htrim : clamp (((queued.toNat : ℚ) - queueTargetFrames) * (2 / 1000000)) (-5 / 1000) (5 / 1000) =
      5 / 1000 := clamp_of_ge (by rw [queueTargetFrames]; linarith) (by norm_num)
  have hratio := (clockRatio_bounds hr).1
  simp only [sourceFramesPerOutputFrame, htrim]
  refine le_clamp ?_ (by norm_num)
  calc (100499 / 100000 : ℚ) ≤ 44100000 / 44100300 * (1 + 5 / 1000) := by norm_num
    _ ≤ _ := by gcongr

theorem sourceStep_low (hr : p.sampleRateHz = 44100) {queued : UInt32}
    (h : queued.toNat ≤ 1596) : p.sourceFramesPerOutputFrame queued = 995 / 1000 := by
  have hq : (queued.toNat : ℚ) ≤ 1596 := by exact_mod_cast h
  have htrim : clamp (((queued.toNat : ℚ) - queueTargetFrames) * (2 / 1000000)) (-5 / 1000) (5 / 1000) =
      -5 / 1000 := clamp_of_le (by rw [queueTargetFrames]; linarith) (by norm_num)
  have hratio := (clockRatio_bounds hr).2
  simp only [sourceFramesPerOutputFrame, htrim]
  refine clamp_of_le ?_ (by norm_num)
  calc _ ≤ (1 : ℚ) * (1 + -5 / 1000) := by gcongr
    _ = 995 / 1000 := by norm_num

end SourceStep

inductive Event
  | wrote (offered accepted : UInt32)
  | built (frames missing : UInt32)
  | observed

/-- The closed loop of producer, ring, policy and packets, with its history. -/
structure Loop where
  ring : AudioOutputRing ℚ
  policy : AudioPacketPolicy
  trace : List Event

inductive Op
  | write (interleaved : List ℚ) (frames : UInt32)
  | build
  | observeFeedback (framesPerMillisecond : UInt8)
  | observeInvalidFeedback

/-- The producer offers at most 512 frames at a time. -/
def step (s : Loop) : Op → Option Loop
  | .write interleaved frames =>
    if frames.toNat ≤ 512 ∧ interleaved.length = frames.toNat * s.ring.channels.toNat then
      let w := s.ring.write (some interleaved) frames
      some { s with ring := w.2, trace := s.trace ++ [.wrote frames w.1] }
    else none
  | .build =>
    let b := AudioOutPacket.build s.ring s.policy
    some ⟨b.2.2.1, b.2.2.2, s.trace ++ [.built b.1 b.2.1.missingFrames]⟩
  | .observeFeedback v =>
    some { s with policy := s.policy.observeFeedback v, trace := s.trace ++ [.observed] }
  | .observeInvalidFeedback =>
    some { s with policy := s.policy.observeInvalidFeedback, trace := s.trace ++ [.observed] }

def offered : List Event → ℕ
  | [] => 0
  | .wrote frames _ :: es => frames.toNat + offered es
  | .built _ _ :: es => offered es
  | .observed :: es => offered es

def built : List Event → ℕ
  | [] => 0
  | .wrote _ _ :: es => built es
  | .built frames _ :: es => frames.toNat + built es
  | .observed :: es => built es

/-- Over every stretch of the run the producer keeps pace with the packets. -/
def Paced (trace : List Event) : Prop :=
  ∀ seg, seg <:+: trace → 9951 / 10000 * (built seg : ℚ) - 512 ≤ offered seg ∧
    (offered seg : ℚ) ≤ 10049 / 10000 * built seg + 512

def Event.Served : Event → Prop
  | .wrote offered accepted => accepted = offered
  | .built _ missing => missing = 0
  | .observed => True

theorem offered_append (as bs : List Event) : offered (as ++ bs) = offered as + offered bs := by
  induction as with
  | nil => simp [offered]
  | cons e as ih => cases e <;> simp [offered, ih, Nat.add_assoc]

theorem built_append (as bs : List Event) : built (as ++ bs) = built as + built bs := by
  induction as with
  | nil => simp [built]
  | cons e as ih => cases e <;> simp [built, ih, Nat.add_assoc]

/-- Since the queue was last at most 6596 frames it has been drained at nearly
the largest step, and since it was last at least 1596 frames at the smallest. -/
structure Inv (s : Loop) : Prop where
  capacity : s.ring.capacityFrames = 16384
  channels : s.ring.channels = 4
  rate : s.policy.sampleRateHz = 44100
  fraction : 0 ≤ s.ring.readFraction ∧ s.ring.readFraction < 1
  high : ∃ seg, seg <:+ s.trace ∧
    s.ring.level ≤ 6596 + offered seg - 100499 / 100000 * built seg
  low : ∃ seg, seg <:+ s.trace ∧ 1595 + offered seg - 995 / 1000 * built seg ≤ s.ring.level
  served : ∀ e ∈ s.trace, e.Served

theorem Inv.capacity_toNat {s : Loop} (h : Inv s) : s.ring.capacityFrames.toNat = 16384 := by
  rw [h.capacity]
  rfl

theorem Inv.bounds {s : Loop} (h : Inv s) (hp : Paced s.trace) :
    1083 ≤ s.ring.queued ∧ s.ring.queued ≤ 7108 := by
  obtain ⟨hf₀, hf₁⟩ := h.fraction
  obtain ⟨hi, hhi, hlevel⟩ := h.high
  obtain ⟨lo, hlo, hlevel'⟩ := h.low
  have hup := (hp hi hhi.isInfix).2
  have hdown := (hp lo hlo.isInfix).1
  have hM : (0 : ℚ) ≤ built hi := by positivity
  have hM' : (0 : ℚ) ≤ built lo := by positivity
  rw [level] at hlevel hlevel'
  constructor
  · have : (1083 : ℚ) ≤ s.ring.queued := by linarith
    exact_mod_cast this
  · have : (s.ring.queued : ℚ) < 7109 := by linarith
    have hlt : s.ring.queued < 7109 := by exact_mod_cast this
    omega

theorem nominal_sampleRateHz (p : AudioPacketPolicy) : p.nominal.sampleRateHz = p.sampleRateHz := by
  rw [nominal]

theorem nextPacketFrames_sampleRateHz (p : AudioPacketPolicy) :
    p.nextPacketFrames.2.sampleRateHz = p.sampleRateHz := by
  unfold nextPacketFrames
  split_ifs
  · unfold takePacket beginMillisecond
    simp only
    split_ifs
    · split
      · unfold follow
        simp only
        split_ifs <;> rfl
      · rfl
    · exact nominal_sampleRateHz p
  · rfl
  · simp only
    split_ifs <;> rfl

theorem Inv.next_rate {s : Loop} (h : Inv s) :
    s.policy.nextPacketFrames.2.sampleRateHz = 44100 := by
  rw [nextPacketFrames_sampleRateHz, h.rate]

theorem enqueue_sampleRateHz (p : AudioPacketPolicy) (v : UInt8) :
    (p.enqueue v).sampleRateHz = p.sampleRateHz := by
  simp only [enqueue]
  split_ifs <;> rfl

theorem observeFeedback_sampleRateHz (p : AudioPacketPolicy) (v : UInt8) :
    (p.observeFeedback v).sampleRateHz = p.sampleRateHz := by
  unfold observeFeedback
  split_ifs
  · exact enqueue_sampleRateHz _ v
  · rfl

structure Drained (ring ring' : AudioOutputRing ℚ) (k : ℕ) (step : ℚ) : Prop where
  frames : k ≤ 13
  level : ring'.level = ring.level - k * step
  fraction : 0 ≤ ring'.readFraction ∧ ring'.readFraction < 1
  capacity : ring'.capacityFrames = ring.capacityFrames
  channels : ring'.channels = ring.channels

theorem Drained.draw {ring : AudioOutputRing ℚ} {frames : UInt32} {step : ℚ}
    (hq : ring.queued ≤ ring.capacityFrames.toNat) (hq' : 15 ≤ ring.queued)
    (hf : 0 ≤ ring.readFraction ∧ ring.readFraction < 1) (hk : frames.toNat ≤ 13)
    (hs : 995 / 1000 ≤ step ∧ step ≤ 1005 / 1000) :
    (AudioOutPacket.draw ring frames step).1 = frames ∧
      Drained ring (AudioOutPacket.draw ring frames step).2.2 frames.toNat step := by
  obtain ⟨hs₁, hs₂⟩ := hs
  have hslow : 1 / 2 ≤ step := le_trans (by norm_num) hs₁
  have hfast : step ≤ 3 / 2 := le_trans hs₂ (by norm_num)
  have hstep : (frames.toNat : ℚ) * step ≤ 13 * (1005 / 1000) := by gcongr; exact_mod_cast hk
  have hqueue : (15 : ℚ) ≤ ring.queued := by exact_mod_cast hq'
  have hneed : ring.readFraction + frames.toNat * step ≤ (ring.queued : ℚ) := by linarith [hf.2]
  obtain ⟨hcount, hring⟩ := readResampled_full hq hf.1 hslow hfast frames hneed
  have hlevel := readResampled_level hq hf.1 hslow hfast frames hneed
  have hdraw : (AudioOutPacket.draw ring frames step).2.2 =
      (ring.readResampled true frames step).2.2 := by
    simp only [AudioOutPacket.draw, hcount, sub_self, ne_eq, not_true_eq_false, if_false]
  refine ⟨hcount, hk, hdraw ▸ hlevel, ?_, ?_, ?_⟩ <;> rw [hdraw, hring]
  exact ⟨Int.fract_nonneg _, Int.fract_lt_one _⟩

theorem Inv.build {s : Loop} (h : Inv s) (hq : 1000 ≤ s.ring.queued ∧ s.ring.queued ≤ 8192) :
    (AudioOutPacket.build s.ring s.policy).2.1.missingFrames = 0 ∧
      (AudioOutPacket.build s.ring s.policy).2.2.2.sampleRateHz = 44100 ∧
      Drained s.ring (AudioOutPacket.build s.ring s.policy).2.2.1
        (AudioOutPacket.build s.ring s.policy).1.toNat
        (s.policy.nextPacketFrames.2.sourceFramesPerOutputFrame s.ring.availableFrames) := by
  have hcap := h.capacity_toNat
  have hrate := h.next_rate
  have hch : ¬s.ring.channels ≠ AudioOutPacket.channels := not_not.2 h.channels
  rw [AudioOutPacket.build, if_neg hch]
  by_cases hmax : s.policy.nextPacketFrames.1 > AudioOutPacket.maxFrames
  · rw [if_pos hmax]
    exact ⟨rfl, hrate, Nat.zero_le _, by simp, h.fraction, rfl, rfl⟩
  · rw [if_neg hmax]
    have hk := UInt32.le_iff_toNat_le.1 (UInt32.not_lt.1 hmax)
    have hqueue : s.ring.queued ≤ s.ring.capacityFrames.toNat := by omega
    obtain ⟨hcount, hdrained⟩ := Drained.draw hqueue (by omega) h.fraction hk
      (sourceStep_bounds s.policy.nextPacketFrames.2 s.ring.availableFrames)
    exact ⟨by simp only [hcount, sub_self], hrate, hdrained⟩

/-- One more event: either the queue is back between the two marks, or it has
moved no further from them than the event accounts for. -/
theorem Inv.follow {s s' : Loop} {e : Event} (h : Inv s) (htrace : s'.trace = s.trace ++ [e])
    (hserved : e.Served) (hcap : s'.ring.capacityFrames = s.ring.capacityFrames)
    (hch : s'.ring.channels = s.ring.channels) (hrate : s'.policy.sampleRateHz = 44100)
    (hf : 0 ≤ s'.ring.readFraction ∧ s'.ring.readFraction < 1)
    (hhigh : 6596 < s'.ring.queued →
      s'.ring.level ≤ s.ring.level + offered [e] - 100499 / 100000 * built [e])
    (hlow : s'.ring.queued < 1596 →
      min s.ring.level 1595 + offered [e] - 995 / 1000 * built [e] ≤ s'.ring.level) : Inv s' := by
  obtain ⟨hi, hhi, hlevel⟩ := h.high
  obtain ⟨lo, hlo, hlevel'⟩ := h.low
  have hsnoc (seg : List Event) (hseg : seg <:+ s.trace) : seg ++ [e] <:+ s'.trace := by
    obtain ⟨before, hbefore⟩ := hseg
    exact ⟨before, by rw [← List.append_assoc, hbefore, htrace]⟩
  refine ⟨hcap.trans h.capacity, hch.trans h.channels, hrate, hf, ?_, ?_, ?_⟩
  · by_cases hq : 6596 < s'.ring.queued
    · refine ⟨hi ++ [e], hsnoc hi hhi, ?_⟩
      rw [offered_append, built_append, Nat.cast_add, Nat.cast_add]
      linarith [hhigh hq]
    · have : (s'.ring.queued : ℚ) ≤ 6596 := by exact_mod_cast not_lt.1 hq
      refine ⟨[], List.nil_suffix, ?_⟩
      simp only [offered, built, Nat.cast_zero, level]
      linarith [hf.1]
  · by_cases hq : s'.ring.queued < 1596
    · have hdrop := hlow hq
      rcases le_total s.ring.level 1595 with hle | hle
      · rw [min_eq_left hle] at hdrop
        refine ⟨lo ++ [e], hsnoc lo hlo, ?_⟩
        rw [offered_append, built_append, Nat.cast_add, Nat.cast_add]
        linarith
      · rw [min_eq_right hle] at hdrop
        exact ⟨[e], hsnoc [] List.nil_suffix, hdrop⟩
    · have : (1596 : ℚ) ≤ s'.ring.queued := by exact_mod_cast not_lt.1 hq
      refine ⟨[], List.nil_suffix, ?_⟩
      simp only [offered, built, Nat.cast_zero, level]
      linarith [hf.2]
  · intro e' he'
    rw [htrace, List.mem_append, List.mem_singleton] at he'
    rcases he' with he' | rfl
    · exact h.served e' he'
    · exact hserved

theorem Inv.observe {s : Loop} (h : Inv s) {policy : AudioPacketPolicy}
    (hrate : policy.sampleRateHz = 44100) :
    Inv { s with policy := policy, trace := s.trace ++ [.observed] } := by
  refine h.follow rfl trivial rfl rfl hrate h.fraction (fun _ ↦ ?_) (fun _ ↦ ?_)
  · simp [offered, built]
  · simp [offered, built]

theorem Inv.write {s : Loop} (h : Inv s) (hq : s.ring.queued ≤ 8192) (interleaved : List ℚ)
    {frames : UInt32} (hk : frames.toNat ≤ 512) :
    Inv { s with
      ring := (s.ring.write (some interleaved) frames).2
      trace := s.trace ++ [.wrote frames (s.ring.write (some interleaved) frames).1] } := by
  have hcap := h.capacity_toNat
  obtain ⟨hcount, hqueued, hf, hc, hch⟩ := write_fits s.ring interleaved
    (show s.ring.queued + frames.toNat ≤ s.ring.capacityFrames.toNat by omega)
  have hlevel : (s.ring.write (some interleaved) frames).2.level = s.ring.level + frames.toNat := by
    rw [level, level, hqueued, hf, Nat.cast_add]
    ring
  refine h.follow rfl hcount hc hch h.rate (hf ▸ h.fraction) (fun _ ↦ ?_) (fun _ ↦ ?_)
  · simp [offered, built, hlevel]
  · simp [offered, built, hlevel]

section

variable {ring ring' : AudioOutputRing ℚ} {k : ℕ} {step : ℚ}

theorem Drained.queued_le (h : Drained ring ring' k step) (hs : 0 ≤ step)
    (hf : 0 ≤ ring.readFraction) : ring'.queued ≤ ring.queued := by
  have hlevel := h.level
  have hk : 0 ≤ (k : ℚ) * step := mul_nonneg (Nat.cast_nonneg k) hs
  rw [AudioOutputRing.level, AudioOutputRing.level] at hlevel
  have hlt : (ring'.queued : ℚ) < ring.queued + 1 := by linarith [h.fraction.2]
  exact Nat.lt_succ_iff.mp (by exact_mod_cast hlt)

theorem Drained.level_le (h : Drained ring ring' k step) {least : ℚ} (hs : least ≤ step) :
    ring'.level ≤ ring.level - least * k := by
  have hk : least * k ≤ step * k := mul_le_mul_of_nonneg_right hs (Nat.cast_nonneg k)
  rw [h.level]
  linarith

theorem Drained.stays_above (h : Drained ring ring' k step) (hs : step ≤ 1005 / 1000)
    (hlevel : 1596 ≤ ring.level) : 1595 - 995 / 1000 * k ≤ ring'.level := by
  have hk : (k : ℚ) ≤ 13 := by exact_mod_cast h.frames
  have hstep : (k : ℚ) * step ≤ k * (1005 / 1000) := mul_le_mul_of_nonneg_left hs (Nat.cast_nonneg k)
  rw [h.level]
  linarith

end

theorem Inv.drain {s : Loop} (h : Inv s) (hq : 1000 ≤ s.ring.queued ∧ s.ring.queued ≤ 8192) :
    Inv ⟨(AudioOutPacket.build s.ring s.policy).2.2.1, (AudioOutPacket.build s.ring s.policy).2.2.2,
      s.trace ++ [.built (AudioOutPacket.build s.ring s.policy).1
        (AudioOutPacket.build s.ring s.policy).2.1.missingFrames]⟩ := by
  have hcap := h.capacity_toNat
  have hrate := h.next_rate
  have havail : s.ring.availableFrames.toNat = s.ring.queued := availableFrames_toNat (by omega)
  obtain ⟨hmissing, hrate', hdrained⟩ := h.build hq
  obtain ⟨hs₁, hs₂⟩ := sourceStep_bounds s.policy.nextPacketFrames.2 s.ring.availableFrames
  generalize AudioOutPacket.build s.ring s.policy = b at hmissing hrate' hdrained
  refine h.follow rfl hmissing hdrained.capacity hdrained.channels hrate' hdrained.fraction
    (fun hlarge ↦ ?_) (fun hsmall ↦ ?_) <;>
    simp only [offered, built, Nat.cast_zero, add_zero]
  · have hbefore := hdrained.queued_le (le_trans (by norm_num) hs₁) h.fraction.1
    have hlong : 6596 ≤ s.ring.availableFrames.toNat := by
      rw [havail]
      exact hlarge.le.trans hbefore
    exact hdrained.level_le (sourceStep_high hrate hlong)
  · rcases le_or_gt s.ring.queued 1596 with hle | hgt
    · rw [hdrained.level, sourceStep_low hrate (havail ▸ hle)]
      linarith [min_le_left s.ring.level 1595]
    · have hgt' : (1597 : ℚ) ≤ s.ring.queued := by exact_mod_cast hgt
      have hlevel : 1596 ≤ s.ring.level := by
        rw [level]
        linarith [h.fraction.2]
      linarith [hdrained.stays_above hs₂ hlevel, min_le_right s.ring.level 1595]

theorem Inv.step {s s' : Loop} {op : Op} (h : Inv s) (hp : Paced s.trace)
    (hs : step s op = some s') : Inv s' := by
  obtain ⟨hlo, hhi⟩ := h.bounds hp
  cases op with
  | write interleaved frames =>
    simp only [QueueStability.step] at hs
    split_ifs at hs with hk
    cases hs
    exact h.write (by omega) interleaved hk.1
  | build =>
    cases hs
    exact h.drain (by omega)
  | observeFeedback v =>
    cases hs
    exact h.observe ((observeFeedback_sampleRateHz _ v).trans h.rate)
  | observeInvalidFeedback =>
    cases hs
    exact h.observe ((enqueue_sampleRateHz _ _).trans h.rate)

theorem step_trace {s s' : Loop} {op : Op} (hs : step s op = some s') : s.trace <+: s'.trace := by
  cases op with
  | write interleaved frames =>
    simp only [step] at hs
    split_ifs at hs
    cases hs
    exact List.prefix_append _ _
  | _ =>
    cases hs
    exact List.prefix_append _ _

theorem run_trace {s s' : Loop} {ops : List Op} (h : Run step s ops s') : s.trace <+: s'.trace := by
  induction h with
  | nil => exact List.prefix_rfl
  | snoc _ hs ih => exact ih.trans (step_trace hs)

theorem Paced.of_prefix {before trace : List Event} (h : Paced trace) (hb : before <+: trace) :
    Paced before := fun seg hseg ↦ h seg (hseg.trans hb.isInfix)

theorem Inv.run {s s' : Loop} {ops : List Op} (h : Inv s) (hr : Run QueueStability.step s ops s')
    (hp : Paced s'.trace) : Inv s' := by
  induction hr with
  | nil => exact h
  | snoc _ hs ih =>
    have hp' := hp.of_prefix (step_trace hs)
    exact (ih hp').step hp' hs

structure Ring (ring : AudioOutputRing ℚ) : Prop where
  capacity : ring.capacityFrames = 16384
  channels : ring.channels = 4
  fraction : 0 ≤ ring.readFraction ∧ ring.readFraction < 1

theorem Ring.call {ring : AudioOutputRing ℚ} (h : Ring ring) (c : Call ℚ) :
    Ring (ring.call c).2.2 := by
  cases c with
  | write interleaved frames =>
    cases interleaved with
    | none => exact h
    | some source =>
      by_cases h₀ : frames = 0
      · simpa only [AudioOutputRing.call, AudioOutputRing.write, if_pos h₀] using h
      · refine ⟨?_, ?_, ?_⟩
        · exact (write_capacityFrames ring source h₀).trans h.capacity
        · exact (write_channels ring source h₀).trans h.channels
        · simpa only [AudioOutputRing.call, write_readFraction ring source h₀] using h.fraction
  | read buffer frames =>
    simp only [AudioOutputRing.call, AudioOutputRing.read]
    split_ifs
    · exact h
    · exact ⟨h.capacity, h.channels, h.fraction⟩
  | readResampled buffer frames sourceStep =>
    simp only [AudioOutputRing.call, AudioOutputRing.readResampled]
    split_ifs
    · exact h
    · exact ⟨h.capacity, h.channels, Int.fract_nonneg _, Int.fract_lt_one _⟩
  | advanceResampled frames sourceStep =>
    exact ⟨h.capacity, h.channels, Int.fract_nonneg _, Int.fract_lt_one _⟩

theorem Ring.reached {ring : AudioOutputRing ℚ} (h : AudioOutputRing.construct 16384 4 = .ok ring)
    (calls : List (Call ℚ)) : Ring (ring.after calls) := by
  induction calls using List.reverseRecOn with
  | nil =>
    obtain ⟨-, hcap, hch, -, -, hf⟩ := construct_ok h
    refine ⟨hcap, hch, ?_⟩
    rw [AudioOutputRing.after, List.foldl_nil, hf]
    exact ⟨le_rfl, one_pos⟩
  | append_singleton calls c ih =>
    rw [AudioOutputRing.after, List.foldl_append]
    exact ih.call c

theorem after_sampleRateHz (p : AudioPacketPolicy) (ops : List ReferenceScheduler.Op) :
    (ReferenceScheduler.after policyStep p ops).sampleRateHz = p.sampleRateHz := by
  induction ops generalizing p with
  | nil => rfl
  | cons op ops ih =>
    refine (ih _).trans ?_
    cases op with
    | observeFeedback v => exact observeFeedback_sampleRateHz p v
    | observeInvalidFeedback => exact enqueue_sampleRateHz p _
    | nextPacketFrames => exact nextPacketFrames_sampleRateHz p

theorem Inv.initial {ring : AudioOutputRing ℚ} {policy : AudioPacketPolicy} (h : Ring ring)
    (hr : policy.sampleRateHz = 44100) (hq : 1596 ≤ ring.queued ∧ ring.queued ≤ 6596) :
    Inv ⟨ring, policy, []⟩ := by
  have hlo : (1596 : ℚ) ≤ ring.queued := by exact_mod_cast hq.1
  have hhi : (ring.queued : ℚ) ≤ 6596 := by exact_mod_cast hq.2
  refine ⟨h.capacity, h.channels, hr, h.fraction, ⟨[], List.suffix_rfl, ?_⟩,
    ⟨[], List.suffix_rfl, ?_⟩, by simp⟩ <;> simp only [offered, built, level, Nat.cast_zero]
  · linarith [h.fraction.1]
  · linarith [h.fraction.2]

/-- A producer that keeps pace never overruns the ring and never lets it run
dry: `s` is any point of a run that ends in `s'`. -/
theorem queue_stable {ring : AudioOutputRing ℚ} {policy : AudioPacketPolicy}
    (hring : AudioOutputRing.construct 16384 4 = .ok ring)
    (hpolicy : AudioPacketPolicy.construct 44100 8000 = .ok policy)
    (calls : List (Call ℚ)) (policyOps : List ReferenceScheduler.Op)
    (hlo : 1596 ≤ (ring.after calls).queued) (hhi : (ring.after calls).queued ≤ 6596)
    {ops ops' : List Op} {s s' : Loop}
    (h : Run step ⟨ring.after calls, ReferenceScheduler.after policyStep policy policyOps, []⟩ ops s)
    (h' : Run step s ops' s') (hp : Paced s'.trace) :
    (∀ e ∈ s'.trace, e.Served) ∧ 1000 ≤ s.ring.queued ∧ s.ring.queued ≤ 8192 := by
  have hrate : (ReferenceScheduler.after policyStep policy policyOps).sampleRateHz = 44100 := by
    rw [after_sampleRateHz, ← Except.ok.inj hpolicy]
    rfl
  have hs : Inv s :=
    (Inv.initial (Ring.reached hring calls) hrate ⟨hlo, hhi⟩).run h (hp.of_prefix (run_trace h'))
  obtain ⟨hlo', hhi'⟩ := hs.bounds (hp.of_prefix (run_trace h'))
  exact ⟨(hs.run h' hp).served, by omega, by omega⟩

theorem paced_of_short {trace : List Event} (ho : offered trace ≤ 512) (hb : built trace ≤ 512) :
    Paced trace := by
  rintro seg ⟨before, after, rfl⟩
  simp only [offered_append, built_append] at ho hb
  have ho' : (offered seg : ℚ) ≤ 512 := by exact_mod_cast (by omega : offered seg ≤ 512)
  have hb' : (built seg : ℚ) ≤ 512 := by exact_mod_cast (by omega : built seg ≤ 512)
  have h₀ : (0 : ℚ) ≤ offered seg := by positivity
  have h₁ : (0 : ℚ) ≤ built seg := by positivity
  constructor <;> linarith

/-- A freshly constructed ring filled with 2000 frames, then one packet. -/
theorem queue_stable_one_packet : ∃ ring : AudioOutputRing ℚ,
    AudioOutputRing.construct 16384 4 = .ok ring ∧ ∃ s,
      Run step ⟨ring.after [.write (some (List.replicate 8000 0)) 2000],
        ReferenceScheduler.after policyStep (AudioPacketPolicy.make 44100 8000) [], []⟩ [.build] s ∧
      Paced s.trace ∧ (∀ e ∈ s.trace, e.Served) ∧ 1000 ≤ s.ring.queued ∧ s.ring.queued ≤ 8192 := by
  obtain ⟨ring, hring⟩ : ∃ ring : AudioOutputRing ℚ, AudioOutputRing.construct 16384 4 = .ok ring :=
    ⟨_, rfl⟩
  obtain ⟨-, hcap, -, hw, hr, -⟩ := construct_ok hring
  have h₀ : ring.queued = 0 := by rw [queued, hw, hr]; rfl
  have hfits : ring.queued + (2000 : UInt32).toNat ≤ ring.capacityFrames.toNat := by
    rw [h₀, hcap]
    decide
  have hq := (write_fits ring (List.replicate 8000 0) hfits).2.1
  rw [h₀, show 0 + (2000 : UInt32).toNat = 2000 from rfl] at hq
  have hafter : (ring.after [.write (some (List.replicate 8000 0)) 2000]).queued = 2000 := hq
  have hstart : Inv ⟨ring.after [.write (some (List.replicate 8000 0)) 2000],
      ReferenceScheduler.after policyStep (AudioPacketPolicy.make 44100 8000) [], []⟩ :=
    .initial (.reached hring _) rfl (by omega)
  have hk := (hstart.build (by dsimp only; omega)).2.2.frames
  have hp (missing : UInt32) := @paced_of_short [.built _ missing] (Nat.zero_le 512)
    (le_trans hk (by decide))
  refine ⟨ring, hring, _, .one rfl, hp _, ?_⟩
  exact queue_stable hring rfl [.write (some (List.replicate 8000 0)) 2000] []
    (by omega) (by omega) (@Run.one _ _ _ _ _ Op.build rfl) (.nil _) (hp _)

end NumarkNS6.AudioOut.QueueStability
