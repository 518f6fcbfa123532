import NumarkNS6.AudioOut.RingUse

namespace NumarkNS6.AudioOut.AudioOutputRing

open Foundation.CircularStore Foundation.Runs
open RingInterleaving (slotOf slotOf_holds)

variable {α : Type}

def frameSlots (ring : AudioOutputRing α) (readFrame available : UInt32) (phase : ℚ) :
    List UInt32 :=
  let firstOffset := truncate phase
  let fraction := phase - firstOffset.toNat
  let secondOffset := firstOffset + if fraction > 0 ∧ firstOffset + 1 < available then 1 else 0
  [(readFrame + firstOffset) % ring.capacityFrames,
    (readFrame + secondOffset) % ring.capacityFrames]

def loopSlots (ring : AudioOutputRing α) (readFrame available : UInt32) (sourceStep : ℚ) :
    ℕ → ℚ → List UInt32
  | 0, _ => []
  | remaining + 1, phase =>
    if truncate phase ≥ available then []
    else ring.frameSlots readFrame available phase ++
      ring.loopSlots readFrame available sourceStep remaining (phase + sourceStep)

/-- The slots that `readResampled` touches. -/
def slotsRead (ring : AudioOutputRing α) (frames : UInt32) (sourceStep : ℚ) : List UInt32 :=
  ring.loopSlots ring.readFrame ring.availableFrames (usableStep sourceStep) frames.toNat
    ring.readFraction

variable {ring next : AudioOutputRing α}

def replace (ring : AudioOutputRing α) (samples : List α) : AudioOutputRing α :=
  { ring with samples := samples }

section Reads

variable [Zero α] [Add α] [Sub α] [Mul α] [RatCast α]
variable {samples : List α} {readFrame available : UInt32}

theorem resampledFrame_replace {phase : ℚ}
    (h : ∀ slot ∈ ring.frameSlots readFrame available phase, ∀ channel < ring.channels.toNat,
      (ring.replace samples).sampleAt slot channel = ring.sampleAt slot channel) :
    (ring.replace samples).resampledFrame readFrame available phase =
      ring.resampledFrame readFrame available phase := by
  simp only [resampledFrame]
  apply List.map_congr_left
  intro channel hmem
  have hchannel := List.mem_range.mp hmem
  have hfirst := h _ List.mem_cons_self channel hchannel
  have hsecond := h _ (List.mem_cons_of_mem _ List.mem_cons_self) channel hchannel
  rw [← hfirst, ← hsecond]
  rfl

theorem resampleLoop_replace {sourceStep : ℚ} (n : ℕ) (r : Resampled α)
    (h : ∀ slot ∈ ring.loopSlots readFrame available sourceStep n r.phase,
      ∀ channel < ring.channels.toNat,
        (ring.replace samples).sampleAt slot channel = ring.sampleAt slot channel) :
    (ring.replace samples).resampleLoop readFrame available sourceStep n r =
      ring.resampleLoop readFrame available sourceStep n r := by
  induction n generalizing r with
  | zero => rfl
  | succ n ih =>
    rw [resampleLoop, resampleLoop]
    rw [loopSlots] at h
    split_ifs with hend
    · rfl
    · rw [if_neg hend] at h
      rw [resampledFrame_replace fun slot hslot ↦ h slot (List.mem_append_left _ hslot)]
      apply ih
      intro slot hslot
      exact h slot (List.mem_append_right _ hslot)

/-- A read depends on no other samples than those of the slots it touches. -/
theorem readResampled_replace {frames : UInt32} {sourceStep : ℚ}
    (h : ∀ slot ∈ ring.slotsRead frames sourceStep, ∀ channel < ring.channels.toNat,
      (ring.replace samples).sampleAt slot channel = ring.sampleAt slot channel) :
    (ring.replace samples).readResampled true frames sourceStep =
      ((ring.readResampled true frames sourceStep).1,
        (ring.readResampled true frames sourceStep).2.1,
        (ring.readResampled true frames sourceStep).2.2.replace samples) := by
  have hloop := resampleLoop_replace frames.toNat ⟨0, ring.readFraction, []⟩ h
  rw [availableFrames, replace] at hloop
  simp only [replace, readResampled, Bool.true_eq_false, false_and, if_false, hloop]

end Reads

theorem exists_offset_of_mem_loopSlots {readFrame available slot : UInt32} {sourceStep : ℚ} {n : ℕ}
    {phase : ℚ} (h : slot ∈ ring.loopSlots readFrame available sourceStep n phase) :
    ∃ offset : UInt32, offset.toNat < available.toNat ∧
      slot = (readFrame + offset) % ring.capacityFrames := by
  induction n generalizing phase with
  | zero => exact absurd h List.not_mem_nil
  | succ n ih =>
    rw [loopSlots] at h
    split_ifs at h with hend
    · exact absurd h List.not_mem_nil
    · obtain ⟨hfirst, hsecond⟩ := offsets_lt hend (phase - (truncate phase).toNat)
      rcases List.mem_append.mp h with hframe | hrest
      · rcases List.mem_cons.mp hframe with rfl | hframe
        · exact ⟨_, hfirst, rfl⟩
        · exact ⟨_, hsecond, List.mem_singleton.mp hframe⟩
      · exact ih hrest

theorem Keeps.slotsRead {accepted : List α} {W R : ℕ} (h : ring.Keeps accepted W R)
    {frames : UInt32} {sourceStep : ℚ} {slot : UInt32}
    (hslot : slot ∈ ring.slotsRead frames sourceStep) :
    ∃ n, R ≤ n ∧ n < W ∧ slot.toNat = n % ring.capacityFrames.toNat ∧
      slice ring.samples (slot.toNat * ring.channels.toNat) ring.channels.toNat =
        slice accepted (n * ring.channels.toNat) ring.channels.toNat := by
  obtain ⟨offset, hoffset, rfl⟩ := exists_offset_of_mem_loopSlots hslot
  have hqueued := h.queued
  rw [availableFrames_toNat h.queued_le] at hoffset
  have hread : ring.readFrame + offset = UInt32.ofNat (R + offset.toNat) := by
    have hr : ring.readFrame = UInt32.ofNat R := h.readIndex
    rw [hr, ofNat_add_word]
  have hlt : R + offset.toNat < W := by omega
  refine ⟨R + offset.toNat, Nat.le_add_right _ _, hlt, ?_, ?_⟩
  · rw [hread]
    exact toNat_slot h.divides _
  · rw [hread]
    exact slotOf_holds h (Nat.le_add_right _ _) hlt

theorem resampleLoop_ends [Zero α] [Add α] [Sub α] [Mul α] [RatCast α] (ring : AudioOutputRing α)
    (readFrame available : UInt32) (sourceStep : ℚ) (n : ℕ) (r : Resampled α) :
    (ring.resampleLoop readFrame available sourceStep n r).produced = r.produced + n ∨
      truncate (ring.resampleLoop readFrame available sourceStep n r).phase ≥ available := by
  induction n generalizing r with
  | zero => exact .inl rfl
  | succ n ih =>
    rw [resampleLoop]
    split_ifs with hend
    · exact .inr hend
    · rcases ih ⟨r.produced + 1, r.phase + sourceStep,
        r.interleaved ++ ring.resampledFrame readFrame available r.phase⟩ with hall | hstop
      · left
        rw [hall]
        dsimp only
        omega
      · exact .inr hstop

theorem Advanced.writeFrame (h : ring.Advanced next) : next.writeFrame = ring.writeFrame := by
  cases h
  rfl

theorem Steady.readFrame_add_available (h : Steady ring) :
    ring.readFrame + ring.availableFrames = ring.writeFrame := by
  have hall : ring.availableFrames = ring.writeFrame - ring.readFrame :=
    UInt32.toNat.inj h.available
  rw [hall, UInt32.add_comm, UInt32.sub_add_cancel]

theorem Steady.readResampled_short [Zero α] [Add α] [Sub α] [Mul α] [RatCast α]
    (h : Steady ring) {frames : UInt32} {sourceStep : ℚ}
    (hshort : (ring.readResampled true frames sourceStep).1 ≠ frames) :
    (ring.readResampled true frames sourceStep).2.2.readFrame = ring.writeFrame := by
  have hread : ring.readFrame + min (ring.writeFrame - ring.readFrame) ring.capacityFrames =
      ring.writeFrame := h.readFrame_add_available
  simp only [readResampled, Bool.true_eq_false, false_and, if_false] at hshort ⊢
  rcases resampleLoop_ends ring ring.readFrame
    (min (ring.writeFrame - ring.readFrame) ring.capacityFrames) (usableStep sourceStep) frames.toNat
    ⟨0, ring.readFraction, []⟩ with hall | hstop
  · rw [hall, Nat.zero_add, UInt32.ofNat_toNat] at hshort
    exact absurd rfl hshort
  · have hconsumed := UInt32.toNat.inj ((UInt32.toNat_min _ _).trans
      (Nat.min_eq_right (UInt32.le_iff_toNat_le.mp hstop)))
    rw [hconsumed, hread]

theorem Steady.advanceResampled_all (h : Steady ring) :
    (ring.advanceResampled ring.availableFrames 1).readFrame = ring.writeFrame := by
  rw [advanceResampled_drop h.fraction (Nat.le_refl _)]
  exact h.readFrame_add_available

theorem write_shape (ring : AudioOutputRing α) (source : List α) (frames : UInt32) :
    (ring.write (some source) frames).2.capacityFrames = ring.capacityFrames ∧
      (ring.write (some source) frames).2.channels = ring.channels := by
  by_cases h₀ : frames = 0
  · subst h₀
    exact ⟨rfl, rfl⟩
  · exact ⟨write_capacityFrames ring source h₀, write_channels ring source h₀⟩

theorem usableStep_range (sourceStep : ℚ) :
    1 / 2 ≤ usableStep sourceStep ∧ usableStep sourceStep ≤ 3 / 2 := by
  rw [usableStep]
  split_ifs with h
  · norm_num
  · rw [not_or, not_lt, gt_iff_lt, not_lt] at h
    exact h

theorem Steady.phase_lt (h : Steady ring) {n : ℕ} (hn : n ≤ 2 ^ 30) (sourceStep : ℚ) :
    ring.readFraction + n * usableStep sourceStep < 2 ^ 32 := by
  have hn' : (n : ℚ) ≤ 2 ^ 30 := by exact_mod_cast hn
  have hstep := (usableStep_range sourceStep).2
  have hproduct : (n : ℚ) * usableStep sourceStep ≤ 2 ^ 30 * (3 / 2) := by
    have hnonneg := (usableStep_range sourceStep).1
    apply mul_le_mul hn' hstep
    · linarith
    · norm_num
  have hfraction := h.fraction.2
  linarith

/-- A ring with the history of its calls. -/
structure Traced (α : Type) where
  ring : AudioOutputRing α
  accepted : List α
  acceptedFrames : ℕ
  consumedFrames : ℕ

namespace Traced

def start (ring : AudioOutputRing α) : Traced α := ⟨ring, [], 0, 0⟩

def accept (s : Traced α) (source : List α) (written : UInt32 × AudioOutputRing α) : Traced α :=
  { s with
    ring := written.2
    accepted := s.accepted ++ source.take (written.1.toNat * s.ring.channels.toNat)
    acceptedFrames := s.acceptedFrames + written.1.toNat }

def consume (s : Traced α) (next : AudioOutputRing α) : Traced α :=
  { s with
    ring := next
    consumedFrames := s.consumedFrames + (next.readFrame - s.ring.readFrame).toNat }

/-- A call for at most `2 ^ 30` frames with a source that fits. -/
def call [Zero α] [Add α] [Sub α] [Mul α] [RatCast α] (s : Traced α) (c : Call α) :
    Option (Traced α) :=
  if c.Fits s.ring.channels ∧ c.frames.toNat ≤ 2 ^ 30 then
    match c with
    | .write interleaved frames => some (s.accept c.source (s.ring.write interleaved frames))
    | c => some (s.consume (s.ring.call c).2.2)
  else none

structure Safe (capacityFrames channels : UInt32) (s : Traced α) : Prop where
  capacity_eq : s.ring.capacityFrames = capacityFrames
  channels_eq : s.ring.channels = channels
  steady : Steady s.ring
  keeps : s.ring.Keeps s.accepted s.acceptedFrames s.consumedFrames

variable {s t : Traced α} {capacityFrames channels : UInt32}

theorem Safe.consume (h : s.Safe capacityFrames channels) (ha : s.ring.Advanced next) :
    (s.consume next).Safe capacityFrames channels := by
  have hsteady := h.steady.advanced ha
  cases ha with
  | moved consumed fraction hle hfraction =>
    refine ⟨h.capacity_eq, h.channels_eq, hsteady, ?_⟩
    have horder : s.consumedFrames ≤ s.acceptedFrames := h.keeps.order
    have hlt : consumed < 2 ^ 32 := hle.trans_lt (s.ring.writeFrame - s.ring.readFrame).toNat_lt
    have hmoved : (s.ring.readFrame + UInt32.ofNat consumed - s.ring.readFrame).toNat = consumed := by
      rw [UInt32.add_comm, UInt32.add_sub_cancel, UInt32.toNat_ofNat']
      exact Nat.mod_eq_of_lt hlt
    rw [h.keeps.queued] at hle
    simp only [Traced.consume, hmoved]
    exact h.keeps.consume (by omega) fraction

theorem Safe.consume_same (h : s.Safe capacityFrames channels) :
    (s.consume s.ring).Safe capacityFrames channels := by
  have hsame : s.consume s.ring = s := by
    rw [Traced.consume, UInt32.sub_self]
    rfl
  rw [hsame]
  exact h

section Calls

variable [Zero α] [Add α] [Sub α] [Mul α] [RatCast α]

theorem Safe.call (h : s.Safe capacityFrames channels) {c : Call α} (hc : s.call c = some t) :
    t.Safe capacityFrames channels := by
  unfold Traced.call at hc
  rw [Option.ite_none_right_eq_some] at hc
  obtain ⟨⟨hfits, -⟩, hcall⟩ := hc
  have hmoved := call_advanced_or h.steady.fraction c
  cases c with
  | write interleaved frames =>
    cases hcall
    cases interleaved with
    | none => simpa [accept, Call.source, AudioOutputRing.write] using h
    | some source =>
      obtain ⟨hcapacity, hchannels⟩ := s.ring.write_shape source frames
      exact ⟨hcapacity.trans h.capacity_eq, hchannels.trans h.channels_eq,
        h.steady.write source frames, h.keeps.write hfits⟩
  | _ =>
    cases hcall
    rcases hmoved with hsame | hadvanced | ⟨source, frames, hwrite⟩
    · rw [hsame]
      exact h.consume_same
    · exact h.consume hadvanced
    · cases hwrite

theorem run_safe (h : construct capacityFrames channels = .ok ring)
    (hd : capacityFrames.toNat ∣ 2 ^ 32) {calls : List (Call α)}
    (hrun : Run call (start ring) calls s) : s.Safe capacityFrames channels := by
  obtain ⟨-, hcapacity, hchannels, -⟩ := construct_ok h
  apply hrun.invariant ⟨hcapacity, hchannels, construct_steady h, construct_keeps h hd⟩
  intro u c t hu hc
  exact hu.call hc

/-- In every state a ring gets into by writes, resampled reads and skips: the fraction and
the distance of the indices are in range, no phase leaves the range of the index, every
slot that a read touches has a frame that was accepted and is not consumed, the read
depends on no other slot, and a read that comes up short leaves the ring empty, as a skip
of all available frames does. -/
theorem resampling_keeps_to_queued_frames
    (h : construct capacityFrames channels = .ok ring) (hd : capacityFrames.toNat ∣ 2 ^ 32)
    {calls : List (Call α)} (hrun : Run call (start ring) calls s) :
    (0 ≤ s.ring.readFraction ∧ s.ring.readFraction < 1) ∧
    (s.ring.writeFrame - s.ring.readFrame).toNat ≤ capacityFrames.toNat ∧
    (∀ (n : ℕ) sourceStep, n ≤ 2 ^ 30 →
      s.ring.readFraction + n * usableStep sourceStep < 2 ^ 32) ∧
    (∀ frames sourceStep, ∀ slot ∈ s.ring.slotsRead frames sourceStep,
      ∃ n, s.consumedFrames ≤ n ∧ n < s.acceptedFrames ∧
        slot.toNat = n % capacityFrames.toNat ∧
        slice s.ring.samples (slot.toNat * channels.toNat) channels.toNat =
          slice s.accepted (n * channels.toNat) channels.toNat) ∧
    (∀ frames sourceStep samples, (∀ slot ∈ s.ring.slotsRead frames sourceStep,
        ∀ channel < channels.toNat,
          (s.ring.replace samples).sampleAt slot channel = s.ring.sampleAt slot channel) →
      (s.ring.replace samples).readResampled true frames sourceStep =
        ((s.ring.readResampled true frames sourceStep).1,
          (s.ring.readResampled true frames sourceStep).2.1,
          (s.ring.readResampled true frames sourceStep).2.2.replace samples)) ∧
    (∀ frames sourceStep, (s.ring.readResampled true frames sourceStep).1 ≠ frames →
      (s.ring.readResampled true frames sourceStep).2.2.readFrame =
        (s.ring.readResampled true frames sourceStep).2.2.writeFrame) ∧
    (s.ring.advanceResampled s.ring.availableFrames 1).readFrame =
      (s.ring.advanceResampled s.ring.availableFrames 1).writeFrame := by
  have hsafe := run_safe h hd hrun
  rw [← hsafe.capacity_eq, ← hsafe.channels_eq]
  refine ⟨hsafe.steady.fraction, hsafe.steady.queued_le, ?_, ?_, ?_, ?_, ?_⟩
  · intro n sourceStep hn
    exact hsafe.steady.phase_lt hn sourceStep
  · intro frames sourceStep slot hslot
    exact hsafe.keeps.slotsRead hslot
  · intro frames sourceStep samples hsame
    exact readResampled_replace hsame
  · intro frames sourceStep hshort
    rw [(s.ring.readResampled_advanced frames sourceStep).writeFrame]
    exact hsafe.steady.readResampled_short hshort
  · exact hsafe.steady.advanceResampled_all

end Calls

def fastCalls : List (Call ℚ) :=
  [.write (some [1, 2]) 2, .readResampled true 1 (3 / 2), .write (some [3]) 1]

theorem resampling_keeps_to_queued_frames_wrapped : ∃ ring : AudioOutputRing ℚ,
    construct 2 1 = .ok ring ∧ ∃ s, Run call (start ring) fastCalls s ∧
      (s.ring.readResampled true 3 (3 / 2)).1 ≠ 3 ∧
      (s.ring.readResampled true 3 (3 / 2)).2.2.readFrame =
        (s.ring.readResampled true 3 (3 / 2)).2.2.writeFrame := by
  refine ⟨_, rfl, ?_⟩
  have hany : (fastCalls.foldlM call (start ⟨2, 1, [0, 0], 0, 0, 0⟩)).any
      (fun s ↦ (s.ring.readResampled true 3 (3 / 2)).1 ≠ 3) = true := by decide +kernel
  obtain ⟨s, hfold, hshort⟩ := (Option.any_eq_true _ _).mp hany
  have hrun := Run.of_foldlM hfold
  have hsafe := resampling_keeps_to_queued_frames (show construct 2 1 = .ok _ from rfl) (by decide)
    hrun
  exact ⟨s, hrun, of_decide_eq_true hshort, hsafe.2.2.2.2.2.1 3 (3 / 2) (of_decide_eq_true hshort)⟩

end Traced

end NumarkNS6.AudioOut.AudioOutputRing
