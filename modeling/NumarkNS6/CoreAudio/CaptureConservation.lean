import NumarkNS6.CoreAudio.AudioInputEngine

namespace NumarkNS6.CoreAudio

open AudioIn AudioOut Foundation.CircularStore Foundation.Runs

namespace AudioInputEngine

def Malformed (e : AudioInputEngine) (block : List UInt8) : Prop :=
  block.length = 0 ∨ block.length % 64 ≠ 0 ∨ e.maxTransferFrames.toNat < block.length / 64

instance (e : AudioInputEngine) (block : List UInt8) : Decidable (e.Malformed block) :=
  inferInstanceAs (Decidable (_ ∨ _ ∨ _))

variable {e : AudioInputEngine} {block : List UInt8}

theorem publishUSBBlock_malformed (h : e.Malformed block) :
    e.publishUSBBlock (some block) = (0, { e with malformedBlocks := e.malformedBlocks + 1 }) := by
  simp only [publishUSBBlock, AudioInputDecoder.decode_rejects h, if_true]

theorem decode_wellFormed (h : ¬ e.Malformed block) :
    AudioInputDecoder.decode (some block) true e.maxTransferFrames.toNat =
      (block.length / 64, (List.range (block.length / 64)).flatMap (AudioInputDecoder.frame block)) := by
  rw [Malformed] at h
  exact AudioInputDecoder.decode_eq (by omega) (by omega) (by omega)

theorem inspect_rest (e : AudioInputEngine) (block : List UInt8) (decoded : List ℚ) (frames : ℕ) :
    (e.inspect block decoded frames).ring = e.ring ∧
    (e.inspect block decoded frames).maxTransferFrames = e.maxTransferFrames ∧
    (e.inspect block decoded frames).targetFrames = e.targetFrames ∧
    (e.inspect block decoded frames).primed = e.primed ∧
    (e.inspect block decoded frames).droppedCaptureFrames = e.droppedCaptureFrames ∧
    (e.inspect block decoded frames).starvationFrames = e.starvationFrames ∧
    (e.inspect block decoded frames).malformedBlocks = e.malformedBlocks := by
  rw [inspect]
  dsimp only
  split_ifs <;> exact ⟨rfl, rfl, rfl, rfl, rfl, rfl, rfl⟩

def blockFrames (block : List UInt8) : List ℚ :=
  (List.range (block.length / 64)).flatMap (AudioInputDecoder.frame block)

theorem blockFrames_length (block : List UInt8) :
    (blockFrames block).length = 2 * (block.length / 64) :=
  Foundation.BitLanes.length_flatMap_range (AudioInputDecoder.frame_length block) _

theorem toNat_frameCount (h : ¬ e.Malformed block) :
    (UInt32.ofNat (block.length / 64)).toNat = block.length / 64 := by
  have hlt := e.maxTransferFrames.toNat_lt
  rw [Malformed] at h
  exact UInt32.toNat_ofNat_of_lt' (show block.length / 64 < 2 ^ 32 by omega)

theorem publishUSBBlock_wellFormed (h : ¬ e.Malformed block) :
    let w := e.ring.write (some (blockFrames block)) (UInt32.ofNat (block.length / 64))
    let p := e.publishUSBBlock (some block)
    p.1 = w.1 ∧ p.2.ring = w.2 ∧ p.2.maxTransferFrames = e.maxTransferFrames ∧
      p.2.targetFrames = e.targetFrames ∧ p.2.primed = e.primed ∧
      p.2.droppedCaptureFrames = e.droppedCaptureFrames +
        (UInt32.ofNat (block.length / 64) - w.1).toUInt64 ∧
      p.2.starvationFrames = e.starvationFrames := by
  have hdecode := decode_wellFormed h
  rw [Malformed] at h
  have hpos : block.length / 64 ≠ 0 := by omega
  obtain ⟨hring, hmax, htarget, hprimed, hdropped, hstarved, -⟩ :=
    e.inspect_rest block (blockFrames block) (block.length / 64)
  simp only [publishUSBBlock, hdecode, if_neg hpos, Option.getD_some]
  rw [← blockFrames, hring]
  exact ⟨rfl, rfl, hmax, htarget, hprimed, by rw [hdropped], hstarved⟩

def Gated (e : AudioInputEngine) : Prop :=
  e.targetFrames ≠ 0 ∧ e.primed = false ∧ e.ring.availableFrames < e.targetFrames

theorem readInput_gated {frames : UInt32} (h₀ : frames ≠ 0) (h : e.Gated) :
    e.readInput true frames = (0, silence frames, e) := by
  rw [readInput, if_neg (by simpa using h₀)]
  exact if_pos h

theorem readInput_open {frames : UInt32} (h₀ : frames ≠ 0) (h : ¬ e.Gated) :
    e.readInput true frames = ((e.drawn frames).1,
      (e.drawn frames).2.1 ++ silence (frames - (e.drawn frames).1), { e with
        ring := (e.drawn frames).2.2
        primed := if e.targetFrames ≠ 0 then true else e.primed
        starvationFrames := e.starvationFrames + (frames - (e.drawn frames).1).toUInt64 }) := by
  rw [readInput, if_neg (by simpa using h₀)]
  exact if_neg h

theorem drawn_shape {accepted : List ℚ} {W R : ℕ} (h : e.ring.Keeps accepted W R)
    (hchannels : e.ring.channels = 2) {frames : UInt32} (h₀ : frames ≠ 0) :
    (e.drawn frames).1 ≤ frames ∧ (e.drawn frames).2.1.length = (e.drawn frames).1.toNat * 2 ∧
      (e.drawn frames).2.2.channels = 2 := by
  have htwo : e.ring.channels.toNat = 2 := by rw [hchannels]; rfl
  rw [drawn]
  split_ifs
  · refine ⟨?_, ?_, ?_⟩
    · rw [UInt32.le_iff_toNat_le, AudioOutputRing.read_count _ h₀]
      exact Nat.min_le_left _ _
    · have hle := (h.read_keeps h₀).1
      have hlength : accepted.length = W * e.ring.channels.toNat := h.accepted_length
      rw [h.read h₀, htwo, slice, List.length_take, List.length_drop, hlength, htwo]
      omega
    · rw [AudioOutputRing.read_fields _ h₀]
      exact hchannels
  · obtain ⟨hle, hlength, hsame⟩ := e.ring.readResampled_shape frames
      (e.sourceStep e.ring.availableFrames)
    exact ⟨hle, by rw [hlength, htwo], by rw [hsame, hchannels]⟩

end AudioInputEngine

/-- An engine with what has gone through it since it was made. `begun` says whether
reading has begun: from the start where there is no target, else from the first read
that finds the target queued. `requested` counts from then on. -/
structure Capture where
  engine : AudioInputEngine
  begun : Bool
  published : ℕ
  accepted : ℕ
  requested : ℕ
  returned : ℕ
  decoded : List ℚ
  captured : List ℚ

namespace Capture

inductive Call
  | publishUSBBlock (block : List UInt8)
  | readInput (frames : UInt32)

def start (capacityFrames : UInt32) (engine : AudioInputEngine) : Capture :=
  ⟨engine, decide (capacityFrames < 4096), 0, 0, 0, 0, [], []⟩

def call (s : Capture) : Call → Option Capture
  | .publishUSBBlock block =>
    let p := s.engine.publishUSBBlock (some block)
    let decoded := AudioInputDecoder.decode (some block) true s.engine.maxTransferFrames.toNat
    some { s with
      engine := p.2
      published := s.published + if s.engine.Malformed block then 0 else block.length / 64
      accepted := s.accepted + p.1.toNat
      decoded := s.decoded ++ decoded.2.take (p.1.toNat * 2) }
  | .readInput frames =>
    if frames = 0 then none
    else
      let r := s.engine.readInput true frames
      let begun := s.begun || decide (2048 ≤ s.engine.ring.availableFrames)
      some { s with
        engine := r.2.2
        begun := begun
        requested := s.requested + if begun then frames.toNat else 0
        returned := s.returned + r.1.toNat
        captured := s.captured ++ r.2.1.take (r.1.toNat * 2) }

/-- What holds between calls. The ring keeps the accepted frames from `R` on, both
counters are the differences they stand for, and without a target the frames up to
`R` are those returned. -/
structure Inv (capacityFrames maxTransferFrames : UInt32) (s : Capture) (R : ℕ) : Prop where
  target : s.engine.targetFrames = if capacityFrames ≥ 4096 then 2048 else 0
  transfer : s.engine.maxTransferFrames = maxTransferFrames
  channels : s.engine.ring.channels = 2
  keeps : s.engine.ring.Keeps s.decoded s.accepted R
  steady : AudioOutputRing.Steady s.engine.ring
  begun : s.begun = (decide (capacityFrames < 4096) || s.engine.primed)
  accepted_le : s.accepted ≤ s.published
  dropped : s.engine.droppedCaptureFrames = UInt64.ofNat (s.published - s.accepted)
  returned_le : s.returned ≤ s.requested
  starved : s.engine.starvationFrames = UInt64.ofNat (s.requested - s.returned)
  plain : capacityFrames < 4096 → s.returned = R ∧ s.captured = s.decoded.take (R * 2)

variable {capacityFrames maxTransferFrames : UInt32} {s : Capture} {R : ℕ}

theorem counter_add {counter : UInt64} {a b : ℕ} (hab : b ≤ a) (h : counter = UInt64.ofNat (a - b))
    {n m : UInt32} (hmn : m ≤ n) :
    b + m.toNat ≤ a + n.toNat ∧
      counter + (n - m).toUInt64 = UInt64.ofNat (a + n.toNat - (b + m.toNat)) := by
  rw [UInt32.le_iff_toNat_le] at hmn
  have hsub : (n - m).toNat = n.toNat - m.toNat :=
    UInt32.toNat_sub_of_le n m (UInt32.le_iff_toNat_le.mpr hmn)
  refine ⟨by omega, ?_⟩
  have hword : (n - m).toUInt64 = UInt64.ofNat (n.toNat - m.toNat) := by
    rw [← hsub]
    exact UInt64.toNat.inj (by simp)
  rw [h, hword, ← UInt64.ofNat_add]
  congr 1
  omega

theorem Inv.publish_malformed (h : Inv capacityFrames maxTransferFrames s R) {block : List UInt8}
    (hmalformed : s.engine.Malformed block) {t : Capture}
    (ht : s.call (.publishUSBBlock block) = some t) : Inv capacityFrames maxTransferFrames t R := by
  simp only [call, AudioInputEngine.publishUSBBlock_malformed hmalformed, if_pos hmalformed,
    UInt32.toNat_zero, Nat.zero_mul, List.take_zero, List.append_nil, Nat.add_zero,
    Option.some.injEq] at ht
  subst ht
  exact { h with }

theorem Inv.decoded_length (h : Inv capacityFrames maxTransferFrames s R) :
    s.decoded.length = s.accepted * 2 ∧ R ≤ s.accepted := by
  have hlength : s.decoded.length = s.accepted * s.engine.ring.channels.toNat :=
    h.keeps.accepted_length
  rw [h.channels] at hlength
  exact ⟨hlength, h.keeps.order⟩

theorem Inv.publish (h : Inv capacityFrames maxTransferFrames s R) {block : List UInt8}
    (hwell : ¬ s.engine.Malformed block) {t : Capture}
    (ht : s.call (.publishUSBBlock block) = some t) : Inv capacityFrames maxTransferFrames t R := by
  obtain ⟨hcount, hring, hmax, htarget, hprimed, hdropped, hstarved⟩ :=
    AudioInputEngine.publishUSBBlock_wellFormed hwell
  obtain ⟨hdecoded, horder⟩ := h.decoded_length
  simp only [call, if_neg hwell, AudioInputEngine.decode_wellFormed hwell, Option.some.injEq] at ht
  rw [← AudioInputEngine.blockFrames] at ht
  have hn := AudioInputEngine.toNat_frameCount hwell
  have hsource : (AudioInputEngine.blockFrames block).length =
      (UInt32.ofNat (block.length / 64)).toNat * s.engine.ring.channels.toNat := by
    rw [hn, h.channels, Nat.mul_comm]
    exact AudioInputEngine.blockFrames_length block
  have hkeeps := h.keeps.write hsource
  obtain ⟨hle, hchannels, -⟩ :=
    h.keeps.write_count_le (AudioInputEngine.blockFrames block) (UInt32.ofNat (block.length / 64))
  have hsteady := h.steady.write (AudioInputEngine.blockFrames block)
    (UInt32.ofNat (block.length / 64))
  generalize s.engine.ring.write _ _ = w at hcount hring hdropped hkeeps hle hchannels hsteady
  obtain ⟨hge, hcounter⟩ := counter_add h.accepted_le h.dropped (UInt32.le_iff_toNat_le.mpr hle)
  rw [hn] at hge hcounter
  rw [hcount] at ht
  subst ht
  exact {
    target := htarget.trans h.target
    transfer := hmax.trans h.transfer
    channels := by rw [hring, hchannels, h.channels]
    keeps := by
      rw [h.channels] at hkeeps
      rw [hring]
      exact hkeeps
    steady := by rwa [hring]
    begun := by rw [hprimed]; exact h.begun
    accepted_le := hge
    dropped := by rw [hdropped]; exact hcounter
    returned_le := h.returned_le
    starved := hstarved.trans h.starved
    plain := fun hplain ↦ by
      obtain ⟨hreturned, hcaptured⟩ := h.plain hplain
      refine ⟨hreturned, hcaptured.trans (List.take_append_of_le_length ?_).symm⟩
      omega }

/-- Reads are held back exactly until reading begins. -/
theorem Inv.gated_iff (h : Inv capacityFrames maxTransferFrames s R) :
    s.engine.Gated ↔ (s.begun || decide (2048 ≤ s.engine.ring.availableFrames)) = false := by
  rw [AudioInputEngine.Gated, h.target, h.begun, Bool.or_eq_false_iff, Bool.or_eq_false_iff,
    decide_eq_false_iff_not, decide_eq_false_iff_not, UInt32.not_lt, UInt32.not_le]
  by_cases hcap : capacityFrames ≥ 4096
  · simp [hcap]
  · simp [hcap]

theorem Inv.read_gated (h : Inv capacityFrames maxTransferFrames s R) {frames : UInt32}
    (h₀ : frames ≠ 0) (hgated : s.engine.Gated) {t : Capture}
    (ht : s.call (.readInput frames) = some t) : t = s := by
  have hclosed := h.gated_iff.mp hgated
  simp only [call, if_neg h₀, AudioInputEngine.readInput_gated h₀ hgated, hclosed, UInt32.toNat_zero,
    Nat.zero_mul, List.take_zero, List.append_nil, Nat.add_zero, Bool.false_eq_true, if_false,
    Option.some.injEq] at ht
  rw [← (Bool.or_eq_false_iff.mp hclosed).1] at ht
  exact ht.symm

theorem Inv.target_eq_zero_iff (h : Inv capacityFrames maxTransferFrames s R) :
    s.engine.targetFrames = 0 ↔ capacityFrames < 4096 := by
  rw [h.target, ← UInt32.not_le]
  by_cases hcap : capacityFrames ≥ 4096
  · simp [hcap]
  · simp [hcap]

/-- What is drawn leaves the ring with a later part of the accepted frames; without a
target it is the part in between. -/
theorem Inv.drawn (h : Inv capacityFrames maxTransferFrames s R) {frames : UInt32}
    (h₀ : frames ≠ 0) : ∃ R', (s.engine.drawn frames).2.2.Keeps s.decoded s.accepted R' ∧
      (capacityFrames < 4096 → R' = R + (s.engine.drawn frames).1.toNat ∧
        (s.engine.drawn frames).2.1 =
          slice s.decoded (R * 2) ((s.engine.drawn frames).1.toNat * 2)) := by
  rw [AudioInputEngine.drawn]
  split_ifs with htarget
  · refine ⟨_, (h.keeps.read_keeps h₀).2, fun _ ↦ ⟨rfl, ?_⟩⟩
    have hread := h.keeps.read h₀
    rwa [h.channels] at hread
  · obtain ⟨R', hkeeps⟩ := h.keeps.advanced (s.engine.ring.readResampled_advanced frames
      (s.engine.sourceStep s.engine.ring.availableFrames))
    exact ⟨R', hkeeps, fun hplain ↦ absurd (h.target_eq_zero_iff.mpr hplain) htarget⟩

theorem Inv.drawn_steady (h : Inv capacityFrames maxTransferFrames s R) (frames : UInt32) :
    AudioOutputRing.Steady (s.engine.drawn frames).2.2 := by
  rw [AudioInputEngine.drawn]
  split_ifs
  · exact h.steady.call (.read true frames)
  · exact h.steady.advanced (s.engine.ring.readResampled_advanced frames _)

theorem Inv.read_open (h : Inv capacityFrames maxTransferFrames s R) {frames : UInt32}
    (h₀ : frames ≠ 0) (hopen : ¬ s.engine.Gated) {t : Capture}
    (ht : s.call (.readInput frames) = some t) : ∃ R', Inv capacityFrames maxTransferFrames t R' := by
  obtain ⟨hle, hlength, hchannels⟩ := AudioInputEngine.drawn_shape h.keeps h.channels h₀
  obtain ⟨R', hkeeps, hplain⟩ := h.drawn h₀
  have hsteady := h.drawn_steady frames
  have hbegun := Bool.eq_true_of_not_eq_false (mt h.gated_iff.mpr hopen)
  obtain ⟨hge, hcounter⟩ := counter_add h.returned_le h.starved hle
  simp only [call, if_neg h₀, AudioInputEngine.readInput_open h₀ hopen, hbegun, if_true,
    Option.some.injEq] at ht
  rw [List.take_left' hlength] at ht
  subst ht
  refine ⟨R', ?_⟩
  exact {
    target := h.target
    transfer := h.transfer
    channels := hchannels
    keeps := hkeeps
    steady := hsteady
    begun := by
      dsimp only
      by_cases hzero : s.engine.targetFrames = 0
      · rw [decide_eq_true (h.target_eq_zero_iff.mp hzero), Bool.true_or]
      · rw [if_pos hzero, Bool.or_true]
    accepted_le := h.accepted_le
    dropped := h.dropped
    returned_le := hge
    starved := hcounter
    plain := fun hcap ↦ by
      obtain ⟨hreturned, hcaptured⟩ := h.plain hcap
      obtain ⟨rfl, hslice⟩ := hplain hcap
      dsimp only
      rw [hreturned, hcaptured, hslice, slice, Nat.add_mul, List.take_add]
      exact ⟨rfl, rfl⟩ }

theorem Inv.call (h : ∃ R, Inv capacityFrames maxTransferFrames s R) {c : Call} {t : Capture}
    (ht : s.call c = some t) : ∃ R, Inv capacityFrames maxTransferFrames t R := by
  obtain ⟨R, h⟩ := h
  cases c with
  | publishUSBBlock block =>
    by_cases hmalformed : s.engine.Malformed block
    · exact ⟨R, h.publish_malformed hmalformed ht⟩
    · exact ⟨R, h.publish hmalformed ht⟩
  | readInput frames =>
    have h₀ : frames ≠ 0 := by
      rintro rfl
      exact absurd ht (by simp [Capture.call])
    by_cases hgated : s.engine.Gated
    · exact ⟨R, h.read_gated h₀ hgated ht ▸ h⟩
    · exact h.read_open h₀ hgated ht

theorem construct_inv {k : ℕ} (hcap : capacityFrames.toNat = 2 ^ k) (hlt : capacityFrames.toNat < 2 ^ 31)
    (hmax : maxTransferFrames ≠ 0) : ∃ engine,
      AudioInputEngine.construct capacityFrames maxTransferFrames = .ok engine ∧
      Inv capacityFrames maxTransferFrames (start capacityFrames engine) 0 := by
  have hpos : capacityFrames ≠ 0 := by
    rintro rfl
    exact absurd hcap (Nat.two_pow_pos k).ne
  have hdivides : capacityFrames.toNat ∣ 2 ^ 32 := by
    rw [hcap] at hlt ⊢
    exact Nat.pow_dvd_pow 2 ((Nat.pow_lt_pow_iff_right one_lt_two).mp hlt |>.le.trans (by omega))
  obtain ⟨ring, hring⟩ := @AudioOutputRing.exists_construct ℚ _ capacityFrames
    (UInt32.ofNat AudioInputDecoder.channelCount) hpos hlt (by decide)
  obtain ⟨-, -, hchannels, -⟩ := AudioOutputRing.construct_ok hring
  refine ⟨_, by rw [AudioInputEngine.construct, hring]; exact if_neg hmax, ?_⟩
  exact {
    target := rfl
    transfer := rfl
    channels := hchannels
    keeps := AudioOutputRing.construct_keeps hring hdivides
    steady := AudioOutputRing.construct_steady hring
    begun := (Bool.or_false _).symm
    accepted_le := le_rfl
    dropped := rfl
    returned_le := le_rfl
    starved := rfl
    plain := fun _ ↦ ⟨rfl, rfl⟩ }

theorem Inv.filled (h : Inv capacityFrames maxTransferFrames s R) {frames : UInt32} (h₀ : frames ≠ 0) :
    (s.engine.readInput true frames).1 ≤ frames ∧
    (s.engine.readInput true frames).2.1.length = frames.toNat * 2 ∧
    (s.engine.readInput true frames).2.1.drop ((s.engine.readInput true frames).1.toNat * 2) =
      AudioInputEngine.silence (frames - (s.engine.readInput true frames).1) := by
  by_cases hgated : s.engine.Gated
  · rw [AudioInputEngine.readInput_gated h₀ hgated]
    refine ⟨UInt32.zero_le, List.length_replicate, ?_⟩
    simp
  · obtain ⟨hle, hlength, -⟩ := AudioInputEngine.drawn_shape h.keeps h.channels h₀
    have hsub := UInt32.toNat_sub_of_le _ _ hle
    rw [UInt32.le_iff_toNat_le] at hle
    rw [AudioInputEngine.readInput_open h₀ hgated]
    refine ⟨UInt32.le_iff_toNat_le.mpr hle, ?_, List.drop_left' hlength⟩
    rw [List.length_append, hlength, AudioInputEngine.silence, List.length_replicate, hsub,
      AudioInputDecoder.channelCount]
    omega

/-- Every frame of a run of captured blocks and reads is accounted for. -/
theorem capture_conserved {k : ℕ} (hcap : capacityFrames.toNat = 2 ^ k)
    (hlt : capacityFrames.toNat < 2 ^ 31) (hmax : maxTransferFrames ≠ 0) : ∃ engine,
    AudioInputEngine.construct capacityFrames maxTransferFrames = .ok engine ∧
    ∀ calls s, Run call (start capacityFrames engine) calls s →
      (∀ block : List UInt8, block.length = 0 ∨ block.length % 64 ≠ 0 ∨
          maxTransferFrames.toNat < block.length / 64 →
        s.engine.publishUSBBlock (some block) =
          (0, { s.engine with malformedBlocks := s.engine.malformedBlocks + 1 })) ∧
      (s.accepted ≤ s.published ∧
        s.engine.droppedCaptureFrames = UInt64.ofNat (s.published - s.accepted)) ∧
      (∀ frames ≠ 0, (s.engine.readInput true frames).1 ≤ frames ∧
        (s.engine.readInput true frames).2.1.length = frames.toNat * 2 ∧
        (s.engine.readInput true frames).2.1.drop ((s.engine.readInput true frames).1.toNat * 2) =
          AudioInputEngine.silence (frames - (s.engine.readInput true frames).1)) ∧
      (s.returned ≤ s.requested ∧
        s.engine.starvationFrames = UInt64.ofNat (s.requested - s.returned)) ∧
      (capacityFrames < 4096 →
        s.returned ≤ s.accepted ∧ s.captured = s.decoded.take (s.returned * 2)) ∧
      (4096 ≤ capacityFrames → ∀ frames ≠ 0,
        (s.begun = false → s.engine.ring.availableFrames < 2048 →
          s.engine.readInput true frames = (0, AudioInputEngine.silence frames, s.engine)) ∧
        (s.begun = true ∨ 2048 ≤ s.engine.ring.availableFrames →
          let r := s.engine.ring.readResampled true frames
            (s.engine.sourceStep s.engine.ring.availableFrames)
          s.engine.readInput true frames = (r.1, r.2.1 ++ AudioInputEngine.silence (frames - r.1),
            { s.engine with
              ring := r.2.2
              primed := true
              starvationFrames := s.engine.starvationFrames + (frames - r.1).toUInt64 }))) := by
  obtain ⟨engine, hengine, hstart⟩ := construct_inv hcap hlt hmax
  refine ⟨engine, hengine, fun calls s hrun ↦ ?_⟩
  obtain ⟨R, h⟩ := hrun.invariant (I := fun s ↦ ∃ R, Inv capacityFrames maxTransferFrames s R)
    ⟨0, hstart⟩ fun _ _ _ hs hc ↦ Inv.call hs hc
  refine ⟨fun block hblock ↦ ?_, ⟨h.accepted_le, h.dropped⟩, fun frames h₀ ↦ h.filled h₀,
    ⟨h.returned_le, h.starved⟩, fun hplain ↦ ?_,
    fun hlarge frames h₀ ↦ ⟨fun hbegun hqueued ↦ ?_, fun hopen ↦ ?_⟩⟩
  · rw [← h.transfer] at hblock
    exact AudioInputEngine.publishUSBBlock_malformed hblock
  · obtain ⟨hreturned, hcaptured⟩ := h.plain hplain
    rw [hreturned]
    exact ⟨h.decoded_length.2, hcaptured⟩
  · refine AudioInputEngine.readInput_gated h₀ (h.gated_iff.mpr ?_)
    rw [hbegun, Bool.false_or, decide_eq_false_iff_not, UInt32.not_le]
    exact hqueued
  · have hgate : ¬ s.engine.Gated := by
      rw [h.gated_iff, Bool.not_eq_false, Bool.or_eq_true, decide_eq_true_eq]
      exact hopen
    have htarget : s.engine.targetFrames ≠ 0 := fun hzero ↦
      absurd (h.target_eq_zero_iff.mp hzero) (UInt32.not_lt.mpr hlarge)
    rw [AudioInputEngine.readInput_open h₀ hgate, AudioInputEngine.drawn, if_neg htarget,
      if_pos htarget]

def oneFrame : List Call := [.publishUSBBlock (List.replicate 64 1), .readInput 2]

theorem capture_conserved_one_frame : ∃ engine, AudioInputEngine.construct 4 4 = .ok engine ∧
    ∃ s, Run call (start 4 engine) oneFrame s ∧ s.accepted = 1 ∧ s.returned = 1 ∧ s.requested = 2 ∧
      s.captured = s.decoded.take (s.returned * 2) ∧
      s.engine.starvationFrames = UInt64.ofNat (s.requested - s.returned) := by
  obtain ⟨engine, hengine, hruns⟩ := capture_conserved (show (4 : UInt32).toNat = 2 ^ 2 from rfl)
    (by decide) (show (4 : UInt32) ≠ 0 by decide)
  refine ⟨engine, hengine, ?_⟩
  have hfresh : AudioInputEngine.construct 4 4 =
      .ok (AudioInputEngine.fresh ⟨4, 2, List.replicate 8 0, 0, 0, 0⟩ 4 0) := rfl
  cases Except.ok.inj (hfresh.symm.trans hengine)
  have hany : (oneFrame.foldlM call (start 4 (AudioInputEngine.fresh
      ⟨4, 2, List.replicate 8 0, 0, 0, 0⟩ 4 0))).any
      (fun s ↦ s.accepted = 1 ∧ s.returned = 1 ∧ s.requested = 2) = true := by decide +kernel
  obtain ⟨s, hfold, hs⟩ := (Option.any_eq_true _ _).mp hany
  obtain ⟨haccepted, hreturned, hrequested⟩ := of_decide_eq_true hs
  have hrun := Run.of_foldlM hfold
  obtain ⟨-, -, -, hstarved, hplain, -⟩ := hruns _ _ hrun
  exact ⟨s, hrun, haccepted, hreturned, hrequested, (hplain (by decide)).2, hstarved.2⟩

end Capture

end NumarkNS6.CoreAudio
