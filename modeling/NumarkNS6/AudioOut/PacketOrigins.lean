import NumarkNS6.AudioOut.Resampler
import NumarkNS6.AudioOut.RingCalls

namespace NumarkNS6.AudioOut

open Foundation.CircularStore
open RingInterleaving (Stored slotOf slotOf_holds)

/-- Where a resampled frame comes from: two frames the ring has accepted, by their
number, and the weight of the second. -/
structure Origin where
  first : ℕ
  second : ℕ
  fraction : ℚ

variable {α : Type}

section Arithmetic

variable [Zero α] [Add α] [Sub α] [Mul α] [RatCast α]

def Origin.frame (accepted : List α) (channels : ℕ) (o : Origin) : List α :=
  (List.range channels).map fun channel ↦
    let first := accepted.getD (o.first * channels + channel) 0
    let second := accepted.getD (o.second * channels + channel) 0
    first + (o.fraction : α) * (second - first)

theorem Origin.frame_append {accepted : List α} {channels : ℕ} {o : Origin}
    (h₁ : o.first < accepted.length / channels) (h₂ : o.second < accepted.length / channels)
    (more : List α) : o.frame (accepted ++ more) channels = o.frame accepted channels := by
  have hlt {n channel : ℕ} (hn : n < accepted.length / channels) (hc : channel < channels) :
      n * channels + channel < accepted.length := by
    have hmul := Nat.mul_le_of_le_div channels (n + 1) _ hn
    rw [Nat.add_one_mul] at hmul
    omega
  refine List.map_congr_left fun channel hmem ↦ ?_
  have hc := List.mem_range.mp hmem
  simp only [List.getD_eq_getElem?_getD, List.getElem?_append_left (hlt h₁ hc),
    List.getElem?_append_left (hlt h₂ hc)]

end Arithmetic

namespace AudioOutputRing

def resampleOrigins (available : UInt32) (sourceStep : ℚ) (base : ℕ) : ℕ → ℚ → List Origin
  | 0, _ => []
  | remaining + 1, phase =>
    if truncate phase ≥ available then []
    else
      let firstOffset := truncate phase
      let fraction := phase - firstOffset.toNat
      let secondOffset := firstOffset + if fraction > 0 ∧ firstOffset + 1 < available then 1 else 0
      ⟨base + firstOffset.toNat, base + secondOffset.toNat, fraction⟩ ::
        resampleOrigins available sourceStep base remaining (phase + sourceStep)

def origins (ring : AudioOutputRing α) (frames : UInt32) (sourceStep : ℚ) (base : ℕ) : List Origin :=
  resampleOrigins (min (ring.writeFrame - ring.readFrame) ring.capacityFrames)
    (usableStep sourceStep) base frames.toNat ring.readFraction

/-- Between whole calls the ring has the frames numbered from `consumed` up to
`acceptedFrames` of those it has accepted. -/
def Keeps (ring : AudioOutputRing α) (accepted : List α) (acceptedFrames consumed : ℕ) : Prop :=
  Stored (RingCalls.between ⟨ring, accepted, accepted.take (consumed * ring.channels.toNat)⟩
    acceptedFrames consumed)

variable {ring : AudioOutputRing α} {accepted : List α} {W R : ℕ}

theorem Keeps.queued (h : ring.Keeps accepted W R) : ring.queued = W - R := by
  have hw : ring.writeFrame = UInt32.ofNat W := h.writeIndex
  have hr : ring.readFrame = UInt32.ofNat R := h.readIndex
  have hroom : W ≤ R + ring.capacityFrames.toNat := h.room
  have hcap := h.shape.capacity_le
  rw [AudioOutputRing.queued, hw, hr]
  exact toNat_distance h.order (by simp only [RingCalls.between] at hcap; omega)

theorem Keeps.queued_le (h : ring.Keeps accepted W R) : ring.queued ≤ ring.capacityFrames.toNat := by
  have hroom : W ≤ R + ring.capacityFrames.toNat := h.room
  rw [h.queued]
  omega

theorem getElem?_slice {xs : List α} {p n i : ℕ} (hi : i < n) :
    (slice xs p n)[i]? = xs[p + i]? := by
  rw [slice, List.getElem?_take_of_lt hi, List.getElem?_drop]

theorem Keeps.sampleAt [Zero α] (h : ring.Keeps accepted W R) {offset : UInt32}
    (ho : R + offset.toNat < W) {channel : ℕ} (hc : channel < ring.channels.toNat) :
    ring.sampleAt ((ring.readFrame + offset) % ring.capacityFrames) channel =
      accepted.getD ((R + offset.toNat) * ring.channels.toNat + channel) 0 := by
  have hslice := slotOf_holds h (Nat.le_add_right R offset.toNat) ho
  have hread : ring.readFrame + offset = UInt32.ofNat (R + offset.toNat) := by
    have hr : ring.readFrame = UInt32.ofNat R := h.readIndex
    rw [hr, ofNat_add_word]
  have hcell := congrArg (·[channel]?) hslice
  simp only [RingCalls.between, slotOf] at hcell
  rw [getElem?_slice hc, getElem?_slice hc] at hcell
  rw [AudioOutputRing.sampleAt, hread, List.getD_eq_getElem?_getD, List.getD_eq_getElem?_getD, hcell]

theorem offsets_lt {available firstOffset : UInt32} (hfirst : ¬ firstOffset ≥ available)
    (fraction : ℚ) : firstOffset.toNat < available.toNat ∧
      (firstOffset + if fraction > 0 ∧ firstOffset + 1 < available then 1 else 0).toNat <
        available.toNat := by
  rw [ge_iff_le, UInt32.not_le, UInt32.lt_iff_toNat_lt] at hfirst
  refine ⟨hfirst, ?_⟩
  split_ifs with h
  · exact UInt32.lt_iff_toNat_lt.mp h.2
  · rwa [UInt32.add_zero]

section Arithmetic

variable [Zero α] [Add α] [Sub α] [Mul α] [RatCast α]

theorem Keeps.resampledFrame (h : ring.Keeps accepted W R) {available : UInt32}
    (ha : R + available.toNat ≤ W) {phase : ℚ} (hphase : ¬ truncate phase ≥ available) :
    ring.resampledFrame ring.readFrame available phase =
      Origin.frame accepted ring.channels.toNat
        ⟨R + (truncate phase).toNat,
          R + (truncate phase + if phase - (truncate phase).toNat > 0 ∧ truncate phase + 1 < available
            then 1 else 0).toNat,
          phase - (truncate phase).toNat⟩ := by
  obtain ⟨hfirst, hsecond⟩ := offsets_lt hphase (phase - (truncate phase).toNat)
  simp only [AudioOutputRing.resampledFrame, Origin.frame]
  refine List.map_congr_left fun channel hmem ↦ ?_
  have hc := List.mem_range.mp hmem
  rw [h.sampleAt (by omega) hc, h.sampleAt (by omega) hc]

theorem Keeps.resampleLoop (h : ring.Keeps accepted W R) {available : UInt32}
    (ha : R + available.toNat ≤ W) (sourceStep : ℚ) (n : ℕ) (r : Resampled α) :
    (ring.resampleLoop ring.readFrame available sourceStep n r).interleaved =
      r.interleaved ++ (resampleOrigins available sourceStep R n r.phase).flatMap
        (Origin.frame accepted ring.channels.toNat) := by
  induction n generalizing r with
  | zero => exact (List.append_nil _).symm
  | succ n ih =>
    rw [AudioOutputRing.resampleLoop, resampleOrigins]
    split_ifs with hphase
    · exact (List.append_nil _).symm
    · rw [ih, h.resampledFrame ha hphase, List.flatMap_cons, List.append_assoc]

theorem resampleOrigins_range (available : UInt32) (sourceStep : ℚ) (base n : ℕ) (phase : ℚ) :
    ∀ o ∈ resampleOrigins available sourceStep base n phase,
      (base ≤ o.first ∧ o.first < base + available.toNat) ∧
        base ≤ o.second ∧ o.second < base + available.toNat := by
  induction n generalizing phase with
  | zero => exact nofun
  | succ n ih =>
    rw [resampleOrigins]
    split_ifs with hphase
    · exact nofun
    · obtain ⟨hfirst, hsecond⟩ := offsets_lt hphase (phase - (truncate phase).toNat)
      refine List.forall_mem_cons.mpr ⟨⟨⟨?_, ?_⟩, ?_, ?_⟩, ih _⟩
      · exact Nat.le_add_right _ _
      · exact Nat.add_lt_add_left hfirst _
      · exact Nat.le_add_right _ _
      · exact Nat.add_lt_add_left hsecond _

/-- What a resampled read delivers is made of queued frames only. -/
theorem Keeps.readResampled (h : ring.Keeps accepted W R) (frames : UInt32) (sourceStep : ℚ) :
    (ring.readResampled true frames sourceStep).2.1 = (ring.origins frames sourceStep R).flatMap
        (Origin.frame accepted ring.channels.toNat) ∧
      ∀ o ∈ ring.origins frames sourceStep R,
        (R ≤ o.first ∧ o.first < W) ∧ R ≤ o.second ∧ o.second < W := by
  have havail : R + (min (ring.writeFrame - ring.readFrame) ring.capacityFrames).toNat = W := by
    have horder : R ≤ W := h.order
    have hqueued := h.queued
    have htoNat : (min (ring.writeFrame - ring.readFrame) ring.capacityFrames).toNat = ring.queued :=
      availableFrames_toNat h.queued_le
    omega
  constructor
  · simp only [AudioOutputRing.readResampled, Bool.true_eq_false, false_and, if_false]
    exact h.resampleLoop havail.le _ _ _
  · intro o ho
    have hrange := resampleOrigins_range _ _ _ _ _ o ho
    rwa [havail] at hrange

end Arithmetic

/-- How a resampled read or skip moves the read position. -/
inductive Advanced (ring : AudioOutputRing α) : AudioOutputRing α → Prop
  | moved (consumed : ℕ) (fraction : ℚ) (le : consumed ≤ ring.queued)
      (fract : 0 ≤ fraction ∧ fraction < 1) :
      Advanced ring { ring with
        readFraction := fraction
        readFrame := ring.readFrame + UInt32.ofNat consumed }

theorem advanced_of_min {available consumed : UInt32} {fraction : ℚ}
    (ha : available.toNat ≤ ring.queued) (hf : 0 ≤ fraction ∧ fraction < 1) :
    ring.Advanced { ring with
      readFraction := fraction
      readFrame := ring.readFrame + min consumed available } := by
  have hle : (min consumed available).toNat ≤ ring.queued := by
    rw [UInt32.toNat_min]
    omega
  have h := Advanced.moved (min consumed available).toNat fraction hle hf
  rwa [UInt32.ofNat_toNat] at h

theorem fract_range (phase : ℚ) : 0 ≤ phase - ⌊phase⌋ ∧ phase - ⌊phase⌋ < 1 :=
  ⟨Int.fract_nonneg phase, Int.fract_lt_one phase⟩

theorem available_le_queued (ring : AudioOutputRing α) : ring.availableFrames.toNat ≤ ring.queued := by
  rw [availableFrames, UInt32.toNat_min]
  exact Nat.min_le_left _ _

theorem readResampled_advanced [Zero α] [Add α] [Sub α] [Mul α] [RatCast α] (ring : AudioOutputRing α)
    (frames : UInt32) (sourceStep : ℚ) :
    ring.Advanced (ring.readResampled true frames sourceStep).2.2 := by
  simp only [AudioOutputRing.readResampled, Bool.true_eq_false, false_and, if_false]
  exact advanced_of_min ring.available_le_queued (fract_range _)

theorem advanceResampled_advanced (ring : AudioOutputRing α) (frames : UInt32) (sourceStep : ℚ) :
    ring.Advanced (ring.advanceResampled frames sourceStep) :=
  advanced_of_min ring.available_le_queued (fract_range _)

theorem advanceResampled_drop (hf : 0 ≤ ring.readFraction ∧ ring.readFraction < 1) {frames : UInt32}
    (hle : frames.toNat ≤ ring.availableFrames.toNat) :
    (ring.advanceResampled frames 1).readFrame = ring.readFrame + frames := by
  have hstep : usableStep 1 = 1 := usableStep_eq (by norm_num) (by norm_num)
  have hfloor : ⌊ring.readFraction + frames.toNat * 1⌋₊ = frames.toNat := by
    rw [mul_one, Nat.floor_add_natCast hf.1, Nat.floor_eq_zero.mpr hf.2, Nat.zero_add]
  simp only [advanceResampled, hstep, truncate, hfloor, UInt32.ofNat_toNat]
  congr 1
  apply UInt32.toNat.inj
  rw [UInt32.toNat_min, Nat.min_eq_left hle]

theorem Keeps.consume (h : ring.Keeps accepted W R) {n : ℕ} (hn : R + n ≤ W) (fraction : ℚ) :
    Keeps { ring with
      readFraction := fraction
      readFrame := ring.readFrame + UInt32.ofNat n } accepted W (R + n) := by
  have hread : ring.readFrame + UInt32.ofNat n = UInt32.ofNat (R + n) := by
    have hr : ring.readFrame = UInt32.ofNat R := h.readIndex
    rw [hr, ← UInt32.ofNat_add]
  have hroom : W ≤ R + ring.capacityFrames.toNat := h.room
  have hlen := h.unread_length
  have hle := Nat.mul_le_mul_right ring.channels.toNat hn
  simp only [RingCalls.between] at hlen
  rw [Nat.add_mul] at hle
  exact {
    shape := ⟨h.shape.1, h.shape.2, h.shape.3, h.shape.4⟩
    divides := h.divides
    writeIndex := h.writeIndex
    readIndex := hread
    order := hn
    room := by simp only [RingCalls.between]; omega
    accepted_length := h.accepted_length
    returned_eq := rfl
    unread := by
      simp only [RingCalls.between]
      rw [Nat.add_mul, ← List.drop_drop]
      exact h.unread.drop (by simp only [RingCalls.between]; omega) }

theorem Keeps.write_count_le (h : ring.Keeps accepted W R) (source : List α) (frames : UInt32) :
    (ring.write (some source) frames).1.toNat ≤ frames.toNat ∧
      (ring.write (some source) frames).2.channels = ring.channels ∧
      (ring.write (some source) frames).2.readFraction = ring.readFraction := by
  by_cases h₀ : frames = 0
  · subst h₀
    exact ⟨Nat.le_refl _, rfl, rfl⟩
  · refine ⟨?_, write_channels ring source h₀, write_readFraction ring source h₀⟩
    rw [write_count ring source h₀ h.queued_le]
    exact Nat.min_le_left _ _

theorem Keeps.write (h : ring.Keeps accepted W R) {source : List α} {frames : UInt32}
    (hsource : source.length = frames.toNat * ring.channels.toNat) :
    Keeps (ring.write (some source) frames).2
      (accepted ++ source.take ((ring.write (some source) frames).1.toNat * ring.channels.toNat))
      (W + (ring.write (some source) frames).1.toNat) R := by
  obtain ⟨hle, hchannels, -⟩ := h.write_count_le source frames
  have hpos : 0 < ring.channels.toNat := h.shape.channels_pos
  have hlen : accepted.length = W * ring.channels.toNat := h.accepted_length
  have horder : R ≤ W := h.order
  obtain ⟨actions, W', R', hrun⟩ := RingCalls.call_interleaves
    (RingCalls.call_write (s := ⟨ring, accepted, accepted.take (R * ring.channels.toNat)⟩) hsource) W R
  have hstored := (hrun.invariant ⟨h, trivial, trivial⟩ RingInterleaving.step_inv).stored
  generalize ring.write (some source) frames = w at *
  have htake : (source.take (w.1.toNat * ring.channels.toNat)).length =
      w.1.toNat * ring.channels.toNat := by
    rw [List.length_take, hsource]
    exact Nat.min_eq_left (Nat.mul_le_mul_right _ hle)
  have hW : W' = W + w.1.toNat := by
    have hacc := hstored.accepted_length
    simp only [RingCalls.between, List.length_append, hlen, htake, hchannels, ← Nat.add_mul] at hacc
    exact (Nat.eq_of_mul_eq_mul_right hpos hacc).symm
  have hR : R' = R := by
    have hret := congrArg List.length hstored.returned_eq
    have hR' : R' ≤ W' := hstored.order
    have h₁ := Nat.mul_le_mul_right ring.channels.toNat horder
    have h₂ := Nat.mul_le_mul_right ring.channels.toNat hR'
    simp only [RingCalls.between, List.length_take, List.length_append, hlen, htake, hchannels] at hret
    rw [hW, Nat.add_mul] at h₂
    rw [Nat.min_eq_left h₁, Nat.min_eq_left h₂] at hret
    exact (Nat.eq_of_mul_eq_mul_right hpos hret).symm
  subst hW hR
  exact { hstored with returned_eq := rfl }

end AudioOutputRing

end NumarkNS6.AudioOut
