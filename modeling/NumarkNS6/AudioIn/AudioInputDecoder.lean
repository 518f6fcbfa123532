import NumarkNS6.AudioOut.AudioOutPacket
import NumarkNS6.Foundation.BitLanes

namespace NumarkNS6.AudioIn.AudioInputDecoder

open Foundation.BitLanes AudioOut.AudioOutPacket

def sourceStrideBytes : ℕ := 64

def channelCount : ℕ := 2

/-- A sample of 24 bits from the low bits of as many bytes, in exact arithmetic where
the source has `float`. -/
def decodeLane (lane : List UInt8) : ℚ :=
  let value := (List.range 24).foldl
    (fun (value : UInt32) bit ↦ (value <<< 1) ||| ((lane.getD bit 0).toUInt32 &&& 1)) 0
  let sample := value.toInt32
  let sample := if value &&& 0x800000 ≠ 0 then sample - 0x1000000 else sample
  sample.toInt * (1 / 8388608)

/-- `decode`: the returned frame count and what it writes to `interleaved`, which is
there or not. -/
def decode (source : Option (List UInt8)) (interleaved : Bool) (outputCapacityFrames : ℕ) :
    ℕ × List ℚ :=
  match source with
  | none => (0, [])
  | some source =>
    if interleaved = false ∨ source.length = 0 ∨ source.length % sourceStrideBytes ≠ 0 then (0, [])
    else
      let frames := source.length / sourceStrideBytes
      if outputCapacityFrames < frames then (0, [])
      else
        (frames, (List.range frames).flatMap fun frame ↦
          let stride := source.drop (frame * sourceStrideBytes)
          [decodeLane stride, decodeLane (stride.drop 32)])

def laneWord (lane : List UInt8) : BitVec 24 :=
  BitVec.ofNat 24 (ofBits (fun bit ↦ (lane.getD bit 0).toNat.testBit 0) 24)

theorem toInt_signExtended {value : UInt32} (h : value.toNat < 2 ^ 24) :
    (if value &&& 0x800000 ≠ 0 then value.toInt32 - 0x1000000 else value.toInt32).toInt =
      (BitVec.ofNat 24 value.toNat).toInt := by
  have hsign : value &&& 0x800000 ≠ 0 ↔ 2 ^ 23 ≤ value.toNat := by
    rw [← and_top_ne_zero_iff h, ne_eq, ne_eq, ← UInt32.toNat_inj, UInt32.toNat_and]
    rfl
  have hplain : value.toInt32.toInt = value.toNat :=
    BitVec.toInt_eq_toNat_of_lt (show 2 * value.toNat < 2 ^ 32 by omega)
  have hword : (BitVec.ofNat 24 value.toNat).toNat = value.toNat := Nat.mod_eq_of_lt h
  rw [BitVec.toInt_eq_toNat_cond, hword]
  by_cases hle : 2 ^ 23 ≤ value.toNat
  · have hfull : (0x1000000 : Int32).toInt = 2 ^ 24 := by decide
    rw [if_pos (hsign.mpr hle), if_neg (by omega), Int32.toInt_sub, hplain, hfull]
    exact Int.bmod_eq_of_le (by omega) (by omega)
  · rw [if_neg (mt hsign.mp hle), if_pos (by omega), hplain]

theorem decodeLane_eq (lane : List UInt8) : decodeLane lane = (laneWord lane).toInt / 2 ^ 23 := by
  have hvalue := foldl_shift_or (fun bit ↦ lane.getD bit 0) (show 24 ≤ 32 by omega)
  have hlt := ofBits_lt (fun bit ↦ (lane.getD bit 0).toNat.testBit 0) 24
  simp only [decodeLane, laneWord]
  generalize List.foldl _ _ _ = value at *
  rw [← hvalue] at hlt ⊢
  rw [toInt_signExtended hlt, mul_one_div]
  norm_num

theorem laneWord_congr {lane lane' : List UInt8}
    (h : ∀ bit < 24, (lane.getD bit 0).toNat.testBit 0 = (lane'.getD bit 0).toNat.testBit 0) :
    laneWord lane = laneWord lane' := by
  rw [laneWord, laneWord, ofBits_congr h]

def lane (source : List UInt8) (i c : ℕ) : List UInt8 := source.drop (64 * i + 32 * c)

def frame (source : List UInt8) (i : ℕ) : List ℚ :=
  [decodeLane (lane source i 0), decodeLane (lane source i 1)]

theorem frame_length (source : List UInt8) (i : ℕ) : (frame source i).length = 2 := rfl

theorem lane_getD (source : List UInt8) (i c bit : ℕ) :
    (lane source i c).getD bit 0 = source.getD (64 * i + 32 * c + bit) 0 := by
  rw [lane, List.getD_eq_getElem?_getD, List.getElem?_drop, List.getD_eq_getElem?_getD]

theorem frame_congr {source source' : List UInt8} (h : ∀ p, p % 32 < 24 →
      (source'.getD p 0).toNat.testBit 0 = (source.getD p 0).toNat.testBit 0) (i : ℕ) :
    frame source' i = frame source i := by
  have hlane (c : ℕ) : decodeLane (lane source' i c) = decodeLane (lane source i c) := by
    rw [decodeLane_eq, decodeLane_eq]
    congr 3
    refine laneWord_congr fun bit hbit ↦ ?_
    rw [lane_getD, lane_getD]
    exact h _ (by omega)
  rw [frame, frame, hlane, hlane]

/-- An empty block, a broken one and one that is too long yield nothing. -/
theorem decode_rejects {source : List UInt8} {outputCapacityFrames : ℕ}
    (h : source.length = 0 ∨ source.length % 64 ≠ 0 ∨ outputCapacityFrames < source.length / 64) :
    decode (some source) true outputCapacityFrames = (0, []) := by
  simp only [decode]
  by_cases hwhole : true = false ∨ source.length = 0 ∨ source.length % sourceStrideBytes ≠ 0
  · rw [if_pos hwhole]
  · rw [if_neg hwhole, if_pos]
    exact (h.resolve_left fun h₀ ↦ hwhole (.inr (.inl h₀))).resolve_left fun h₁ ↦ hwhole (.inr (.inr h₁))

section Block

variable {source : List UInt8} {n outputCapacityFrames : ℕ} (hn : 1 ≤ n)
  (hsource : source.length = 64 * n) (hcapacity : n ≤ outputCapacityFrames)
include hn hsource hcapacity

theorem decode_eq : decode (some source) true outputCapacityFrames =
    (n, (List.range n).flatMap (frame source)) := by
  have hframes : source.length / sourceStrideBytes = n := by
    rw [hsource]
    exact Nat.mul_div_cancel_left n (by decide)
  have hwhole : ¬ (true = false ∨ source.length = 0 ∨ source.length % sourceStrideBytes ≠ 0) := by
    simp only [hsource, sourceStrideBytes, Bool.true_eq_false, false_or]
    omega
  have hfits : ¬ outputCapacityFrames < source.length / sourceStrideBytes := by
    rw [hframes]
    omega
  simp only [decode]
  rw [if_neg hwhole, if_neg hfits, hframes]
  congr 1
  refine List.flatMap_congr fun i _ ↦ ?_
  rw [frame, lane, lane, List.drop_drop, sourceStrideBytes, Nat.mul_comm i]
  rfl

theorem decode_sample {i c : ℕ} (hi : i < n) (hc : c < 2) :
    (decode (some source) true outputCapacityFrames).2[2 * i + c]? =
      some ((laneWord (lane source i c)).toInt / 2 ^ 23 : ℚ) := by
  have hframe : (frame source i)[c]? = some ((laneWord (lane source i c)).toInt / 2 ^ 23 : ℚ) := by
    obtain rfl | rfl : c = 0 ∨ c = 1 := by omega
    · exact congrArg some (decodeLane_eq _)
    · exact congrArg some (decodeLane_eq _)
  rw [decode_eq hn hsource hcapacity]
  exact (getElem?_flatMap_range (frame_length source) hi hc).trans hframe

/-- From the lanes of a block to the bytes of a packet every sample is exact: it is
decoded from the low bits of its lane alone, and quantised to the integer it was
decoded from. -/
theorem sample_path_exact :
    (decode (some source) true outputCapacityFrames).1 = n ∧
    (decode (some source) true outputCapacityFrames).2.length = 2 * n ∧
    (∀ i < n, ∀ c < 2, ∃ s : BitVec 24,
      (∀ bit < 24, s.getMsbD bit = (source.getD (64 * i + 32 * c + bit) 0).toNat.testBit 0) ∧
      (decode (some source) true outputCapacityFrames).2[2 * i + c]? = some (s.toInt / 2 ^ 23 : ℚ)) ∧
    (∀ source' : List UInt8, source'.length = source.length →
      (∀ p, p % 32 < 24 →
        (source'.getD p 0).toNat.testBit 0 = (source.getD p 0).toNat.testBit 0) →
      decode (some source') true outputCapacityFrames = decode (some source) true outputCapacityFrames) ∧
    (∀ s : BitVec 24, quantise (s.toInt / 2 ^ 23) = s.toInt ∧
      (pack (quantise (s.toInt / 2 ^ 23))).map UInt8.toNat =
        [s.toNat % 256, s.toNat / 256 % 256, s.toNat / 65536]) ∧
    (∀ x y : ℚ, x ≤ y → quantise x ≤ quantise y) ∧
    (∀ x < -1, quantise x = -2 ^ 23) ∧ ∀ x > 1, quantise x = 2 ^ 23 - 1 := by
  have hdecode := decode_eq hn hsource hcapacity
  refine ⟨by rw [hdecode], ?_, ?_, ?_, ?_, fun x y hxy ↦ quantise_monotone hxy,
    fun x hx ↦ quantise_of_le_neg_one hx.le, fun x hx ↦ quantise_of_one_le hx.le⟩
  · rw [hdecode]
    exact length_flatMap_range (frame_length source) n
  · intro i hi c hc
    refine ⟨laneWord (lane source i c), fun bit hbit ↦ ?_, decode_sample hn hsource hcapacity hi hc⟩
    rw [laneWord, getMsbD_ofBits hbit, lane_getD]
  · intro source' hlength hbits
    rw [hdecode, decode_eq hn (hlength.trans hsource) hcapacity,
      List.flatMap_congr fun i _ ↦ frame_congr hbits i]
  · intro s
    have hs : quantise (s.toInt / 2 ^ 23) = s.toInt :=
      quantise_div ⟨BitVec.le_toInt s, BitVec.toInt_lt⟩
    exact ⟨hs, by rw [hs, pack_toInt]⟩

end Block

theorem sample_path_exact_high_bits :
    (List.replicate 64 (1 : UInt8)).length = 64 * 1 ∧
      (decode (some (List.replicate 64 1)) true 1).1 = 1 ∧
      decode (some (List.replicate 64 0xff)) true 1 = decode (some (List.replicate 64 1)) true 1 := by
  have hexact := sample_path_exact (le_refl 1)
    (show (List.replicate 64 (1 : UInt8)).length = 64 * 1 from List.length_replicate) (le_refl 1)
  refine ⟨List.length_replicate, hexact.1, hexact.2.2.2.1 _ rfl fun p _ ↦ ?_⟩
  rw [List.getD_eq_getElem?_getD, List.getD_eq_getElem?_getD, List.getElem?_replicate,
    List.getElem?_replicate]
  split_ifs <;> rfl

end NumarkNS6.AudioIn.AudioInputDecoder
