import NumarkNS6.AudioOut.AudioPacketPolicy
import NumarkNS6.AudioOut.Resampler

namespace NumarkNS6.AudioOut

structure AudioOutPacket where
  bytes : List UInt8
  byteCount : ℕ
  missingFrames : UInt32

namespace AudioOutPacket

open AudioPacketPolicy (clamp clamp_eq clamp_of_le clamp_of_ge)

def maxFrames : UInt32 := 13

def channels : UInt32 := 4

def bytesPerSample : ℕ := 3

def maxBytes : ℕ := 156

/-- `std::llround`: to the nearest integer, halves away from zero. -/
def llround (x : ℚ) : ℤ := if 0 ≤ x then ⌊x + 1 / 2⌋ else ⌈x - 1 / 2⌉

/-- A sample as a 24-bit integer. Rational samples are always finite. -/
def quantise (input : ℚ) : ℤ :=
  max (-8388608) (min (llround (AudioPacketPolicy.clamp input (-1) 1 * 8388608)) 8388607)

def pack (value : ℤ) : List UInt8 :=
  [UInt8.ofNat (value % 256).toNat, UInt8.ofNat (value / 256 % 256).toNat,
    UInt8.ofNat (value / 65536 % 256).toNat]

theorem llround_intCast (n : ℤ) : llround n = n := by
  rw [llround]
  split_ifs
  · rw [Int.floor_intCast_add]
    norm_num
  · rw [sub_eq_add_neg, Int.ceil_intCast_add]
    norm_num

theorem llround_monotone {x y : ℚ} (hxy : x ≤ y) : llround x ≤ llround y := by
  rw [llround, llround]
  split_ifs with hx hy hy
  · exact Int.floor_le_floor (by linarith)
  · exact absurd (hx.trans hxy) hy
  · have h₁ : ⌈x - 1 / 2⌉ ≤ 0 := Int.ceil_le.mpr (by push_cast; linarith)
    have h₂ : 0 ≤ ⌊y + 1 / 2⌋ := Int.floor_nonneg.mpr (by linarith)
    exact h₁.trans h₂
  · exact Int.ceil_le_ceil (by linarith)

theorem quantise_monotone {x y : ℚ} (hxy : x ≤ y) : quantise x ≤ quantise y := by
  have hclamp : clamp x (-1) 1 ≤ clamp y (-1) 1 := by
    rw [clamp_eq (by norm_num), clamp_eq (by norm_num)]
    exact max_le_max_left _ (min_le_min_right _ hxy)
  have hround := llround_monotone (mul_le_mul_of_nonneg_right hclamp (by norm_num : (0 : ℚ) ≤ 8388608))
  exact max_le_max_left _ (min_le_min_right _ hround)

theorem quantise_div {s : ℤ} (h : -2 ^ 23 ≤ s ∧ s < 2 ^ 23) : quantise (s / 2 ^ 23) = s := by
  have hlo : (-2 ^ 23 : ℚ) ≤ s := by exact_mod_cast h.1
  have hhi : (s : ℚ) < 2 ^ 23 := by exact_mod_cast h.2
  have hclamp : clamp (s / 2 ^ 23) (-1) 1 = s / 2 ^ 23 := by
    rw [clamp_eq (by norm_num), min_eq_left, max_eq_right]
    · rw [le_div_iff₀ (by norm_num)]
      linarith
    · rw [div_le_one (by norm_num)]
      exact hhi.le
  have hscale : (s : ℚ) / 2 ^ 23 * 8388608 = s := by
    norm_num
  rw [quantise, hclamp, hscale, llround_intCast]
  omega

theorem quantise_of_one_le {x : ℚ} (h : 1 ≤ x) : quantise x = 2 ^ 23 - 1 := by
  have hclamp : clamp x (-1) 1 = 1 := clamp_of_ge h (by norm_num)
  have hround : llround 8388608 = 8388608 := llround_intCast 8388608
  rw [quantise, hclamp, one_mul, hround]
  rfl

theorem quantise_of_le_neg_one {x : ℚ} (h : x ≤ -1) : quantise x = -2 ^ 23 := by
  have hclamp : clamp x (-1) 1 = -1 := clamp_of_le h (by norm_num)
  have hround : llround (-1 * 8388608) = -8388608 := by
    have hcast := llround_intCast (-8388608)
    push_cast at hcast
    rwa [neg_one_mul]
  rw [quantise, hclamp, hround]
  rfl

theorem pack_toInt (s : BitVec 24) : (pack s.toInt).map UInt8.toNat =
    [s.toNat % 256, s.toNat / 256 % 256, s.toNat / 65536] := by
  have hlt := s.isLt
  have hbyte (n : ℤ) : (UInt8.ofNat (n % 256).toNat).toNat = (n % 256).toNat := by
    rw [UInt8.toNat_ofNat']
    exact Nat.mod_eq_of_lt (by omega)
  simp only [pack, List.map_cons, List.map_nil, hbyte]
  rw [BitVec.toInt_eq_toNat_cond]
  split_ifs <;> simp only [List.cons.injEq, and_true] <;> omega

def empty : AudioOutPacket := ⟨List.replicate maxBytes 0, 0, 0⟩

/-- What a packet takes out of the ring: the frames delivered, their samples and
the ring afterwards. Frames the ring cannot supply are skipped. -/
def draw (ring : AudioOutputRing ℚ) (frames : UInt32) (sourceStep : ℚ) :
    UInt32 × List ℚ × AudioOutputRing ℚ :=
  let r := ring.readResampled true frames sourceStep
  let missing := frames - r.1
  (r.1, r.2.1, if missing ≠ 0 then r.2.2.advanceResampled missing sourceStep else r.2.2)

def build (ring : AudioOutputRing ℚ) (policy : AudioPacketPolicy) :
    UInt32 × AudioOutPacket × AudioOutputRing ℚ × AudioPacketPolicy :=
  if ring.channels ≠ channels then (0, empty, ring, policy)
  else
    let next := policy.nextPacketFrames
    if next.1 > maxFrames then (0, empty, ring, next.2)
    else
      let sourceStep := next.2.sourceFramesPerOutputFrame ring.availableFrames
      let drawn := draw ring next.1 sourceStep
      let packed := (drawn.2.1.take (drawn.1.toNat * channels.toNat)).flatMap (pack ∘ quantise)
      (next.1,
        { bytes := packed ++ List.replicate (maxBytes - packed.length) 0
          byteCount := next.1.toNat * channels.toNat * bytesPerSample
          missingFrames := next.1 - drawn.1 },
        drawn.2.2, next.2)

end AudioOutPacket

end NumarkNS6.AudioOut
