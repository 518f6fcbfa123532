import NumarkNS6.AudioOut.PacketOrigins
import NumarkNS6.AudioOut.TransferContents

namespace NumarkNS6.AudioOut.AudioOutputRing

open Foundation.CircularStore Foundation.Runs

variable {α : Type} {ring : AudioOutputRing α} {sourceStep : ℚ}

/-- Between whole calls no more is queued than the ring has room for, and the read
position is less than a frame past the read index. -/
structure Steady (ring : AudioOutputRing α) : Prop where
  capacity_le : ring.capacityFrames.toNat < 2 ^ 31
  queued_le : ring.queued ≤ ring.capacityFrames.toNat
  fraction : 0 ≤ ring.readFraction ∧ ring.readFraction < 1

/-- The queue has the frame each of `n` output frames begins at. -/
def Reaches (ring : AudioOutputRing α) (sourceStep : ℚ) (n : ℕ) : Prop :=
  ∀ k < n, ⌊ring.readFraction + k * sourceStep⌋₊ < ring.queued

def resampledFrames [Zero α] [Add α] [Sub α] [Mul α] [RatCast α] (ring : AudioOutputRing α)
    (sourceStep : ℚ) (n : ℕ) : List α :=
  (List.range n).flatMap fun k : ℕ ↦ ring.resampledFrame ring.readFrame ring.availableFrames
    (ring.readFraction + k * sourceStep)

section Loop

variable [Zero α] [Add α] [Sub α] [Mul α] [RatCast α]
variable (ring sourceStep) (readFrame available : UInt32)

theorem resampleLoop_stop {r : Resampled α} (h : truncate r.phase ≥ available) (n : ℕ) :
    ring.resampleLoop readFrame available sourceStep n r = r := by
  cases n with
  | zero => rfl
  | succ n => rw [resampleLoop, if_pos h]

theorem resampleLoop_add (m n : ℕ) (r : Resampled α) :
    ring.resampleLoop readFrame available sourceStep (m + n) r =
      ring.resampleLoop readFrame available sourceStep n
        (ring.resampleLoop readFrame available sourceStep m r) := by
  induction m generalizing r with
  | zero => rw [Nat.zero_add]; rfl
  | succ m ih =>
    rw [Nat.succ_add, resampleLoop, resampleLoop]
    split_ifs with hstop
    · rw [resampleLoop_stop ring sourceStep readFrame available hstop]
    · exact ih _

theorem reaches_of_produced (hs : sourceStep ≤ 3 / 2) (havailable : available.toNat < 2 ^ 31) (n : ℕ)
    (r : Resampled α) (hphase : r.phase < available.toNat + 2)
    (h : (ring.resampleLoop readFrame available sourceStep n r).produced = r.produced + n) :
    ∀ k < n, ⌊r.phase + k * sourceStep⌋₊ < available.toNat := by
  induction n generalizing r with
  | zero => exact fun k hk ↦ absurd hk (Nat.not_lt_zero k)
  | succ n ih =>
    have hbound : r.phase < 2 ^ 32 := by
      have havail : (available.toNat : ℚ) < 2 ^ 31 := by exact_mod_cast havailable
      linarith
    rw [resampleLoop] at h
    split_ifs at h with hstop
    · omega
    · rw [truncate_ge_iff hbound, not_not] at hstop
      have hlt := (lt_of_floor_lt hstop).1
      have hrest := ih _ (by dsimp only; linarith) (h.trans (by dsimp only; omega))
      intro k hk
      cases k with
      | zero => rwa [Nat.cast_zero, zero_mul, add_zero]
      | succ k =>
        have hk' := hrest k (by omega)
        have he : r.phase + ((k + 1 : ℕ) : ℚ) * sourceStep =
            r.phase + sourceStep + k * sourceStep := by
          push_cast
          ring
        rwa [he]

end Loop

theorem Steady.available (h : Steady ring) : ring.availableFrames.toNat = ring.queued :=
  availableFrames_toNat h.queued_le

theorem Steady.position_lt (h : Steady ring) (hs : sourceStep ≤ 3 / 2) {n : ℕ}
    (hr : ring.Reaches sourceStep n) : ring.readFraction + n * sourceStep < ring.queued + 2 ∧
      ring.readFraction + n * sourceStep < 2 ^ 32 := by
  have hlt : ring.readFraction + n * sourceStep < ring.queued + 2 := by
    cases n with
    | zero =>
      have hq : (0 : ℚ) ≤ ring.queued := Nat.cast_nonneg _
      rw [Nat.cast_zero, zero_mul]
      linarith [h.fraction.2]
    | succ n =>
      have hlast := hr n (Nat.lt_succ_self n)
      have hpos : ring.readFraction + n * sourceStep < ring.queued :=
        (Nat.floor_lt' (by omega)).mp hlast
      push_cast
      linarith
  have hq : (ring.queued : ℚ) < 2 ^ 31 := by
    exact_mod_cast h.queued_le.trans_lt h.capacity_le
  exact ⟨hlt, by linarith⟩

section Full

variable (h : Steady ring) (hs : 1 / 2 ≤ sourceStep) (hs' : sourceStep ≤ 3 / 2)
include h hs hs'

section Arithmetic

variable [Zero α] [Add α] [Sub α] [Mul α] [RatCast α]

/-- A full read and a skip of as many frames leave the ring the same. -/
theorem Steady.readResampled_eq {frames : UInt32} (hr : ring.Reaches sourceStep frames.toNat) :
    ring.readResampled true frames sourceStep = (frames,
      ring.resampledFrames sourceStep frames.toNat, ring.advanceResampled frames sourceStep) := by
  have hloop := resampleLoop_eq ring sourceStep ring.readFrame ring.availableFrames frames.toNat
    ⟨0, ring.readFraction, []⟩ (by rw [h.available]; exact hr)
  rw [availableFrames] at hloop
  simp only [readResampled, Bool.true_eq_false, false_and, if_false, usableStep_eq hs hs', hloop,
    Nat.zero_add, UInt32.ofNat_toNat, List.nil_append, advanceResampled, resampledFrames,
    availableFrames]

theorem Steady.reaches_iff (frames : UInt32) :
    (ring.readResampled true frames sourceStep).1 = frames ↔
      ring.Reaches sourceStep frames.toNat := by
  constructor
  · intro hfull
    have hle := (@resampleLoop_shape _ _ _ _ _ _ ring ring.readFrame ring.availableFrames sourceStep frames.toNat
      ⟨0, ring.readFraction, []⟩ (Nat.zero_mul _).symm).1
    have hfraction := h.fraction
    have hq : (0 : ℚ) ≤ ring.queued := Nat.cast_nonneg _
    rw [Reaches, ← h.available]
    refine reaches_of_produced ring sourceStep ring.readFrame ring.availableFrames hs' ?_ frames.toNat
      ⟨0, ring.readFraction, []⟩ ?_ ?_
    · rw [h.available]
      exact h.queued_le.trans_lt h.capacity_le
    · rw [h.available]
      dsimp only
      linarith
    · simp only [readResampled, Bool.true_eq_false, false_and, if_false, usableStep_eq hs hs'] at hfull
      have hnat := congrArg UInt32.toNat hfull
      rw [UInt32.toNat_ofNat', Nat.mod_eq_of_lt] at hnat
      · rw [availableFrames, hnat, Nat.zero_add]
      · have hlt := frames.toNat_lt
        rw [availableFrames] at hle
        dsimp only at hle
        omega
  · intro hr
    rw [h.readResampled_eq hs hs' hr]

end Arithmetic

theorem Steady.advanceResampled_eq {frames : UInt32}
    (hphase : ring.readFraction + frames.toNat * sourceStep < 2 ^ 32) :
    ring.advanceResampled frames sourceStep = { ring with
      readFraction := Int.fract (ring.readFraction + frames.toNat * sourceStep)
      readFrame := ring.readFrame + UInt32.ofNat
        (min ⌊ring.readFraction + frames.toNat * sourceStep⌋₊ ring.queued) } := by
  simp only [advanceResampled, usableStep_eq hs hs', consumed_eq h.queued_le hphase]
  rfl

end Full

def skipped (ring : AudioOutputRing α) (phase : ℚ) (n : ℕ) : AudioOutputRing α :=
  { ring with readFraction := phase - n, readFrame := ring.readFrame + UInt32.ofNat n }

theorem skipped_queued {phase : ℚ} {n : ℕ} (hn : n ≤ ring.queued) :
    (ring.skipped phase n).queued = ring.queued - n := queued_advance hn _

/-- Whole frames the read index has passed make no difference to what a read
position past them delivers. -/
theorem Steady.resampledFrame_skipped [Zero α] [Add α] [Sub α] [Mul α] [RatCast α]
    (h : Steady ring) {phase : ℚ} (position : ℚ) {n : ℕ}
    (hn : n ≤ ⌊phase⌋₊) (hphase : ⌊phase⌋₊ < ring.queued) :
    (ring.skipped position n).resampledFrame (ring.skipped position n).readFrame
        (ring.skipped position n).availableFrames (phase - n) =
      ring.resampledFrame ring.readFrame ring.availableFrames phase := by
  have hq := h.queued_le
  have hcap := h.capacity_le
  have hle : n ≤ ring.queued := hn.trans hphase.le
  have havail : (ring.skipped position n).availableFrames.toNat = ring.queued - n := by
    rw [availableFrames_toNat, skipped_queued hle]
    rw [skipped_queued hle]
    exact (Nat.sub_le _ _).trans hq
  have hfloor : ⌊phase - n⌋₊ = ⌊phase⌋₊ - n := Nat.floor_sub_natCast phase n
  have hnat (k : ℕ) (hk : k ≤ ring.queued) : (UInt32.ofNat k).toNat = k := by
    rw [UInt32.toNat_ofNat']
    exact Nat.mod_eq_of_lt (by omega)
  have hfirst : truncate (phase - n) = UInt32.ofNat (⌊phase⌋₊ - n) := by rw [truncate, hfloor]
  have hfraction : phase - n - ((truncate (phase - n)).toNat : ℚ) =
      phase - ((truncate phase).toNat : ℚ) := by
    rw [hfirst, truncate, hnat _ (by omega), hnat _ hphase.le, Nat.cast_sub hn]
    ring
  have hslot : (ring.skipped position n).readFrame + truncate (phase - n) =
      ring.readFrame + truncate phase := by
    rw [hfirst, truncate, skipped, UInt32.add_assoc, ← UInt32.ofNat_add, Nat.add_sub_cancel' hn]
  have hlast : truncate (phase - n) + 1 < (ring.skipped position n).availableFrames ↔
      truncate phase + 1 < ring.availableFrames := by
    have hone (k : ℕ) (hk : k < ring.queued) : (UInt32.ofNat k + 1).toNat = k + 1 := by
      rw [UInt32.toNat_add, hnat k hk.le]
      exact Nat.mod_eq_of_lt (show k + 1 < 2 ^ 32 by omega)
    rw [UInt32.lt_iff_toNat_lt, UInt32.lt_iff_toNat_lt, hfirst, truncate, hone _ (by omega),
      hone _ hphase, havail, h.available]
    omega
  simp only [resampledFrame, hfraction, hlast, ← UInt32.add_assoc, hslot]
  rfl

theorem Steady.skipped (h : Steady ring) {phase : ℚ} (h₀ : 0 ≤ phase)
    (hphase : ⌊phase⌋₊ ≤ ring.queued) : Steady (ring.skipped phase ⌊phase⌋₊) where
  capacity_le := h.capacity_le
  queued_le := by
    rw [skipped_queued hphase]
    exact (Nat.sub_le _ _).trans h.queued_le
  fraction := ⟨sub_nonneg.mpr (Nat.floor_le h₀), by
    have hlt := Nat.lt_floor_add_one phase
    rw [AudioOutputRing.skipped]
    dsimp only
    linarith⟩

theorem Reaches.split {m n : ℕ} (hr : ring.Reaches sourceStep (m + n))
    (hm : ⌊ring.readFraction + m * sourceStep⌋₊ < ring.queued) :
    ring.Reaches sourceStep m ∧ (ring.skipped (ring.readFraction + m * sourceStep)
      ⌊ring.readFraction + m * sourceStep⌋₊).Reaches sourceStep n := by
  refine ⟨fun k hk ↦ hr k (by omega), fun k hk ↦ ?_⟩
  have hk' := hr (m + k) (by omega)
  have he : (ring.skipped (ring.readFraction + m * sourceStep)
      ⌊ring.readFraction + m * sourceStep⌋₊).readFraction + k * sourceStep =
      ring.readFraction + ((m + k : ℕ) : ℚ) * sourceStep - ⌊ring.readFraction + m * sourceStep⌋₊ := by
    rw [AudioOutputRing.skipped]
    push_cast
    ring
  rw [he, Nat.floor_sub_natCast, skipped_queued hm.le]
  omega

theorem Steady.advanced (h : Steady ring) {next : AudioOutputRing α} (ha : ring.Advanced next) :
    Steady next := by
  cases ha with
  | moved consumed fraction hle hfraction =>
    refine ⟨h.capacity_le, ?_, hfraction⟩
    rw [queued_advance hle]
    exact (Nat.sub_le _ _).trans h.queued_le

section Split

variable (h : Steady ring) (hs : 1 / 2 ≤ sourceStep) (hs' : sourceStep ≤ 3 / 2)
include h hs

theorem Steady.position_nonneg (k : ℕ) : 0 ≤ ring.readFraction + k * sourceStep := by
  have hk : (0 : ℚ) ≤ k * sourceStep := mul_nonneg (Nat.cast_nonneg k) (by linarith)
  linarith [h.fraction.1]

theorem Steady.resampledFrames_split [Zero α] [Add α] [Sub α] [Mul α] [RatCast α]
    {m n : ℕ} (hr : ring.Reaches sourceStep (m + n)) {next : AudioOutputRing α}
    (hnext : next = ring.skipped (ring.readFraction + m * sourceStep)
      ⌊ring.readFraction + m * sourceStep⌋₊) :
    ring.resampledFrames sourceStep m ++ next.resampledFrames sourceStep n =
      ring.resampledFrames sourceStep (m + n) := by
  rw [resampledFrames, resampledFrames, resampledFrames, List.range_add, List.flatMap_append,
    List.flatMap_map]
  congr 1
  refine List.flatMap_congr fun k hk ↦ ?_
  have hle : ⌊ring.readFraction + m * sourceStep⌋₊ ≤
      ⌊ring.readFraction + ((m + k : ℕ) : ℚ) * sourceStep⌋₊ := by
    refine Nat.floor_le_floor ?_
    have hk' : (0 : ℚ) ≤ k * sourceStep := mul_nonneg (Nat.cast_nonneg _) (by linarith)
    push_cast
    linarith
  rw [hnext, ← h.resampledFrame_skipped (ring.readFraction + m * sourceStep) hle
    (hr (m + k) (by have := List.mem_range.mp hk; omega))]
  congr 1
  rw [AudioOutputRing.skipped]
  push_cast
  ring

include hs'

theorem Steady.advanceResampled_skipped {m : UInt32}
    (hm : ⌊ring.readFraction + m.toNat * sourceStep⌋₊ < ring.queued) :
    ring.advanceResampled m sourceStep =
      ring.skipped (ring.readFraction + m.toNat * sourceStep)
        ⌊ring.readFraction + m.toNat * sourceStep⌋₊ := by
  have hbound : ring.readFraction + m.toNat * sourceStep < 2 ^ 32 := by
    rw [← h.available] at hm
    exact (lt_of_floor_lt hm).2
  have h₀ := h.position_nonneg hs m.toNat
  rw [h.advanceResampled_eq hs hs' hbound, Nat.min_eq_left hm.le, AudioOutputRing.skipped, Int.fract,
    natCast_floor_eq_intCast_floor h₀]

theorem Steady.advanceResampled_add {m n total : UInt32}
    (htotal : total.toNat = m.toNat + n.toNat)
    (hm : ⌊ring.readFraction + m.toNat * sourceStep⌋₊ < ring.queued)
    (hbound : ring.readFraction + total.toNat * sourceStep < 2 ^ 32) :
    (ring.advanceResampled m sourceStep).advanceResampled n sourceStep =
      ring.advanceResampled total sourceStep := by
  have h₀ := h.position_nonneg hs m.toNat
  have hnext := h.skipped h₀ hm.le
  rw [h.advanceResampled_skipped hs hs' hm, h.advanceResampled_eq hs hs' hbound]
  generalize hphase : ring.readFraction + m.toNat * sourceStep = phase at *
  have hposition : (ring.skipped phase ⌊phase⌋₊).readFraction + n.toNat * sourceStep =
      ring.readFraction + total.toNat * sourceStep - ⌊phase⌋₊ := by
    rw [AudioOutputRing.skipped, htotal, ← hphase]
    push_cast
    ring
  have hle : ⌊phase⌋₊ ≤ ⌊ring.readFraction + total.toNat * sourceStep⌋₊ := by
    refine Nat.floor_le_floor ?_
    rw [← hphase, htotal]
    have hn : (0 : ℚ) ≤ n.toNat * sourceStep := mul_nonneg (Nat.cast_nonneg _) (by linarith)
    push_cast
    linarith
  have hpos : (0 : ℚ) ≤ ⌊phase⌋₊ := Nat.cast_nonneg _
  rw [hnext.advanceResampled_eq hs hs' (by rw [hposition]; linarith), hposition,
    skipped_queued hm.le, Nat.floor_sub_natCast, Int.fract_sub_natCast]
  simp only [AudioOutputRing.skipped, UInt32.add_assoc, ← UInt32.ofNat_add]
  congr 3
  omega

theorem Steady.advanceResampled_zero : ring.advanceResampled 0 sourceStep = ring := by
  have hzero : ring.readFraction + (0 : UInt32).toNat * sourceStep = ring.readFraction := by
    rw [UInt32.toNat_zero, Nat.cast_zero, zero_mul, add_zero]
  have hlt : ring.readFraction < 2 ^ 32 := h.fraction.2.trans (by norm_num)
  rw [h.advanceResampled_eq hs hs' (by rw [hzero]; exact hlt), hzero,
    Nat.floor_eq_zero.mpr h.fraction.2, Nat.zero_min, Int.fract_eq_self.mpr h.fraction]
  simp

/-- Reading in two calls is reading in one, and skipping is reading without
looking. -/
theorem Steady.readResampled_split [Zero α] [Add α] [Sub α] [Mul α] [RatCast α]
    {m n total : UInt32} (htotal : total.toNat = m.toNat + n.toNat)
    (hfull : (ring.readResampled true total sourceStep).1 = total) :
    (ring.readResampled true m sourceStep).1 = m ∧
    ((ring.readResampled true m sourceStep).2.2.readResampled true n sourceStep).1 = n ∧
    (ring.readResampled true m sourceStep).2.1 ++
        ((ring.readResampled true m sourceStep).2.2.readResampled true n sourceStep).2.1 =
      (ring.readResampled true total sourceStep).2.1 ∧
    ((ring.readResampled true m sourceStep).2.2.readResampled true n sourceStep).2.2 =
      (ring.readResampled true total sourceStep).2.2 ∧
    (ring.advanceResampled m sourceStep).readResampled true n sourceStep =
      (ring.readResampled true m sourceStep).2.2.readResampled true n sourceStep ∧
    (ring.readResampled true m sourceStep).2.2.advanceResampled n sourceStep =
      (ring.readResampled true total sourceStep).2.2 := by
  have hr := (h.reaches_iff hs hs' total).mp hfull
  have hfirst : ring.Reaches sourceStep m.toNat := fun k hk ↦ hr k (by omega)
  have hnext := h.advanced (ring.advanceResampled_advanced m sourceStep)
  have hsecond : (ring.advanceResampled m sourceStep).Reaches sourceStep n.toNat ∧
      ring.resampledFrames sourceStep m.toNat ++
          (ring.advanceResampled m sourceStep).resampledFrames sourceStep n.toNat =
        ring.resampledFrames sourceStep total.toNat ∧
      (ring.advanceResampled m sourceStep).advanceResampled n sourceStep =
        ring.advanceResampled total sourceStep := by
    by_cases hn : n.toNat = 0
    · obtain rfl : n = 0 := UInt32.toNat.inj hn
      obtain rfl : total = m := UInt32.toNat.inj (by omega)
      refine ⟨fun k hk ↦ absurd hk (Nat.not_lt_zero k), ?_, hnext.advanceResampled_zero hs hs'⟩
      rw [hn, resampledFrames, resampledFrames, List.range_zero, List.flatMap_nil, List.append_nil]
    · have hm : ⌊ring.readFraction + m.toNat * sourceStep⌋₊ < ring.queued := hr m.toNat (by omega)
      have hskip := h.advanceResampled_skipped hs hs' hm
      have hbound := (h.position_lt hs' hr).2
      refine ⟨?_, ?_, h.advanceResampled_add hs hs' htotal hm hbound⟩
      · rw [hskip]
        exact ((htotal ▸ hr).split hm).2
      · rw [htotal] at hr ⊢
        exact h.resampledFrames_split hs hr hskip
  obtain ⟨hreach, hframes, hskip⟩ := hsecond
  rw [h.readResampled_eq hs hs' hr, h.readResampled_eq hs hs' hfirst]
  dsimp only
  rw [hnext.readResampled_eq hs hs' hreach]
  exact ⟨rfl, rfl, hframes, hskip, rfl, hskip⟩

end Split

end NumarkNS6.AudioOut.AudioOutputRing
