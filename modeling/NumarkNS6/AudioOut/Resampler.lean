import NumarkNS6.AudioOut.RingTransfer
import Mathlib.Tactic.Linarith
import Mathlib.Tactic.Positivity
import Mathlib.Tactic.Ring

namespace NumarkNS6.AudioOut

open Foundation.CircularStore

namespace AudioOutputRing

variable {α : Type} {ring : AudioOutputRing α} {sourceStep : ℚ}

def level (ring : AudioOutputRing α) : ℚ := ring.queued - ring.readFraction

theorem usableStep_eq (h : 1 / 2 ≤ sourceStep) (h' : sourceStep ≤ 3 / 2) :
    usableStep sourceStep = sourceStep := by
  rw [usableStep, if_neg]
  rw [not_or, not_lt, gt_iff_lt, not_lt]
  exact ⟨h, h'⟩

theorem truncate_of_lt {phase : ℚ} (h : phase < 2 ^ 32) : (truncate phase).toNat = ⌊phase⌋₊ := by
  have hfloor : ⌊phase⌋₊ < 2 ^ 32 := (Nat.floor_lt' (by norm_num)).mpr (by exact_mod_cast h)
  rw [truncate, UInt32.toNat_ofNat']
  exact Nat.mod_eq_of_lt hfloor

theorem truncate_ge_iff {phase : ℚ} (h : phase < 2 ^ 32) (available : UInt32) :
    truncate phase ≥ available ↔ ¬ ⌊phase⌋₊ < available.toNat := by
  rw [ge_iff_le, UInt32.le_iff_toNat_le, truncate_of_lt h, not_lt]

theorem lt_of_floor_lt {phase : ℚ} {n : UInt32} (h : ⌊phase⌋₊ < n.toNat) :
    phase < n.toNat ∧ phase < 2 ^ 32 := by
  have hlt : phase < n.toNat := (Nat.floor_lt' (by omega)).mp h
  have hn : (n.toNat : ℚ) < 2 ^ 32 := by exact_mod_cast n.toNat_lt
  exact ⟨hlt, hlt.trans hn⟩

section Loop

variable (ring sourceStep) (readFrame available : UInt32)
variable [Zero α] [Add α] [Sub α] [Mul α] [RatCast α]

theorem resampleLoop_eq (n : ℕ) (r : Resampled α)
    (h : ∀ k < n, ⌊r.phase + k * sourceStep⌋₊ < available.toNat) :
    ring.resampleLoop readFrame available sourceStep n r =
      { produced := r.produced + n
        phase := r.phase + n * sourceStep
        interleaved := r.interleaved ++ (List.range n).flatMap fun k : ℕ ↦
          ring.resampledFrame readFrame available (r.phase + k * sourceStep) } := by
  induction n generalizing r with
  | zero => simp [resampleLoop]
  | succ n ih =>
    have hfirst := h 0 (Nat.succ_pos n)
    rw [Nat.cast_zero, zero_mul, add_zero] at hfirst
    have hgo : ¬ truncate r.phase ≥ available := by
      rw [truncate_ge_iff (lt_of_floor_lt hfirst).2, not_not]
      exact hfirst
    have hnext (k : ℕ) : r.phase + sourceStep + k * sourceStep =
        r.phase + ((k + 1 : ℕ) : ℚ) * sourceStep := by
      push_cast
      ring
    rw [resampleLoop, if_neg hgo, ih _ fun k hk ↦ by rw [hnext]; exact h (k + 1) (by omega)]
    dsimp only
    rw [Resampled.mk.injEq, List.range_succ_eq_map, List.flatMap_cons, List.flatMap_map,
      List.append_assoc, Nat.cast_zero, zero_mul, add_zero]
    refine ⟨by omega, hnext n, ?_⟩
    simp only [hnext]

end Loop

theorem availableFrames_toNat (hq : ring.queued ≤ ring.capacityFrames.toNat) :
    ring.availableFrames.toNat = ring.queued := by
  rw [availableFrames, UInt32.toNat_min]
  exact Nat.min_eq_left hq

theorem consumed_eq (hq : ring.queued ≤ ring.capacityFrames.toNat) {phase : ℚ}
    (hphase : phase < 2 ^ 32) :
    min (truncate phase) ring.availableFrames = UInt32.ofNat (min ⌊phase⌋₊ ring.queued) := by
  rw [← truncate_of_lt hphase, ← availableFrames_toNat hq, ← UInt32.toNat_min, UInt32.ofNat_toNat]

theorem queued_advance {consumed : ℕ} (h : consumed ≤ ring.queued) (fraction : ℚ) :
    queued { ring with
      readFraction := fraction
      readFrame := ring.readFrame + UInt32.ofNat consumed } = ring.queued - consumed := by
  have hlt := (ring.writeFrame - ring.readFrame).toNat_lt
  have hnat : (UInt32.ofNat consumed).toNat = consumed := by
    rw [UInt32.toNat_ofNat']
    exact Nat.mod_eq_of_lt (lt_of_le_of_lt h hlt)
  have hle : UInt32.ofNat consumed ≤ ring.writeFrame - ring.readFrame :=
    UInt32.le_iff_toNat_le.mpr (hnat.trans_le h)
  simp only [queued]
  rw [← sub_sub, UInt32.toNat_sub_of_le _ _ hle, hnat]

section Reads

variable [Zero α] [Add α] [Sub α] [Mul α] [RatCast α]

/-- A resampled read that the queue can serve delivers every frame asked for and
moves the read position by exactly the source frames they stand for. -/
theorem readResampled_full (hq : ring.queued ≤ ring.capacityFrames.toNat)
    (hf : 0 ≤ ring.readFraction) (hs : 1 / 2 ≤ sourceStep) (hs' : sourceStep ≤ 3 / 2)
    (frames : UInt32) (h : ring.readFraction + frames.toNat * sourceStep ≤ (ring.queued : ℚ)) :
    (ring.readResampled true frames sourceStep).1 = frames ∧
      (ring.readResampled true frames sourceStep).2.2 = { ring with
        readFraction := Int.fract (ring.readFraction + frames.toNat * sourceStep)
        readFrame := ring.readFrame +
          UInt32.ofNat ⌊ring.readFraction + frames.toNat * sourceStep⌋₊ } := by
  have hq' : (ring.queued : ℚ) < 2 ^ 32 := by
    exact_mod_cast hq.trans_lt ring.capacityFrames.toNat_lt
  have hbegun : ∀ k < frames.toNat, ⌊ring.readFraction + k * sourceStep⌋₊ <
      (min (ring.writeFrame - ring.readFrame) ring.capacityFrames).toNat := by
    intro k hk
    have hk' : (k + 1 : ℚ) ≤ frames.toNat := by exact_mod_cast hk
    have hmul := mul_le_mul_of_nonneg_right hk' (by linarith : (0 : ℚ) ≤ sourceStep)
    have hpos : (0 : ℚ) ≤ k * sourceStep := mul_nonneg (Nat.cast_nonneg k) (by linarith)
    rw [← availableFrames, availableFrames_toNat hq, Nat.floor_lt (by linarith)]
    linarith
  have hconsumed := consumed_eq hq (h.trans_lt hq')
  rw [Nat.min_eq_left (Nat.floor_le_of_le h), availableFrames] at hconsumed
  simp only [readResampled, Bool.true_eq_false, false_and, if_false, usableStep_eq hs hs',
    resampleLoop_eq ring sourceStep ring.readFrame _ frames.toNat ⟨0, ring.readFraction, []⟩ hbegun,
    hconsumed, Nat.zero_add, UInt32.ofNat_toNat]
  exact ⟨trivial, rfl⟩

theorem readResampled_level (hq : ring.queued ≤ ring.capacityFrames.toNat)
    (hf : 0 ≤ ring.readFraction) (hs : 1 / 2 ≤ sourceStep) (hs' : sourceStep ≤ 3 / 2)
    (frames : UInt32) (h : ring.readFraction + frames.toNat * sourceStep ≤ (ring.queued : ℚ)) :
    (ring.readResampled true frames sourceStep).2.2.level =
      ring.level - frames.toNat * sourceStep := by
  have h₀ : 0 ≤ ring.readFraction + frames.toNat * sourceStep := by positivity
  have hle : ⌊ring.readFraction + frames.toNat * sourceStep⌋₊ ≤ ring.queued := Nat.floor_le_of_le h
  rw [(readResampled_full hq hf hs hs' frames h).2, level, level, queued_advance hle,
    Nat.cast_sub hle, Int.fract, natCast_floor_eq_intCast_floor h₀]
  ring

end Reads

theorem write_queued (source : List α) {frames : UInt32} (h₀ : frames ≠ 0)
    (hq : ring.queued ≤ ring.capacityFrames.toNat) :
    (ring.write (some source) frames).2.queued =
      ring.queued + (ring.write (some source) frames).1.toNat := by
  have hcap := ring.capacityFrames.toNat_lt
  have hcount := write_count ring source h₀ hq
  rw [queued, write_writeFrame ring source h₀, write_readFrame ring source h₀, add_sub_right_comm,
    UInt32.toNat_add]
  exact Nat.mod_eq_of_lt (by rw [hcount]; rw [queued] at hq ⊢; omega)

theorem write_fits (ring : AudioOutputRing α) (source : List α) {frames : UInt32}
    (hq : ring.queued + frames.toNat ≤ ring.capacityFrames.toNat) :
    (ring.write (some source) frames).1 = frames ∧
      (ring.write (some source) frames).2.queued = ring.queued + frames.toNat ∧
      (ring.write (some source) frames).2.readFraction = ring.readFraction ∧
      (ring.write (some source) frames).2.capacityFrames = ring.capacityFrames ∧
      (ring.write (some source) frames).2.channels = ring.channels := by
  by_cases h₀ : frames = 0
  · subst h₀
    exact ⟨rfl, rfl, rfl, rfl, rfl⟩
  have hcount : (ring.write (some source) frames).1 = frames := by
    apply UInt32.toNat.inj
    rw [write_count ring source h₀ (by omega)]
    omega
  refine ⟨hcount, ?_, write_readFraction ring source h₀, write_capacityFrames ring source h₀,
    write_channels ring source h₀⟩
  rw [write_queued source h₀ (by omega), hcount]

end AudioOutputRing

end NumarkNS6.AudioOut
