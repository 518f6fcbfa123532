import NumarkNS6.AudioOut.ResampledReads
import NumarkNS6.Foundation.FloatingPoint

namespace NumarkNS6.AudioOut.AudioOutputRing

open Foundation Foundation.CircularStore Foundation.Runs

variable {α : Type} {ring next : AudioOutputRing α}

theorem read_advanced_or (hf : 0 ≤ ring.readFraction ∧ ring.readFraction < 1) (buffer : Bool)
    (frames : UInt32) : (ring.read buffer frames).2.2 = ring ∨
      ring.Advanced (ring.read buffer frames).2.2 := by
  by_cases h : buffer = false ∨ frames = 0
  · left
    rw [read, if_pos h]
  · right
    obtain ⟨hb, h₀⟩ := not_or.mp h
    obtain rfl : buffer = true := Bool.eq_true_of_not_eq_false hb
    have hmoved := Advanced.moved (ring.read true frames).1.toNat ring.readFraction
      (by rw [read_count ring h₀]; exact Nat.min_le_right _ _) hf
    rw [read_fields ring h₀]
    rwa [UInt32.ofNat_toNat] at hmoved

section Calls

variable [Zero α] [Add α] [Sub α] [Mul α] [RatCast α]

def use (ring : AudioOutputRing α) (c : Call α) : Option (AudioOutputRing α) :=
  if c.Fits ring.channels then some (ring.call c).2.2 else none

theorem readResampled_advanced_or (ring : AudioOutputRing α) (buffer : Bool) (frames : UInt32)
    (sourceStep : ℚ) : (ring.readResampled buffer frames sourceStep).2.2 = ring ∨
      ring.Advanced (ring.readResampled buffer frames sourceStep).2.2 := by
  by_cases h : buffer = false ∧ frames ≠ 0
  · left
    rw [readResampled, if_pos h]
  · right
    have hsame : ring.readResampled buffer frames sourceStep =
        ring.readResampled true frames sourceStep := by
      rw [readResampled, readResampled, if_neg h, if_neg (by simp)]
    rw [hsame]
    exact ring.readResampled_advanced frames sourceStep

theorem call_advanced_or (hf : 0 ≤ ring.readFraction ∧ ring.readFraction < 1) (c : Call α) :
    (ring.call c).2.2 = ring ∨ ring.Advanced (ring.call c).2.2 ∨
      ∃ source frames, c = .write (some source) frames := by
  cases c with
  | write interleaved frames =>
    cases interleaved with
    | none => exact .inl rfl
    | some source => exact .inr (.inr ⟨source, frames, rfl⟩)
  | read buffer frames => exact (read_advanced_or hf buffer frames).imp_right .inl
  | readResampled buffer frames sourceStep =>
    exact (ring.readResampled_advanced_or buffer frames sourceStep).imp_right .inl
  | advanceResampled frames sourceStep =>
    exact .inr (.inl (ring.advanceResampled_advanced frames sourceStep))

end Calls

theorem Steady.write (h : Steady ring) (source : List α) (frames : UInt32) :
    Steady (ring.write (some source) frames).2 := by
  by_cases h₀ : frames = 0
  · subst h₀
    exact h
  · have hq := h.queued_le
    refine ⟨?_, ?_, ?_⟩
    · rw [write_capacityFrames ring source h₀]
      exact h.capacity_le
    · rw [write_queued source h₀ hq, write_capacityFrames ring source h₀, write_count ring source h₀ hq]
      omega
    · rw [write_readFraction ring source h₀]
      exact h.fraction

theorem construct_steady [Zero α] {capacityFrames channels : UInt32}
    (h : construct capacityFrames channels = .ok ring) : Steady ring := by
  obtain ⟨hshape, -, -, hwrite, hread, hfraction⟩ := construct_ok h
  refine ⟨hshape.capacity_le, ?_, ?_⟩
  · rw [queued, hwrite, hread]
    exact Nat.zero_le _
  · rw [hfraction]
    norm_num

section Runs

variable [Zero α] [Add α] [Sub α] [Mul α] [RatCast α]

theorem Steady.call (h : Steady ring) (c : Call α) : Steady (ring.call c).2.2 := by
  obtain hsame | hadvanced | ⟨source, frames, rfl⟩ := call_advanced_or h.fraction c
  · rw [hsame]
    exact h
  · exact h.advanced hadvanced
  · exact h.write source frames

theorem Steady.use (h : Steady ring) {c : Call α} (hc : use ring c = some next) : Steady next := by
  rw [AudioOutputRing.use, Option.ite_none_right_eq_some] at hc
  obtain ⟨-, hcall⟩ := hc
  cases hcall
  exact h.call c

theorem run_steady {capacityFrames channels : UInt32}
    (h : construct capacityFrames channels = .ok ring) {calls : List (Call α)}
    (hrun : Run use ring calls next) : Steady next :=
  hrun.invariant (construct_steady h) fun _ _ _ hs hu ↦ hs.use hu

/-- In every state a ring can get into: a resampled read may be made in two calls,
and either of them may be a skip, without a difference to what the other delivers
or to where the read position ends. -/
theorem readResampled_splits {capacityFrames channels : UInt32}
    (h : construct capacityFrames channels = .ok ring) {calls : List (Call α)}
    (hrun : Run use ring calls next) {sourceStep : ℚ} (hs : 1 / 2 ≤ sourceStep)
    (hs' : sourceStep ≤ 3 / 2) {m n total : UInt32} (htotal : total.toNat = m.toNat + n.toNat)
    (hfull : (next.readResampled true total sourceStep).1 = total) :
    (next.readResampled true m sourceStep).1 = m ∧
    ((next.readResampled true m sourceStep).2.2.readResampled true n sourceStep).1 = n ∧
    (next.readResampled true m sourceStep).2.1 ++
        ((next.readResampled true m sourceStep).2.2.readResampled true n sourceStep).2.1 =
      (next.readResampled true total sourceStep).2.1 ∧
    ((next.readResampled true m sourceStep).2.2.readResampled true n sourceStep).2.2 =
      (next.readResampled true total sourceStep).2.2 ∧
    (next.advanceResampled m sourceStep).readResampled true n sourceStep =
      (next.readResampled true m sourceStep).2.2.readResampled true n sourceStep ∧
    (next.readResampled true m sourceStep).2.2.advanceResampled n sourceStep =
      (next.readResampled true total sourceStep).2.2 :=
  (run_steady h hrun).readResampled_split hs hs' htotal hfull

end Runs

theorem readResampled_splits_after_write : ∃ ring : AudioOutputRing ℚ, construct 4 1 = .ok ring ∧
    Run use ring [.write (some [1, 2, 3]) 3] (ring.write (some [1, 2, 3]) 3).2 ∧
    ((ring.write (some [1, 2, 3]) 3).2.readResampled true 2 (3 / 2)).1 = 2 ∧
    ((ring.write (some [1, 2, 3]) 3).2.advanceResampled 1 (3 / 2)).readResampled true 1 (3 / 2) =
      ((ring.write (some [1, 2, 3]) 3).2.readResampled true 1 (3 / 2)).2.2.readResampled true 1 (3 / 2) := by
  have hrun (ring : AudioOutputRing ℚ) (h : ring.channels = 1) :
      Run use ring [.write (some [1, 2, 3]) 3] (ring.write (some [1, 2, 3]) 3).2 :=
    .one (if_pos (show 3 = 3 * ring.channels.toNat by rw [h]; decide))
  have htotal : (2 : UInt32).toNat = (1 : UInt32).toNat + (1 : UInt32).toNat := rfl
  refine ⟨_, rfl, hrun _ rfl, by decide +kernel, ?_⟩
  exact (readResampled_splits (show construct 4 1 = .ok _ from rfl) (hrun _ rfl) (by norm_num)
    (by norm_num) htotal (by decide +kernel)).2.2.2.2.1

variable {accepted : List α} {W R : ℕ}

theorem Keeps.advanced (h : ring.Keeps accepted W R) (ha : ring.Advanced next) :
    ∃ R', next.Keeps accepted W R' := by
  cases ha with
  | moved consumed fraction hle _ =>
    have horder : R ≤ W := h.order
    rw [h.queued] at hle
    exact ⟨_, h.consume (by omega) fraction⟩

theorem construct_keeps [Zero α] {capacityFrames channels : UInt32}
    (h : construct capacityFrames channels = .ok ring) (hd : capacityFrames.toNat ∣ 2 ^ 32) :
    ring.Keeps [] 0 0 := by
  obtain ⟨hshape, hcap, -, hwrite, hread, -⟩ := construct_ok h
  rw [Keeps, List.take_nil]
  exact (RingInterleaving.initial_inv hshape (by rwa [hcap]) hwrite hread).stored

section Runs

variable [Zero α] [Add α] [Sub α] [Mul α] [RatCast α]

theorem Keeps.call (h : ring.Keeps accepted W R)
    (hf : 0 ≤ ring.readFraction ∧ ring.readFraction < 1) {c : Call α} (hc : c.Fits ring.channels) :
    ∃ accepted' W' R', (ring.call c).2.2.Keeps accepted' W' R' := by
  obtain hsame | hadvanced | ⟨source, frames, rfl⟩ := call_advanced_or hf c
  · rw [hsame]
    exact ⟨_, _, _, h⟩
  · obtain ⟨R', h'⟩ := h.advanced hadvanced
    exact ⟨_, _, R', h'⟩
  · exact ⟨_, _, _, h.write hc⟩

theorem run_keeps {capacityFrames channels : UInt32}
    (h : construct capacityFrames channels = .ok ring) (hd : capacityFrames.toNat ∣ 2 ^ 32)
    {calls : List (Call α)} (hrun : Run use ring calls next) :
    ∃ accepted W R, next.Keeps accepted W R := by
  have hboth : Steady next ∧ ∃ accepted W R, next.Keeps accepted W R := by
    refine hrun.invariant (I := fun ring ↦ Steady ring ∧ ∃ accepted W R, ring.Keeps accepted W R)
      ⟨construct_steady h, [], 0, 0, construct_keeps h hd⟩ ?_
    rintro ring c next ⟨hsteady, accepted, W, R, hkeeps⟩ hc
    have hnext := hsteady.use hc
    rw [AudioOutputRing.use, Option.ite_none_right_eq_some] at hc
    obtain ⟨hfits, hcall⟩ := hc
    cases hcall
    exact ⟨hnext, hkeeps.call hsteady.fraction hfits⟩
  exact hboth.2

end Runs

theorem Keeps.read (h : ring.Keeps accepted W R) {frames : UInt32} (h₀ : frames ≠ 0) :
    (ring.read true frames).2.1 = slice accepted (R * ring.channels.toNat)
      ((ring.read true frames).1.toNat * ring.channels.toNat) := by
  have hgrant := RingInterleaving.Stored.grant h frames
  have hout := hgrant.copyOut h
  rw [← hgrant.copyOutFirst h] at hout
  rw [read_eq _ h₀]
  exact hout

theorem Keeps.read_keeps (h : ring.Keeps accepted W R) {frames : UInt32} (h₀ : frames ≠ 0) :
    R + (ring.read true frames).1.toNat ≤ W ∧
      (ring.read true frames).2.2.Keeps accepted W (R + (ring.read true frames).1.toNat) := by
  have horder : R ≤ W := h.order
  have hcount : (ring.read true frames).1.toNat ≤ W - R := by
    rw [read_count ring h₀, ← h.queued]
    exact Nat.min_le_right _ _
  have hkeeps := h.consume (n := (ring.read true frames).1.toNat) (by omega) ring.readFraction
  refine ⟨by omega, ?_⟩
  rw [read_fields ring h₀]
  rwa [UInt32.ofNat_toNat] at hkeeps

theorem flatMap_slices (xs : List α) (base channels n : ℕ) :
    ((List.range n).flatMap fun k ↦ slice xs ((base + k) * channels) channels) =
      slice xs (base * channels) (n * channels) := by
  induction n with
  | zero => simp [slice]
  | succ n ih =>
    rw [List.range_succ, List.flatMap_append, ih, List.flatMap_singleton, Nat.add_one_mul, slice_add,
      Nat.add_mul]

section Unit

variable [Zero α] [Add α] [Sub α] [Mul α] [RatCast α]

/-- What a sample becomes where nothing of the next one is mixed in. -/
def held (x : α) : α := x + ((0 : ℚ) : α) * (x - x)

theorem frame_whole {n channels : ℕ} (h : (n + 1) * channels ≤ accepted.length) :
    Origin.frame accepted channels ⟨n, n, 0⟩ = (slice accepted (n * channels) channels).map held := by
  rw [Nat.add_one_mul] at h
  apply List.ext_getElem?
  intro i
  rw [List.getElem?_map]
  by_cases hi : i < channels
  · rw [getElem?_slice hi, List.getElem?_eq_getElem (show n * channels + i < accepted.length by omega)]
    simp [Origin.frame, hi, held,
      List.getElem?_eq_getElem (show n * channels + i < accepted.length by omega)]
  · rw [List.getElem?_eq_none (by simpa [Origin.frame] using hi),
      List.getElem?_eq_none (by rw [slice, List.length_take]; omega)]
    rfl

variable (hf : ring.readFraction = 0)
include hf

omit [Zero α] [Add α] [Sub α] [Mul α] [RatCast α] in
theorem unit_position (k : ℕ) : ring.readFraction + k * 1 = k := by
  rw [hf, zero_add, mul_one]

omit [Zero α] [Add α] [Sub α] [Mul α] [RatCast α] in
theorem reaches_unit {n : ℕ} (hn : n ≤ ring.queued) : ring.Reaches 1 n := by
  intro k hk
  rw [unit_position hf, Nat.floor_natCast]
  omega

theorem Steady.resampleLoop_unit (h : Steady ring) (n : ℕ) :
    ring.resampleLoop ring.readFrame ring.availableFrames 1 n ⟨0, ring.readFraction, []⟩ =
      { produced := min n ring.queued
        phase := (min n ring.queued : ℕ)
        interleaved := ring.resampledFrames 1 (min n ring.queued) } := by
  have hreach := reaches_unit hf (Nat.min_le_right n ring.queued)
  have hloop := resampleLoop_eq ring 1 ring.readFrame ring.availableFrames (min n ring.queued)
    ⟨0, ring.readFraction, []⟩ (by rw [h.available]; exact hreach)
  dsimp only at hloop
  rw [Nat.zero_add, unit_position hf, List.nil_append] at hloop
  have hsplit : n = min n ring.queued + (n - min n ring.queued) := by omega
  nth_rewrite 1 [hsplit]
  rw [resampleLoop_add, hloop, ← resampledFrames]
  cases hrest : n - min n ring.queued with
  | zero => rfl
  | succ rest =>
    have hall : min n ring.queued = ring.queued := by omega
    have hq : (ring.queued : ℚ) < 2 ^ 32 := by
      have hlt := h.queued_le.trans_lt h.capacity_le
      exact_mod_cast hlt.trans (by norm_num)
    refine resampleLoop_stop ring 1 ring.readFrame ring.availableFrames ?_ _
    rw [hall, truncate_ge_iff hq, Nat.floor_natCast, h.available]
    exact lt_irrefl _

/-- At unit speed and on a whole frame, a resampled read delivers what is queued. -/
theorem Steady.readResampled_unit (h : Steady ring) (frames : UInt32) :
    ring.readResampled true frames 1 = (UInt32.ofNat (min frames.toNat ring.queued),
      ring.resampledFrames 1 (min frames.toNat ring.queued),
      { ring with readFrame := ring.readFrame + UInt32.ofNat (min frames.toNat ring.queued) }) := by
  have hloop := h.resampleLoop_unit hf frames.toNat
  have hlt : ((min frames.toNat ring.queued : ℕ) : ℚ) < 2 ^ 32 := by
    have hframes := frames.toNat_lt
    exact_mod_cast (Nat.min_le_left _ _).trans_lt hframes
  have hconsumed := consumed_eq h.queued_le hlt
  rw [Nat.floor_natCast, Nat.min_eq_left (Nat.min_le_right frames.toNat ring.queued)] at hconsumed
  rw [availableFrames] at hloop hconsumed
  simp only [readResampled, Bool.true_eq_false, false_and, if_false,
    usableStep_eq (show (1 / 2 : ℚ) ≤ 1 by norm_num) (by norm_num), hloop, hconsumed,
    Int.floor_natCast, Int.cast_natCast, sub_self]
  rw [← hf]

theorem Keeps.resampledFrames_unit (h : ring.Keeps accepted W R) {n : ℕ} (hn : n ≤ ring.queued) :
    ring.resampledFrames 1 n =
      (slice accepted (R * ring.channels.toNat) (n * ring.channels.toNat)).map held := by
  have havail : ring.availableFrames.toNat = W - R := by
    rw [availableFrames_toNat h.queued_le, h.queued]
  have horder : R ≤ W := h.order
  have hlength : accepted.length = W * ring.channels.toNat := h.accepted_length
  have hcap : W - R < 2 ^ 32 := h.queued ▸ (ring.writeFrame - ring.readFrame).toNat_lt
  rw [h.queued] at hn
  rw [← flatMap_slices, resampledFrames, List.map_flatMap]
  refine List.flatMap_congr fun k hk ↦ ?_
  have hk' := List.mem_range.mp hk
  have hkQ : (k : ℚ) < 2 ^ 32 := by exact_mod_cast (show k < 2 ^ 32 by omega)
  have htrunc : (truncate (k : ℚ)).toNat = k := by rw [truncate_of_lt hkQ, Nat.floor_natCast]
  rw [unit_position hf, h.resampledFrame (by omega)
    (by rw [truncate_ge_iff hkQ, Nat.floor_natCast, not_not, havail]; omega), htrunc, sub_self,
    if_neg (fun hpos ↦ absurd hpos.1 (lt_irrefl 0)), UInt32.add_zero, htrunc]
  refine frame_whole ?_
  rw [hlength]
  exact Nat.mul_le_mul_right _ (by omega)

end Unit

/-- In every state a ring can get into with the read position on a whole frame, a
resampled read at unit speed returns as much as a plain read and leaves the ring
the same, and a sample it delivers is equal to the plain one just if that is finite. -/
theorem readResampled_unit_eq_read {ring next : AudioOutputRing Binary32}
    {capacityFrames channels : UInt32}
    (h : construct capacityFrames channels = .ok ring) (hd : capacityFrames.toNat ∣ 2 ^ 32)
    {calls : List (Call Binary32)} (hrun : Run use ring calls next) (hf : next.readFraction = 0)
    {frames : UInt32} (h₀ : frames ≠ 0) :
    (next.readResampled true frames 1).1 = (next.read true frames).1 ∧
      (next.readResampled true frames 1).2.2 = (next.read true frames).2.2 ∧
      (next.read true frames).2.2.readFraction = 0 ∧
      List.Forall₂ (fun resampled sample ↦ resampled.Equal sample ↔ sample.IsFinite)
        (next.readResampled true frames 1).2.1 (next.read true frames).2.1 := by
  obtain ⟨accepted, W, R, hkeeps⟩ := run_keeps h hd hrun
  have hfields := read_fields next h₀
  have hcount := read_count next h₀
  rw [(run_steady h hrun).readResampled_unit hf, hkeeps.resampledFrames_unit hf (Nat.min_le_right _ _),
    ← hcount, ← hkeeps.read h₀, UInt32.ofNat_toNat]
  refine ⟨rfl, hfields.symm, by rw [hfields]; exact hf, ?_⟩
  rw [List.forall₂_map_left_iff]
  exact List.forall₂_same.mpr fun x _ ↦ Binary32.equal_interpolate_self x

def wrappingCalls : List (Call Binary32) :=
  [.write (some [(1 : ℚ), (2 : ℚ)]) 2, .read true 1, .write (some [(3 : ℚ)]) 1]

theorem readResampled_unit_eq_read_wrapped : ∃ ring : AudioOutputRing Binary32,
    construct 2 1 = .ok ring ∧ ∃ next, Run use ring wrappingCalls next ∧ next.readFraction = 0 ∧
      (next.readResampled true 2 1).2.2 = (next.read true 2).2.2 := by
  refine ⟨_, rfl, ?_⟩
  have hany : (wrappingCalls.foldlM use ⟨2, 1, [0, 0], 0, 0, 0⟩).any (·.readFraction = 0) = true := by
    decide +kernel
  obtain ⟨next, hfold, hf⟩ := (Option.any_eq_true _ _).mp hany
  have hrun := Run.of_foldlM hfold
  exact ⟨next, hrun, of_decide_eq_true hf, (readResampled_unit_eq_read
    (show construct 2 1 = .ok _ from rfl) (by decide) hrun (of_decide_eq_true hf) (by decide)).2.1⟩

def unusualCalls : List (Call Binary32) :=
  [.write (some [.infinity false, .zero true]) 2]

/-- What a plain read returns as infinite, a resampled read returns as no number, and a
negative zero loses its sign. -/
theorem infinite_sample_differs : ∃ ring : AudioOutputRing Binary32, construct 2 1 = .ok ring ∧
    ∃ next, Run use ring unusualCalls next ∧ next.readFraction = 0 ∧
      (next.read true 2).2.1 = [.infinity false, .zero true] ∧
      (next.readResampled true 2 1).2.1 = [.nan, .zero false] := by
  refine ⟨_, rfl, ?_⟩
  have hany : (unusualCalls.foldlM use ⟨2, 1, [0, 0], 0, 0, 0⟩).any (fun next ↦
      next.readFraction = 0 ∧ (next.read true 2).2.1 = [.infinity false, .zero true] ∧
        (next.readResampled true 2 1).2.1 = [.nan, .zero false]) = true := by
    decide +kernel
  obtain ⟨next, hfold, hdiffers⟩ := (Option.any_eq_true _ _).mp hany
  exact ⟨next, Run.of_foldlM hfold, of_decide_eq_true hdiffers⟩

end NumarkNS6.AudioOut.AudioOutputRing
