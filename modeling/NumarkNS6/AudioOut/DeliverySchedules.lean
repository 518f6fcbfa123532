import NumarkNS6.AudioOut.RingUse

namespace NumarkNS6.AudioOut.AudioOutputRing

open Foundation.CircularStore Foundation.Runs

/-- A ring that is read at one step, with everything it has delivered. -/
structure Delivery where
  ring : AudioOutputRing ℚ
  output : List ℚ

namespace Delivery

def start (ring : AudioOutputRing ℚ) : Delivery := ⟨ring, []⟩

def Scheduled (sourceStep : ℚ) : Call ℚ → Prop
  | .write (some _) _ => True
  | .readResampled buffer _ step => buffer = true ∧ step = sourceStep
  | _ => False

instance (sourceStep : ℚ) (c : Call ℚ) : Decidable (Scheduled sourceStep c) := by
  cases c with
  | write interleaved frames =>
    cases interleaved with
    | none => exact .isFalse id
    | some source => exact .isTrue trivial
  | readResampled buffer frames step => exact inferInstanceAs (Decidable (_ ∧ _))
  | _ => exact .isFalse id

/-- One call: a write that is accepted in full, or a read that returns its full
count. -/
def call (sourceStep : ℚ) (s : Delivery) (c : Call ℚ) : Option Delivery :=
  let (count, delivered, ring) := s.ring.call c
  if Scheduled sourceStep c ∧ c.Fits s.ring.channels ∧ count = c.frames then
    some { ring, output := s.output ++ delivered }
  else none

def delivered (calls : List (Call ℚ)) : List ℚ := calls.flatMap Call.source

def requests (calls : List (Call ℚ)) : List UInt32 :=
  calls.filterMap fun
    | .readResampled _ frames _ => some frames
    | _ => none

end Delivery

/-- The queue goes past the last read position, so that the frame after it has
arrived wherever it is interpolated. -/
def Settled (ring : AudioOutputRing ℚ) (sourceStep : ℚ) (frames : UInt32) : Prop :=
  frames ≠ 0 → ⌈ring.readFraction + (frames.toNat - 1 : ℕ) * sourceStep⌉₊ < ring.queued

instance (ring : AudioOutputRing ℚ) (sourceStep : ℚ) (frames : UInt32) :
    Decidable (ring.Settled sourceStep frames) :=
  inferInstanceAs (Decidable (_ → _))

def interpolate (source : List ℚ) (channels : ℕ) (position : ℚ) : List ℚ :=
  Origin.frame source channels ⟨⌊position⌋₊, ⌈position⌉₊, position - ⌊position⌋₊⟩

/-- The source resampled as a whole: `n` frames, one every `sourceStep`. -/
def resample (source : List ℚ) (channels : ℕ) (sourceStep : ℚ) (n : ℕ) : List ℚ :=
  (List.range n).flatMap fun k : ℕ ↦ interpolate source channels (k * sourceStep)

variable {ring : AudioOutputRing ℚ} {sourceStep : ℚ}

theorem Settled.lt_queued {frames : UInt32} (h : ring.Settled sourceStep frames)
    (hs : 1 / 2 ≤ sourceStep) {k : ℕ} (hk : k < frames.toNat) :
    ⌈ring.readFraction + k * sourceStep⌉₊ < ring.queued := by
  have h₀ : frames ≠ 0 := by
    rintro rfl
    exact absurd hk (Nat.not_lt_zero k)
  refine lt_of_le_of_lt (Nat.ceil_le_ceil ?_) (h h₀)
  have hle : (k : ℚ) ≤ (frames.toNat - 1 : ℕ) := by exact_mod_cast Nat.le_sub_one_of_lt hk
  have hmul := mul_le_mul_of_nonneg_right hle (by linarith : (0 : ℚ) ≤ sourceStep)
  linarith

theorem Settled.reaches {frames : UInt32} (h : ring.Settled sourceStep frames)
    (hs : 1 / 2 ≤ sourceStep) : ring.Reaches sourceStep frames.toNat :=
  fun _ hk ↦ (Nat.floor_le_ceil _).trans_lt (h.lt_queued hs hk)

theorem Settled.consumed_le {frames : UInt32} (h : ring.Settled sourceStep frames)
    (hring : Steady ring) (hs' : sourceStep ≤ 3 / 2) :
    ⌊ring.readFraction + frames.toNat * sourceStep⌋₊ ≤ ring.queued := by
  by_cases h₀ : frames = 0
  · subst h₀
    rw [UInt32.toNat_zero, Nat.cast_zero, zero_mul, add_zero,
      Nat.floor_eq_zero.mpr hring.fraction.2]
    exact Nat.zero_le _
  · have hlast := h h₀
    have hpos : 0 < frames.toNat := Nat.pos_of_ne_zero fun hz ↦ h₀ (UInt32.toNat.inj hz)
    have hcast : (frames.toNat : ℚ) = (frames.toNat - 1 : ℕ) + 1 := by
      exact_mod_cast (Nat.sub_add_cancel hpos).symm
    have hceil := Nat.le_ceil (ring.readFraction + (frames.toNat - 1 : ℕ) * sourceStep)
    have hfloor : ⌊ring.readFraction + frames.toNat * sourceStep⌋₊ <
        ⌈ring.readFraction + (frames.toNat - 1 : ℕ) * sourceStep⌉₊ + 2 := by
      rw [Nat.floor_lt' (by omega), hcast]
      push_cast
      linarith
    omega

theorem ceil_of_floor_lt {position : ℚ} (h : (⌊position⌋₊ : ℚ) < position) :
    ⌈position⌉₊ = ⌊position⌋₊ + 1 := by
  refine le_antisymm (Nat.ceil_le_floor_add_one position) ?_
  rw [Nat.succ_le_iff, Nat.lt_ceil]
  exact h

theorem ceil_of_floor_eq {position : ℚ} (h : (⌊position⌋₊ : ℚ) = position) :
    ⌈position⌉₊ = ⌊position⌋₊ := by
  nth_rewrite 1 [← h]
  exact Nat.ceil_natCast _

variable {accepted : List ℚ} {W R : ℕ}

theorem Keeps.resampledFrame_settled (h : ring.Keeps accepted W R) {phase : ℚ} (h₀ : 0 ≤ phase)
    (hphase : ⌈phase⌉₊ < ring.queued) :
    ring.resampledFrame ring.readFrame ring.availableFrames phase =
      interpolate accepted ring.channels.toNat (R + phase) := by
  have hfloor : ⌊phase⌋₊ < ring.queued := (Nat.floor_le_ceil phase).trans_lt hphase
  have havail : ring.availableFrames.toNat = ring.queued := availableFrames_toNat h.queued_le
  have hlt : phase < 2 ^ 32 := by
    rw [← havail] at hfloor
    exact (lt_of_floor_lt hfloor).2
  have hsecond : (truncate phase + if phase - ((truncate phase).toNat : ℚ) > 0 ∧
      truncate phase + 1 < ring.availableFrames then 1 else 0).toNat = ⌈phase⌉₊ := by
    obtain hpos | hzero := (Nat.floor_le h₀).lt_or_eq
    · have hone : (truncate phase + 1).toNat = ⌈phase⌉₊ := by
        rw [UInt32.toNat_add, truncate_of_lt hlt, ceil_of_floor_lt hpos]
        rw [ceil_of_floor_lt hpos, ← havail] at hphase
        exact Nat.mod_eq_of_lt (hphase.trans ring.availableFrames.toNat_lt)
      have hnext : truncate phase + 1 < ring.availableFrames := by
        rw [UInt32.lt_iff_toNat_lt, hone, havail]
        exact hphase
      have hfract : phase - ((truncate phase).toNat : ℚ) > 0 := by
        rw [truncate_of_lt hlt]
        exact sub_pos.mpr hpos
      rw [if_pos ⟨hfract, hnext⟩, hone]
    · rw [if_neg, UInt32.add_zero, truncate_of_lt hlt, ceil_of_floor_eq hzero]
      rw [truncate_of_lt hlt, hzero, sub_self]
      exact fun hpos ↦ absurd hpos.1 (lt_irrefl 0)
  have horder : R ≤ W := h.order
  have hqueued := h.queued
  rw [h.resampledFrame (by omega) (by rw [truncate_ge_iff hlt, not_not, havail]; exact hfloor),
    hsecond, truncate_of_lt hlt, interpolate, add_comm (R : ℚ), Nat.floor_add_natCast h₀,
    Nat.ceil_add_natCast h₀, add_comm R, add_comm R]
  congr 2
  push_cast
  ring

theorem interpolate_append {channels n : ℕ} {position : ℚ}
    (hlength : accepted.length = n * channels) (hpos : 0 < channels) (h : ⌈position⌉₊ < n)
    (more : List ℚ) :
    interpolate (accepted ++ more) channels position = interpolate accepted channels position := by
  have hn : accepted.length / channels = n := by rw [hlength, Nat.mul_div_cancel n hpos]
  refine Origin.frame_append ?_ ?_ more
  · rw [hn]
    exact (Nat.floor_le_ceil position).trans_lt h
  · rw [hn]
    exact h

namespace Delivery

def settledCall (sourceStep : ℚ) (s : Delivery) (c : Call ℚ) : Option Delivery :=
  match c with
  | .readResampled _ frames _ =>
    if s.ring.Settled sourceStep frames then call sourceStep s c else none
  | _ => call sourceStep s c

/-- The delivery is where `total` frames of the whole source end: `total * sourceStep`
source frames have been passed, all read positions had both their frames, and the
output is the source resampled, as far as it has arrived. -/
structure Tracks (sourceStep : ℚ) (channels : ℕ) (source : List ℚ) (total : ℕ) (s : Delivery)
    (W R : ℕ) : Prop where
  steady : Steady s.ring
  channels_eq : s.ring.channels.toNat = channels
  keeps : s.ring.Keeps source W R
  position : R + s.ring.readFraction = total * sourceStep
  arrived : ∀ k < total, ⌈(k : ℚ) * sourceStep⌉₊ < W
  output : s.output = resample source channels sourceStep total

variable {channels total : ℕ} {source : List ℚ} {s : Delivery}

theorem Tracks.write (h : Tracks sourceStep channels source total s W R) {interleaved : List ℚ}
    {frames : UInt32} (hlength : interleaved.length = frames.toNat * s.ring.channels.toNat)
    (hall : (s.ring.write (some interleaved) frames).1 = frames) :
    Tracks sourceStep channels (source ++ interleaved) total
      { s with ring := (s.ring.write (some interleaved) frames).2 } (W + frames.toNat) R := by
  obtain ⟨-, hchannels, hfraction⟩ := h.keeps.write_count_le interleaved frames
  have hkeeps := h.keeps.write hlength
  rw [hall, ← hlength, List.take_length] at hkeeps
  refine ⟨h.steady.write interleaved frames, ?_, hkeeps, ?_, ?_, ?_⟩
  · rw [hchannels]
    exact h.channels_eq
  · rw [hfraction]
    exact h.position
  · exact fun k hk ↦ (h.arrived k hk).trans_le (Nat.le_add_right W _)
  · have hsource : source.length = W * channels := by
      rw [← h.channels_eq]
      exact h.keeps.accepted_length
    have hpos : 0 < channels := by
      rw [← h.channels_eq]
      exact h.keeps.shape.channels_pos
    rw [h.output, resample, resample]
    refine List.flatMap_congr fun k hk ↦ ?_
    exact (interpolate_append hsource hpos (h.arrived k (List.mem_range.mp hk)) interleaved).symm

theorem Tracks.position_add (h : Tracks sourceStep channels source total s W R) (k : ℕ) :
    R + (s.ring.readFraction + k * sourceStep) = ((total + k : ℕ) : ℚ) * sourceStep := by
  rw [← add_assoc, h.position]
  push_cast
  ring

section Steps

variable (hs : 1 / 2 ≤ sourceStep) (hs' : sourceStep ≤ 3 / 2)
include hs

theorem Tracks.resampledFrames (h : Tracks sourceStep channels source total s W R)
    {frames : UInt32} (hsettled : s.ring.Settled sourceStep frames) :
    resample source channels sourceStep total ++ s.ring.resampledFrames sourceStep frames.toNat =
      resample source channels sourceStep (total + frames.toNat) := by
  rw [resample, resample, AudioOutputRing.resampledFrames, List.range_add, List.flatMap_append,
    List.flatMap_map]
  congr 1
  refine List.flatMap_congr fun k hk ↦ ?_
  rw [h.keeps.resampledFrame_settled (h.steady.position_nonneg hs k)
    (hsettled.lt_queued hs (List.mem_range.mp hk)), h.position_add, h.channels_eq]

include hs'

theorem Tracks.readResampled (h : Tracks sourceStep channels source total s W R)
    {frames : UInt32} (hsettled : s.ring.Settled sourceStep frames) :
    ∃ R', Tracks sourceStep channels source (total + frames.toNat)
      { ring := (s.ring.readResampled true frames sourceStep).2.2
        output := s.output ++ (s.ring.readResampled true frames sourceStep).2.1 } W R' := by
  have hreaches := hsettled.reaches hs
  have hadvanced := h.steady.advanced (s.ring.advanceResampled_advanced frames sourceStep)
  have h₀ := h.steady.position_nonneg hs frames.toNat
  have hconsumed := hsettled.consumed_le h.steady hs'
  have heq := h.steady.advanceResampled_eq hs hs' (h.steady.position_lt hs' hreaches).2
  rw [Nat.min_eq_left hconsumed] at heq
  rw [h.steady.readResampled_eq hs hs' hreaches]
  have horder : R ≤ W := h.keeps.order
  have hqueued := h.keeps.queued
  refine ⟨R + ⌊s.ring.readFraction + frames.toNat * sourceStep⌋₊, hadvanced, h.channels_eq, ?_, ?_,
    ?_, ?_⟩
  · dsimp only
    rw [heq]
    exact h.keeps.consume (by omega) _
  · dsimp only
    rw [heq, ← h.position_add]
    dsimp only
    rw [Int.fract, ← natCast_floor_eq_intCast_floor h₀]
    push_cast
    ring
  · intro k hk
    by_cases hold : k < total
    · exact h.arrived k hold
    · obtain ⟨j, rfl⟩ := Nat.exists_eq_add_of_le (not_lt.mp hold)
      have hj := hsettled.lt_queued hs (show j < frames.toNat by omega)
      rw [← h.position_add, add_comm (R : ℚ), Nat.ceil_add_natCast (h.steady.position_nonneg hs j)]
      omega
  · dsimp only
    rw [h.output, h.resampledFrames hs hsettled]

/-- However its deliveries are cut and timed, a run that waits for what it
interpolates delivers the source resampled as a whole. -/
theorem run_tracks {ring : AudioOutputRing ℚ} {capacityFrames channels : UInt32}
    (h : construct capacityFrames channels = .ok ring) (hd : capacityFrames.toNat ∣ 2 ^ 32)
    {calls : List (Call ℚ)} (hrun : Run (settledCall sourceStep) (start ring) calls s) :
    ∃ W R, Tracks sourceStep channels.toNat (delivered calls)
      ((requests calls).map UInt32.toNat).sum s W R := by
  induction hrun with
  | nil =>
    obtain ⟨-, -, hchannels, -, -, hfraction⟩ := construct_ok h
    refine ⟨0, 0, construct_steady h, ?_, construct_keeps h hd, ?_, ?_, rfl⟩
    · rw [start, hchannels]
    · rw [start, hfraction]
      simp [requests]
    · exact fun k hk ↦ absurd hk (Nat.not_lt_zero k)
  | @snoc t u calls c hr hc ih =>
    obtain ⟨W, R, ht⟩ := ih
    cases c with
    | write interleaved frames =>
      simp only [settledCall, call, Option.ite_none_right_eq_some, Option.some.injEq] at hc
      obtain ⟨⟨hscheduled, hlength, hall⟩, rfl⟩ := hc
      cases interleaved with
      | none => exact absurd hscheduled id
      | some source =>
        refine ⟨W + frames.toNat, R, ?_⟩
        simpa [delivered, requests, Call.source, AudioOutputRing.call] using ht.write hlength hall
    | readResampled buffer frames step =>
      simp only [settledCall, call, Option.ite_none_right_eq_some, Option.some.injEq] at hc
      obtain ⟨hsettled, ⟨⟨rfl, rfl⟩, -, -⟩, rfl⟩ := hc
      obtain ⟨R', ht'⟩ := ht.readResampled hs hs' hsettled
      refine ⟨W, R', ?_⟩
      simpa [delivered, requests, Call.source, AudioOutputRing.call] using ht'
    | _ =>
      simp only [settledCall, call, Option.ite_none_right_eq_some] at hc
      exact absurd hc.1.1 id

end Steps

theorem Tracks.readFrame (h : Tracks sourceStep channels source total s W R) :
    s.ring.readFrame = UInt32.ofNat ⌊(total : ℚ) * sourceStep⌋₊ ∧
      s.ring.readFraction = Int.fract ((total : ℚ) * sourceStep) := by
  have hread : s.ring.readFrame = UInt32.ofNat R := h.keeps.readIndex
  have hf := h.steady.fraction
  rw [← h.position, hread, add_comm, Nat.floor_add_natCast hf.1, Nat.floor_eq_zero.mpr hf.2,
    Nat.zero_add, Int.fract_add_natCast, Int.fract_eq_self.mpr hf]
  exact ⟨rfl, rfl⟩

/-- Two runs that cut and time the delivery of one source differently, and make the
same requests, deliver the same and end at the same position, if each read waits
until the frame after its last position has arrived. -/
theorem schedules_agree {ring : AudioOutputRing ℚ} {capacityFrames channels : UInt32}
    (h : construct capacityFrames channels = .ok ring) (hd : capacityFrames.toNat ∣ 2 ^ 32)
    (hs : 1 / 2 ≤ sourceStep) (hs' : sourceStep ≤ 3 / 2) {calls calls' : List (Call ℚ)}
    {s s' : Delivery} (hrun : Run (settledCall sourceStep) (start ring) calls s)
    (hrun' : Run (settledCall sourceStep) (start ring) calls' s')
    (hsource : delivered calls = delivered calls') (hrequests : requests calls = requests calls') :
    s.output = s'.output ∧ s.ring.readFrame = s'.ring.readFrame ∧
      s.ring.readFraction = s'.ring.readFraction := by
  obtain ⟨W, R, ht⟩ := run_tracks hs hs' h hd hrun
  obtain ⟨W', R', ht'⟩ := run_tracks hs hs' h hd hrun'
  rw [hsource, hrequests] at ht
  refine ⟨?_, ?_, ?_⟩
  · rw [ht.output, ht'.output]
  · rw [ht.readFrame.1, ht'.readFrame.1]
  · rw [ht.readFrame.2, ht'.readFrame.2]

/-- The source `0, 1, 2, 3` in one piece, and cut around the read. -/
def whole : List (Call ℚ) := [.write (some [0, 1, 2, 3]) 4, .readResampled true 2 (3 / 2)]

def cut : List (Call ℚ) :=
  [.write (some [0, 1, 2]) 3, .readResampled true 2 (3 / 2), .write (some [3]) 1]

theorem schedules_agree_whole_cut : ∃ ring : AudioOutputRing ℚ, construct 4 1 = .ok ring ∧
    ∃ s s' : Delivery, Run (settledCall (3 / 2)) (start ring) whole s ∧
      Run (settledCall (3 / 2)) (start ring) cut s' ∧ s.output = s'.output := by
  refine ⟨_, rfl, ?_⟩
  have hany (calls : List (Call ℚ)) (h : (calls.foldlM (settledCall (3 / 2))
      (start ⟨4, 1, [0, 0, 0, 0], 0, 0, 0⟩)).isSome = true) :
      ∃ s, Run (settledCall (3 / 2)) (start ⟨4, 1, [0, 0, 0, 0], 0, 0, 0⟩) calls s := by
    obtain ⟨s, hs⟩ := Option.isSome_iff_exists.mp h
    exact ⟨s, Run.of_foldlM hs⟩
  obtain ⟨s, hs⟩ := hany whole (by decide +kernel)
  obtain ⟨s', hs'⟩ := hany cut (by decide +kernel)
  exact ⟨s, s', hs, hs', (schedules_agree (show construct 4 1 = .ok _ from rfl) (by decide)
    (by norm_num) (by norm_num) hs hs' rfl rfl).1⟩

/-- The source `0, 1, 2` all before the read, and its last frame after it. -/
def early : List (Call ℚ) := [.write (some [0, 1, 2]) 3, .readResampled true 2 (3 / 2)]

def late : List (Call ℚ) :=
  [.write (some [0, 1]) 2, .readResampled true 2 (3 / 2), .write (some [2]) 1]

/-- A read at one and a half times the speed from a queue of two frames returns its
full count of two although the second is half way to a frame that has not arrived:
the last frame is held, and the read position ends a whole frame behind. -/
theorem late_schedule_differs : ∃ ring : AudioOutputRing ℚ, construct 4 1 = .ok ring ∧
    ∃ s s' : Delivery, Run (call (3 / 2)) (start ring) early s ∧
      Run (call (3 / 2)) (start ring) late s' ∧ delivered early = delivered late ∧
      requests early = requests late ∧ s.output = [0, 3 / 2] ∧ s'.output = [0, 1] ∧
      s.ring.readFrame = 3 ∧ s'.ring.readFrame = 2 := by
  refine ⟨_, rfl, ?_⟩
  have hearly : (early.foldlM (call (3 / 2)) (start ⟨4, 1, [0, 0, 0, 0], 0, 0, 0⟩)).any
      (fun s ↦ s.output = [0, 3 / 2] ∧ s.ring.readFrame = 3) = true := by decide +kernel
  have hlate : (late.foldlM (call (3 / 2)) (start ⟨4, 1, [0, 0, 0, 0], 0, 0, 0⟩)).any
      (fun s ↦ s.output = [0, 1] ∧ s.ring.readFrame = 2) = true := by decide +kernel
  obtain ⟨s, hs, hs₁⟩ := (Option.any_eq_true _ _).mp hearly
  obtain ⟨s', hs', hs₁'⟩ := (Option.any_eq_true _ _).mp hlate
  obtain ⟨houtput, hread⟩ := of_decide_eq_true hs₁
  obtain ⟨houtput', hread'⟩ := of_decide_eq_true hs₁'
  exact ⟨s, s', Run.of_foldlM hs, Run.of_foldlM hs', rfl, rfl, houtput, houtput', hread, hread'⟩

end Delivery

end NumarkNS6.AudioOut.AudioOutputRing
