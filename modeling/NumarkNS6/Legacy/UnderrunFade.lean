import NumarkNS6.Legacy.OutputRuns

namespace NumarkNS6.Legacy

open Foundation Foundation.Runs NS6Transport NS6TransportShared

namespace NS6Transport

theorem truncate_mem {m n : ℤ} {x : ℚ} (h : (m : ℚ) ≤ x ∧ x ≤ n) : m ≤ truncate x ∧ truncate x ≤ n := by
  unfold truncate
  split_ifs
  · exact ⟨by exact_mod_cast h.1.trans (Int.le_ceil x), Int.ceil_le.mpr h.2⟩
  · exact ⟨Int.le_floor.mpr h.1, by exact_mod_cast (Int.floor_le x).trans h.2⟩

theorem unpack24_pack24 {value : ℤ} (h : -8388608 ≤ value ∧ value ≤ 8388607) :
    unpack24 (pack24 value) = value := by
  rw [unpack24, pack24, BitVec.toInt_ofInt]
  exact Int.bmod_eq_of_le (by omega) (by omega)

end NS6Transport

namespace NS6USB

theorem underrunGain_mem (frame missing : ℕ) :
    0 ≤ underrunGain frame missing ∧ underrunGain frame missing ≤ 1 := by
  unfold underrunGain
  split_ifs with h
  · norm_num
  · have hpos : (0 : ℚ) < missing := by
      have hne : 0 < missing := by omega
      exact_mod_cast hne
    have hlow : ((0 : ℤ) : ℚ) ≤ ((missing - frame - 1 : ℕ) : ℚ) / missing := by
      push_cast
      positivity
    have hhigh : ((missing - frame - 1 : ℕ) : ℚ) / missing ≤ ((1 : ℤ) : ℚ) := by
      rw [Int.cast_one, div_le_one hpos]
      exact_mod_cast (by omega : missing - frame - 1 ≤ missing)
    have hsmall : |((missing - frame - 1 : ℕ) : ℚ) / missing| < 2 ^ 53 := by
      push_cast at hlow hhigh
      rw [abs_of_nonneg hlow]
      linarith
    have hlow' : ((0 : ℤ) : ℚ) ≤ nearestDouble _ := le_nearest (by norm_num) hsmall hlow
    have hhigh' : nearestDouble _ ≤ ((1 : ℤ) : ℚ) := nearest_le (by norm_num) hsmall hhigh
    push_cast at hlow' hhigh'
    exact ⟨hlow', hhigh'⟩

/-- A faded sample lies between silence and the sample it fades from. -/
theorem fadeSample_mem {last : ℤ} (hlast : -8388608 ≤ last ∧ last ≤ 8388607) {gain : ℚ}
    (hgain : 0 ≤ gain ∧ gain ≤ 1) :
    min 0 last ≤ fadeSample last gain ∧ fadeSample last gain ≤ max 0 last := by
  have hlow : (-8388608 : ℚ) ≤ last := by exact_mod_cast hlast.1
  have hhigh : (last : ℚ) ≤ 8388607 := by exact_mod_cast hlast.2
  obtain hpos | hneg := le_total 0 last
  · have hcast : (0 : ℚ) ≤ last := by exact_mod_cast hpos
    have hdown : 0 ≤ (last : ℚ) * gain := mul_nonneg hcast hgain.1
    have hup : (last : ℚ) * gain ≤ last := mul_le_of_le_one_right hcast hgain.2
    have hsmall : |(last : ℚ) * gain| < 2 ^ 53 := by
      rw [abs_of_nonneg hdown]
      linarith
    rw [min_eq_left hpos, max_eq_right hpos]
    exact truncate_mem ⟨le_nearest (by norm_num) hsmall (by exact_mod_cast hdown),
      nearest_le (by norm_num) hsmall hup⟩
  · have hcast : (last : ℚ) ≤ 0 := by exact_mod_cast hneg
    have hup : (last : ℚ) * gain ≤ 0 := mul_nonpos_of_nonpos_of_nonneg hcast hgain.1
    have hdown : (last : ℚ) ≤ last * gain := by
      have hscaled := mul_le_mul_of_nonpos_left hgain.2 hcast
      rwa [mul_one] at hscaled
    have hsmall : |(last : ℚ) * gain| < 2 ^ 53 := by
      rw [abs_of_nonpos hup]
      linarith
    rw [min_eq_right hneg, max_eq_left hneg]
    exact truncate_mem ⟨le_nearest (by norm_num) hsmall hdown,
      nearest_le (by norm_num) hsmall (by exact_mod_cast hup)⟩

theorem fadeSample_zero (last : ℤ) : fadeSample last 0 = 0 := by
  rw [fadeSample, mul_zero, nearestDouble, nearest_zero, truncate, if_neg (lt_irrefl 0), Int.floor_zero]

theorem underrunGain_last (missing : ℕ) : underrunGain missing (missing + 1) = 0 := by
  rw [underrunGain, if_neg (by omega), Nat.add_sub_cancel_left, Nat.sub_self, Nat.cast_zero, zero_div,
    nearestDouble, nearest_zero]

end NS6USB

def Fades (reference frame : Frame) : Prop :=
  ∀ channel, min 0 (unpack24 (reference channel)) ≤ unpack24 (frame channel) ∧
    unpack24 (frame channel) ≤ max 0 (unpack24 (reference channel))

theorem fades_silence (reference : Frame) : Fades reference silence := by
  intro channel
  have hzero : unpack24 (silence channel) = 0 := rfl
  rw [hzero]
  exact ⟨min_le_left _ _, le_max_left _ _⟩

/-- What a gap in the queue sounds like: from the frame before it down to silence. -/
structure Packet.Faded (p : Packet) (reference : Frame) : Prop where
  between : ∀ frame ∈ p.frames.drop p.received, Fades reference frame
  ends : p.received < p.count → (p.frames.drop p.received).getLast? = some silence

namespace NS6USB

variable {b : OutputBuild} {s t : NS6USB} {p : Packet}

theorem standIn_fades {last : Option (Fin 4 → ℤ)} {reference : Frame}
    (h : ∀ sample, last = some sample → sample = fun channel ↦ unpack24 (reference channel))
    (missing : ℕ) : ∀ frame ∈ standIn last missing, Fades reference frame := by
  intro frame hframe
  cases last with
  | none =>
    rw [List.eq_of_mem_replicate hframe]
    exact fades_silence reference
  | some sample =>
    obtain ⟨k, -, rfl⟩ := List.mem_map.mp hframe
    intro channel
    have hrange := unpack24_mem (reference channel)
    have hmem := fadeSample_mem hrange (underrunGain_mem k missing)
    rw [h sample rfl]
    beta_reduce
    rw [unpack24_pack24 ⟨by omega, by omega⟩]
    exact hmem

theorem standIn_ends (last : Option (Fin 4 → ℤ)) {missing : ℕ} (h : 0 < missing) :
    (standIn last missing).getLast? = some silence := by
  obtain ⟨m, rfl⟩ := Nat.exists_eq_succ_of_ne_zero h.ne'
  cases last with
  | none => rw [standIn, List.getLast?_replicate, if_neg (Nat.succ_ne_zero m)]
  | some sample =>
    rw [standIn, fade, List.range_succ, List.map_append, List.map_singleton, List.getLast?_concat]
    refine congrArg some (funext fun channel ↦ ?_)
    rw [underrunGain_last, fadeSample_zero]
    rfl

def sounds (log : List Packet) : List Frame := log.flatMap Packet.frames

theorem sounds_append (log : List Packet) (p : Packet) : sounds (log ++ [p]) = sounds log ++ p.frames := by
  rw [sounds, sounds, List.flatMap_append, List.flatMap_singleton]

/-- The kept sample is that of the frame sent last, but for the one of an earlier session, which
is not heard of: before the first packet either the prefill is awaited or the output is paused.
Every gap has faded. -/
structure Remembers (s : NS6USB) : Prop where
  gate : s.log = [] → s.awaitingAudioPrefill = true ∨ s.outputPaused = true ∧ false ∉ s.pausing
  kept : s.log ≠ [] → ∀ sample, s.lastRecoverySample = some sample → ∃ frame,
    (sounds s.log).getLast? = some frame ∧ sample = fun channel ↦ unpack24 (frame channel)
  faded : ∀ (n : ℕ) (p : Packet), s.log[n]? = some p → p.kind = .audio →
    p.Faded ((sounds (s.log.take n) ++ p.frames.take p.received).getLast?.getD silence)

theorem keptSample_eq_some {sample : Fin 4 → ℤ} (h : s.keptSample = some sample) :
    s.awaitingAudioPrefill = false ∧ s.lastRecoverySample = some sample := by
  rw [keptSample] at h
  cases hawaiting : s.awaitingAudioPrefill with
  | true =>
    rw [hawaiting] at h
    cases h
  | false =>
    rw [hawaiting] at h
    exact ⟨rfl, h⟩

theorem Remembers.recall (h : Remembers s) {received : List Frame}
    (hfirst : s.log = [] → s.awaitingAudioPrefill = false → received ≠ [])
    {last : Option (Fin 4 → ℤ)} (hlast : Recalls s.keptSample received last) {sample : Fin 4 → ℤ}
    (hsample : last = some sample) :
    ∃ frame, (sounds s.log ++ received).getLast? = some frame ∧
      sample = fun channel ↦ unpack24 (frame channel) := by
  obtain ⟨frame, hframe, rfl⟩ | ⟨rfl, hkept⟩ := hlast sample hsample
  · refine ⟨frame, ?_, rfl⟩
    rw [List.getLast?_append, hframe]
    rfl
  · obtain ⟨hawaiting, hsome⟩ := keptSample_eq_some hkept
    rw [List.append_nil]
    exact h.kept (fun hlog ↦ hfirst hlog hawaiting rfl) sample hsome

theorem Remembers.pass (h : Remembers s) {count : UInt32} (hpassed : Passed s t p count)
    (hfirst : s.log = [] → Plays s t p count → s.awaitingAudioPrefill = false →
      (s.shared.dequeueResampled s.readFraction count p.step).1 ≠ []) : Remembers t := by
  refine ⟨?_, ?_, ?_⟩
  · rw [hpassed.log]
    exact fun hnil ↦ absurd hnil (List.append_ne_nil_of_right_ne_nil _ (List.cons_ne_nil _ _))
  · intro _ sample hsample
    obtain hsilent | hplays := hpassed.body
    · rw [hsilent.recovery] at hsample
      cases hsample
    · obtain ⟨last, hframes, hlast, hnone | ⟨hfull, hkept⟩⟩ := hplays.frames
      · rw [hnone] at hsample
        cases hsample
      · have hempty : standIn last (count.toNat - p.received) = [] := by
          rw [← List.length_eq_zero_iff, standIn_length]
          omega
        rw [hpassed.log, sounds_append, hframes, hempty, List.append_nil]
        exact h.recall (hfirst · hplays) hlast (hkept.symm.trans hsample)
  · intro n q hq hkind
    rw [hpassed.log] at hq ⊢
    obtain ⟨hlt, hq⟩ | ⟨rfl, rfl⟩ := getElem?_concat_cases hq
    · rw [List.take_append_of_le_length hlt.le]
      exact h.faded n q hq hkind
    · rw [List.take_left]
      have hplays := hpassed.plays hkind
      obtain ⟨last, hframes, hlast, -⟩ := hplays.frames
      have htake : p.frames.take p.received =
          (s.shared.dequeueResampled s.readFraction count p.step).1 := by
        rw [hframes, hplays.received, List.take_left]
      have hdrop : p.frames.drop p.received = standIn last (count.toNat - p.received) := by
        rw [hframes, hplays.received, List.drop_left]
      refine ⟨?_, ?_⟩
      · rw [hdrop, htake]
        refine standIn_fades ?_ _
        intro sample hsample
        obtain ⟨frame, hframe, rfl⟩ := h.recall (hfirst · hplays) hlast hsample
        rw [hframe]
        rfl
      · intro hless
        rw [hpassed.requested] at hless
        rw [hdrop]
        exact standIn_ends last (by omega)

theorem Remembers.aside (h : Remembers s) (ha : Aside b s t) : Remembers t := by
  refine ⟨?_, ?_, ?_⟩
  · rw [ha.log]
    exact fun hnil ↦ ha.gate (h.gate hnil)
  · rw [ha.log, ha.recovery]
    exact h.kept
  · rw [ha.log]
    exact h.faded

section Runs

variable {memory : NS6TransportShared} {awaiting : Bool} {last : Option (Fin 4 → ℤ)}
  {frames : UInt32} {as : List Action}

/-- A first packet that was not waited for is made because something is queued, and gets it. -/
theorem first_received (h : Run (step b) (start memory awaiting last frames) as t)
    (hs : Remembers s) (hlog : s.log = []) {count : UInt32} (hpassed : Passed s t p count)
    (hplays : Plays s t p count) (hawaiting : s.awaitingAudioPrefill = false) : 0 < p.received := by
  have hpaused : s.outputPaused = true := by
    obtain htrue | ⟨hpaused, -⟩ := hs.gate hlog
    · rw [hawaiting] at htrue
      cases htrue
    · exact hpaused
  have hqueued : p.queued.toNat ≠ 0 := fun hzero ↦ hplays.playing hawaiting
    ⟨hpaused, by rw [← hpassed.queued]; exact UInt32.toNat.inj hzero⟩
  have hone : t.log = [p] := by rw [hpassed.log, hlog, List.nil_append]
  obtain ⟨hposition, hheard⟩ := device_hears_timeline h (by rw [hone]; simp) (n := 0) (p := p)
    (by rw [hone]; rfl) hplays.kind
  have hzero : p.position = 0 := hposition
  have hstarved := hheard.starved
  have hcount := ((run_cadenced h).sized p (by rw [hone]; exact List.mem_singleton_self p)).count
  have hwritten := hheard.queued
  rw [hzero, Nat.floor_zero] at hwritten
  rw [hzero, zero_add] at hstarved
  by_contra hnone
  have hr : p.received = 0 := by omega
  rw [hr, Nat.cast_zero, zero_mul, Nat.ceil_zero] at hstarved
  omega

theorem run_remembers (h : Run (step b) (start memory awaiting last frames) as s) : Remembers s := by
  induction h with
  | nil =>
    refine ⟨fun _ ↦ .inr ⟨rfl, List.not_mem_nil⟩, fun hne ↦ absurd rfl hne, ?_⟩
    intro n p hp
    cases hp
  | @snoc s t as a hrun hstep ih =>
    have hnext := hrun.snoc hstep
    obtain ⟨nowMs, -, rfl⟩ | ha := step_cases hstep
    · obtain ⟨p, hpassed, -, -⟩ := s.pass_passed b nowMs
      refine ih.pass hpassed fun hlog hplays hawaiting hnil ↦ ?_
      have hreceived := first_received hnext ih hlog hpassed hplays hawaiting
      rw [hplays.received, hnil] at hreceived
      exact absurd hreceived (Nat.lt_irrefl 0)
    · exact ih.aside ha

/-- An underrun never gets louder: the frames that stand in for missing ones lie, on every
channel, between silence and the frame the device has heard before them, and the last one
is silence. What an earlier session has left behind does not matter. -/
theorem underrun_fades (h : Run (step b) (start memory awaiting last frames) as s) {n : ℕ}
    (hp : s.log[n]? = some p) (hkind : p.kind = .audio) :
    p.Faded ((sounds (s.log.take n) ++ p.frames.take p.received).getLast?.getD silence) :=
  (run_remembers h).faded n p hp hkind

end Runs

/-- The second of the two packets goes from the last frame it gets down to silence. -/
theorem underrun_fades_short : ∃ s p,
    Run (step adaptive) (start zeroed false (some fun _ ↦ 77) 0) eightFrames s ∧ s.log[1]? = some p ∧
      p.frames.map (fun frame ↦ unpack24 (frame 0)) =
        [4062770, 4849056, 5635341, 3756894, 1878447, 0] ∧
      (p.frames.drop p.received).getLast? = some silence := by
  obtain ⟨s, hs, hlog⟩ := (Option.any_eq_true _ _).mp
    (show (eightFrames.foldlM (step adaptive) (start zeroed false (some fun _ ↦ 77) 0)).any (fun s ↦
      s.log[1]?.any fun p ↦ p.kind == .audio && decide (p.received < p.count) &&
        decide (p.frames.map (fun frame ↦ unpack24 (frame 0)) =
          [4062770, 4849056, 5635341, 3756894, 1878447, 0])) = true by decide +kernel)
  obtain ⟨p, hp, hshort⟩ := (Option.any_eq_true _ _).mp hlog
  simp only [Bool.and_eq_true, beq_iff_eq, decide_eq_true_eq] at hshort
  obtain ⟨⟨hkind, hless⟩, hframes⟩ := hshort
  have hrun := Run.of_foldlM hs
  exact ⟨s, p, hrun, hp, hframes, (underrun_fades hrun hp hkind).ends hless⟩

end NS6USB

end NumarkNS6.Legacy
