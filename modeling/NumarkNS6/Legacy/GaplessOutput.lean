import NumarkNS6.Legacy.OutputRuns

namespace NumarkNS6.Legacy.NS6USB

open Foundation.Runs NS6Transport NS6TransportShared

variable {b : OutputBuild} {s t : NS6USB} {p : Packet}

def acceptedBy (s : NS6USB) : Action → List Frame
  | .enqueue input count format =>
    if (s.shared.enqueue input count format).1 then Fifo.block input count format else []
  | _ => []

/-- The accepted blocks of a run, one after the other. -/
def written (b : OutputBuild) (s : NS6USB) : List Action → List Frame
  | [] => []
  | a :: as => s.acceptedBy a ++ ((step b s a).map fun t ↦ written b t as).getD []

theorem written_snoc {as : List Action} (h : Run (step b) s as t) (a : Action) :
    written b s (as ++ [a]) = written b s as ++ t.acceptedBy a := by
  have hfold := h.foldlM_eq
  clear h
  induction as generalizing s with
  | nil =>
    cases hfold
    cases hstep : step b t a with
    | none =>
      simp only [List.nil_append, written, hstep, Option.map_none, Option.getD_none, List.append_nil]
    | some u =>
      simp only [List.nil_append, written, hstep, Option.map_some, Option.getD_some, List.append_nil]
  | cons a' as ih =>
    rw [List.foldlM_cons, Option.bind_eq_bind, Option.bind_eq_some_iff] at hfold
    obtain ⟨u, hu, hrest⟩ := hfold
    simp only [List.cons_append, written, hu, Option.map_some, Option.getD_some]
    rw [ih hrest, List.append_assoc]

theorem step_timeline {a : Action} (h : step b s a = some t)
    (hcursor : s.shared.readCursor.toNat ≤ s.timeline.length) :
    t.timeline = s.timeline ++ s.acceptedBy a := by
  have hnothing : s.timeline = s.timeline ++ [] := (List.append_nil _).symm
  cases a with
  | pass nowMs =>
    simp only [step] at h
    split_ifs at h
    cases h
    obtain ⟨p, hpassed, -, -⟩ := s.pass_passed b nowMs
    exact hpassed.timeline.trans hnothing
  | finishFill =>
    simp only [step] at h
    split_ifs at h
    cases h
    exact hnothing
  | enqueue input count format =>
    cases h
    rw [enqueue, acceptedBy]
    simp only
    split_ifs
    · exact lay_of_le hcursor _
    · exact hnothing
  | setPaused paused =>
    cases h
    unfold setPaused
    split_ifs
    · exact hnothing
    · exact hnothing
  | storePaused call =>
    simp only [step] at h
    split at h
    · cases h
    · cases h
      exact hnothing
  | setStartupBufferFrames frames =>
    cases h
    exact hnothing
  | requestRestart =>
    cases h
    exact hnothing
  | requestRecovery =>
    cases h
    exact hnothing
  | recover =>
    cases h
    exact hnothing
  | feedback framesPerMs nowMs =>
    cases h
    unfold feedback
    by_cases hvalid : NS6ClockControl.feedbackValueIsValid framesPerMs = true
    · rw [if_pos hvalid]
      exact hnothing
    · rw [if_neg hvalid]
      exact hnothing

section Runs

variable {memory : NS6TransportShared} {awaiting : Bool} {last : Option (Fin 4 → ℤ)}
  {frames : UInt32} {as : List Action}

/-- While no packet falls short, the reader stays behind the writer, and what has been
accepted stands on the timeline without a gap. -/
theorem run_gapless (h : Run (step b) (start memory awaiting last frames) as s)
    (hlen : s.log.length < 2 ^ 59) (hfull : ∀ p ∈ s.log, p.missing = 0) :
    s.position < s.timeline.length + 1 ∧
      s.timeline = written b (start memory awaiting last frames) as := by
  induction h with
  | nil =>
    refine ⟨?_, rfl⟩
    rw [start_follows.position]
    exact zero_lt_one.trans_le (le_add_of_nonneg_left (Nat.cast_nonneg _))
  | @snoc u t as a hrun hstep ih =>
    have hfollows := run_follows (hrun.snoc hstep) hlen
    have hcadenced := run_cadenced (hrun.snoc hstep)
    have hbefore : ∀ q, t.log = u.log ++ q →
        u.log.length < 2 ^ 59 ∧ ∀ p ∈ u.log, p.missing = 0 := by
      intro q hq
      rw [hq] at hlen hfull
      rw [List.length_append] at hlen
      exact ⟨by omega, fun p hp ↦ hfull p (List.mem_append_left _ hp)⟩
    obtain ⟨q, hlog⟩ : ∃ q, t.log = u.log ++ q := by
      obtain ⟨nowMs, -, rfl⟩ | haside := step_cases hstep
      · obtain ⟨p, hpassed, -, -⟩ := u.pass_passed b nowMs
        exact ⟨[p], hpassed.log⟩
      · exact ⟨[], haside.log.trans (List.append_nil _).symm⟩
    obtain ⟨hulen, hufull⟩ := hbefore q hlog
    have hu := run_follows hrun hulen
    obtain ⟨hbehind, htimeline⟩ := ih hulen hufull
    have hcursor : u.shared.readCursor.toNat ≤ u.timeline.length := by
      have hunit := hu.unit.1
      rw [NS6USB.position] at hbehind
      have hcast : ((u.shared.readCursor.toNat : ℕ) : ℚ) < ((u.timeline.length + 1 : ℕ) : ℚ) := by
        push_cast
        linarith
      exact Nat.lt_succ_iff.mp (by exact_mod_cast hcast)
    have hgrown := step_timeline hstep hcursor
    refine ⟨?_, ?_⟩
    · have hgrow : (u.timeline.length : ℚ) ≤ t.timeline.length := by
        rw [hgrown, List.length_append]
        exact_mod_cast Nat.le_add_right _ _
      obtain ⟨nowMs, -, rfl⟩ | haside := step_cases hstep
      · obtain ⟨p, hpassed, -, -⟩ := u.pass_passed b nowMs
        have hlast : (u.pass b nowMs).log[u.log.length]? = some p := by
          rw [hpassed.log]
          exact List.getElem?_concat_length
        have hmem := List.mem_of_getElem? hlast
        rw [hfollows.position, hpassed.log, played_append, ← hu.position, Packet.advance]
        split_ifs with hkind
        · obtain ⟨-, hheard⟩ := hfollows.heard _ _ hlast hkind
          have hsized := hcadenced.sized p hmem
          rw [← hpassed.position]
          exact hheard.advance_lt hsized (hsized.received_eq hkind (hfull p hmem))
        · rw [add_zero]
          linarith
      · rw [hfollows.position, haside.log, ← hu.position]
        linarith
    · rw [hgrown, written_snoc hrun, ← htimeline]

/-- As long as no packet falls short, the device hears the accepted blocks one after the
other, resampled as one stream: each audio packet goes on where the last one has ended. -/
theorem device_hears_written (h : Run (step b) (start memory awaiting last frames) as s)
    (hlen : s.log.length < 2 ^ 59) (hfull : ∀ p ∈ s.log, p.missing = 0) {n : ℕ} {p : Packet}
    (hp : s.log[n]? = some p) (hkind : p.kind = .audio) :
    p.frames = (List.range p.count).map fun k : ℕ ↦
      interpolate (written b (start memory awaiting last frames) as)
        (played (s.log.take n) + k * p.step) := by
  have hmem := List.mem_of_getElem? hp
  have hsized := (run_cadenced h).sized p hmem
  have hall := hsized.received_eq hkind (hfull p hmem)
  obtain ⟨hposition, hheard⟩ := (run_follows h hlen).heard n p hp hkind
  have hframes := hheard.frames
  rw [hall, List.take_of_length_le hsized.length.le, hposition, (run_gapless h hlen hfull).2] at hframes
  exact hframes

end Runs

def oneFull : List Action :=
  [.enqueue (some fun i ↦ UInt8.ofNat i) 8 (some ⟨0, 12, 4, 24⟩), .pass 0]

theorem device_hears_written_block : ∃ s p,
    Run (step adaptive) (start zeroed false none 0) oneFull s ∧ s.log[0]? = some p ∧ p.count = 5 ∧
      p.frames = (List.range p.count).map fun k : ℕ ↦
        interpolate (written adaptive (start zeroed false none 0) oneFull)
          (played (s.log.take 0) + k * p.step) := by
  obtain ⟨s, hs, hlog⟩ := (Option.any_eq_true _ _).mp
    (show (oneFull.foldlM (step adaptive) (start zeroed false none 0)).any (fun s ↦
      s.log.length == 1 && s.log.all (fun p ↦ p.missing == 0) &&
        s.log[0]?.any fun p ↦ p.kind == .audio && p.count == 5) = true by decide +kernel)
  simp only [Bool.and_eq_true, beq_iff_eq, List.all_eq_true, Option.any_eq_true] at hlog
  obtain ⟨⟨hlength, hfull⟩, p, hp, hkind, hcount⟩ := hlog
  have hrun := Run.of_foldlM hs
  exact ⟨s, p, hrun, hp, hcount, device_hears_written hrun (by rw [hlength]; decide) hfull hp hkind⟩

end NumarkNS6.Legacy.NS6USB
