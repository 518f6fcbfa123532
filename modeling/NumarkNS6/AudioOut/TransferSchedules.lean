import NumarkNS6.AudioOut.AudioOutSchedule
import NumarkNS6.AudioOut.AudioFeedbackSchedule

namespace NumarkNS6.AudioOut

open Foundation.FrameGrid

section Calls

variable {σ : Type} (takeNext : σ → UInt64 → ScheduleResult × σ)

def results : σ → List UInt64 → List ScheduleResult
  | _, [] => []
  | s, current :: currents => (takeNext s current).1 :: results (takeNext s current).2 currents

def afterCalls (s : σ) (currents : List UInt64) : σ :=
  currents.foldl (fun s current ↦ (takeNext s current).2) s

def lastStart (first : UInt64) (rs : List ScheduleResult) : UInt64 :=
  (rs.getLast?.map (·.startFrame)).getD first

theorem results_concat (s : σ) (currents : List UInt64) (current : UInt64) :
    results takeNext s (currents ++ [current]) =
      results takeNext s currents ++ [(takeNext (afterCalls takeNext s currents) current).1] := by
  induction currents generalizing s with
  | nil => rfl
  | cons c currents ih => exact congrArg _ (ih _)

theorem afterCalls_concat (s : σ) (currents : List UInt64) (current : UInt64) :
    afterCalls takeNext s (currents ++ [current]) =
      (takeNext (afterCalls takeNext s currents) current).2 := by
  rw [afterCalls, List.foldl_append]
  rfl

theorem lastStart_concat (first : UInt64) (rs : List ScheduleResult) (r : ScheduleResult) :
    lastStart first (rs ++ [r]) = r.startFrame := by
  simp [lastStart]

/-- A start frame is on the grid of `begin`'s, follows the previous transfer,
is `lead` frames ahead of the call, and is the least such frame; the intervals
between the previous transfer and this one are reported as skipped. -/
structure OnTime (lead : ℕ) (first previous current : UInt64) (r : ScheduleResult) : Prop where
  least : IsLeast {x | x ≡ first.toNat [MOD 4] ∧ previous.toNat + 4 ≤ x ∧ current.toNat + lead ≤ x}
    r.startFrame.toNat
  skipped : r.startFrame.toNat = previous.toNat + 4 + 4 * r.skippedIntervals.toNat

theorem Taken.onTime {lead : ℕ} {first previous next current next' : UInt64} {r : ScheduleResult}
    (h : Taken lead next current r next') (hnext : next.toNat = previous.toNat + 4)
    (hgrid : previous.toNat ≡ first.toNat [MOD 4]) : OnTime lead first previous current r := by
  have hmod : next.toNat ≡ first.toNat [MOD 4] := by
    rw [hnext]
    exact (Nat.add_mod_right _ _).trans hgrid
  have hleast := isLeast_passed (by decide : 0 < 4) next.toNat (current.toNat + lead)
  refine ⟨?_, by rw [h.startFrame_eq, h.skippedIntervals_eq, hnext]⟩
  rw [h.startFrame_eq, ← hnext]
  constructor
  · exact ⟨hleast.1.1.trans hmod, hleast.1.2⟩
  · rintro x ⟨hx, hle⟩
    exact hleast.2 ⟨hx.trans hmod.symm, hle⟩

/-- After a successful `begin`, every call of a sequence that has succeeded so
far starts its transfer on time, and no arithmetic wraps. -/
def KeepsTime (lead : ℕ) (begin : σ → UInt64 → UInt64 × σ) (beginNoWrap : UInt64 → Prop)
    (noWrap : σ → UInt64 → Prop) : Prop :=
  ∀ s b currents current, (begin s b).1 ≠ 0 →
    (∀ r ∈ results takeNext (begin s b).2 (currents ++ [current]), r.startFrame ≠ 0) →
      OnTime lead (begin s b).1 (lastStart (begin s b).1 (results takeNext (begin s b).2 currents))
        current (takeNext (afterCalls takeNext (begin s b).2 currents) current).1 ∧
      beginNoWrap b ∧ noWrap (afterCalls takeNext (begin s b).2 currents) current

variable {takeNext} {lead : ℕ} (nextFrame : σ → UInt64)

/-- As long as the calls succeed, the next frame is where the last transfer
ends, and the last start is on the grid of the first. -/
theorem afterCalls_grid
    (htaken : ∀ s current, (takeNext s current).1.startFrame ≠ 0 →
      Taken lead (nextFrame s) current (takeNext s current).1 (nextFrame (takeNext s current).2))
    {s : σ} (first : UInt64) (hs : (nextFrame s).toNat = first.toNat + 4) (currents : List UInt64)
    (hok : ∀ r ∈ results takeNext s currents, r.startFrame ≠ 0) :
    (nextFrame (afterCalls takeNext s currents)).toNat =
        (lastStart first (results takeNext s currents)).toNat + 4 ∧
      (lastStart first (results takeNext s currents)).toNat ≡ first.toNat [MOD 4] := by
  induction currents using List.reverseRecOn with
  | nil => exact ⟨hs, rfl⟩
  | append_singleton currents current ih =>
    rw [results_concat] at hok ⊢
    obtain ⟨hnext, hgrid⟩ := ih fun r hr ↦ hok r (List.mem_append_left _ hr)
    have ht := htaken _ _ (hok _ (List.mem_append_right _ List.mem_cons_self))
    rw [afterCalls_concat, lastStart_concat]
    exact ⟨ht.nextFrame_eq, (ht.onTime hnext hgrid).least.1.1⟩

variable {nextFrame}

theorem Outcome.taken_of_ne {strays : Prop} {s : σ} {current : UInt64} {r : ScheduleResult × σ}
    (h : Outcome lead nextFrame strays s current r) (hne : r.1.startFrame ≠ 0) :
    Taken lead (nextFrame s) current r.1 (nextFrame r.2) := by
  cases h with
  | taken h _ => exact h
  | strayed _ hr _ _ => exact absurd (by rw [hr]; rfl) hne
  | refused _ hr => exact absurd (by rw [hr]; rfl) hne

end Calls

namespace AudioOutSchedule

def BeginNoWrap (currentFrame : UInt64) : Prop :=
  currentFrame.toNat + startLeadFrames.toNat < 2 ^ 64 ∧
    (currentFrame + startLeadFrames).toNat + batchFrames.toNat < 2 ^ 64

structure NoWrap (s : AudioOutSchedule) (currentFrame : UInt64) : Prop where
  minimum_lt : currentFrame.toNat + startLeadFrames.toNat < 2 ^ 64
  count_lt : s.nextFrame < minimum currentFrame →
    ((minimum currentFrame - s.nextFrame) / batchFrames).toNat + 1 < 2 ^ 64
  product_lt : s.nextFrame < minimum currentFrame →
    (s.count currentFrame).toNat * batchFrames.toNat < 2 ^ 64
  caughtUp_lt : s.nextFrame < minimum currentFrame →
    s.nextFrame.toNat + (s.count currentFrame * batchFrames).toNat < 2 ^ 64
  skippedIntervals_lt : s.nextFrame < minimum currentFrame →
    s.skippedIntervals.toNat + (s.count currentFrame).toNat < 2 ^ 64
  nextFrame_lt : (s.takeNext currentFrame).1.startFrame.toNat + batchFrames.toNat < 2 ^ 64

variable {s : AudioOutSchedule} {currentFrame : UInt64}

theorem noWrap_of_taken (h : 4 * s.skippedIntervals.toNat ≤ s.nextFrame.toNat)
    (ht : Taken 2 s.nextFrame currentFrame (s.takeNext currentFrame).1
      (s.takeNext currentFrame).2.nextFrame) : s.NoWrap currentFrame := by
  have hfit := ht.nextFrame_lt
  rw [ht.startFrame_eq] at hfit
  have hcount := fun hlt ↦ count_toNat (s := s) ht.current_lt hlt
  have hproduct : s.nextFrame < minimum currentFrame →
      (s.count currentFrame).toNat * batchFrames.toNat < 2 ^ 64 := by
    intro hlt
    rw [hcount hlt, batchFrames_toNat]
    omega
  refine ⟨ht.current_lt, fun _ ↦ ?_, hproduct, fun hlt ↦ ?_, fun hlt ↦ ?_, ht.nextFrame_lt⟩
  · rw [UInt64.toNat_div, batchFrames_toNat]
    have := (minimum currentFrame - s.nextFrame).toNat_lt
    omega
  · rw [toNat_mul_of_lt (hproduct hlt), hcount hlt, batchFrames_toNat]
    omega
  · rw [hcount hlt]
    omega

theorem afterCalls_skippedIntervals (currents : List UInt64)
    (h : 4 * s.skippedIntervals.toNat ≤ s.nextFrame.toNat)
    (hok : ∀ r ∈ results takeNext s currents, r.startFrame ≠ 0) :
    4 * (afterCalls takeNext s currents).skippedIntervals.toNat ≤
      (afterCalls takeNext s currents).nextFrame.toNat := by
  induction currents generalizing s with
  | nil => exact h
  | cons current currents ih =>
    obtain ⟨hne, hrest⟩ := List.forall_mem_cons.mp hok
    exact ih (takeNext_skippedIntervals h ((outcome s current).taken_of_ne hne)) hrest

end AudioOutSchedule

namespace AudioFeedbackSchedule

def BeginNoWrap (currentFrame : UInt64) : Prop :=
  currentFrame.toNat + initialLeadFrames.toNat < 2 ^ 64 ∧
    (currentFrame + initialLeadFrames).toNat + framesPerTransfer.toNat < 2 ^ 64

structure NoWrap (s : AudioFeedbackSchedule) (currentFrame : UInt64) : Prop where
  minimum_lt : currentFrame.toNat + 1 < 2 ^ 64
  skipped_lt : s.nextFrame < minimum currentFrame →
    ((minimum currentFrame - s.nextFrame - 1) / framesPerTransfer).toNat + 1 < 2 ^ 64
  product_lt : s.nextFrame < minimum currentFrame →
    (s.skipped currentFrame).toNat * framesPerTransfer.toNat < 2 ^ 64
  caughtUp_lt : s.nextFrame < minimum currentFrame →
    s.nextFrame.toNat + (s.skipped currentFrame * framesPerTransfer).toNat < 2 ^ 64
  nextFrame_lt : (s.takeNext currentFrame).1.startFrame.toNat + framesPerTransfer.toNat < 2 ^ 64

variable {s : AudioFeedbackSchedule} {currentFrame : UInt64}

theorem noWrap_of_taken (ht : Taken 1 s.nextFrame currentFrame (s.takeNext currentFrame).1
    (s.takeNext currentFrame).2.nextFrame) : s.NoWrap currentFrame := by
  have hfit := ht.nextFrame_lt
  rw [ht.startFrame_eq] at hfit
  have hproduct : s.nextFrame < minimum currentFrame →
      (s.skipped currentFrame).toNat * framesPerTransfer.toNat < 2 ^ 64 := by
    intro hlt
    rw [skipped_toNat ht.current_lt hlt, framesPerTransfer_toNat]
    omega
  refine ⟨ht.current_lt, fun _ ↦ ?_, hproduct, fun hlt ↦ ?_, ht.nextFrame_lt⟩
  · rw [UInt64.toNat_div, framesPerTransfer_toNat]
    have := (minimum currentFrame - s.nextFrame - 1).toNat_lt
    omega
  · rw [toNat_mul_of_lt (hproduct hlt), skipped_toNat ht.current_lt hlt, framesPerTransfer_toNat]
    omega

end AudioFeedbackSchedule

theorem AudioOutSchedule.keepsTime :
    KeepsTime AudioOutSchedule.takeNext 2 AudioOutSchedule.begin BeginNoWrap NoWrap := by
  intro s b currents current hb hok
  rw [results_concat] at hok
  have hprev := fun r hr ↦ hok r (List.mem_append_left _ hr)
  have ht := (outcome _ current).taken_of_ne (hok _ (List.mem_append_right _ List.mem_cons_self))
  obtain ⟨hlead, hend, hbegin⟩ := begin_of_ne hb rfl
  obtain ⟨hnext, hgrid⟩ := afterCalls_grid nextFrame (fun s c ↦ (outcome s c).taken_of_ne)
    (s.begin b).1 (by rw [hbegin]; exact toNat_add_of_lt hend) currents hprev
  have hskip := afterCalls_skippedIntervals currents (by rw [hbegin]; exact Nat.zero_le _) hprev
  exact ⟨ht.onTime hnext hgrid, ⟨hlead, hend⟩, noWrap_of_taken hskip ht⟩

theorem AudioFeedbackSchedule.keepsTime :
    KeepsTime AudioFeedbackSchedule.takeNext 1 AudioFeedbackSchedule.begin BeginNoWrap NoWrap := by
  intro s b currents current hb hok
  rw [results_concat] at hok
  have hprev := fun r hr ↦ hok r (List.mem_append_left _ hr)
  have ht := (outcome _ current).taken_of_ne (hok _ (List.mem_append_right _ List.mem_cons_self))
  obtain ⟨hlead, hend, hbegin⟩ := begin_of_ne hb rfl
  obtain ⟨hnext, hgrid⟩ := afterCalls_grid nextFrame (fun s c ↦ (outcome s c).taken_of_ne)
    (s.begin b).1 (by rw [hbegin]; exact toNat_add_of_lt hend) currents hprev
  exact ⟨ht.onTime hnext hgrid, ⟨hlead, hend⟩, noWrap_of_taken ht⟩

/-- Neither schedule goes backwards, overlaps or starts late. -/
theorem transfers_on_time :
    KeepsTime AudioOutSchedule.takeNext 2 AudioOutSchedule.begin AudioOutSchedule.BeginNoWrap
        AudioOutSchedule.NoWrap ∧
      KeepsTime AudioFeedbackSchedule.takeNext 1 AudioFeedbackSchedule.begin
        AudioFeedbackSchedule.BeginNoWrap AudioFeedbackSchedule.NoWrap :=
  ⟨AudioOutSchedule.keepsTime, AudioFeedbackSchedule.keepsTime⟩

theorem transfers_on_time_after_gap :
    OnTime 2 102 106 200
        ((afterCalls AudioOutSchedule.takeNext (AudioOutSchedule.initial.begin 100).2 [99]).takeNext
          200).1 ∧
      OnTime 1 102 106 200
        ((afterCalls AudioFeedbackSchedule.takeNext (AudioFeedbackSchedule.initial.begin 100).2
          [99]).takeNext 200).1 :=
  ⟨(transfers_on_time.1 AudioOutSchedule.initial 100 [99] 200 (by decide) (by decide)).1,
    (transfers_on_time.2 AudioFeedbackSchedule.initial 100 [99] 200 (by decide) (by decide)).1⟩

section Refusals

variable {σ : Type} (takeNext : σ → UInt64 → ScheduleResult × σ)

/-- A call that reports failure leaves the schedule as it was, and an earlier
frame is then given what it would have been given before. -/
def RefusalHasNoEffect (s : σ) (current : UInt64) : Prop :=
  (takeNext s current).1.startFrame = 0 → (takeNext s current).2 = s ∧
    ∀ earlier < current, takeNext (takeNext s current).2 earlier = takeNext s earlier

variable {takeNext} {lead : ℕ} {nextFrame : σ → UInt64} {strays : Prop} {s : σ} {current : UInt64}

theorem Outcome.refusalHasNoEffect_iff (hlead : 0 < lead)
    (h : Outcome lead nextFrame strays s current (takeNext s current)) :
    RefusalHasNoEffect takeNext s current ↔ ¬ strays := by
  cases h with
  | taken ht hstrays => exact iff_of_true (fun hzero ↦ absurd hzero (ht.startFrame_ne hlead)) hstrays
  | strayed hstrays hr hnext hpos =>
    refine iff_of_false (fun hkeep ↦ ?_) (not_not.mpr hstrays)
    rw [(hkeep (by rw [hr]; rfl)).1] at hnext
    omega
  | refused hstrays hr =>
    refine iff_of_true (fun _ ↦ ?_) hstrays
    rw [hr]
    exact ⟨rfl, fun _ _ ↦ rfl⟩

end Refusals

inductive ScheduleCall
  | begin (current : UInt64)
  | takeNext (current : UInt64)

def AudioOutSchedule.call (s : AudioOutSchedule) : ScheduleCall → AudioOutSchedule
  | .begin current => (s.begin current).2
  | .takeNext current => (s.takeNext current).2

def AudioFeedbackSchedule.call (s : AudioFeedbackSchedule) : ScheduleCall → AudioFeedbackSchedule
  | .begin current => (s.begin current).2
  | .takeNext current => (s.takeNext current).2

/-- In every state that calls have led to, a refused call has no effect
exactly when it does not stray. -/
theorem refusal_has_no_effect_iff (calls : List ScheduleCall) (current : UInt64) :
    (RefusalHasNoEffect AudioOutSchedule.takeNext
        (calls.foldl AudioOutSchedule.call AudioOutSchedule.initial) current ↔
      ¬ (calls.foldl AudioOutSchedule.call AudioOutSchedule.initial).Strays current) ∧
    (RefusalHasNoEffect AudioFeedbackSchedule.takeNext
        (calls.foldl AudioFeedbackSchedule.call AudioFeedbackSchedule.initial) current ↔
      ¬ (calls.foldl AudioFeedbackSchedule.call AudioFeedbackSchedule.initial).Strays current) :=
  ⟨(AudioOutSchedule.outcome _ _).refusalHasNoEffect_iff (by decide),
    (AudioFeedbackSchedule.outcome _ _).refusalHasNoEffect_iff (by decide)⟩

/-- The output schedule, begun ten frames before the last frame, is refused
two frames before it and then has no transfer left for any earlier frame; the
feedback schedule is refused far ahead and skips everything in between. -/
theorem refusal_has_effect :
    ¬ RefusalHasNoEffect AudioOutSchedule.takeNext
        ([.begin (maxFrame - 10)].foldl AudioOutSchedule.call AudioOutSchedule.initial)
        (maxFrame - 2) ∧
      ¬ RefusalHasNoEffect AudioFeedbackSchedule.takeNext
        ([.begin 0].foldl AudioFeedbackSchedule.call AudioFeedbackSchedule.initial) (2 ^ 40) := by
  constructor
  · intro h
    exact absurd (h (by decide)).1 (by decide)
  · intro h
    exact absurd (h (by decide)).1 (by decide)

end NumarkNS6.AudioOut
