import NumarkNS6.CoreAudio.TransportWorker

namespace NumarkNS6.CoreAudio.TransportWorker

open Foundation.Runs Foundation.Services Usb

def Return.isStop : Return → Bool
  | .feedbackStopped | .recoveryStopped | .inputStopped | .midiStopped | .stopped _ _ _ => true
  | _ => false

def Ending.order (ending : Ending) (again : Bool) : List Part :=
  if again then ending.again else ending.first

section

variable {S : Part → Service IOReturn} (Inv : ∀ k, (S k).State → Prop)

def Safe (w : Worker S) (k : Part) : Prop := ∀ s, w.parts k = some s → Retired (S k) (Inv k) s

def Present (w : Worker S) (k : Part) : Prop := (w.parts k).isSome = true

structure Boot (w : Worker S) (present absent : List Part) : Prop where
  present : ∀ k ∈ present, Present w k
  absent : ∀ k ∈ absent, w.parts k = none
  published : w.published = []

structure Main (w : Worker S) : Prop where
  runLoop : w.runLoop = true
  output : Present w .output
  input : Present w .input
  midi : w.midiEnabled = true → Present w .midi
  published : w.published = [.success]

def Leaving (w : Worker S) : Ending → Prop
  | .failed => w.result ≠ .success ∧ w.published = []
  | .requested => w.published = [.success]
  | .noRunLoop => False

def Judged (w : Worker S) (k : Part) : Prop :=
  (w.stopResult k = .success → Safe Inv w k) ∧ (w.stopResult k ≠ .success → Present w k)

def Heeded (w : Worker S) (known : Part → Prop) : Prop := ∀ k, known k → Judged Inv w k

/-- What holds around a call of component `k` that returns to `r`. -/
def AtCall (w : Worker S) (k : Part) : Return → Prop
  | .outputStarted => k = .output ∧ Boot w [.output] [.feedback, .input, .midi]
  | .feedbackStarted | .feedbackStopped =>
    k = .feedback ∧ Boot w [.output, .feedback] [.input, .midi] ∧ w.runLoop = true ∧
      w.result = .success
  | .inputStarted => k = .input ∧ Boot w [.output, .input] [.midi] ∧ w.runLoop = true
  | .midiStarted => k = .midi ∧ Boot w [.output, .input, .midi] [] ∧ w.runLoop = true
  | .recoveryStopped | .recoveryStarted => k = .output ∧ Main w
  | .inputRetried | .inputStopped => k = .input ∧ Main w
  | .midiStopped | .midiRestarted => k = .midi ∧ Main w ∧ Present w .midi
  | .stopped ending again rest =>
    Present w k ∧ Leaving w ending ∧ k :: rest <:+ ending.order again ∧
      Heeded Inv w fun j ↦ j ≠ k ∧ (again = true ∨ j ∉ rest)

/-- What holds at a place of `workerMain`. -/
def At (w : Worker S) : Point → Prop
  | .make .output => Boot w [] [.output, .feedback, .input, .midi]
  | .make .feedback =>
    Boot w [.output] [.feedback, .input, .midi] ∧ w.runLoop = true ∧ w.result = .success
  | .make .input => Boot w [.output] [.input, .midi] ∧ w.runLoop = true ∧ w.result = .success
  | .make .midi => Boot w [.output, .input] [.midi] ∧ w.runLoop = true
  | .start k r => AtCall Inv w k r ∧ r.isStop = false
  | .stop k r => AtCall Inv w k r ∧ r.isStop = true
  | .calling k r => AtCall Inv w k r
  | .prepareMIDI => Boot w [.output, .input, .midi] [] ∧ w.runLoop = true
  | .booted => Boot w [.output, .input] [] ∧ w.runLoop = true ∧
      (w.midiEnabled = true → Present w .midi)
  | .head | .runLoop | .output | .input | .midi => Main w
  | .replace => Main w ∧ Safe Inv w .output
  | .midiCheck => Main w ∧ Present w .midi
  | .stops ending again rest =>
    Leaving w ending ∧ rest <:+ ending.order again ∧ Heeded Inv w fun k ↦ again = true ∨ k ∉ rest
  | .check ending | .pump ending => Leaving w ending ∧ Heeded Inv w fun _ ↦ True
  | .resets ending rest => Leaving w ending ∧ rest <:+ ending.resets ∧ (∀ k, Safe Inv w k) ∧
      ∀ k, k ∉ rest → w.parts k = none
  | .finished => (∀ k, w.parts k = none) ∧ w.published.length = 1

/-- The invariant of the worker. Only the call in progress can be waiting. -/
structure Sound (w : Worker S) : Prop where
  inv : ∀ k s, w.parts k = some s → Inv k s
  fault : w.fault = false
  waits : ∀ k s, w.parts k = some s → (S k).waiting s = true → ∃ r, w.point = .calling k r
  old : ∀ s, w.old = some s → Retired (S .output) (Inv .output) s ∧
    (w.point = .start .output .recoveryStarted ∨ w.point = .calling .output .recoveryStarted)
  here : At Inv w w.point
  stopped : ∀ k s, w.parts k = some s → ∀ r, w.point = .calling k r → r.isStop = true →
    (S k).waiting s = false → (S k).result s = .success → (S k).active s = false
  grounded : ∀ s, w.point = .calling .output .outputStarted → w.parts .output = some s →
    (S .output).waiting s = false → (S .output).result s = .success → w.runLoop = true

end

variable {S : Part → Service IOReturn} {Inv : ∀ k, (S k).State → Prop} {w w' : Worker S}

theorem part_nodup (ending : Ending) (again : Bool) : (ending.order again).Nodup ∧
    ending.resets.Nodup := by cases ending <;> cases again <;> decide

theorem part_mem (ending : Ending) (again : Bool) (k : Part) : k ∈ ending.order again ∧
    k ∈ ending.resets := by cases ending <;> cases again <;> cases k <;> decide

theorem parts_setPart_self (w : Worker S) (k : Part) (s : Option (S k).State) :
    (w.setPart k s).parts k = s := Function.update_self ..

theorem parts_setPart_of_ne {k j : Part} (h : j ≠ k) (w : Worker S) (s : Option (S k).State) :
    (w.setPart k s).parts j = w.parts j := Function.update_of_ne h ..

theorem stopResult_setStopResult_self (w : Worker S) (k : Part) (result : IOReturn) :
    (w.setStopResult k result).stopResult k = result := Function.update_self ..

theorem stopResult_setStopResult_of_ne {k j : Part} (h : j ≠ k) (w : Worker S)
    (result : IOReturn) : (w.setStopResult k result).stopResult j = w.stopResult j :=
  Function.update_of_ne h ..

theorem present_setPart {k : Part} {s : (S k).State} (hk : Present w k) (j : Part) :
    Present (w.setPart k (some s)) j ↔ Present w j := by
  by_cases h : j = k
  · subst h
    rw [Present, parts_setPart_self]
    exact ⟨fun _ ↦ hk, fun _ ↦ rfl⟩
  · rw [Present, parts_setPart_of_ne h, Present]

theorem none_setPart {k : Part} {s : (S k).State} (hk : Present w k) (j : Part) :
    (w.setPart k (some s)).parts j = none ↔ w.parts j = none := by
  have h := present_setPart (s := s) hk j
  rw [Present, Present, Option.isSome_iff_ne_none, Option.isSome_iff_ne_none] at h
  exact not_iff_not.mp h

theorem forall_setPart {P : ∀ k, (S k).State → Prop} {k : Part} {t : (S k).State} (hk : P k t)
    (h : ∀ j u, j ≠ k → w.parts j = some u → P j u) :
    ∀ j u, (w.setPart k (some t)).parts j = some u → P j u := by
  intro j u hu
  by_cases hjk : j = k
  · subst hjk
    rw [parts_setPart_self] at hu
    cases hu
    exact hk
  · rw [parts_setPart_of_ne hjk] at hu
    exact h j u hjk hu

theorem safe_setPart_of_ne {k j : Part} (h : Safe Inv w j) (hk : j ≠ k) (s : Option (S k).State) :
    Safe Inv (w.setPart k s) j := by
  intro t ht
  rw [parts_setPart_of_ne hk] at ht
  exact h t ht

theorem safe_none {k : Part} (h : w.parts k = none) : Safe Inv w k := by
  intro s hs
  rw [h] at hs
  cases hs

theorem Leaving.congr {ending : Ending} (h : Leaving w ending) (hr : w'.result = w.result)
    (hp : w'.published = w.published) : Leaving w' ending := by
  cases ending with
  | failed => exact ⟨hr ▸ h.1, hp.trans h.2⟩
  | requested => exact hp.trans h
  | noRunLoop => exact h

/-- `w'` has the same components as `w`, and the ones in `kept` are no less safe. -/
structure Alike (Inv : ∀ k, (S k).State → Prop) (kept : Part → Prop) (w w' : Worker S) : Prop where
  parts : ∀ k, w'.parts k = none ↔ w.parts k = none
  safe : ∀ k, kept k → Safe Inv w k → Safe Inv w' k
  runLoop : w'.runLoop = w.runLoop
  result : w'.result = w.result
  midiEnabled : w'.midiEnabled = w.midiEnabled
  stopResult : w'.stopResult = w.stopResult
  published : w'.published = w.published

section Alike

variable {kept : Part → Prop}

theorem Alike.present (h : Alike Inv kept w w') {k : Part} (hk : Present w k) : Present w' k := by
  rw [Present, Option.isSome_iff_ne_none] at hk ⊢
  exact fun hn ↦ hk ((h.parts k).mp hn)

theorem Alike.boot (h : Alike Inv kept w w') {present absent : List Part}
    (hb : Boot w present absent) : Boot w' present absent :=
  ⟨fun k hk ↦ h.present (hb.present k hk), fun k hk ↦ (h.parts k).mpr (hb.absent k hk),
    h.published.trans hb.published⟩

theorem Alike.main (h : Alike Inv kept w w') (hm : Main w) : Main w' :=
  ⟨h.runLoop.trans hm.runLoop, h.present hm.output, h.present hm.input,
    fun he ↦ h.present (hm.midi (h.midiEnabled.symm.trans he)), h.published.trans hm.published⟩

theorem Alike.leaving (h : Alike Inv kept w w') {ending : Ending} (hl : Leaving w ending) :
    Leaving w' ending := hl.congr h.result h.published

theorem Alike.heeded (h : Alike Inv kept w w') {known : Part → Prop} (hh : Heeded Inv w known)
    (hk : ∀ k, known k → kept k) : Heeded Inv w' known := by
  intro k hknown
  rw [Judged, h.stopResult]
  exact ⟨fun hres ↦ h.safe k (hk k hknown) ((hh k hknown).1 hres),
    fun hres ↦ h.present ((hh k hknown).2 hres)⟩

theorem Alike.atCall {k : Part} (h : Alike Inv (· ≠ k) w w') {r : Return} (ha : AtCall Inv w k r) :
    AtCall Inv w' k r := by
  cases r with
  | outputStarted => exact ⟨ha.1, h.boot ha.2⟩
  | feedbackStarted | feedbackStopped =>
    exact ⟨ha.1, h.boot ha.2.1, h.runLoop.trans ha.2.2.1, h.result.trans ha.2.2.2⟩
  | inputStarted | midiStarted => exact ⟨ha.1, h.boot ha.2.1, h.runLoop.trans ha.2.2⟩
  | recoveryStopped | recoveryStarted | inputRetried | inputStopped => exact ⟨ha.1, h.main ha.2⟩
  | midiStopped | midiRestarted => exact ⟨ha.1, h.main ha.2.1, h.present ha.2.2⟩
  | stopped ending again rest =>
    exact ⟨h.present ha.1, h.leaving ha.2.1, ha.2.2.1, h.heeded ha.2.2.2 fun _ hj ↦ hj.1⟩

theorem Alike.at (h : Alike Inv (fun _ ↦ True) w w') {p : Point} (ha : At Inv w p) :
    At Inv w' p := by
  have hweak {k : Part} : Alike Inv (· ≠ k) w w' := { h with safe := fun j _ ↦ h.safe j trivial }
  cases p with
  | make k =>
    cases k with
    | output => exact h.boot ha
    | feedback | input => exact ⟨h.boot ha.1, h.runLoop.trans ha.2.1, h.result.trans ha.2.2⟩
    | midi => exact ⟨h.boot ha.1, h.runLoop.trans ha.2⟩
  | start k r | stop k r => exact ⟨hweak.atCall ha.1, ha.2⟩
  | calling k r => exact hweak.atCall ha
  | prepareMIDI => exact ⟨h.boot ha.1, h.runLoop.trans ha.2⟩
  | booted => exact ⟨h.boot ha.1, h.runLoop.trans ha.2.1, fun he ↦
      h.present (ha.2.2 (h.midiEnabled.symm.trans he))⟩
  | head | runLoop | output | input | midi => exact h.main ha
  | replace => exact ⟨h.main ha.1, h.safe _ trivial ha.2⟩
  | midiCheck => exact ⟨h.main ha.1, h.present ha.2⟩
  | stops ending again rest => exact ⟨h.leaving ha.1, ha.2.1, h.heeded ha.2.2 fun _ _ ↦ trivial⟩
  | check ending | pump ending => exact ⟨h.leaving ha.1, h.heeded ha.2 fun _ _ ↦ trivial⟩
  | resets ending rest => exact ⟨h.leaving ha.1, ha.2.1, fun k ↦ h.safe k trivial (ha.2.2.1 k),
      fun k hk ↦ (h.parts k).mpr (ha.2.2.2 k hk)⟩
  | finished => exact ⟨fun k ↦ (h.parts k).mpr (ha.1 k), h.published ▸ ha.2⟩

end Alike

theorem alike_setPart (Inv : ∀ k, (S k).State → Prop) {k : Part} (hk : Present w k) (s' : (S k).State) :
    Alike Inv (· ≠ k) w (w.setPart k (some s')) :=
  ⟨none_setPart hk, fun _ hj h ↦ safe_setPart_of_ne h hj _, rfl, rfl, rfl, rfl, rfl⟩

theorem pumping_runLoop (h : w.pumping = true) : w.runLoop = true := (Bool.and_eq_true _ _ ▸ h).1

theorem pumping_waiting {k : Part} {r : Return} {s : (S k).State} (h : w.pumping = true)
    (hp : w.point = .calling k r) (hs : w.parts k = some s) : (S k).waiting s = true := by
  have hany := (Bool.and_eq_true _ _ ▸ h).2
  simpa only [hp, hs, Option.any_some] using hany

theorem present_of_eq {k : Part} {s : (S k).State} (hs : w.parts k = some s) : Present w k := by
  rw [Present, hs]
  rfl

section Steps

variable (C : ∀ k, Contract (S k) .success (Inv k))
include C

theorem Sound.event (h : Sound Inv w) {k : Part} {e : (S k).Event} {s t : (S k).State}
    (hp : w.pumping = true) (hs : w.parts k = some s) (he : (S k).event s e = some t) :
    Sound Inv (w.setPart k (some t)) := by
  have hinv := h.inv k s hs
  have halike : Alike Inv (fun _ ↦ True) w (w.setPart k (some t)) := by
    refine { alike_setPart Inv (present_of_eq hs) t with safe := fun j _ hj ↦ ?_ }
    by_cases hjk : j = k
    · subst hjk
      have hnone := (hj s hs).event (C j) e
      rw [he] at hnone
      cases hnone
    · exact safe_setPart_of_ne hj hjk _
  refine ⟨?_, h.fault, ?_, h.old, halike.at h.here, ?_, fun _ _ _ _ _ ↦ pumping_runLoop (w := w) hp⟩
  · exact forall_setPart ((C k).event hinv he) fun j u _ ↦ h.inv j u
  · refine forall_setPart (P := fun j u ↦ (S j).waiting u = true → ∃ r, w.point = .calling j r) ?_
      fun j u _ ↦ h.waits j u
    intro hwait
    cases hs' : (S k).waiting s with
    | true => exact h.waits k s hs hs'
    | false => exact absurd (((C k).calm hinv hs' he).2.symm.trans hwait) Bool.false_ne_true
  · refine forall_setPart (P := fun j u ↦ ∀ r, w.point = .calling j r → r.isStop = true →
      (S j).waiting u = false → (S j).result u = .success → (S j).active u = false) ?_
      fun j u _ ↦ h.stopped j u
    intro r hpoint _ hwait hres
    exact (C k).returned hinv (pumping_waiting hp hpoint hs) he hwait hres

theorem Sound.oldEvent (h : Sound Inv w) {e : (S .output).Event} {s t : (S .output).State}
    (hs : w.old = some s) (he : (S .output).event s e = some t) : False := by
  have hnone := (h.old s hs).1.event (C .output) e
  rw [he] at hnone
  cases hnone

omit C in
theorem Sound.still (h : Sound Inv w) (hp : ∀ k r, w.point ≠ .calling k r) {k : Part}
    {s : (S k).State} (hs : w.parts k = some s) : (S k).waiting s = false := by
  by_contra hwait
  obtain ⟨r, hr⟩ := h.waits k s hs (Bool.eq_true_of_not_eq_false hwait)
  exact hp k r hr

omit C in
theorem AtCall.present {k : Part} {r : Return} (h : AtCall Inv w k r) : Present w k := by
  cases r with
  | outputStarted => exact h.1 ▸ h.2.present _ (by simp)
  | feedbackStarted | feedbackStopped | inputStarted | midiStarted =>
    exact h.1 ▸ h.2.1.present _ (by simp)
  | recoveryStopped | recoveryStarted => exact h.1 ▸ h.2.output
  | inputRetried | inputStopped => exact h.1 ▸ h.2.input
  | midiStopped | midiRestarted => exact h.1 ▸ h.2.2
  | stopped => exact h.1

omit C in
theorem Sound.enter (h : Sound Inv w) {k : Part} {r : Return} {t : (S k).State}
    (hp : w.point = .start k r ∨ w.point = .stop k r) (hcall : AtCall Inv w k r) (hinv : Inv k t)
    (hstop : r.isStop = true → (S k).waiting t = false → (S k).result t = .success →
      (S k).active t = false)
    (hloop : r = .outputStarted → (S k).waiting t = false → (S k).result t = .success →
      w.runLoop = true) :
    Sound Inv ((w.setPart k (some t)).goto (.calling k r)) := by
  have hidle : ∀ j r', w.point ≠ .calling j r' := by
    rintro j r' hc
    rcases hp with hp | hp <;> rw [hp] at hc <;> cases hc
  have halike : Alike Inv (· ≠ k) w ((w.setPart k (some t)).goto (.calling k r)) :=
    { alike_setPart Inv hcall.present t with }
  refine ⟨?_, h.fault, ?_, ?_, halike.atCall hcall, ?_, ?_⟩
  · exact forall_setPart hinv fun j u _ ↦ h.inv j u
  · refine forall_setPart (P := fun j u ↦ (S j).waiting u = true →
      ∃ r', Point.calling k r = .calling j r') (fun _ ↦ ⟨r, rfl⟩) fun j u _ hu hwait ↦ ?_
    exact absurd ((h.still hidle hu).symm.trans hwait) Bool.false_ne_true
  · intro s hs
    obtain ⟨hretired, hold⟩ := h.old s hs
    refine ⟨hretired, .inr ?_⟩
    rcases hold with hold | hold
    · rcases hp with hp | hp <;> rw [hp] at hold <;> cases hold
      rfl
    · exact absurd hold (hidle _ _)
  · refine forall_setPart (P := fun j u ↦ ∀ r', Point.calling k r = .calling j r' →
      r'.isStop = true → (S j).waiting u = false → (S j).result u = .success →
      (S j).active u = false) ?_ ?_
    · rintro r' ⟨rfl⟩
      exact hstop
    · rintro j u hj - r' hr'
      cases hr'
      exact absurd rfl hj
  · intro s hpoint hs
    cases hpoint
    rw [Worker.goto, parts_setPart_self] at hs
    cases hs
    exact hloop rfl

theorem Sound.start (h : Sound Inv w) {k : Part} {r : Return} {s : (S k).State} (a : (S k).Answers)
    (hloop : (S k).loop a = w.runLoop) (hp : w.point = .start k r) (hs : w.parts k = some s) :
    Sound Inv ((w.setPart k (some ((S k).start a s))).goto (.calling k r)) := by
  have hhere := h.here
  rw [hp] at hhere
  have hwait := h.still (fun _ _ hc ↦ by rw [hp] at hc; cases hc) hs
  have hinv := h.inv k s hs
  refine h.enter (.inl hp) hhere.1 ((C k).start a hinv hwait) ?_ ?_
  · intro hstop
    exact absurd (hhere.2.symm.trans hstop) Bool.false_ne_true
  · intro _ hw hres
    exact hloop.symm.trans ((C k).unsuccessful a hinv hwait hw hres)

theorem Sound.stop (h : Sound Inv w) {k : Part} {r : Return} {s : (S k).State} (a : (S k).Answers)
    (hp : w.point = .stop k r) (hs : w.parts k = some s) :
    Sound Inv ((w.setPart k (some ((S k).stop a s))).goto (.calling k r)) := by
  have hhere := h.here
  rw [hp] at hhere
  have hwait := h.still (fun _ _ hc ↦ by rw [hp] at hc; cases hc) hs
  have hinv := h.inv k s hs
  refine h.enter (.inr hp) hhere.1 ((C k).stop a hinv hwait) ?_ ?_
  · intro _ hw hres
    exact (C k).stopped a hinv hwait hw hres
  · rintro rfl
    exact absurd hhere.2 Bool.false_ne_true

omit C in
/-- No pointer that is followed is null. -/
theorem Sound.present (h : Sound Inv w) {k : Part} {r : Return}
    (hp : w.point = .start k r ∨ w.point = .stop k r) : w.parts k ≠ none := by
  have hhere := h.here
  have hcall : AtCall Inv w k r := by
    obtain hp | hp := hp
    all_goals
      rw [hp] at hhere
      exact hhere.1
  exact Option.isSome_iff_ne_none.mp hcall.present

omit C in
/-- The invariant at a place where no call is in progress. -/
theorem sound_of_still (hparts : ∀ k s, w.parts k = some s → Inv k s ∧ (S k).waiting s = false)
    (hfault : w.fault = false) (hold : w.old = none) (hcall : ∀ k r, w.point ≠ .calling k r)
    (hhere : At Inv w w.point) : Sound Inv w where
  inv k s hs := (hparts k s hs).1
  fault := hfault
  waits k s hs hwait := absurd ((hparts k s hs).2.symm.trans hwait) Bool.false_ne_true
  old s hs := by rw [hold] at hs; cases hs
  here := hhere
  stopped k s _ r hp := absurd hp (hcall k r)
  grounded s hp := absurd hp (hcall _ _)

omit C in
theorem reset_eq {k : Part} (h : Safe Inv w k) : w.reset k = w.setPart k none := by
  unfold Worker.reset
  cases hs : w.parts k with
  | none => rfl
  | some s => simp [(h s hs).idle]

omit C in
theorem dropOld_eq (h : ∀ s, w.old = some s → (S .output).active s = false) :
    w.dropOld = { w with old := none } := by
  unfold Worker.dropOld
  cases hs : w.old with
  | none =>
    simp only
    rw [← hs]
  | some s => simp [h s hs]

omit C in
theorem at_cleanUp {ending : Ending} (h : Leaving w ending) :
    At Inv w (.stops ending false ending.first) := by
  refine ⟨h, List.suffix_refl _, ?_⟩
  rintro k (hk | hk)
  · cases hk
  · exact absurd (part_mem ending false k).1 hk

structure Settled (Inv : ∀ k, (S k).State → Prop) (w : Worker S) : Prop where
  parts : ∀ k s, w.parts k = some s → Inv k s ∧ (S k).waiting s = false
  fault : w.fault = false

omit C in
theorem Settled.sound (h : Settled Inv w) (hold : w.old = none)
    (hcall : ∀ k r, w.point ≠ .calling k r) (hhere : At Inv w w.point) : Sound Inv w :=
  sound_of_still h.parts h.fault hold hcall hhere

omit C in
theorem Settled.drop (h : Settled Inv w) (k : Part) : Settled Inv (w.setPart k none) := by
  refine ⟨fun j u hu ↦ ?_, h.fault⟩
  by_cases hj : j = k
  · subst hj
    rw [parts_setPart_self] at hu
    cases hu
  · rw [parts_setPart_of_ne hj] at hu
    exact h.parts j u hu

omit C in
theorem Settled.cleanUp (h : Settled Inv w) (hold : w.old = none) (ending : Ending)
    (hl : Leaving w ending) : Sound Inv (w.cleanUp ending) :=
  Settled.sound (w := w.cleanUp ending) { h with } hold (by simp [Worker.cleanUp, Worker.goto])
    (at_cleanUp (w := w.cleanUp ending) (hl.congr rfl rfl))

omit C in
theorem Boot.weaken {present present' absent absent' : List Part} (h : Boot w present absent)
    (hp : present' ⊆ present) (ha : absent' ⊆ absent) : Boot w present' absent' :=
  ⟨fun k hk ↦ h.present k (hp hk), fun k hk ↦ h.absent k (ha hk), h.published⟩

omit C in
theorem Settled.afterInput (h : Settled Inv w) (hold : w.old = none)
    (hboot : Boot w [.output, .input] [.midi]) (hloop : w.runLoop = true) :
    Sound Inv w.afterInput := by
  unfold Worker.afterInput
  split_ifs with hres hmidi
  · exact Settled.sound { h with } hold (by simp [Worker.goto]) ⟨{ hboot with }, hloop⟩
  · refine Settled.sound { h with } hold (by simp [Worker.goto])
      ⟨?_, hloop, fun he ↦ absurd he hmidi⟩
    exact { hboot.weaken (fun _ hk ↦ hk) (List.nil_subset _) with }
  · exact h.cleanUp hold .failed ⟨hres, hboot.published⟩

omit C in
theorem Sound.returned_settled (h : Sound Inv w) {k : Part} {r : Return} {s : (S k).State}
    (hp : w.point = .calling k r) (hs : w.parts k = some s) (hw : (S k).waiting s = false) :
    Settled Inv w := by
  refine ⟨fun j u hu ↦ ⟨h.inv j u hu, ?_⟩, h.fault⟩
  by_contra hwait
  obtain ⟨r', hr'⟩ := h.waits j u hu (Bool.eq_true_of_not_eq_false hwait)
  rw [hp] at hr'
  cases hr'
  rw [hs] at hu
  cases hu
  exact hwait hw

section Resume

variable {result : IOReturn}

omit C

theorem Settled.outputStarted (h : Settled Inv w) (hold : w.old = none)
    (hboot : Boot w [.output] [.feedback, .input, .midi])
    (hloop : result = .success → w.runLoop = true) :
    Sound Inv (w.resume .output result .outputStarted) := by
  simp only [Worker.resume]
  split_ifs with hres
  · exact Settled.sound { h with } hold (by simp [Worker.goto]) ⟨{ hboot with }, hloop hres, hres⟩
  · have hfailed : Settled Inv (w.setResult result) := { h with }
    exact hfailed.cleanUp hold .failed ⟨hres, hboot.published⟩

theorem Settled.feedbackStarted (h : Settled Inv w) (hold : w.old = none)
    (hhere : AtCall Inv w .feedback .feedbackStarted) :
    Sound Inv (w.resume .feedback result .feedbackStarted) := by
  obtain ⟨-, hboot, hloop, hresult⟩ := hhere
  simp only [Worker.resume]
  split_ifs
  · refine Settled.sound { h with } hold (by simp [Worker.goto]) ⟨?_, hloop, hresult⟩
    exact { hboot.weaken (by simp) fun _ hk ↦ hk with }
  · exact Settled.sound { h with } hold (by simp [Worker.goto])
      ⟨⟨rfl, { hboot with }, hloop, hresult⟩, rfl⟩

theorem Boot.drop {present absent : List Part} {k : Part} (h : Boot w present absent)
    (hk : k ∉ present) : Boot (w.setPart k none) present absent := by
  refine ⟨fun j hj ↦ ?_, fun j hj ↦ ?_, h.published⟩
  · rw [Present, parts_setPart_of_ne (by rintro rfl; exact hk hj)]
    exact h.present j hj
  · by_cases hjk : j = k
    · subst hjk
      exact parts_setPart_self w j none
    · exact (parts_setPart_of_ne hjk w none).trans (h.absent j hj)

theorem Settled.feedbackStopped (h : Settled Inv w) (hold : w.old = none)
    (hhere : AtCall Inv w .feedback .feedbackStopped)
    (hsafe : result = .success → Safe Inv w .feedback) :
    Sound Inv (w.resume .feedback result .feedbackStopped) := by
  obtain ⟨-, hboot, hloop, hresult⟩ := hhere
  simp only [Worker.resume]
  split_ifs with hres
  · rw [reset_eq (hsafe hres)]
    have hdropped : Boot (w.setPart .feedback none) [.output] [.input, .midi] :=
      (hboot.weaken (by simp) fun _ hk ↦ hk).drop (by decide)
    exact Settled.sound { h.drop .feedback with } hold (by simp [Worker.goto])
      ⟨{ hdropped with }, hloop, hresult⟩
  · have hfailed : Settled Inv (w.setResult result) := { h with }
    exact hfailed.cleanUp hold .failed ⟨hres, hboot.published⟩

theorem Settled.midiStarted (h : Settled Inv w) (hold : w.old = none)
    (hboot : Boot w [.output, .input, .midi] []) (hloop : w.runLoop = true) :
    Sound Inv (w.goto .booted) := by
  refine Settled.sound { h with } hold (by simp [Worker.goto])
    ⟨?_, hloop, fun _ ↦ hboot.present .midi (by simp)⟩
  exact { hboot.weaken (by simp) (List.nil_subset _) with }

theorem Settled.recoveryStopped (h : Settled Inv w) (hold : w.old = none) (hmain : Main w)
    (hsafe : result = .success → Safe Inv w .output) :
    Sound Inv (w.resume .output result .recoveryStopped) := by
  simp only [Worker.resume]
  split_ifs with hres
  · exact Settled.sound { h with } hold (by simp [Worker.goto]) ⟨{ hmain with }, hsafe hres⟩
  · exact Settled.sound { h with } hold (by simp [Worker.goto]) { hmain with }

theorem Settled.inputRetried (h : Settled Inv w) (hold : w.old = none) (hmain : Main w) :
    Sound Inv (w.resume .input result .inputRetried) := by
  simp only [Worker.resume]
  split_ifs
  · exact Settled.sound { h with } hold (by simp [Worker.goto]) { hmain with }
  · exact Settled.sound { h with } hold (by simp) { hmain with }

theorem Settled.inputStopped (h : Settled Inv w) (hold : w.old = none) (hmain : Main w) :
    Sound Inv (w.resume .input result .inputStopped) := by
  simp only [Worker.resume]
  split_ifs
  · exact Settled.sound { h with } hold (by simp [Worker.goto]) { hmain with }
  · exact Settled.sound { h with } hold (by simp [Worker.goto]) { hmain with }

theorem Settled.stopped (h : Settled Inv w) (hold : w.old = none) {k : Part} {ending : Ending}
    {again : Bool} {rest : List Part} (hhere : AtCall Inv w k (.stopped ending again rest))
    (hsafe : result = .success → Safe Inv w k) :
    Sound Inv (w.resume k result (.stopped ending again rest)) := by
  obtain ⟨hpresent, hleaving, hsuffix, hheeded⟩ := hhere
  refine Settled.sound { h with } hold (by simp [Worker.resume, Worker.goto])
    ⟨hleaving.congr rfl rfl, (List.suffix_cons k rest).trans hsuffix, fun j hj ↦ ?_⟩
  by_cases hjk : j = k
  · subst hjk
    refine ⟨fun hres ↦ hsafe ?_, fun _ ↦ hpresent⟩
    rwa [← stopResult_setStopResult_self w j result]
  · have hkept := stopResult_setStopResult_of_ne hjk w result
    rw [Judged, show (w.resume k result (.stopped ending again rest)).stopResult j =
      w.stopResult j from hkept]
    exact hheeded j ⟨hjk, hj⟩

/-- Only while the output is recovered there is a worker put aside. -/
theorem Sound.returned_old (h : Sound Inv w) {k : Part} {r : Return} (hp : w.point = .calling k r)
    (hne : r ≠ .recoveryStarted) : w.old = none := by
  cases ho : w.old with
  | none => rfl
  | some u =>
    rcases (h.old u ho).2 with hc | hc <;> rw [hp] at hc <;> cases hc
    exact absurd rfl hne

theorem Sound.returned_safe (h : Sound Inv w) {k : Part} {r : Return} {s : (S k).State}
    (hp : w.point = .calling k r) (hs : w.parts k = some s) (hw : (S k).waiting s = false)
    (hstop : r.isStop = true) (hres : (S k).result s = .success) : Safe Inv w k := by
  intro u hu
  have hactive := h.stopped k s hs r hp hstop hw hres
  rw [hs] at hu
  cases hu
  exact ⟨h.inv k s hs, hw, hactive⟩

theorem Sound.resume (h : Sound Inv w) {k : Part} {r : Return} {s : (S k).State}
    (hp : w.point = .calling k r) (hs : w.parts k = some s) (hw : (S k).waiting s = false) :
    Sound Inv (w.resume k ((S k).result s) r) := by
  have hset := h.returned_settled hp hs hw
  have hold := h.returned_old hp
  have hsafe := h.returned_safe hp hs hw
  have hhere : AtCall Inv w k r := by
    have hhere := h.here
    rwa [hp] at hhere
  cases r with
  | outputStarted =>
    obtain ⟨rfl, hboot⟩ := hhere
    exact hset.outputStarted (hold (by simp)) hboot (h.grounded s hp hs hw)
  | feedbackStarted =>
    obtain rfl := hhere.1
    exact hset.feedbackStarted (hold (by simp)) hhere
  | feedbackStopped =>
    obtain rfl := hhere.1
    exact hset.feedbackStopped (hold (by simp)) hhere (hsafe rfl)
  | inputStarted =>
    obtain ⟨rfl, hboot, hloop⟩ := hhere
    exact Settled.afterInput { hset with } (hold (by simp)) { hboot with } hloop
  | midiStarted => exact hset.midiStarted (hold (by simp)) hhere.2.1 hhere.2.2
  | recoveryStopped =>
    obtain ⟨rfl, hmain⟩ := hhere
    exact hset.recoveryStopped (hold (by simp)) hmain (hsafe rfl)
  | recoveryStarted =>
    rw [Worker.resume, dropOld_eq fun u hu ↦ (h.old u hu).1.idle]
    exact Settled.sound { hset with } rfl (by simp [Worker.goto]) { hhere.2 with }
  | inputRetried =>
    obtain ⟨rfl, hmain⟩ := hhere
    exact hset.inputRetried (hold (by simp)) hmain
  | inputStopped =>
    obtain ⟨rfl, hmain⟩ := hhere
    exact hset.inputStopped (hold (by simp)) hmain
  | midiStopped =>
    exact Settled.sound { hset with } (hold (by simp)) (by simp [Worker.resume, Worker.goto])
      ⟨{ hhere.2.1 with }, hhere.2.2⟩
  | midiRestarted =>
    exact Settled.sound { hset with } (hold (by simp)) (by simp [Worker.resume, Worker.goto])
      { hhere.2.1 with }
  | stopped ending again rest => exact hset.stopped (hold (by simp)) hhere (hsafe rfl)

end Resume

omit C in
theorem Sound.settled (h : Sound Inv w) (hp : ∀ k r, w.point ≠ .calling k r) : Settled Inv w :=
  ⟨fun k s hs ↦ ⟨h.inv k s hs, h.still hp hs⟩, h.fault⟩

omit C in
theorem Sound.old_none (h : Sound Inv w) (hp : ∀ k r, w.point ≠ .calling k r)
    (hs : w.point ≠ .start .output .recoveryStarted) : w.old = none := by
  cases ho : w.old with
  | none => rfl
  | some u =>
    rcases (h.old u ho).2 with hc | hc
    · exact absurd hc hs
    · exact absurd hc (hp _ _)

omit C in
theorem reset_none {k : Part} (hk : w.parts k = none) : w.reset k = w := by
  have hself : w.setPart k none = w := by
    rw [Worker.setPart, ← hk, Function.update_eq_self]
  simp only [Worker.reset, hk, hself]

theorem Settled.make (h : Settled Inv w) (k : Part) (i : (S k).Init) :
    Settled Inv (w.setPart k (some ((S k).make i))) := by
  obtain ⟨hinv, hwait, -⟩ := (C k).make i
  exact ⟨forall_setPart ⟨hinv, hwait⟩ fun j u _ hu ↦ h.parts j u hu, h.fault⟩

omit C in
theorem Boot.make {present absent : List Part} {k : Part} (h : Boot w present absent)
    (ha : k ∉ absent) (s : (S k).State) : Boot (w.setPart k (some s)) (k :: present) absent := by
  refine ⟨fun j hj ↦ ?_, fun j hj ↦ ?_, h.published⟩
  · by_cases hjk : j = k
    · subst hjk
      rw [Present, parts_setPart_self]
      rfl
    · rw [Present, parts_setPart_of_ne hjk]
      exact h.present j ((List.mem_cons.mp hj).resolve_left hjk)
  · have hne : j ≠ k := by
      rintro rfl
      exact ha hj
    rw [parts_setPart_of_ne hne]
    exact h.absent j hj

theorem Sound.make (h : Sound Inv w) {k : Part} (hp : w.point = .make k) (i : (S k).Init) :
    Sound Inv (((w.reset k).setPart k (some ((S k).make i))).made k) := by
  have hcall : ∀ j r, w.point ≠ .calling j r := by simp [hp]
  have hold := h.old_none hcall (by simp [hp])
  have hmade := (h.settled hcall).make C k i
  have hhere := h.here
  rw [hp] at hhere
  cases k with
  | output =>
    rw [reset_none (hhere.absent .output (by simp))]
    have hboot := (hhere.weaken (fun _ hk ↦ hk) (List.subset_cons_self _ _)).make (by decide)
      ((S .output).make i)
    exact Settled.sound { hmade with } hold (by simp [Worker.made, Worker.goto])
      ⟨⟨rfl, { hboot with }⟩, rfl⟩
  | feedback =>
    obtain ⟨hboot, hloop, hresult⟩ := hhere
    rw [reset_none (hboot.absent .feedback (by simp))]
    have hnew : Boot (w.setPart .feedback (some ((S .feedback).make i))) [.output, .feedback] [.input, .midi] :=
      ((hboot.weaken (fun _ hk ↦ hk) (List.subset_cons_self _ _)).make (by decide) _).weaken
        (by simp) fun _ hk ↦ hk
    exact Settled.sound { hmade with } hold (by simp [Worker.made, Worker.goto])
      ⟨⟨rfl, { hnew with }, hloop, hresult⟩, rfl⟩
  | input =>
    obtain ⟨hboot, hloop, hresult⟩ := hhere
    rw [reset_none (hboot.absent .input (by simp))]
    have hnew : Boot (w.setPart .input (some ((S .input).make i))) [.output, .input] [.midi] :=
      ((hboot.weaken (fun _ hk ↦ hk) (List.subset_cons_self _ _)).make (by decide) _).weaken
        (by simp) fun _ hk ↦ hk
    simp only [Worker.made]
    split_ifs
    · exact Settled.sound { hmade with } hold (by simp [Worker.goto])
        ⟨⟨rfl, { hnew with }, hloop⟩, rfl⟩
    · exact hmade.afterInput hold hnew hloop
  | midi =>
    obtain ⟨hboot, hloop⟩ := hhere
    rw [reset_none (hboot.absent .midi (by simp))]
    have hnew : Boot (w.setPart .midi (some ((S .midi).make i))) [.output, .input, .midi] [] :=
      ((hboot.weaken (fun _ hk ↦ hk) (List.subset_cons_self _ _)).make (by decide) _).weaken
        (by simp) fun _ hk ↦ hk
    exact Settled.sound { hmade with } hold (by simp [Worker.made, Worker.goto])
      ⟨{ hnew with }, hloop⟩

omit C in
theorem Sound.makeFails (h : Sound Inv w) {k : Part} (hp : w.point = .make k) :
    Sound Inv ((w.setResult .noMemory).cleanUp .failed) := by
  have hcall : ∀ j r, w.point ≠ .calling j r := by simp [hp]
  have hset := h.settled hcall
  have hpublished : w.published = [] := by
    have hhere := h.here
    rw [hp] at hhere
    cases k with
    | output => exact hhere.published
    | _ => exact hhere.1.published
  have hfailed : Settled Inv (w.setResult .noMemory) := { hset with }
  refine hfailed.cleanUp (h.old_none hcall (by simp [hp])) .failed ⟨?_, hpublished⟩
  simp [Worker.setResult]

theorem Sound.replace (h : Sound Inv w) (hp : w.point = .replace) (i : (S .output).Init) :
    Sound Inv { w.setPart .output (some ((S .output).make i)) with
      old := w.parts .output
      point := .start .output .recoveryStarted } := by
  have hcall : ∀ j r, w.point ≠ .calling j r := by simp [hp]
  have hmade := (h.settled hcall).make C .output i
  have hhere := h.here
  rw [hp] at hhere
  obtain ⟨hmain, hsafe⟩ := hhere
  have halike := alike_setPart Inv hmain.output ((S .output).make i)
  have hmain' := halike.main hmain
  exact
    { inv := fun k s hs ↦ (hmade.parts k s hs).1
      fault := h.fault
      waits := fun k s hs hwait ↦ absurd ((hmade.parts k s hs).2.symm.trans hwait) Bool.false_ne_true
      old := fun s hs ↦ ⟨hsafe s hs, .inl rfl⟩
      here := ⟨⟨rfl, { hmain' with }⟩, rfl⟩
      stopped := by simp
      grounded := by simp }

omit C in
theorem Sound.main (h : Sound Inv w) (hp : w.point = .head ∨ w.point = .runLoop ∨
    w.point = .output ∨ w.point = .input ∨ w.point = .midi) :
    Main w ∧ Settled Inv w ∧ w.old = none := by
  have hcall : ∀ j r, w.point ≠ .calling j r := by
    rcases hp with hp | hp | hp | hp | hp <;> simp [hp]
  have hstart : w.point ≠ .start .output .recoveryStarted := by
    rcases hp with hp | hp | hp | hp | hp <;> simp [hp]
  refine ⟨?_, h.settled hcall, h.old_none hcall hstart⟩
  have hhere := h.here
  rcases hp with hp | hp | hp | hp | hp <;> rw [hp] at hhere <;> exact hhere

omit C in
theorem exists_part {k : Part} (h : Present w k) : ∃ s, w.parts k = some s :=
  Option.isSome_iff_exists.mp h

omit C in
theorem Sound.checkOutput (h : Sound Inv w) (hp : w.point = .output) (currentDevice : Bool) :
    Sound Inv (w.checkOutput currentDevice) := by
  obtain ⟨hmain, hset, hold⟩ := h.main (by simp [hp])
  obtain ⟨s, hs⟩ := exists_part hmain.output
  simp only [Worker.checkOutput, hs]
  split_ifs
  · exact Settled.sound { hset with } hold (by simp) ⟨⟨rfl, { hmain with }⟩, rfl⟩
  · exact Settled.sound { hset with } hold (by simp [Worker.goto]) { hmain with }

omit C in
theorem Sound.checkInput (h : Sound Inv w) (hp : w.point = .input) : Sound Inv w.checkInput := by
  obtain ⟨hmain, hset, hold⟩ := h.main (by simp [hp])
  unfold Worker.checkInput
  split_ifs
  · exact Settled.sound { hset with } hold (by simp [Worker.goto]) ⟨⟨rfl, { hmain with }⟩, rfl⟩
  · exact Settled.sound { hset with } hold (by simp [Worker.goto]) ⟨⟨rfl, { hmain with }⟩, rfl⟩
  · exact Settled.sound { hset with } hold (by simp [Worker.goto]) { hmain with }

omit C in
theorem Sound.recoverMIDI (h : Sound Inv w) (hp : w.point = .midi) (forwarder : Bool) :
    Sound Inv (w.recoverMIDI forwarder) := by
  obtain ⟨hmain, hset, hold⟩ := h.main (by simp [hp])
  unfold Worker.recoverMIDI
  dsimp only
  split_ifs with hdue
  · have hmidi := hmain.midi ((Bool.and_eq_true _ _).mp hdue).1
    obtain ⟨s, hs⟩ := exists_part hmidi
    simp only [hs]
    split_ifs
    · exact Settled.sound { hset with } hold (by simp [Worker.goto])
        ⟨⟨rfl, { hmain with }, hmidi⟩, rfl⟩
    · exact Settled.sound { hset with } hold (by simp [Worker.goto]) ⟨{ hmain with }, hmidi⟩
  · exact Settled.sound { hset with } hold (by simp [Worker.goto]) { hmain with }
  · exact Settled.sound { hset with } hold (by simp [Worker.goto]) { hmain with }

omit C in
theorem Sound.checkMIDI (h : Sound Inv w) (hp : w.point = .midiCheck) : Sound Inv w.checkMIDI := by
  have hcall : ∀ j r, w.point ≠ .calling j r := by simp [hp]
  have hset := h.settled hcall
  have hold := h.old_none hcall (by simp [hp])
  have hhere := h.here
  rw [hp] at hhere
  obtain ⟨hmain, hmidi⟩ := hhere
  obtain ⟨s, hs⟩ := exists_part hmidi
  simp only [Worker.checkMIDI, hs]
  split_ifs
  · exact Settled.sound { hset with } hold (by simp [Worker.goto]) { hmain with }
  · exact Settled.sound { hset with } hold (by simp [Worker.goto]) ⟨⟨rfl, { hmain with }, hmidi⟩, rfl⟩

omit C in
theorem Sound.clean (h : Sound Inv w) (hp : (∃ e b l, w.point = .stops e b l) ∨
    (∃ e, w.point = .check e) ∨ (∃ e, w.point = .pump e) ∨ ∃ e l, w.point = .resets e l) :
    Settled Inv w ∧ w.old = none := by
  have hcall : ∀ j r, w.point ≠ .calling j r := by
    rcases hp with ⟨_, _, _, hp⟩ | ⟨_, hp⟩ | ⟨_, hp⟩ | ⟨_, _, hp⟩ <;> simp [hp]
  have hstart : w.point ≠ .start .output .recoveryStarted := by
    rcases hp with ⟨_, _, _, hp⟩ | ⟨_, hp⟩ | ⟨_, hp⟩ | ⟨_, _, hp⟩ <;> simp [hp]
  exact ⟨h.settled hcall, h.old_none hcall hstart⟩

omit C in
theorem Sound.nextStop (h : Sound Inv w) {ending : Ending} {again : Bool} {rest : List Part}
    (hp : w.point = .stops ending again rest) : Sound Inv (w.nextStop ending again rest) := by
  obtain ⟨hset, hold⟩ := h.clean (.inl ⟨_, _, _, hp⟩)
  have hhere := h.here
  rw [hp] at hhere
  obtain ⟨hleaving, hsuffix, hheeded⟩ := hhere
  cases rest with
  | nil =>
    exact Settled.sound { hset with } hold (by simp [Worker.nextStop, Worker.goto])
      ⟨hleaving.congr rfl rfl, fun k _ ↦ hheeded k (.inr List.not_mem_nil)⟩
  | cons k rest =>
    have hrest := (List.suffix_cons k rest).trans hsuffix
    have hcalls (hpresent : Present w k) :
        Sound Inv (w.goto (.stop k (.stopped ending again rest))) := by
      refine Settled.sound { hset with } hold (by simp [Worker.goto])
        ⟨⟨hpresent, hleaving.congr rfl rfl, hsuffix, fun j hj ↦ ?_⟩, rfl⟩
      refine hheeded j (hj.2.imp_right fun hn hm ↦ ?_)
      exact hn ((List.mem_cons.mp hm).resolve_left hj.1)
    simp only [Worker.nextStop]
    split_ifs with hagain hcall hcall
    · exact hcalls hcall.2
    · exact Settled.sound { hset with } hold (by simp [Worker.goto])
        ⟨hleaving.congr rfl rfl, hrest, fun j _ ↦ hheeded j (.inl hagain)⟩
    · exact hcalls hcall
    · have hnone : w.parts k = none := by simpa using hcall
      refine Settled.sound { hset with } hold (by simp [Worker.goto])
        ⟨hleaving.congr rfl rfl, hrest, fun j hj ↦ ?_⟩
      by_cases hjk : j = k
      · subst hjk
        exact ⟨fun _ ↦ safe_none hnone,
          fun hres ↦ absurd (stopResult_setStopResult_self w j .success) hres⟩
      · have hkept := stopResult_setStopResult_of_ne hjk w .success
        rw [Judged, show ((w.setStopResult k .success).goto (.stops ending again rest)).stopResult j =
          w.stopResult j from hkept]
        refine hheeded j (hj.imp_right fun hn hm ↦ ?_)
        exact hn ((List.mem_cons.mp hm).resolve_left hjk)

omit C in
theorem allStopped_iff : w.allStopped = true ↔ ∀ k, w.stopResult k = .success := by
  simp only [Worker.allStopped, Bool.and_eq_true, decide_eq_true_eq]
  constructor
  · rintro ⟨⟨⟨hmidi, hinput⟩, houtput⟩, hfeedback⟩ k
    cases k <;> assumption
  · intro h
    exact ⟨⟨⟨h .midi, h .input⟩, h .output⟩, h .feedback⟩

omit C in
theorem Sound.endRound (h : Sound Inv w) {ending : Ending} (hp : w.point = .check ending) :
    Sound Inv (w.endRound ending) := by
  obtain ⟨hset, hold⟩ := h.clean (.inr (.inl ⟨_, hp⟩))
  have hhere := h.here
  rw [hp] at hhere
  obtain ⟨hleaving, hheeded⟩ := hhere
  unfold Worker.endRound
  split_ifs with hdone
  · have hall : ∀ k, w.stopResult k = .success := by
      rcases hdone with rfl | hdone
      · exact hleaving.elim
      · exact allStopped_iff.mp hdone
    refine Settled.sound { hset with } hold (by simp [Worker.goto])
      ⟨hleaving.congr rfl rfl, List.suffix_refl _, fun k ↦ (hheeded k trivial).1 (hall k), fun k hk ↦ ?_⟩
    exact absurd (part_mem ending false k).2 hk
  · exact Settled.sound { hset with } hold (by simp [Worker.goto])
      ⟨hleaving.congr rfl rfl, hheeded⟩

omit C in
theorem Sound.pumped (h : Sound Inv w) {ending : Ending} (hp : w.point = .pump ending) :
    Sound Inv (w.goto (.stops ending true ending.again)) := by
  obtain ⟨hset, hold⟩ := h.clean (.inr (.inr (.inl ⟨_, hp⟩)))
  have hhere := h.here
  rw [hp] at hhere
  exact Settled.sound { hset with } hold (by simp [Worker.goto])
    ⟨hhere.1.congr rfl rfl, List.suffix_refl _, fun k _ ↦ hhere.2 k trivial⟩

omit C in
theorem Sound.nextReset (h : Sound Inv w) {ending : Ending} {rest : List Part}
    (hp : w.point = .resets ending rest) : Sound Inv (w.nextReset ending rest) := by
  obtain ⟨hset, hold⟩ := h.clean (.inr (.inr (.inr ⟨_, _, hp⟩)))
  have hhere := h.here
  rw [hp] at hhere
  obtain ⟨hleaving, hsuffix, hsafe, hgone⟩ := hhere
  cases rest with
  | nil =>
    have hnone : ∀ k, w.parts k = none := fun k ↦ hgone k List.not_mem_nil
    cases ending with
    | failed =>
      refine Settled.sound { hset with } hold (by simp [Worker.nextReset, Worker.publish, Worker.goto])
        ⟨hnone, ?_⟩
      simp [Worker.nextReset, Worker.publish, Worker.goto, hleaving.2]
    | requested =>
      refine Settled.sound { hset with } hold (by simp [Worker.nextReset, Worker.goto]) ⟨hnone, ?_⟩
      exact congrArg List.length hleaving
    | noRunLoop => exact hleaving.elim
  | cons k rest =>
    rw [Worker.nextReset, reset_eq (hsafe k)]
    refine Settled.sound { hset.drop k with } hold (by simp [Worker.goto])
      ⟨hleaving.congr rfl rfl, (List.suffix_cons k rest).trans hsuffix, fun j ↦ ?_, fun j hj ↦ ?_⟩
    all_goals
      by_cases hjk : j = k
    · subst hjk
      exact safe_none (parts_setPart_self w j none)
    · exact safe_setPart_of_ne (hsafe j) hjk none
    · subst hjk
      exact parts_setPart_self w j none
    · refine (parts_setPart_of_ne hjk w none).trans (hgone j fun hm ↦ ?_)
      exact hj ((List.mem_cons.mp hm).resolve_left hjk)

omit C in
theorem Sound.replaceFails (h : Sound Inv w) (hp : w.point = .replace) :
    Sound Inv (w.goto .input) := by
  have hhere := h.here
  rw [hp] at hhere
  have hcall : ∀ j r, w.point ≠ .calling j r := by simp [hp]
  exact Settled.sound { h.settled hcall with } (h.old_none hcall (by simp [hp]))
    (by simp [Worker.goto]) { hhere.1 with }

omit C in
theorem Sound.prepareMIDI (h : Sound Inv w) (hp : w.point = .prepareMIDI) (output forwarder : Bool) :
    Sound Inv
      (if output && forwarder then w.goto (.start .midi .midiStarted) else w.goto .booted) := by
  have hcall : ∀ j r, w.point ≠ .calling j r := by simp [hp]
  have hset := h.settled hcall
  have hold := h.old_none hcall (by simp [hp])
  have hhere := h.here
  rw [hp] at hhere
  obtain ⟨hboot, hloop⟩ := hhere
  split_ifs
  · exact Settled.sound { hset with } hold (by simp [Worker.goto]) ⟨⟨rfl, { hboot with }, hloop⟩, rfl⟩
  · exact hset.midiStarted hold hboot hloop

omit C in
theorem Sound.booted (h : Sound Inv w) (hp : w.point = .booted) (now : ℕ) :
    Sound Inv { w.publish .success with
      now := now
      nextOutputRetry := now
      nextInputRetry := now
      nextMIDIRecovery := now
      point := .head } := by
  have hcall : ∀ j r, w.point ≠ .calling j r := by simp [hp]
  have hhere := h.here
  rw [hp] at hhere
  obtain ⟨hboot, hrun, hmidi⟩ := hhere
  have hpublished : w.published ++ [.success] = [IOReturn.success] := by
    rw [hboot.published]
    rfl
  exact Settled.sound { h.settled hcall with } (h.old_none hcall (by simp [hp])) (by simp)
    ⟨hrun, hboot.present .output (by simp), hboot.present .input (by simp), hmidi, hpublished⟩

omit C in
theorem Sound.runLoop (h : Sound Inv w) (hp : w.point = .booted) : w.runLoop = true := by
  have hhere := h.here
  rw [hp] at hhere
  exact hhere.2.1

omit C in
theorem Sound.leave (h : Sound Inv w) (hp : w.point = .head) : Sound Inv (w.cleanUp .requested) := by
  obtain ⟨hmain, hset, hold⟩ := h.main (.inl hp)
  exact hset.cleanUp hold .requested hmain.published

omit C in
theorem Sound.goto (h : Sound Inv w) (hp : w.point = .head) : Sound Inv (w.goto .runLoop) := by
  obtain ⟨hmain, hset, hold⟩ := h.main (.inl hp)
  exact Settled.sound { hset with } hold (by simp [Worker.goto]) { hmain with }

omit C in
theorem Sound.wake (h : Sound Inv w) (hp : w.point = .runLoop) (now : ℕ) :
    Sound Inv { w with now := now, point := .output } := by
  obtain ⟨hmain, hset, hold⟩ := h.main (.inr (.inl hp))
  exact Settled.sound { hset with } hold (by simp) { hmain with }

theorem Sound.step (h : Sound Inv w) {a : Action S} (hs : step w a = some w') : Sound Inv w' := by
  cases stepped hs with
  | setInputEnabled enabled =>
    have halike : Alike Inv (fun _ ↦ True) w { w with inputEnabled := enabled } :=
      ⟨fun _ ↦ Iff.rfl, fun _ _ hk ↦ hk, rfl, rfl, rfl, rfl, rfl⟩
    exact { h with here := halike.at h.here }
  | requestStop =>
    have halike : Alike Inv (fun _ ↦ True) w { w with stopRequested := true } :=
      ⟨fun _ ↦ Iff.rfl, fun _ _ hk ↦ hk, rfl, rfl, rfl, rfl, rfl⟩
    exact { h with here := halike.at h.here }
  | event hp hk ht => exact h.event C hp hk ht
  | oldEvent _ hold ht => exact (h.oldEvent C hold ht).elim
  | makeFails hp => exact h.makeFails hp
  | make i hp => exact h.make C hp i
  | replaceFails hp => exact h.replaceFails hp
  | replace i hp => exact h.replace C hp i
  | start a hloop hp hk => exact h.start C a hloop hp hk
  | stop a _ hp hk => exact h.stop C a hp hk
  | fault a _ hp hk => exact absurd hk (h.present hp)
  | returned hp hk hdone => exact h.resume hp hk hdone
  | prepareMIDI output forwarder hp => exact h.prepareMIDI hp output forwarder
  | booted now hp => exact h.booted hp now
  | noRunLoop now hp hloop => exact absurd ((h.runLoop hp).symm.trans hloop) (by decide)
  | leave hp => exact h.leave hp
  | enter hp => exact h.goto hp
  | wake hp => exact h.wake hp _
  | checkOutput currentDevice hp => exact h.checkOutput hp currentDevice
  | checkInput hp => exact h.checkInput hp
  | recoverMIDI forwarder hp => exact h.recoverMIDI hp forwarder
  | checkMIDI hp => exact h.checkMIDI hp
  | nextStop hp => exact h.nextStop hp
  | endRound hp => exact h.endRound hp
  | pumped hp => exact h.pumped hp
  | nextReset hp => exact h.nextReset hp

end Steps

end NumarkNS6.CoreAudio.TransportWorker
