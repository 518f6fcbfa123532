import NumarkNS6.CoreAudio.TransportServices

namespace NumarkNS6.CoreAudio.TransportWorker

open Foundation.Runs Foundation.Services Usb

def Action.own {S : Part → Service IOReturn} : Action S → Bool
  | .setInputEnabled _ | .requestStop | .event _ _ | .oldEvent _ => false
  | _ => true

def Point.clearing : Point → Bool
  | .stop _ (.stopped _ _ _) | .calling _ (.stopped _ _ _) => true
  | .stops _ _ _ | .check _ | .pump _ | .resets _ _ | .finished => true
  | _ => false

section

variable {S : Part → Service IOReturn} {Inv : ∀ k, (S k).State → Prop}
  (Done : ∀ k, (S k).State → Prop) (w : Worker S)

def Calm : Prop := ∀ k s, w.parts k = some s → (S k).waiting s = false ∧ (S k).outstanding s = false

/-- Component `k` needs at most `j` more calls of `stop`, if `j` is less than two. -/
def Level (k : Part) : ℕ → Prop
  | 0 => w.stopResult k = .success
  | 1 => w.stopResult k = .success ∨ ∃ s, w.parts k = some s ∧ Done k s
  | _ => w.stopResult k = .success ∨ Present w k

/-- Component `i` in a round of calls after which `Level j` is to hold. The
results of `stop` mean nothing before the turn in the first round. -/
def Round (again : Bool) (rest : List Part) (j : ℕ) (i : Part) : Prop :=
  if i ∈ rest then (if again then Level Done w i (j + 1) else 1 ≤ j) else Level Done w i j

/-- At place `p` the worker thread is at most `n` steps from its end. -/
def Due : Point → ℕ → Prop
  | .stops _ again rest, n =>
    ∃ j, (∀ i, Round Done w again rest j i) ∧ 15 * j + 3 * rest.length + 7 ≤ n
  | .stop k (.stopped _ again rest), n =>
    ∃ j, (j = 0 → ∃ s, w.parts k = some s ∧ Done k s) ∧
      (∀ i ≠ k, Round Done w again rest j i) ∧ 15 * j + 3 * rest.length + 9 ≤ n
  | .calling k (.stopped _ again rest), n =>
    ∃ j, (∀ s, w.parts k = some s → (j = 0 → (S k).result s = .success) ∧
        (j = 1 → (S k).result s = .success ∨ Done k s)) ∧
      (∀ i ≠ k, Round Done w again rest j i) ∧ 15 * j + 3 * rest.length + 8 ≤ n
  | .check _, n => ∃ j, (∀ k, Level Done w k j) ∧ 15 * j + 6 ≤ n
  | .pump _, n => ∃ j, (∀ k, Level Done w k (j + 1)) ∧ 15 * j + 20 ≤ n
  | .resets _ rest, n => rest.length + 1 ≤ n
  | .finished, _ => True
  | _, _ => False

end

variable {S : Part → Service IOReturn} {Inv Done : ∀ k, (S k).State → Prop} {w w' : Worker S}

theorem level_of_success {k : Part} (h : w.stopResult k = .success) (j : ℕ) : Level Done w k j := by
  match j with
  | 0 => exact h
  | 1 => exact .inl h
  | _ + 2 => exact .inl h

theorem Level.succ {k : Part} {j : ℕ} (h : Level Done w k j) : Level Done w k (j + 1) := by
  match j with
  | 0 => exact .inl h
  | 1 =>
    refine h.imp_right ?_
    rintro ⟨s, hs, -⟩
    exact present_of_eq hs
  | _ + 2 => exact h

theorem Level.congr {k : Part} {j : ℕ} (h : Level Done w k j) (hp : w'.parts k = w.parts k)
    (hr : w'.stopResult k = w.stopResult k) : Level Done w' k j := by
  match j with
  | 0 => exact hr.trans h
  | 1 =>
    rw [Level, hr, hp]
    exact h
  | _ + 2 =>
    have hsome : w.stopResult k = .success ∨ (w.parts k).isSome = true := h
    rw [← hr, ← hp] at hsome
    exact hsome

theorem Round.congr {again : Bool} {rest : List Part} {j : ℕ} {i : Part}
    (h : Round Done w again rest j i) (hp : w'.parts i = w.parts i)
    (hr : w'.stopResult i = w.stopResult i) : Round Done w' again rest j i := by
  unfold Round at h ⊢
  split_ifs at h ⊢
  · exact h.congr hp hr
  · exact h
  · exact h.congr hp hr

theorem Round.tail {again : Bool} {k : Part} {rest : List Part} {j : ℕ} {i : Part} (hik : i ≠ k)
    (h : Round Done w again (k :: rest) j i) : Round Done w again rest j i := by
  unfold Round at h ⊢
  simpa only [List.mem_cons, hik, false_or] using h

theorem Round.turn {again : Bool} {k : Part} {rest : List Part} {j : ℕ}
    (h : Round Done w again (k :: rest) j k) :
    if again then Level Done w k (j + 1) else 1 ≤ j := by
  simpa only [Round, List.mem_cons_self, if_true] using h

theorem Round.over {again : Bool} {rest : List Part} {j : ℕ} {k : Part} (hk : k ∉ rest)
    (h : Level Done w k j) : Round Done w again rest j k := by
  rw [Round, if_neg hk]
  exact h

section Steps

variable (C : ∀ k, Contract (S k) .success (Inv k))
  (T : ∀ k, Settles (S k) .success (Inv k) (Done k))

theorem calm_setPart {k : Part} {s : (S k).State} (h : Calm w) (hw : (S k).waiting s = false)
    (ho : (S k).outstanding s = false) : Calm (w.setPart k (some s)) :=
  forall_setPart ⟨hw, ho⟩ fun j u _ ↦ h j u

include C in
theorem Calm.event (h : Calm w) (hs : Sound Inv w) {k : Part} {s : (S k).State}
    (hk : w.parts k = some s) (e : (S k).Event) : (S k).event s e = none := by
  obtain ⟨hw, ho⟩ := h k s hk
  cases he : (S k).event s e with
  | none => rfl
  | some t => exact absurd (ho.symm.trans ((C k).calm (hs.inv k s hk) hw he).1) Bool.false_ne_true

include C T in
theorem due_call (hs : Sound Inv w) (hc : Calm w) {n : ℕ} {k : Part} {ending : Ending} {again : Bool}
    {rest : List Part} (hp : w.point = .stop k (.stopped ending again rest))
    (hd : Due Done w w.point n) {s : (S k).State} (hk : w.parts k = some s) (a : (S k).Answers) :
    Calm (w.setPart k (some ((S k).stop a s))) ∧ ∃ m, m + 1 ≤ n ∧
      Due Done (w.setPart k (some ((S k).stop a s))) (.calling k (.stopped ending again rest)) m := by
  have hinv := hs.inv k s hk
  obtain ⟨hw, ho⟩ := hc k s hk
  obtain ⟨hreturned, hdone⟩ := (T k).first a hinv hw ho
  have hinv' := (C k).stop a hinv hw
  have hout := (T k).done hinv' hreturned hdone
  refine ⟨calm_setPart hc hreturned hout, ?_⟩
  rw [hp] at hd
  obtain ⟨j, hturn, hothers, hn⟩ := hd
  refine ⟨n - 1, by omega, j, fun u hu ↦ ⟨?_, ?_⟩, fun i hi ↦ ?_, by omega⟩
  · rintro rfl
    rw [parts_setPart_self] at hu
    cases hu
    obtain ⟨u, hu, hd⟩ := hturn rfl
    rw [hk] at hu
    cases hu
    exact ((T k).again a hinv hd).2
  · intro _
    rw [parts_setPart_self] at hu
    cases hu
    exact .inr hdone
  · exact (hothers i hi).congr (parts_setPart_of_ne hi w _) rfl

theorem due_returned (hs : Sound Inv w) {n : ℕ} {k : Part} {ending : Ending} {again : Bool}
    {rest : List Part} (hp : w.point = .calling k (.stopped ending again rest))
    (hd : Due Done w w.point n) {s : (S k).State} (hk : w.parts k = some s) :
    ∃ m, m + 1 ≤ n ∧ Due Done (w.setStopResult k ((S k).result s)) (.stops ending again rest) m := by
  have hhere := hs.here
  rw [hp] at hhere hd
  obtain ⟨hpresent, -, hsuffix, -⟩ := hhere
  obtain ⟨j, houtcome, hothers, hn⟩ := hd
  have hself := stopResult_setStopResult_self w k ((S k).result s)
  refine ⟨n - 1, by omega, j, fun i ↦ ?_, by omega⟩
  by_cases hik : i = k
  · subst hik
    have hnot : i ∉ rest := (List.nodup_cons.mp (hsuffix.sublist.nodup (part_nodup _ _).1)).1
    refine Round.over hnot ?_
    match j with
    | 0 => exact hself.trans ((houtcome s hk).1 rfl)
    | 1 => exact ((houtcome s hk).2 rfl).imp (hself.trans ·) fun hd ↦ ⟨s, hk, hd⟩
    | _ + 2 => exact .inr hpresent
  · exact (hothers i hik).congr rfl (stopResult_setStopResult_of_ne hik w _)

theorem due_nextStop (hs : Sound Inv w) {n : ℕ} {ending : Ending} {again : Bool} {rest : List Part}
    (hp : w.point = .stops ending again rest) (hd : Due Done w w.point n) :
    ∃ m, m + 1 ≤ n ∧
      Due Done (w.nextStop ending again rest) (w.nextStop ending again rest).point m := by
  have hhere := hs.here
  rw [hp] at hhere hd
  obtain ⟨j, hround, hn⟩ := hd
  cases rest with
  | nil =>
    rw [List.length_nil] at hn
    refine ⟨n - 1, by omega, j, fun i ↦ ?_, by omega⟩
    have hlevel : Level Done w i j := by simpa [Round] using hround i
    exact hlevel.congr rfl rfl
  | cons k rest =>
    have hnot : k ∉ rest := (List.nodup_cons.mp (hhere.2.1.sublist.nodup (part_nodup _ _).1)).1
    have hturn := (hround k).turn
    rw [List.length_cons] at hn
    simp only [Worker.nextStop]
    split_ifs with hagain hcall hcall
    · rw [if_pos hagain] at hturn
      refine ⟨n - 1, by omega, j, ?_, fun i hi ↦ (hround i).tail hi, by omega⟩
      rintro rfl
      exact hturn.resolve_left hcall.1
    · have hsuccess : w.stopResult k = .success := by
        by_contra hne
        have hpresent : Present w k := (hhere.2.2 k (.inl hagain)).2 hne
        exact hcall ⟨hne, hpresent⟩
      refine ⟨n - 1, by omega, j, fun i ↦ ?_, by omega⟩
      by_cases hik : i = k
      · subst hik
        exact Round.over hnot (level_of_success hsuccess j)
      · exact (hround i).tail hik
    · rw [if_neg hagain] at hturn
      refine ⟨n - 1, by omega, j, ?_, fun i hi ↦ (hround i).tail hi, by omega⟩
      rintro rfl
      exact absurd hturn (Nat.not_succ_le_zero 0)
    · refine ⟨n - 1, by omega, j, fun i ↦ ?_, by omega⟩
      by_cases hik : i = k
      · subst hik
        exact Round.over hnot (level_of_success (stopResult_setStopResult_self w i .success) j)
      · exact ((hround i).tail hik).congr rfl (stopResult_setStopResult_of_ne hik w _)

theorem due_endRound (hs : Sound Inv w) {n : ℕ} {ending : Ending} (hp : w.point = .check ending)
    (hd : Due Done w w.point n) :
    ∃ m, m + 1 ≤ n ∧ Due Done (w.endRound ending) (w.endRound ending).point m := by
  have hhere := hs.here
  rw [hp] at hhere hd
  obtain ⟨j, hlevel, hn⟩ := hd
  unfold Worker.endRound
  split_ifs with hdone
  · have hlength : ending.resets.length = 4 := by cases ending <;> rfl
    refine ⟨n - 1, by omega, ?_⟩
    change ending.resets.length + 1 ≤ n - 1
    omega
  · match j with
    | 0 => exact absurd (.inr (allStopped_iff.mpr hlevel)) hdone
    | j + 1 => exact ⟨n - 1, by omega, j, hlevel, by omega⟩

theorem due_pump {n : ℕ} {ending : Ending} (hd : Due Done w (.pump ending) n) :
    ∃ m, m + 1 ≤ n ∧ Due Done w (.stops ending true ending.again) m := by
  obtain ⟨j, hlevel, hn⟩ := hd
  have hlength : ending.again.length = 4 := by cases ending <;> rfl
  refine ⟨n - 1, by omega, j, fun i ↦ ?_, by omega⟩
  have hi : i ∈ ending.again := (part_mem ending true i).1
  rw [Round, if_pos hi]
  exact hlevel i

theorem due_nextReset {n : ℕ} {ending : Ending} {rest : List Part}
    (hp : w.point = .resets ending rest) (hd : Due Done w w.point n) :
    ∃ m, m + 1 ≤ n ∧ Due Done (w.nextReset ending rest) (w.nextReset ending rest).point m := by
  rw [hp] at hd
  have hn : rest.length + 1 ≤ n := hd
  cases rest with
  | nil =>
    refine ⟨n - 1, by omega, ?_⟩
    cases ending <;> exact trivial
  | cons k rest =>
    rw [List.length_cons] at hn
    refine ⟨n - 1, by omega, ?_⟩
    change rest.length + 1 ≤ n - 1
    omega

theorem calm_reset (h : Calm w) (k : Part) : Calm (w.reset k) := by
  have hset : Calm (w.setPart k none) := by
    intro j u hu
    by_cases hjk : j = k
    · subst hjk
      rw [parts_setPart_self] at hu
      cases hu
    · rw [parts_setPart_of_ne hjk] at hu
      exact h j u hu
  unfold Worker.reset
  dsimp only
  split
  · exact hset
  · split_ifs
    · exact hset
    · exact hset

theorem Due.congr {p : Point} {n : ℕ} (h : Due Done w p n) (hp : w'.parts = w.parts)
    (hr : w'.stopResult = w.stopResult) : Due Done w' p n := by
  unfold Due Round Level Present at h ⊢
  rw [hp, hr]
  exact h

inductive Cleared (w : Worker S) : Worker S → Prop
  | call {k : Part} {ending : Ending} {again : Bool} {rest : List Part} {s : (S k).State}
      (a : (S k).Answers) (point : w.point = .stop k (.stopped ending again rest))
      (part : w.parts k = some s) : Cleared w
        ((w.setPart k (some ((S k).stop a s))).goto (.calling k (.stopped ending again rest)))
  | returned {k : Part} {ending : Ending} {again : Bool} {rest : List Part} {s : (S k).State}
      (point : w.point = .calling k (.stopped ending again rest)) (part : w.parts k = some s) :
      Cleared w ((w.setStopResult k ((S k).result s)).goto (.stops ending again rest))
  | next {ending : Ending} {again : Bool} {rest : List Part}
      (point : w.point = .stops ending again rest) : Cleared w (w.nextStop ending again rest)
  | round {ending : Ending} (point : w.point = .check ending) : Cleared w (w.endRound ending)
  | pump {ending : Ending} (point : w.point = .pump ending) :
      Cleared w (w.goto (.stops ending true ending.again))
  | reset {ending : Ending} {rest : List Part} (point : w.point = .resets ending rest) :
      Cleared w (w.nextReset ending rest)

theorem cleared {a : Action S} (h : Sound Inv w) (hp : w.point.clearing = true)
    (ha : a.own = true) (hs : step w a = some w') : Cleared w w' := by
  -- Outside of the clean-up a step asks for a place that `clearing` excludes.
  have habsurd {p : Point} {P : Prop} (hw : w.point = p) (hc : p.clearing = false) : P := by
    rw [hw, hc] at hp
    cases hp
  cases stepped hs with
  | setInputEnabled | requestStop | event | oldEvent => cases ha
  | fault _ _ hpoint hpart => exact absurd hpart (h.present hpoint)
  | @stop _ r _ a _ hpoint hpart =>
    cases r with
    | stopped ending again rest => exact .call a hpoint hpart
    | _ => exact habsurd hpoint rfl
  | @returned _ r _ hpoint hpart _ =>
    cases r with
    | stopped ending again rest => exact .returned hpoint hpart
    | _ => exact habsurd hpoint rfl
  | nextStop hpoint => exact .next hpoint
  | endRound hpoint => exact .round hpoint
  | pumped hpoint => exact .pump hpoint
  | nextReset hpoint => exact .reset hpoint
  | makeFails hpoint | make _ hpoint | replaceFails hpoint | replace _ hpoint | start _ _ hpoint
  | prepareMIDI _ _ hpoint | booted _ hpoint | noRunLoop _ hpoint | leave hpoint | enter hpoint
  | wake hpoint | checkOutput _ hpoint | checkInput hpoint | recoverMIDI _ hpoint
  | checkMIDI hpoint => exact habsurd hpoint rfl

theorem Due.clearing {n : ℕ} (h : Due Done w w.point n) : w.point.clearing = true := by
  revert h
  generalize w.point = p
  intro h
  cases p with
  | stop k r | calling k r =>
    cases r with
    | stopped ending again rest => rfl
    | _ => exact h.elim
  | stops | check | pump | resets | finished => rfl
  | _ => exact h.elim

structure Near (Inv Done : ∀ k, (S k).State → Prop) (w : Worker S) (n : ℕ) : Prop where
  sound : Sound Inv w
  calm : Calm w
  due : Due Done w w.point n

include C T in
theorem Near.own {n : ℕ} (h : Near Inv Done w n) {a : Action S} (ha : a.own = true)
    (hs : step w a = some w') : ∃ m, Near Inv Done w' m ∧ m + 1 ≤ n := by
  have hsound := h.sound.step C hs
  suffices hnext : Calm w' ∧ ∃ m, m + 1 ≤ n ∧ Due Done w' w'.point m by
    obtain ⟨hcalm, m, hm, hd⟩ := hnext
    exact ⟨m, ⟨hsound, hcalm, hd⟩, hm⟩
  cases cleared h.sound h.due.clearing ha hs with
  | call a hp hk =>
    obtain ⟨hcalm, m, hm, hd⟩ := due_call C T h.sound h.calm hp h.due hk a
    exact ⟨hcalm, m, hm, hd.congr rfl rfl⟩
  | returned hp hk =>
    obtain ⟨m, hm, hd⟩ := due_returned h.sound hp h.due hk
    exact ⟨h.calm, m, hm, hd.congr rfl rfl⟩
  | @next ending again rest hp =>
    refine ⟨?_, due_nextStop h.sound hp h.due⟩
    cases rest with
    | nil => exact h.calm
    | cons k rest =>
      simp only [Worker.nextStop]
      split_ifs <;> exact h.calm
  | round hp =>
    refine ⟨?_, due_endRound h.sound hp h.due⟩
    unfold Worker.endRound
    split_ifs <;> exact h.calm
  | pump hp =>
    have hdue := h.due
    rw [hp] at hdue
    obtain ⟨m, hm, hd⟩ := due_pump hdue
    exact ⟨h.calm, m, hm, hd.congr rfl rfl⟩
  | @reset ending rest hp =>
    refine ⟨?_, due_nextReset hp h.due⟩
    cases rest with
    | nil => cases ending <;> exact h.calm
    | cons k rest => exact calm_reset h.calm k

include C T in
theorem Near.step {n : ℕ} (h : Near Inv Done w n) {a : Action S} (hs : step w a = some w') :
    ∃ m, Near Inv Done w' m ∧ m + a.own.toNat ≤ n := by
  cases ha : a.own with
  | true => exact h.own C T ha hs
  | false =>
    have hsound := h.sound.step C hs
    cases stepped hs with
    | setInputEnabled enabled => exact ⟨n, ⟨hsound, h.calm, h.due.congr rfl rfl⟩, le_rfl⟩
    | requestStop => exact ⟨n, ⟨hsound, h.calm, h.due.congr rfl rfl⟩, le_rfl⟩
    | event _ hk ht =>
      rw [h.calm.event C h.sound hk] at ht
      cases ht
    | oldEvent _ hold ht => exact (h.sound.oldEvent C hold ht).elim
    | _ => cases ha

include T in
/-- The worker thread is never stuck. -/
theorem Near.progress {n : ℕ} (h : Near Inv Done w n) :
    w.point = .finished ∨ ∃ a w', Action.own a = true ∧ TransportWorker.step w a = some w' := by
  have hclearing := h.due.clearing
  have hhere := h.sound.here
  cases hp : w.point with
  | finished => exact .inl rfl
  | stops ending again rest =>
    exact .inr ⟨.cleanUp, _, rfl, by simp only [TransportWorker.step, hp]; rfl⟩
  | check ending => exact .inr ⟨.cleanUp, _, rfl, by simp only [TransportWorker.step, hp]; rfl⟩
  | pump ending => exact .inr ⟨.cleanUp, _, rfl, by simp only [TransportWorker.step, hp]; rfl⟩
  | resets ending rest => exact .inr ⟨.cleanUp, _, rfl, by simp only [TransportWorker.step, hp]; rfl⟩
  | stop k r =>
    rw [hp] at hhere
    obtain ⟨s, hs⟩ := exists_part hhere.1.present
    obtain ⟨a, ha⟩ := (T k).asked w.runLoop
    refine .inr ⟨.call k a, (w.setPart k (some ((S k).stop a s))).goto (.calling k r), rfl, ?_⟩
    simp [TransportWorker.step, TransportWorker.call, ha, hp, hs]
  | calling k r =>
    rw [hp] at hhere
    obtain ⟨s, hs⟩ := exists_part (AtCall.present hhere)
    refine .inr ⟨.returned, w.resume k ((S k).result s) r, rfl, ?_⟩
    simp [TransportWorker.step, hp, hs, (h.calm k s hs).1]
  | _ =>
    rw [hp] at hclearing
    cases hclearing

theorem order_length (ending : Ending) (again : Bool) : (ending.order again).length = 4 := by
  cases ending <;> cases again <;> rfl

theorem Judged.level {k : Part} (h : Judged Inv w k) : Level Done w k 2 := by
  by_cases hres : w.stopResult k = .success
  · exact .inl hres
  · exact .inr (h.2 hres)

/-- Wherever the clean-up is, its end is near. -/
theorem Sound.due (h : Sound Inv w) (hp : w.point.clearing = true) : Due Done w w.point 49 := by
  have hhere := h.here
  have hround {known : Part → Prop} (hheeded : Heeded Inv w known) {again : Bool} {rest : List Part}
      {i : Part} (hi : again = true ∨ i ∉ rest → known i) : Round Done w again rest 2 i := by
    unfold Round
    split_ifs with hmem hagain
    · exact (hheeded i (hi (.inl hagain))).level.succ
    · exact Nat.le_succ 1
    · exact (hheeded i (hi (.inr hmem))).level
  cases hpoint : w.point with
  | stops ending again rest =>
    rw [hpoint] at hhere
    obtain ⟨-, hsuffix, hheeded⟩ := hhere
    have hlength := hsuffix.length_le
    rw [order_length] at hlength
    exact ⟨2, fun i ↦ hround hheeded id, by omega⟩
  | check ending =>
    rw [hpoint] at hhere
    exact ⟨2, fun k ↦ (hhere.2 k trivial).level, by omega⟩
  | pump ending =>
    rw [hpoint] at hhere
    exact ⟨1, fun k ↦ (hhere.2 k trivial).level, by omega⟩
  | resets ending rest =>
    rw [hpoint] at hhere
    have hlength := hhere.2.1.length_le
    have hfour : ending.resets.length = 4 := by cases ending <;> rfl
    change rest.length + 1 ≤ 49
    omega
  | finished => exact trivial
  | stop k r =>
    rw [hpoint] at hp hhere
    cases r with
    | stopped ending again rest =>
      obtain ⟨-, -, hsuffix, hheeded⟩ := hhere.1
      have hlength := hsuffix.length_le
      rw [order_length, List.length_cons] at hlength
      refine ⟨2, fun hj ↦ absurd hj (by decide), fun i hi ↦ hround hheeded fun hk ↦ ⟨hi, hk⟩, by omega⟩
    | _ => cases hp
  | calling k r =>
    rw [hpoint] at hp hhere
    cases r with
    | stopped ending again rest =>
      obtain ⟨-, -, hsuffix, hheeded⟩ := hhere
      have hlength := hsuffix.length_le
      rw [order_length, List.length_cons] at hlength
      refine ⟨2, fun s _ ↦ ⟨fun hj ↦ absurd hj (by decide), fun hj ↦ absurd hj (by decide)⟩,
        fun i hi ↦ hround hheeded fun hk ↦ ⟨hi, hk⟩, by omega⟩
    | _ => cases hp
  | _ =>
    rw [hpoint] at hp
    cases hp

theorem Sound.answered (h : Sound Inv w) (hp : w.point ≠ .finished) :
    w.published = [] ∨ w.published = [.success] := by
  have hhere := h.here
  have hleaving {ending : Ending} (hl : Leaving w ending) :
      w.published = [] ∨ w.published = [.success] := by
    cases ending with
    | failed => exact .inl hl.2
    | requested => exact .inr hl
    | noRunLoop => exact hl.elim
  have hcall {k : Part} {r : Return} (ha : AtCall Inv w k r) :
      w.published = [] ∨ w.published = [.success] := by
    cases r with
    | outputStarted => exact .inl ha.2.published
    | feedbackStarted | feedbackStopped | inputStarted | midiStarted => exact .inl ha.2.1.published
    | recoveryStopped | recoveryStarted | inputRetried | inputStopped => exact .inr ha.2.published
    | midiStopped | midiRestarted => exact .inr ha.2.1.published
    | stopped => exact hleaving ha.2.1
  cases hpoint : w.point with
  | finished => exact absurd hpoint hp
  | make k =>
    rw [hpoint] at hhere
    cases k with
    | output => exact .inl hhere.published
    | _ => exact .inl hhere.1.published
  | start | stop =>
    rw [hpoint] at hhere
    exact hcall hhere.1
  | calling =>
    rw [hpoint] at hhere
    exact hcall hhere
  | prepareMIDI | booted =>
    rw [hpoint] at hhere
    exact .inl hhere.1.published
  | head | runLoop | output | input | midi =>
    rw [hpoint] at hhere
    exact .inr hhere.published
  | replace | midiCheck =>
    rw [hpoint] at hhere
    exact .inr hhere.1.published
  | stops | check | pump | resets =>
    rw [hpoint] at hhere
    exact hleaving hhere.1

end Steps

section Runtime

theorem blank_report : (List.replicate Midi.MIDIInputParser.reportBytes (0 : UInt8)).length =
    Midi.MIDIInputParser.reportBytes := List.length_replicate

def services : Part → Service IOReturn
  | .output => outputService
  | .feedback => feedbackService
  | .input => readerService AudioIn.AudioInputReader.kind none ⟨0, 0, .success, 0, 0, 0, []⟩
  | .midi => readerService Midi.MIDIInputReader.kind
      ⟨List.replicate Midi.MIDIInputParser.reportBytes 0, blank_report⟩ Midi.MIDIInputReader.fresh

def invariants : ∀ k, (services k).State → Prop
  | .output => OutputInv
  | .feedback => FeedbackInv
  | .input => ReaderInv AudioIn.AudioInputReader.kind AudioIn.AudioInputReader.Ready
      AudioIn.AudioInputReader.Stored AudioIn.AudioInputReader.Published
  | .midi => ReaderInv Midi.MIDIInputReader.kind (fun _ ↦ True) Midi.MIDIInputReader.Stored
      Midi.MIDIInputReader.Replays

def undone : ∀ k, (services k).State → Prop
  | .output => fun s ↦ s.worker.initialized = false ∨ AudioOut.AudioOutWorker.System.Drained s
  | .feedback => fun s ↦ s.reader.session = false ∨ s.reader.initialized = false
  | .input => fun s ↦ s.reader.session = false
  | .midi => fun s ↦ s.reader.session = false

theorem contracts : ∀ k, Contract (services k) .success (invariants k)
  | .output => output_contract
  | .feedback => feedback_contract
  | .input => reader_contract AudioIn.AudioInputReader.lawful rfl
  | .midi => reader_contract Midi.MIDIInputReader.lawful
      ⟨Midi.MIDIInputParser.fresh_represents, rfl⟩

theorem settles : ∀ k, Settles (services k) .success (invariants k) (undone k)
  | .output => output_settles
  | .feedback => feedback_settles
  | .input => reader_settles
  | .midi => reader_settles

theorem sound_initial (midiEnabled inputEnabled runLoop : Bool) :
    Sound invariants (initial (S := services) midiEnabled inputEnabled runLoop) := by
  have hnone (k : Part) (s : (services k).State)
      (hs : (initial (S := services) midiEnabled inputEnabled runLoop).parts k = some s) : False := by
    cases hs
  exact
    { inv := fun k s hs ↦ (hnone k s hs).elim
      fault := rfl
      waits := fun k s hs ↦ (hnone k s hs).elim
      old := fun s hs ↦ by cases hs
      here := ⟨by simp, fun _ _ ↦ rfl, rfl⟩
      stopped := fun k s hs ↦ (hnone k s hs).elim
      grounded := fun s _ hs ↦ (hnone .output s hs).elim }

theorem run_sound {midiEnabled inputEnabled runLoop : Bool} {as : List (Action services)}
    {w : Worker services} (h : Run step (initial midiEnabled inputEnabled runLoop) as w) :
    Sound invariants w :=
  h.invariant (sound_initial ..) fun _ _ _ hs hstep ↦ hs.step contracts hstep

/-- An output worker that finds no device: its `start` fails, and after the run of
the clean-up the thread is at its end. -/
theorem run_without_device : ∃ as bs : List (Action services), ∃ w w' : Worker services,
    Run step (initial true true true) as w ∧ w.point.clearing = true ∧ Calm w ∧
      (w.parts .output).isSome = true ∧ Run step w bs w' ∧ w'.point = .finished := by
  let missing : Handles × Supply := (⟨false, 0, false⟩, .initial)
  let answers : AudioOut.AudioOutWorker.Answers × Supply := (allSucceed, .initial)
  refine ⟨[.make .output (some missing), .call .output answers, .returned],
    [.cleanUp, .cleanUp, .cleanUp, .call .output answers, .returned] ++ List.replicate 8 .cleanUp,
    _, _, .of_foldlM rfl, rfl, ?_, rfl, .of_foldlM rfl, rfl⟩
  intro k s hs
  cases k with
  | output =>
    cases hs
    exact ⟨rfl, rfl⟩
  | _ => cases hs

/-- Along every run no destructor finds its component active and no null pointer
is followed. The caller of `start` gets one answer, and if it is a failure, the
components are gone by then; they also are once the thread has ended. -/
theorem teardown_safe {midiEnabled inputEnabled runLoop : Bool} {as : List (Action services)}
    {w : Worker services} (h : Run step (initial midiEnabled inputEnabled runLoop) as w) :
    w.fault = false ∧ w.published.length ≤ 1 ∧
      (∀ result ∈ w.published, result ≠ .success → w.point = .finished) ∧
      (w.point = .finished → (∀ k, w.parts k = none) ∧ w.published.length = 1) := by
  have hsound := run_sound h
  have hfinished (hp : w.point = .finished) : (∀ k, w.parts k = none) ∧ w.published.length = 1 := by
    have hhere := hsound.here
    rw [hp] at hhere
    exact hhere
  refine ⟨hsound.fault, ?_, fun result hmem hne ↦ ?_, hfinished⟩
  · by_cases hp : w.point = .finished
    · exact (hfinished hp).2.le
    · rcases hsound.answered hp with hpub | hpub <;> simp [hpub]
  · by_contra hp
    rcases hsound.answered hp with hpub | hpub
    · rw [hpub] at hmem
      exact absurd hmem List.not_mem_nil
    · rw [hpub, List.mem_singleton] at hmem
      exact hne hmem

theorem teardown_safe_without_device : ∃ (as : List (Action services)) (w : Worker services),
    Run step (initial true true true) as w ∧ w.fault = false ∧ (∀ k, w.parts k = none) ∧
      w.published.length = 1 := by
  obtain ⟨as, bs, w, w', hrun, -, -, -, hrun', hfinished⟩ := run_without_device
  obtain ⟨hfault, -, -, hend⟩ := teardown_safe (hrun.trans hrun')
  exact ⟨as ++ bs, w', hrun.trans hrun', hfault, hend hfinished⟩

/-- From any moment of the clean-up on at which no call waits and the stack holds
no transfer, the thread ends within 49 of its own steps, whatever the system
answers and whatever other threads do. -/
theorem teardown_ends {midiEnabled inputEnabled runLoop : Bool} {as bs : List (Action services)}
    {w w' : Worker services} (h : Run step (initial midiEnabled inputEnabled runLoop) as w)
    (hp : w.point.clearing = true) (hcalm : Calm w) (h' : Run step w bs w') :
    bs.countP Action.own ≤ 49 ∧
      (w'.point = .finished ∨ ∃ a w'', Action.own a = true ∧ step w' a = some w'') := by
  have hsound := run_sound h
  have hnear : Near invariants undone w 49 := ⟨hsound, hcalm, hsound.due hp⟩
  obtain ⟨m, hm, hle⟩ := h'.countP_le hnear
    fun _ _ _ _ hn hs ↦ hn.step contracts settles hs
  exact ⟨(Nat.le_add_left _ m).trans hle, hm.progress settles⟩

theorem teardown_ends_without_device : ∃ as bs : List (Action services), ∃ w w' : Worker services,
    Run step (initial true true true) as w ∧ (w.parts .output).isSome = true ∧
      Run step w bs w' ∧ w'.point = .finished ∧ bs.countP Action.own ≤ 49 := by
  obtain ⟨as, bs, w, w', hrun, hclearing, hcalm, hpart, hrun', hfinished⟩ := run_without_device
  exact ⟨as, bs, w, w', hrun, hpart, hrun', hfinished, (teardown_ends hrun hclearing hcalm hrun').1⟩

end Runtime

end NumarkNS6.CoreAudio.TransportWorker
