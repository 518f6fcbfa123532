import NumarkNS6.Foundation.Headcount
import NumarkNS6.Foundation.Runs
import Mathlib.Data.List.Infix

namespace NumarkNS6.Legacy

open Foundation.Headcount Foundation.Runs

structure NS6DeviceSession where
  activeId : UInt64
  callbacksInFlight : UInt32
  deriving DecidableEq

namespace NS6DeviceSession

def init : NS6DeviceSession := ⟨0, 0⟩

/-- Where a callback stands between two of its atomic operations. -/
inductive Callback
  | outside
  | announced (id : UInt64)
  | refused
  | running (id : UInt64)
  deriving DecidableEq

def Callback.Inside : Callback → Prop
  | .outside => False
  | _ => True

def Callback.Presents (id : UInt64) : Callback → Prop
  | .running id' => id' = id
  | _ => True

def Callback.Quiet : Callback → Prop
  | .running _ => False
  | _ => True

/-- Where the owner stands: outside of `begin`, with what it returned last; with the
session cleared, about to look at the counter; or about to store the new id. -/
inductive Owner
  | idle (began : Bool)
  | polling (previous id : UInt64) (attempt : ℕ)
  | entering (id : UInt64)
  deriving DecidableEq

variable (session : NS6DeviceSession)

def isCurrent (id : UInt64) : Bool := id != 0 && session.activeId == id

def begin (id : UInt64) : Owner → Option (NS6DeviceSession × Owner)
  | .idle _ =>
    if id = 0 then some (session, .idle false)
    else some ({ session with activeId := 0 }, .polling session.activeId id 0)
  | _ => none

/-- The next atomic operation of `begin`: one load of the counter after another, at most
100000 of them, and the store of the new id or of the previous one. -/
def poll : Owner → Option (NS6DeviceSession × Owner)
  | .polling previous id attempt =>
    if attempt < 100000 then
      if session.callbacksInFlight = 0 then some (session, .entering id)
      else some (session, .polling previous id (attempt + 1))
    else some ({ session with activeId := previous }, .idle false)
  | .entering id => some ({ session with activeId := id }, .idle true)
  | .idle _ => none

def ioBegin (id : UInt64) : Callback → Option (NS6DeviceSession × Callback)
  | .outside =>
    if id = 0 then some (session, .outside)
    else some ({ session with callbacksInFlight := session.callbacksInFlight + 1 }, .announced id)
  | _ => none

def check : Callback → Option (NS6DeviceSession × Callback)
  | .announced id => some (session, if session.isCurrent id then .running id else .refused)
  | .refused =>
    some ({ session with callbacksInFlight := session.callbacksInFlight - 1 }, .outside)
  | _ => none

def ioEnd : Callback → Option (NS6DeviceSession × Callback)
  | .running _ =>
    some ({ session with callbacksInFlight := session.callbacksInFlight - 1 }, .outside)
  | _ => none

structure System (ι : Type) where
  session : NS6DeviceSession
  callback : ι → Callback
  owner : Owner

inductive Action (ι : Type)
  | begin (id : UInt64)
  | poll
  | ioBegin (i : ι) (id : UInt64)
  | check (i : ι)
  | ioEnd (i : ι)

namespace System

variable {ι : Type}

def initial : System ι := ⟨init, fun _ ↦ .outside, .idle false⟩

def inside (s : System ι) : Set ι := those Callback.Inside s.callback

def setOwner (s : System ι) (r : NS6DeviceSession × Owner) : System ι :=
  { s with session := r.1, owner := r.2 }

inductive CallbackStep (session : NS6DeviceSession) :
    Callback → NS6DeviceSession → Callback → Prop
  | stay : CallbackStep session .outside session .outside
  | announce (id : UInt64) : CallbackStep session .outside
      { session with callbacksInFlight := session.callbacksInFlight + 1 } (.announced id)
  | refuse (id : UInt64) : CallbackStep session (.announced id) session .refused
  | accept {id : UInt64} (hid : id ≠ 0) (h : session.activeId = id) :
      CallbackStep session (.announced id) session (.running id)
  | leave {c : Callback} (h : c.Inside) : CallbackStep session c
      { session with callbacksInFlight := session.callbacksInFlight - 1 } .outside

variable {session : NS6DeviceSession} {c : Callback} {q : NS6DeviceSession × Callback}

theorem callbackStep_of_ioBegin {id : UInt64} (h : session.ioBegin id c = some q) :
    CallbackStep session c q.1 q.2 := by
  cases c with
  | outside =>
    rw [ioBegin] at h
    split_ifs at h
    · cases h; exact .stay
    · cases h; exact .announce id
  | announced id' => cases h
  | refused => cases h
  | running id' => cases h

theorem callbackStep_of_check (h : session.check c = some q) : CallbackStep session c q.1 q.2 := by
  cases c with
  | announced id =>
    cases h
    dsimp only
    split_ifs with hcurrent
    · rw [isCurrent, Bool.and_eq_true, bne_iff_ne, beq_iff_eq] at hcurrent
      exact .accept hcurrent.1 hcurrent.2
    · exact .refuse id
  | refused => cases h; exact .leave trivial
  | outside => cases h
  | running id => cases h

theorem callbackStep_of_ioEnd (h : session.ioEnd c = some q) : CallbackStep session c q.1 q.2 := by
  cases c with
  | running id => cases h; exact .leave trivial
  | outside => cases h
  | announced id => cases h
  | refused => cases h

/-- What the owner can rely on inside of `begin`. -/
def Phase (s : System ι) : Owner → Prop
  | .idle _ => True
  | .polling _ _ _ => s.session.activeId = 0
  | .entering _ => s.session.activeId = 0 ∧ ∀ i, (s.callback i).Quiet

structure Inv (s : System ι) : Prop where
  count : Counts s.session.callbacksInFlight Callback.Inside s.callback
  phase : Phase s s.owner

def Since (previous id : UInt64) (s : System ι) : Owner → Prop
  | .idle true => s.session.activeId = id ∧ ∀ i, (s.callback i).Presents id
  | .idle false => s.session.activeId = previous
  | .polling previous' id' _ => previous' = previous ∧ id' = id
  | .entering id' => id' = id

variable {s t : System ι} {previous id : UInt64}

theorem initial_inv : Inv (initial : System ι) where
  count := by
    have hnone : those Callback.Inside (initial : System ι).callback = ∅ :=
      those_eq_empty_iff.mpr fun _ h ↦ h
    rw [Counts, hnone, Set.encard_empty]
    rfl
  phase := trivial

theorem Inv.drained (h : Inv s) (hzero : s.session.callbacksInFlight = 0) (i : ι) :
    (s.callback i).Quiet := by
  have hcount := h.count
  rw [hzero] at hcount
  have hout := hcount.nobody i
  cases hc : s.callback i with
  | running id => rw [hc] at hout; exact hout trivial
  | outside => trivial
  | announced id => trivial
  | refused => trivial

theorem begin_cases {r : NS6DeviceSession × Owner} (h : s.session.begin id s.owner = some r) :
    (id = 0 ∧ r = (s.session, .idle false)) ∨
      r = ({ s.session with activeId := 0 }, .polling s.session.activeId id 0) := by
  cases howner : s.owner with
  | idle began =>
    rw [howner, NS6DeviceSession.begin] at h
    split_ifs at h with hid
    · exact .inl ⟨hid, (Option.some.inj h).symm⟩
    · exact .inr (Option.some.inj h).symm
  | polling previous id' attempt => rw [howner] at h; cases h
  | entering id' => rw [howner] at h; cases h

theorem Inv.begin (h : Inv s) {r : NS6DeviceSession × Owner}
    (hr : s.session.begin id s.owner = some r) : Inv (s.setOwner r) := by
  obtain ⟨-, rfl⟩ | rfl := begin_cases hr
  · exact ⟨h.count, trivial⟩
  · exact ⟨h.count, rfl⟩

inductive PollStep (session : NS6DeviceSession) : Owner → NS6DeviceSession → Owner → Prop
  | empty (previous id : UInt64) (attempt : ℕ) (h : session.callbacksInFlight = 0) :
      PollStep session (.polling previous id attempt) session (.entering id)
  | again (previous id : UInt64) (attempt : ℕ) :
      PollStep session (.polling previous id attempt) session (.polling previous id (attempt + 1))
  | giveUp (previous id : UInt64) (attempt : ℕ) :
      PollStep session (.polling previous id attempt) { session with activeId := previous }
        (.idle false)
  | store (id : UInt64) :
      PollStep session (.entering id) { session with activeId := id } (.idle true)

theorem pollStep_of_poll {o : Owner} {r : NS6DeviceSession × Owner}
    (h : session.poll o = some r) : PollStep session o r.1 r.2 := by
  cases o with
  | idle began => cases h
  | polling previous id attempt =>
    rw [poll] at h
    split_ifs at h with hmore hzero
    · cases h; exact .empty previous id attempt hzero
    · cases h; exact .again previous id attempt
    · cases h; exact .giveUp previous id attempt
  | entering id => cases h; exact .store id

theorem Inv.poll (h : Inv s) {r : NS6DeviceSession × Owner}
    (hstep : PollStep s.session s.owner r.1 r.2) : Inv (s.setOwner r) := by
  obtain ⟨session', o⟩ := r
  have hphase := h.phase
  generalize hold : s.owner = old at hstep hphase
  cases hstep with
  | empty previous id attempt hzero => exact ⟨h.count, hphase, h.drained hzero⟩
  | again previous id attempt => exact ⟨h.count, hphase⟩
  | giveUp previous id attempt => exact ⟨h.count, trivial⟩
  | store id => exact ⟨h.count, trivial⟩

theorem Since.poll (hinv : Inv s) (h : Since previous id s s.owner) {r : NS6DeviceSession × Owner}
    (hstep : PollStep s.session s.owner r.1 r.2) :
    Since previous id (s.setOwner r) (s.setOwner r).owner := by
  obtain ⟨session', o⟩ := r
  have hphase := hinv.phase
  generalize hold : s.owner = old at hstep hphase h
  cases hstep with
  | empty previous' id' attempt hzero => exact h.2
  | again previous' id' attempt => exact h
  | giveUp previous' id' attempt => exact h.1
  | store id' =>
    -- nobody was running while the session was cleared, so nobody presents another id
    refine ⟨h, ?_⟩
    intro i
    have hquiet := hphase.2 i
    change (s.callback i).Presents id
    cases hc : s.callback i with
    | running id'' => rw [hc] at hquiet; exact hquiet.elim
    | outside => trivial
    | announced id'' => trivial
    | refused => trivial

variable [DecidableEq ι]

def setCallback (s : System ι) (i : ι) (r : NS6DeviceSession × Callback) : System ι :=
  { s with session := r.1, callback := Function.update s.callback i r.2 }

def step (s : System ι) : Action ι → Option (System ι)
  | .begin id => (s.session.begin id s.owner).map s.setOwner
  | .poll => (s.session.poll s.owner).map s.setOwner
  | .ioBegin i id => (s.session.ioBegin id (s.callback i)).map (s.setCallback i)
  | .check i => (s.session.check (s.callback i)).map (s.setCallback i)
  | .ioEnd i => (s.session.ioEnd (s.callback i)).map (s.setCallback i)

theorem Phase.setCallback (h : Phase s s.owner) {i : ι} {m : NS6DeviceSession}
    (hid : m.activeId = s.session.activeId) (hc : s.session.activeId = 0 → c.Quiet) :
    Phase (s.setCallback i (m, c)) s.owner := by
  cases howner : s.owner with
  | idle began => trivial
  | polling previous id attempt =>
    rw [howner] at h
    exact hid.trans h
  | entering id =>
    rw [howner] at h
    refine ⟨hid.trans h.1, ?_⟩
    apply (Function.forall_update_iff s.callback fun _ c ↦ c.Quiet).mpr
    exact ⟨hc h.1, fun j _ ↦ h.2 j⟩

theorem Since.setCallback (h : Since previous id s s.owner) {i : ι} {m : NS6DeviceSession}
    (hid : m.activeId = s.session.activeId) (hc : s.session.activeId = id → c.Presents id) :
    Since previous id (s.setCallback i (m, c)) s.owner := by
  cases howner : s.owner with
  | idle began =>
    rw [howner] at h
    cases began with
    | true =>
      refine ⟨hid.trans h.1, ?_⟩
      apply (Function.forall_update_iff s.callback fun _ c ↦ c.Presents id).mpr
      exact ⟨hc h.1, fun j _ ↦ h.2 j⟩
    | false => exact hid.trans h
  | polling previous' id' attempt =>
    rw [howner] at h
    exact h
  | entering id' =>
    rw [howner] at h
    exact h

theorem CallbackStep.frame {m : NS6DeviceSession} {c c' : Callback}
    (h : CallbackStep session c m c') : m.activeId = session.activeId ∧
      (session.activeId = 0 → c'.Quiet) ∧ ∀ id, session.activeId = id → c'.Presents id := by
  cases h with
  | stay => exact ⟨rfl, fun _ ↦ trivial, fun _ _ ↦ trivial⟩
  | announce id' => exact ⟨rfl, fun _ ↦ trivial, fun _ _ ↦ trivial⟩
  | refuse id' => exact ⟨rfl, fun _ ↦ trivial, fun _ _ ↦ trivial⟩
  | accept hid hactive =>
    refine ⟨rfl, ?_, ?_⟩
    · intro hzero
      exact absurd (hactive.symm.trans hzero) hid
    · intro id' hid'
      exact hactive.symm.trans hid'
  | leave hin => exact ⟨rfl, fun _ ↦ trivial, fun _ _ ↦ trivial⟩

theorem Inv.callbackStep (h : Inv s) {i : ι} {m : NS6DeviceSession}
    (hstep : CallbackStep s.session (s.callback i) m c)
    (hfew : (s.setCallback i (m, c)).inside.encard < 2 ^ 32) : Inv (s.setCallback i (m, c)) := by
  obtain ⟨hid, hquiet, -⟩ := hstep.frame
  refine ⟨?_, h.phase.setCallback hid hquiet⟩
  have hcount := h.count
  generalize hold : s.callback i = old at hstep
  cases hstep with
  | stay =>
    have hsame : Function.update s.callback i .outside = s.callback := by
      rw [← hold]
      exact Function.update_eq_self i s.callback
    change Counts _ _ (Function.update s.callback i .outside)
    rw [hsame]
    exact hcount
  | announce id => exact hcount.enter (by rw [hold]; exact fun hout ↦ hout) trivial hfew
  | refuse id => exact hcount.stay (by rw [hold]; trivial) trivial
  | accept hid hactive => exact hcount.stay (by rw [hold]; trivial) trivial
  | leave hin => exact hcount.leave (by rw [hold]; exact hin) fun hout ↦ hout

theorem Since.callbackStep (h : Since previous id s s.owner) {i : ι} {m : NS6DeviceSession}
    (hstep : CallbackStep s.session (s.callback i) m c) :
    Since previous id (s.setCallback i (m, c)) s.owner := by
  obtain ⟨hid, -, hpresents⟩ := hstep.frame
  exact h.setCallback hid (hpresents id)

theorem step_cases {a : Action ι} (h : s.step a = some t) :
    (∃ id r, a = .begin id ∧ s.session.begin id s.owner = some r ∧ t = s.setOwner r) ∨
    (∃ r, PollStep s.session s.owner r.1 r.2 ∧ t = s.setOwner r) ∨
    ∃ i m c, CallbackStep s.session (s.callback i) m c ∧ t = s.setCallback i (m, c) := by
  cases a with
  | begin id =>
    obtain ⟨r, hr, rfl⟩ := Option.map_eq_some_iff.mp h
    exact .inl ⟨id, r, rfl, hr, rfl⟩
  | poll =>
    obtain ⟨r, hr, rfl⟩ := Option.map_eq_some_iff.mp h
    exact .inr (.inl ⟨r, pollStep_of_poll hr, rfl⟩)
  | ioBegin i id =>
    obtain ⟨⟨m, c⟩, hc, rfl⟩ := Option.map_eq_some_iff.mp h
    exact .inr (.inr ⟨i, m, c, callbackStep_of_ioBegin hc, rfl⟩)
  | check i =>
    obtain ⟨⟨m, c⟩, hc, rfl⟩ := Option.map_eq_some_iff.mp h
    exact .inr (.inr ⟨i, m, c, callbackStep_of_check hc, rfl⟩)
  | ioEnd i =>
    obtain ⟨⟨m, c⟩, hc, rfl⟩ := Option.map_eq_some_iff.mp h
    exact .inr (.inr ⟨i, m, c, callbackStep_of_ioEnd hc, rfl⟩)

/-- Every operation keeps the invariant as long as its result is not too crowded. -/
theorem Inv.step (h : Inv s) {a : Action ι} (hstep : s.step a = some t)
    (hfew : t.inside.encard < 2 ^ 32) : Inv t := by
  obtain ⟨id, r, -, hr, rfl⟩ | ⟨r, hr, rfl⟩ | ⟨i, m, c, hc, rfl⟩ := step_cases hstep
  · exact h.begin hr
  · exact h.poll hr
  · exact h.callbackStep hc hfew

theorem since_begin (hstep : s.step (.begin id) = some t) :
    Since s.session.activeId id t t.owner := by
  obtain ⟨r, hr, rfl⟩ := Option.map_eq_some_iff.mp hstep
  obtain ⟨-, rfl⟩ | rfl := begin_cases hr
  · exact rfl
  · exact ⟨rfl, rfl⟩

theorem Since.step (hinv : Inv s) (h : Since previous id s s.owner) {a : Action ι}
    (ha : ∀ id', a ≠ .begin id') (hstep : s.step a = some t) : Since previous id t t.owner := by
  obtain ⟨id', r, hbegin, -⟩ | ⟨r, hr, rfl⟩ | ⟨i, m, c, hc, rfl⟩ := step_cases hstep
  · exact absurd hbegin (ha id')
  · exact h.poll hinv hr
  · exact h.callbackStep hc

theorem inv_of_run {as : List (Action ι)} (h : Run step initial as s)
    (hfew : ∀ bs u, bs <+: as → Run step initial bs u → u.inside.encard < 2 ^ 32) : Inv s := by
  apply h.invariant_of initial_inv (Run.within hfew)
  intro u a t hu hP ht
  exact hu.step ht (hP t ht)

theorem since_of_run {as : List (Action ι)} (h : Run step s as t) (hs : Inv s)
    (hsince : Since previous id s s.owner)
    (hfew : ∀ bs u, bs <+: as → Run step s bs u → u.inside.encard < 2 ^ 32)
    (hno : ∀ id', .begin id' ∉ as) : Since previous id t t.owner := by
  have hboth : Inv t ∧ Since previous id t t.owner := by
    refine h.invariant_of (I := fun u ↦ Inv u ∧ Since previous id u u.owner)
      (P := fun u a ↦ (∀ id', a ≠ .begin id') ∧ ∀ t, u.step a = some t → t.inside.encard < 2 ^ 32)
      ⟨hs, hsince⟩ ?_ ?_
    · intro bs a cs u has hu
      refine ⟨?_, Run.within hfew bs a cs u has hu⟩
      intro id' ha
      apply hno id'
      rw [has, ha]
      exact List.mem_append_right _ List.mem_cons_self
    · intro u a v hu hP hv
      exact ⟨hu.1.step hv (hP.2 v hv), hu.2.step hu.1 hP.1 hv⟩
  exact hboth.2

/-- While fewer than `2 ^ 32` callbacks are inside: none is running when `begin` stores the
new id, only callbacks that present it run until the next `begin`, a `begin` that fails
leaves the previous id active, and the counter is exact. -/
theorem handover_excludes_old_callbacks {as : List (Action ι)} (h : Run step initial as s)
    (hfew : ∀ bs u, bs <+: as → Run step initial bs u → u.inside.encard < 2 ^ 32) :
    (∀ id t, s.owner = .entering id → s.step .poll = some t →
      t.owner = .idle true ∧ ∀ i id', t.callback i ≠ .running id') ∧
    (∀ bs id cs r, as = bs ++ .begin id :: cs → (∀ id', .begin id' ∉ cs) →
      Run step initial bs r →
      (s.owner = .idle true → s.session.activeId = id ∧
        ∀ i id', s.callback i = .running id' → id' = id) ∧
      (s.owner = .idle false → s.session.activeId = r.session.activeId)) ∧
    s.inside.encard = s.session.callbacksInFlight.toNat ∧
    ∀ i ∈ s.inside, s.session.callbacksInFlight ≠ 0 := by
  have hinv := inv_of_run h hfew
  refine ⟨?_, ?_, hinv.count, fun i hi ↦ hinv.count.ne_zero hi⟩
  · intro id t howner hstep
    have hphase := hinv.phase
    rw [step, howner] at hstep
    cases hstep
    refine ⟨rfl, ?_⟩
    intro i id' hrunning
    rw [howner] at hphase
    have hquiet := hphase.2 i
    rw [show s.callback i = .running id' from hrunning] at hquiet
    exact hquiet
  · intro bs id cs r has hno hr
    subst has
    obtain ⟨t, hbegin, hrun⟩ := h.after hr
    have hfewt (ds : List (Action ι)) (u : System ι) (hds : ds <+: cs) (hu : Run step t ds u) :
        u.inside.encard < 2 ^ 32 := by
      refine hfew (bs ++ .begin id :: ds) u ?_ (hr.trans (.cons hbegin hu))
      exact (List.prefix_append_right_inj bs).mpr ((List.prefix_cons_inj _).mpr hds)
    have hinvt : Inv t := inv_of_run (hr.snoc hbegin) fun ds u hds hu ↦
      hfew ds u (hds.trans ⟨cs, by rw [List.append_assoc]; rfl⟩) hu
    have hsince := since_of_run hrun hinvt (since_begin hbegin) hfewt hno
    constructor
    · intro howner
      rw [howner] at hsince
      refine ⟨hsince.1, ?_⟩
      intro i id' hrunning
      have hpresents := hsince.2 i
      rw [hrunning] at hpresents
      exact hpresents
    · intro howner
      rw [howner] at hsince
      exact hsince

/-- A hand-over from session `1` to session `2` waits for the callback of session `1`. -/
theorem handover_waits_for_callback : ∃ s : System (Fin 2),
    Run step initial [.begin 1, .poll, .poll, .ioBegin 0 1, .check 0, .begin 2, .poll,
      .ioBegin 1 1, .check 1, .ioEnd 0, .check 1, .poll, .poll] s ∧
    s.session.activeId = 2 ∧ ∀ i id, s.callback i = .running id → id = 2 := by
  have hrun : (List.foldlM step (initial : System (Fin 2))
      [.begin 1, .poll, .poll, .ioBegin 0 1, .check 0, .begin 2, .poll, .ioBegin 1 1, .check 1,
        .ioEnd 0, .check 1, .poll, .poll]).any (fun s ↦ s.owner = .idle true) := by decide +kernel
  obtain ⟨s, hs, howner⟩ := (Option.any_eq_true _ _).mp hrun
  obtain ⟨r, hr⟩ : ∃ r : System (Fin 2),
      Run step initial [.begin 1, .poll, .poll, .ioBegin 0 1, .check 0] r :=
    ⟨_, .of_foldlM rfl⟩
  have hsafe := handover_excludes_old_callbacks (.of_foldlM hs)
    fun _ u _ _ ↦ those_encard_lt (by decide)
  have hlast := hsafe.2.1 [.begin 1, .poll, .poll, .ioBegin 0 1, .check 0] 2 [.poll, .ioBegin 1 1,
    .check 1, .ioEnd 0, .check 1, .poll, .poll] r rfl (by simp) hr
  exact ⟨s, .of_foldlM hs, hlast.1 (of_decide_eq_true howner)⟩

def admitted : System ℕ where
  session := ⟨1, 1⟩
  callback := Function.update (fun _ ↦ .outside) 0 (.running 1)
  owner := .idle true

theorem admitted_run :
    Run step initial [.begin 1, .poll, .poll, .ioBegin 0 1, .check 0] admitted := by
  have hopen : Run step initial [.begin 1, .poll, .poll]
      { (initial : System ℕ) with session := ⟨1, 0⟩, owner := .idle true } := .of_foldlM rfl
  have hannounced := hopen.snoc (a := .ioBegin 0 1) rfl
  have hadmitted : admitted = { admitted with
      callback := Function.update (Function.update (fun _ ↦ .outside) 0 (.announced 1)) 0
        (.running 1) } := by
    rw [Function.update_idem]
    rfl
  rw [hadmitted]
  exact hannounced.snoc rfl

/-- The counter has 32 bits: with `2 ^ 32` callbacks inside it reads zero. -/
theorem handed_over_under_callback_when_crowded :
    ∃ (as : List (Action ℕ)) (s : System ℕ), Run step initial as s ∧
      as.getLast? = some .poll ∧ s.owner = .idle true ∧ s.session.activeId = 2 ∧
      s.callback 0 = .running 1 ∧ s.session.callbacksInFlight = 0 := by
  have houtside (k : ℕ) : admitted.callback (k + 1) = .outside := by
    simp only [admitted]
    rw [Function.update_of_ne (Nat.succ_ne_zero k)]
  have hcrowd := crowd_run step (.ioBegin · 1)
    (fun c f ↦ { admitted with
      session := { admitted.session with callbacksInFlight := c }, callback := f })
    (fun c f k hk ↦ by simp only [step, hk, ioBegin]; rfl)
    admitted.session.callbacksInFlight houtside (2 ^ 32 - 1)
  have hfull : admitted.session.callbacksInFlight + UInt32.ofNat (2 ^ 32 - 1) = 0 := by decide
  rw [hfull] at hcrowd
  have hbegun := (admitted_run.trans hcrowd).snoc (a := .begin 2) rfl
  have hentering := hbegun.snoc (a := .poll) rfl
  have hreturned := hentering.snoc (a := .poll) rfl
  exact ⟨_, _, hreturned, List.getLast?_concat, rfl, rfl, rfl, rfl⟩

end System

end NS6DeviceSession

end NumarkNS6.Legacy
