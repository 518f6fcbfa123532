import NumarkNS6.Foundation.Headcount
import NumarkNS6.Foundation.Runs
import Mathlib.Data.List.Infix

namespace NumarkNS6.Legacy

open Foundation.Headcount Foundation.Runs

/-- The mapping the callbacks share, with `none` for the null pointer. -/
structure NS6HALMapping (μ : Type) where
  memory : Option μ
  sessionId : UInt64
  readers : UInt32

structure NS6HALMappingLease (μ : Type) where
  memory : μ
  sessionId : UInt64
  deriving DecidableEq

namespace NS6HALMapping

variable {ι μ : Type}

def init : NS6HALMapping μ := ⟨none, 0, 0⟩

inductive Reader (μ : Type)
  | outside
  | announced
  | refused
  | loaded (memory : μ)
  | holding (lease : NS6HALMappingLease μ)
  deriving DecidableEq

def Reader.Inside : Reader μ → Prop
  | .outside => False
  | _ => True

def Reader.Bare : Reader μ → Prop
  | .loaded _ => False
  | .holding _ => False
  | _ => True

/-- Where the owner stands: a pair is published, the old one is being drained,
nothing is published, or the session id of the next pair is stored already. -/
inductive Owner (μ : Type)
  | published
  | draining
  | vacant
  | naming (memory : Option μ) (sessionId : UInt64)
  deriving DecidableEq

variable (m : NS6HALMapping μ)

def acquire : Reader μ → Option (NS6HALMapping μ × Reader μ)
  | .outside => some ({ m with readers := m.readers + 1 }, .announced)
  | .announced =>
    match m.memory with
    | none => some (m, .refused)
    | some memory => some (m, .loaded memory)
  | .refused => some ({ m with readers := m.readers - 1 }, .outside)
  | .loaded memory => some (m, .holding ⟨memory, m.sessionId⟩)
  | .holding _ => none

def release : Reader μ → Option (NS6HALMapping μ × Reader μ)
  | .holding _ => some ({ m with readers := m.readers - 1 }, .outside)
  | _ => none

/-- The next atomic operation of a withdraw: the store of the null pointer, and
then one load of the counter after another until it reads zero. -/
def withdraw : Owner μ → Option (NS6HALMapping μ × Owner μ)
  | .published => some ({ m with memory := none }, .draining)
  | .vacant => some ({ m with memory := none }, .draining)
  | .draining => some (m, if m.readers ≠ 0 then .draining else .vacant)
  | .naming _ _ => none

def publishSession (memory : Option μ) (sessionId : UInt64) :
    Owner μ → Option (NS6HALMapping μ × Owner μ)
  | .vacant => some ({ m with sessionId := sessionId }, .naming memory sessionId)
  | _ => none

/-- One owner and its readers, with the pairs of the publish calls so far. -/
structure System (ι μ : Type) where
  mapping : NS6HALMapping μ
  reader : ι → Reader μ
  owner : Owner μ
  pairs : List (Option μ × UInt64)

inductive Action (ι μ : Type)
  | acquire (i : ι)
  | release (i : ι)
  | withdraw
  | publishSession (memory : Option μ) (sessionId : UInt64)
  | publishMemory

namespace System

def initial : System ι μ := ⟨init, fun _ ↦ .outside, .vacant, []⟩

def inside (s : System ι μ) : Set ι := those Reader.Inside s.reader

def setOwner (s : System ι μ) (r : NS6HALMapping μ × Owner μ) : System ι μ :=
  { s with mapping := r.1, owner := r.2 }

inductive ReaderStep (m : NS6HALMapping μ) : Reader μ → NS6HALMapping μ → Reader μ → Prop
  | announce : ReaderStep m .outside { m with readers := m.readers + 1 } .announced
  | refuse (h : m.memory = none) : ReaderStep m .announced m .refused
  | load {memory : μ} (h : m.memory = some memory) : ReaderStep m .announced m (.loaded memory)
  | take (memory : μ) : ReaderStep m (.loaded memory) m (.holding ⟨memory, m.sessionId⟩)
  | leave {r : Reader μ} (h : r.Inside) :
      ReaderStep m r { m with readers := m.readers - 1 } .outside

theorem readerStep_of_acquire {m : NS6HALMapping μ} {r : Reader μ}
    {q : NS6HALMapping μ × Reader μ} (h : m.acquire r = some q) : ReaderStep m r q.1 q.2 := by
  cases r with
  | outside => cases h; exact .announce
  | announced =>
    rw [acquire] at h
    split at h
    · next hmem => cases h; exact .refuse hmem
    · next memory hmem => cases h; exact .load hmem
  | refused => cases h; exact .leave trivial
  | loaded memory => cases h; exact .take memory
  | holding lease => cases h

theorem readerStep_of_release {m : NS6HALMapping μ} {r : Reader μ}
    {q : NS6HALMapping μ × Reader μ} (h : m.release r = some q) : ReaderStep m r q.1 q.2 := by
  cases r with
  | holding lease => cases h; exact .leave trivial
  | outside => cases h
  | announced => cases h
  | refused => cases h
  | loaded memory => cases h

/-- What backs a reader's pointer: it has none, or it came with the pair of one publish. -/
def Backed (s : System ι μ) : Reader μ → Prop
  | .loaded memory => (some memory, s.mapping.sessionId) ∈ s.pairs
  | .holding lease => (some lease.memory, lease.sessionId) ∈ s.pairs
  | _ => True

def Phase (s : System ι μ) : Owner μ → Prop
  | .published => (s.mapping.memory, s.mapping.sessionId) ∈ s.pairs
  | .draining => s.mapping.memory = none
  | .vacant => s.mapping.memory = none ∧ ∀ i, (s.reader i).Bare
  | .naming _ sessionId =>
    s.mapping.memory = none ∧ s.mapping.sessionId = sessionId ∧ ∀ i, (s.reader i).Bare

structure Inv (s : System ι μ) : Prop where
  count : Counts s.mapping.readers Reader.Inside s.reader
  backed : ∀ i, Backed s (s.reader i)
  phase : Phase s s.owner

variable {s : System ι μ}

theorem initial_inv : Inv (initial : System ι μ) where
  count := by
    have hnone : those Reader.Inside (initial : System ι μ).reader = ∅ :=
      those_eq_empty_iff.mpr fun _ h ↦ h
    rw [Counts, hnone, Set.encard_empty]
    rfl
  backed _ := trivial
  phase := ⟨rfl, fun _ ↦ trivial⟩

theorem Inv.memory_backed (h : Inv s) {memory : μ} (hmem : s.mapping.memory = some memory) :
    (some memory, s.mapping.sessionId) ∈ s.pairs := by
  have hphase := h.phase
  cases howner : s.owner with
  | published =>
    rw [howner, Phase, hmem] at hphase
    exact hphase
  | draining =>
    rw [howner, Phase, hmem] at hphase
    cases hphase
  | vacant =>
    rw [howner, Phase, hmem] at hphase
    cases hphase.1
  | naming pointer sessionId =>
    rw [howner, Phase, hmem] at hphase
    cases hphase.1

/-- The session id changes only while no reader has a pointer. -/
theorem Inv.publishSession (h : Inv s) (hbare : ∀ i, (s.reader i).Bare)
    (hnone : s.mapping.memory = none) (memory : Option μ) (sessionId : UInt64) :
    Inv (s.setOwner ({ s.mapping with sessionId := sessionId }, .naming memory sessionId)) := by
  refine ⟨h.count, ?_, hnone, rfl, hbare⟩
  intro i
  have hi := hbare i
  change Backed _ (s.reader i)
  cases hr : s.reader i with
  | loaded pointer => rw [hr] at hi; exact hi.elim
  | holding lease => rw [hr] at hi; exact hi.elim
  | outside => trivial
  | announced => trivial
  | refused => trivial

theorem Inv.publishMemory (h : Inv s) {memory : Option μ} {sessionId : UInt64}
    (howner : s.owner = .naming memory sessionId) :
    Inv { s with
      mapping := { s.mapping with memory := memory }
      owner := .published
      pairs := s.pairs ++ [(memory, sessionId)] } := by
  have hphase := h.phase
  rw [howner] at hphase
  obtain ⟨-, hid, -⟩ := hphase
  refine ⟨h.count, ?_, ?_⟩
  · intro i
    have hi := h.backed i
    change Backed _ (s.reader i)
    cases hr : s.reader i with
    | loaded pointer =>
      rw [hr] at hi
      exact List.mem_append_left _ hi
    | holding lease =>
      rw [hr] at hi
      exact List.mem_append_left _ hi
    | outside => trivial
    | announced => trivial
    | refused => trivial
  · change (memory, s.mapping.sessionId) ∈ s.pairs ++ [(memory, sessionId)]
    rw [hid]
    exact List.mem_append_right _ (List.mem_singleton_self _)

theorem Inv.drained (h : Inv s) (hzero : s.mapping.readers = 0) (i : ι) : (s.reader i).Bare := by
  have hcount := h.count
  rw [hzero] at hcount
  have hout := hcount.nobody i
  cases hr : s.reader i with
  | outside => trivial
  | announced => trivial
  | refused => trivial
  | loaded memory => rw [hr] at hout; exact hout trivial
  | holding lease => rw [hr] at hout; exact hout trivial

theorem Inv.withdraw (h : Inv s) {q : NS6HALMapping μ × Owner μ}
    (hstep : s.mapping.withdraw s.owner = some q) : Inv (s.setOwner q) := by
  have hphase := h.phase
  cases howner : s.owner with
  | published => rw [howner] at hstep; cases hstep; exact ⟨h.count, h.backed, rfl⟩
  | vacant => rw [howner] at hstep; cases hstep; exact ⟨h.count, h.backed, rfl⟩
  | naming memory sessionId => rw [howner] at hstep; cases hstep
  | draining =>
    rw [howner] at hphase hstep
    cases hstep
    refine ⟨h.count, h.backed, ?_⟩
    change Phase _ (if s.mapping.readers ≠ 0 then .draining else .vacant)
    split_ifs with hne
    · exact hphase
    · exact ⟨hphase, h.drained (not_not.mp hne)⟩

variable [DecidableEq ι]

def setReader (s : System ι μ) (i : ι) (r : NS6HALMapping μ × Reader μ) : System ι μ :=
  { s with mapping := r.1, reader := Function.update s.reader i r.2 }

def step (s : System ι μ) : Action ι μ → Option (System ι μ)
  | .acquire i => (s.mapping.acquire (s.reader i)).map (s.setReader i)
  | .release i => (s.mapping.release (s.reader i)).map (s.setReader i)
  | .withdraw => (s.mapping.withdraw s.owner).map s.setOwner
  | .publishSession memory sessionId =>
    (s.mapping.publishSession memory sessionId s.owner).map s.setOwner
  | .publishMemory =>
    match s.owner with
    | .naming memory sessionId =>
      some { s with
        mapping := { s.mapping with memory := memory }
        owner := .published
        pairs := s.pairs ++ [(memory, sessionId)] }
    | _ => none

theorem Phase.setReader (h : Phase s s.owner) {i : ι} {m : NS6HALMapping μ} {r : Reader μ}
    (hmem : m.memory = s.mapping.memory) (hid : m.sessionId = s.mapping.sessionId)
    (hr : s.mapping.memory = none → (s.reader i).Bare → r.Bare) :
    Phase (s.setReader i (m, r)) s.owner := by
  have hbare (hnone : s.mapping.memory = none) (hall : ∀ j, (s.reader j).Bare) :
      ∀ j, (Function.update s.reader i r j).Bare :=
    (Function.forall_update_iff s.reader fun _ q ↦ q.Bare).mpr
      ⟨hr hnone (hall i), fun j _ ↦ hall j⟩
  cases howner : s.owner with
  | published =>
    rw [howner] at h
    change (m.memory, m.sessionId) ∈ s.pairs
    rw [hmem, hid]
    exact h
  | draining =>
    rw [howner] at h
    exact hmem.trans h
  | vacant =>
    rw [howner] at h
    exact ⟨hmem.trans h.1, hbare h.1 h.2⟩
  | naming memory sessionId =>
    rw [howner] at h
    exact ⟨hmem.trans h.1, hid.trans h.2.1, hbare h.1 h.2.2⟩

theorem backed_setReader (h : ∀ j, Backed s (s.reader j)) {i : ι} {m : NS6HALMapping μ}
    {r : Reader μ} (hid : m.sessionId = s.mapping.sessionId) (hr : Backed s r) (j : ι) :
    Backed (s.setReader i (m, r)) ((s.setReader i (m, r)).reader j) := by
  have hsame (q : Reader μ) (hq : Backed s q) : Backed (s.setReader i (m, r)) q := by
    cases q with
    | loaded memory =>
      change (some memory, m.sessionId) ∈ s.pairs
      rw [hid]
      exact hq
    | holding lease => exact hq
    | outside => trivial
    | announced => trivial
    | refused => trivial
  apply hsame
  exact (Function.forall_update_iff s.reader fun _ q ↦ Backed s q).mpr ⟨hr, fun j _ ↦ h j⟩ j

theorem Inv.readerStep (h : Inv s) {i : ι} {m : NS6HALMapping μ} {r : Reader μ}
    (hstep : ReaderStep s.mapping (s.reader i) m r)
    (hfew : (s.setReader i (m, r)).inside.encard < 2 ^ 32) : Inv (s.setReader i (m, r)) := by
  have hcount := h.count
  generalize hold : s.reader i = old at hstep
  cases hstep with
  | announce =>
    refine ⟨?_, backed_setReader h.backed rfl trivial, h.phase.setReader rfl rfl fun _ _ ↦ trivial⟩
    exact hcount.enter (by rw [hold]; exact id) trivial hfew
  | refuse hnone =>
    refine ⟨?_, backed_setReader h.backed rfl trivial, h.phase.setReader rfl rfl fun _ _ ↦ trivial⟩
    exact hcount.stay (by rw [hold]; trivial) trivial
  | load hsome =>
    refine ⟨?_, backed_setReader h.backed rfl (h.memory_backed hsome), h.phase.setReader rfl rfl ?_⟩
    · exact hcount.stay (by rw [hold]; trivial) trivial
    · intro hnone
      rw [hsome] at hnone
      cases hnone
  | take memory =>
    have hmine := h.backed i
    rw [hold] at hmine
    refine ⟨?_, backed_setReader h.backed rfl hmine, h.phase.setReader rfl rfl ?_⟩
    · exact hcount.stay (by rw [hold]; trivial) trivial
    · intro _ hbare
      rw [hold] at hbare
      exact hbare.elim
  | leave hin =>
    refine ⟨?_, backed_setReader h.backed rfl trivial, h.phase.setReader rfl rfl fun _ _ ↦ trivial⟩
    exact hcount.leave (by rw [hold]; exact hin) id

/-- Every operation keeps the invariant as long as its result is not too crowded. -/
theorem Inv.step (h : Inv s) {a : Action ι μ} {t : System ι μ} (hstep : s.step a = some t)
    (hfew : t.inside.encard < 2 ^ 32) : Inv t := by
  cases a with
  | acquire i =>
    obtain ⟨⟨m, r⟩, hq, rfl⟩ := Option.map_eq_some_iff.mp hstep
    exact h.readerStep (readerStep_of_acquire hq) hfew
  | release i =>
    obtain ⟨⟨m, r⟩, hq, rfl⟩ := Option.map_eq_some_iff.mp hstep
    exact h.readerStep (readerStep_of_release hq) hfew
  | withdraw =>
    obtain ⟨q, hq, rfl⟩ := Option.map_eq_some_iff.mp hstep
    exact h.withdraw hq
  | publishSession memory sessionId =>
    obtain ⟨q, hq, rfl⟩ := Option.map_eq_some_iff.mp hstep
    have hphase := h.phase
    cases howner : s.owner with
    | vacant =>
      rw [howner] at hphase hq
      cases hq
      exact h.publishSession hphase.2 hphase.1 memory sessionId
    | published => rw [howner] at hq; cases hq
    | draining => rw [howner] at hq; cases hq
    | naming pointer id => rw [howner] at hq; cases hq
  | publishMemory =>
    rw [System.step] at hstep
    split at hstep
    · next memory sessionId howner =>
      cases hstep
      exact h.publishMemory howner
    · cases hstep

theorem inv_of_run {as : List (Action ι μ)} (h : Run step initial as s)
    (hfew : ∀ bs u, bs <+: as → Run step initial bs u → u.inside.encard < 2 ^ 32) : Inv s := by
  apply h.invariant_of initial_inv (Run.within hfew)
  intro u a t hu hP ht
  exact hu.step ht (hP t ht)

/-- While fewer than `2 ^ 32` readers are inside, no withdraw returns under a
reader, every lease is a pair of one publish, and the counter is exact. -/
theorem mapping_never_withdrawn_under_reader {as : List (Action ι μ)}
    (h : Run step initial as s)
    (hfew : ∀ bs u, bs <+: as → Run step initial bs u → u.inside.encard < 2 ^ 32) :
    (s.owner = .vacant → ∀ i lease, s.reader i ≠ .holding lease) ∧
      (∀ i lease, s.reader i = .holding lease → (some lease.memory, lease.sessionId) ∈ s.pairs) ∧
      s.inside.encard = s.mapping.readers.toNat ∧
      ∀ i ∈ s.inside, s.mapping.readers ≠ 0 := by
  have hinv := inv_of_run h hfew
  refine ⟨?_, ?_, hinv.count, fun i hi ↦ hinv.count.ne_zero hi⟩
  · intro hvacant i lease hheld
    have hphase := hinv.phase
    rw [hvacant] at hphase
    have hbare := hphase.2 i
    rw [hheld] at hbare
    exact hbare
  · intro i lease hheld
    have hbacked := hinv.backed i
    rw [hheld] at hbacked
    exact hbacked

/-- A withdraw that begins under a lease waits for its release. -/
theorem withdraw_waits_for_release : ∃ s : System (Fin 2) ℕ,
    Run step initial [.publishSession (some 5) 11, .publishMemory, .acquire 0, .acquire 0,
      .acquire 0, .withdraw, .acquire 1, .withdraw, .acquire 1, .acquire 1, .release 0,
      .withdraw] s ∧
    s.owner = .vacant ∧ ∀ i lease, s.reader i ≠ .holding lease := by
  have hrun : (List.foldlM step (initial : System (Fin 2) ℕ)
      [.publishSession (some 5) 11, .publishMemory, .acquire 0, .acquire 0, .acquire 0, .withdraw,
        .acquire 1, .withdraw, .acquire 1, .acquire 1, .release 0, .withdraw]).any
      (fun s ↦ s.owner = .vacant) := by decide +kernel
  obtain ⟨s, hs, howner⟩ := (Option.any_eq_true _ _).mp hrun
  have hvacant : s.owner = .vacant := of_decide_eq_true howner
  have hsafe := mapping_never_withdrawn_under_reader (.of_foldlM hs)
    fun _ u _ _ ↦ those_encard_lt (by decide)
  exact ⟨s, .of_foldlM hs, hvacant, hsafe.1 hvacant⟩

def leased : System ℕ ℕ where
  mapping := ⟨some 5, 11, 1⟩
  reader := Function.update (fun _ ↦ .outside) 0 (.holding ⟨5, 11⟩)
  owner := .published
  pairs := [(some 5, 11)]

theorem leased_run : Run step initial [.publishSession (some 5) 11, .publishMemory, .acquire 0,
    .acquire 0, .acquire 0] leased := by
  apply Run.of_foldlM
  simp [List.foldlM, step, initial, NS6HALMapping.init, NS6HALMapping.publishSession, setOwner,
    acquire, setReader, leased]

/-- The counter has 32 bits: with `2 ^ 32` readers inside it reads zero. -/
theorem withdrawn_under_reader_when_crowded :
    ∃ (as : List (Action ℕ ℕ)) (s : System ℕ ℕ), Run step initial as s ∧
      as.getLast? = some .withdraw ∧ s.owner = .vacant ∧ s.reader 0 = .holding ⟨5, 11⟩ ∧
      s.mapping.readers = 0 := by
  have houtside (k : ℕ) : leased.reader (k + 1) = .outside := by
    simp only [leased]
    rw [Function.update_of_ne (Nat.succ_ne_zero k)]
  have hcrowd := crowd_run step .acquire
    (fun c f ↦ { leased with mapping := { leased.mapping with readers := c }, reader := f })
    (fun c f k hk ↦ by simp only [step, hk, acquire, Option.map_some, setReader]; rfl)
    leased.mapping.readers houtside (2 ^ 32 - 1)
  have hfull : leased.mapping.readers + UInt32.ofNat (2 ^ 32 - 1) = 0 := by decide
  rw [hfull] at hcrowd
  have hstored := (leased_run.trans hcrowd).snoc (a := .withdraw) rfl
  have hreturned := hstored.snoc (a := .withdraw) rfl
  exact ⟨_, _, hreturned, List.getLast?_concat, rfl, rfl, rfl⟩

end System

end NS6HALMapping

end NumarkNS6.Legacy
