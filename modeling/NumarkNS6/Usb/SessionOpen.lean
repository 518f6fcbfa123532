import NumarkNS6.Foundation.Runs
import NumarkNS6.Usb.NS6DeviceSession

namespace NumarkNS6.Usb

open Foundation.KeyedLog Foundation.Runs

/-- The calls on an object that has been given back: it was seized at most once and
then closed once, and it was released once, at the end. -/
def Settled (calls : List Call) : Prop :=
  calls = [.obtain, .release] ∨ calls = [.obtain, .seize, .close, .release] ∨
    calls = [.obtain, .seize, .createSource, .close, .releaseSource, .release]

def holding : Option (ℕ × Bool) → List (ℕ × List Call)
  | none => []
  | some (h, false) => [(h, [.obtain, .seize])]
  | some (h, true) => [(h, [.obtain, .seize, .createSource])]

def obtained : Option (ℕ × UInt64) → List (ℕ × List Call)
  | none => []
  | some (h, _) => [(h, [.obtain])]

section Search

variable {calls : Registry Call} {live : List (ℕ × List Call)}

theorem matchingInterface_accounted (wantedNumber : UInt8) (wantedDeviceID : Option UInt64)
    (services : List Service) (h : Accounted Settled calls live) :
    Accounted Settled (matchingInterface wantedNumber wantedDeviceID services calls).2
      (obtained (matchingInterface wantedNumber wantedDeviceID services calls).1 ++ live) := by
  induction services generalizing calls with
  | nil => exact h
  | cons service services ih =>
    simp only [matchingInterface]
    split
    · exact ih h
    · split_ifs
      · exact h.fresh .obtain
      · exact ih (((h.fresh .obtain).call .release).retire (.inl rfl))
      · exact ih h

theorem configureDevice_accounted (answers : ConfigureAnswers) (h : Accounted Settled calls live) :
    Accounted Settled (configureDevice answers calls).2 live := by
  have hnew := h.fresh .obtain
  simp only [configureDevice]
  generalize (if (answers.plugin.1 = .success && answers.plugin.2) = true then answers.query.1
    else answers.plugin.1) = result
  split_ifs
  · exact h
  · exact h
  · exact h
  · exact (hnew.call .release).retire (.inl rfl)
  · exact (((hnew.call .seize).call .close).call .release).retire (.inr (.inl rfl))

structure Searched (r : IOReturn × Option (ℕ × UInt64) × Registry Call)
    (live : List (ℕ × List Call)) : Prop where
  calls : Accounted Settled r.2.2 (obtained r.2.1 ++ live)
  failed : r.2.1 = none → r.1 ≠ .success

theorem retryInterface_searched (retries : ℕ → IOReturn × List Service) (left : ℕ)
    (h : Accounted Settled calls live) :
    Searched (SessionSystem.retryInterface retries left calls) live := by
  induction left generalizing calls with
  | zero => exact ⟨h, fun _ ↦ nofun⟩
  | succ left ih =>
    have hmatch := matchingInterface_accounted 0 none (retries (19 - left)).2 h
    simp only [SessionSystem.retryInterface]
    split_ifs with hretry
    · exact ⟨h, fun _ ↦ hretry⟩
    · split
      · next heq =>
        rw [heq] at hmatch
        exact ⟨hmatch, nofun⟩
      · next heq =>
        rw [heq] at hmatch
        exact ih hmatch

theorem findInterface_searched (answers : OpenAnswers) (h : Accounted Settled calls live) :
    Searched (SessionSystem.findInterface answers calls) live := by
  have hmatch := matchingInterface_accounted 0 none answers.matching.2 h
  unfold SessionSystem.findInterface
  split
  · next heq =>
    rw [heq] at hmatch
    exact ⟨hmatch, nofun⟩
  · next heq =>
    rw [heq] at hmatch
    have hconf := configureDevice_accounted answers.configure hmatch
    simp only
    split_ifs with hfail
    · exact ⟨hconf, fun _ ↦ hfail⟩
    · exact retryInterface_searched answers.retries 20 hconf

end Search

namespace Port

structure Holds (p : Port) (st : Option (ℕ × Bool)) : Prop where
  interface : p.interface = st.map Prod.fst
  opened : p.opened = st.isSome
  source : p.asyncEventSource = st.bind fun q ↦ if q.2 then some q.1 else none

variable {p : Port} {st : Option (ℕ × Bool)} {calls : Registry Call} {live : List (ℕ × List Call)}

theorem Holds.drop (h : p.Holds none) : p.drop.Holds none := ⟨rfl, h.opened, h.source⟩

theorem Holds.seize (h : p.Holds none) (k : ℕ) : (p.seize k).Holds (some (k, false)) :=
  ⟨rfl, rfl, h.source⟩

theorem Holds.createSource {k : ℕ} (h : p.Holds (some (k, false))) :
    (p.createSource k).Holds (some (k, true)) := ⟨h.interface, h.opened, rfl⟩

theorem Holds.detachEvents (h : p.Holds st) : p.detachEvents.Holds st := ⟨h.interface, h.opened, h.source⟩

theorem Holds.acquireEvents (h : p.Holds st) (runLoop : Option ℕ) :
    (p.acquireEvents runLoop).2.Holds st := by
  unfold Port.acquireEvents
  split_ifs
  · exact h
  · exact h
  · exact ⟨h.interface, h.opened, h.source⟩
  · exact ⟨h.interface, h.opened, h.source⟩

theorem Holds.releaseEvents (h : p.Holds st) (runLoop : Option ℕ) :
    (p.releaseEvents runLoop).2.Holds st := by
  unfold Port.releaseEvents
  split_ifs
  · exact h
  · exact ⟨h.interface, h.opened, h.source⟩
  · exact ⟨h.interface, h.opened, h.source⟩

theorem acquireEvents_fresh (runLoop : Option ℕ) : (fresh.acquireEvents runLoop).2 = fresh := by
  simp [acquireEvents, fresh]

theorem releaseEvents_fresh (runLoop : Option ℕ) : (fresh.releaseEvents runLoop).2 = fresh := by
  simp [releaseEvents, fresh]

theorem Holds.close (h : p.Holds st) (hc : Accounted Settled calls (holding st ++ live)) :
    (p.close calls).1 = { p with interface := none, asyncEventSource := none, opened := false } ∧
      Accounted Settled (p.close calls).2 live := by
  obtain ⟨interface, source, opened, runLoop, clients⟩ := p
  obtain ⟨hinterface, hopened, hsource⟩ := h
  simp only at hinterface hopened hsource
  subst hinterface hopened hsource
  match st with
  | none => exact ⟨rfl, hc⟩
  | some (k, false) => exact ⟨rfl, ((hc.call .close).call .release).retire (.inr (.inl rfl))⟩
  | some (k, true) =>
    exact ⟨rfl, (((hc.call .close).call .releaseSource).call .release).retire (.inr (.inr rfl))⟩

end Port

namespace NS6DeviceSession

/-- The pipe is one that was reported for this interface, and is of this kind. -/
structure Denotes (answers : PortAnswers) (kind : PipeProperties → Bool) (pipe : UInt8) : Prop where
  nonzero : pipe ≠ 0
  reported : pipe ∈ pipeNumbers answers.endpoints.2
  answered : (answers.pipe pipe).1 = .success
  kind : kind (answers.pipe pipe).2 = true

theorem ne_zero_of_mem_pipeNumbers {count : Fin 255} {pipe : UInt8} (h : pipe ∈ pipeNumbers count) :
    pipe ≠ 0 := by
  obtain ⟨i, hi, rfl⟩ := List.mem_map.mp h
  have hlt : i + 1 < 255 := lt_of_le_of_lt (List.mem_range.mp hi) count.isLt
  intro hzero
  have hnat := congrArg UInt8.toNat hzero
  rw [UInt8.toNat_ofNat', Nat.mod_eq_of_lt (Nat.lt_succ_of_lt hlt)] at hnat
  exact Nat.succ_ne_zero i hnat

theorem scanPipes_invariant {classify : UInt8 → PipeProperties → NS6DeviceSession → NS6DeviceSession}
    {pipe : UInt8 → IOReturn × PipeProperties} {P : NS6DeviceSession → Prop} {ns : List UInt8}
    {s : NS6DeviceSession} (h : P s)
    (hstep : ∀ n ∈ ns, (pipe n).1 = .success → ∀ t, P t → P (classify n (pipe n).2 t)) :
    P (scanPipes classify pipe ns s).2 := by
  induction ns generalizing s with
  | nil => exact h
  | cons n ns ih =>
    rw [List.forall_mem_cons] at hstep
    unfold scanPipes
    split_ifs with hn
    · exact h
    · exact ih (hstep.1 (not_not.mp hn) s h) hstep.2

structure PrimaryPipes (answers : PortAnswers) (s : NS6DeviceSession) : Prop where
  audioOut : s.audioOutPipe = 0 ∨ Denotes answers PipeProperties.isAudioOut s.audioOutPipe
  midiIn : s.midiInPipe = 0 ∨ Denotes answers PipeProperties.isMidiIn s.midiInPipe
  midiOut : s.midiOutPipe = 0 ∨ Denotes answers PipeProperties.isMidiOut s.midiOutPipe

structure PrimaryFound (answers : PortAnswers) (s : NS6DeviceSession) : Prop
    extends PrimaryPipes answers s where
  found : Denotes answers PipeProperties.isAudioOut s.audioOutPipe

structure AuxiliaryPipes (answers : PortAnswers) (s : NS6DeviceSession) : Prop where
  feedback : s.feedbackPipe = 0 ∨ Denotes answers PipeProperties.isFeedback s.feedbackPipe
  audioIn : s.audioInPipe = 0 ∨ Denotes answers PipeProperties.isAudioIn s.audioInPipe

variable {answers : PortAnswers} {s t : NS6DeviceSession}

def primaryPipes (s : NS6DeviceSession) : UInt8 × UInt8 × UInt8 :=
  (s.audioOutPipe, s.midiInPipe, s.midiOutPipe)

def auxiliaryPipes (s : NS6DeviceSession) : UInt8 × UInt8 := (s.feedbackPipe, s.audioInPipe)

theorem PrimaryPipes.congr (h : PrimaryPipes answers s) (ht : t.primaryPipes = s.primaryPipes) :
    PrimaryPipes answers t := by
  simp only [primaryPipes, Prod.mk.injEq] at ht
  obtain ⟨hout, hin, hmidi⟩ := ht
  exact ⟨hout ▸ h.audioOut, hin ▸ h.midiIn, hmidi ▸ h.midiOut⟩

theorem PrimaryFound.congr (h : PrimaryFound answers s) (ht : t.primaryPipes = s.primaryPipes) :
    PrimaryFound answers t := by
  refine ⟨h.toPrimaryPipes.congr ht, ?_⟩
  rw [show t.audioOutPipe = s.audioOutPipe from congrArg Prod.fst ht]
  exact h.found

theorem AuxiliaryPipes.congr (h : AuxiliaryPipes answers s)
    (ht : t.auxiliaryPipes = s.auxiliaryPipes) : AuxiliaryPipes answers t := by
  simp only [auxiliaryPipes, Prod.mk.injEq] at ht
  obtain ⟨hfeedback, hin⟩ := ht
  exact ⟨hfeedback ▸ h.feedback, hin ▸ h.audioIn⟩

theorem PrimaryPipes.scan (h : PrimaryPipes answers s) :
    PrimaryPipes answers
      (scanPipes classifyPipe answers.pipe (pipeNumbers answers.endpoints.2) s).2 := by
  refine scanPipes_invariant h fun n hn hok t ht ↦ ?_
  have hzero := ne_zero_of_mem_pipeNumbers hn
  unfold classifyPipe
  split_ifs with h₁ h₂ h₃
  · exact { ht with audioOut := .inr ⟨hzero, hn, hok, h₁⟩ }
  · exact { ht with midiIn := .inr ⟨hzero, hn, hok, h₂⟩ }
  · exact { ht with midiOut := .inr ⟨hzero, hn, hok, h₃⟩ }
  · exact ht

theorem AuxiliaryPipes.scan (h : AuxiliaryPipes answers s) :
    AuxiliaryPipes answers
      (scanPipes classifyAuxiliaryPipe answers.pipe (pipeNumbers answers.endpoints.2) s).2 := by
  refine scanPipes_invariant h fun n hn hok t ht ↦ ?_
  have hzero := ne_zero_of_mem_pipeNumbers hn
  unfold classifyAuxiliaryPipe
  split_ifs with h₁ h₂
  · exact { ht with feedback := .inr ⟨hzero, hn, hok, h₁⟩ }
  · exact { ht with audioIn := .inr ⟨hzero, hn, hok, h₂⟩ }
  · exact ht

theorem AuxiliaryPipes.scanPrimary (h : AuxiliaryPipes answers s)
    (pipe : UInt8 → IOReturn × PipeProperties) (ns : List UInt8) :
    AuxiliaryPipes answers (scanPipes classifyPipe pipe ns s).2 := by
  refine scanPipes_invariant h fun n _ _ t ht ↦ ?_
  unfold classifyPipe
  split_ifs <;> exact ht.congr rfl

theorem PrimaryPipes.of_ne_zero (h : PrimaryPipes answers s) (hout : s.audioOutPipe ≠ 0) :
    PrimaryFound answers s := { h with found := h.audioOut.resolve_left hout }

theorem PrimaryFound.scanAuxiliary (h : PrimaryFound answers s)
    (pipe : UInt8 → IOReturn × PipeProperties) (ns : List UInt8) :
    PrimaryFound answers (scanPipes classifyAuxiliaryPipe pipe ns s).2 := by
  refine scanPipes_invariant h fun n _ _ t ht ↦ ?_
  unfold classifyAuxiliaryPipe
  split_ifs <;> exact ht.congr rfl

structure SamePorts (s t : NS6DeviceSession) : Prop where
  primary : t.primary = s.primary
  auxiliary : t.auxiliary = s.auxiliary
  mode : t.audioModeChanged = s.audioModeChanged

theorem scan_samePorts (s : NS6DeviceSession) (pipe : UInt8 → IOReturn × PipeProperties)
    (ns : List UInt8) : SamePorts s (scanPipes classifyPipe pipe ns s).2 := by
  refine scanPipes_invariant ⟨rfl, rfl, rfl⟩ fun n _ _ t ht ↦ ?_
  unfold classifyPipe
  split_ifs <;> exact ⟨ht.primary, ht.auxiliary, ht.mode⟩

theorem scanAuxiliary_samePorts (s : NS6DeviceSession) (pipe : UInt8 → IOReturn × PipeProperties)
    (ns : List UInt8) : SamePorts s (scanPipes classifyAuxiliaryPipe pipe ns s).2 := by
  refine scanPipes_invariant ⟨rfl, rfl, rfl⟩ fun n _ _ t ht ↦ ?_
  unfold classifyAuxiliaryPipe
  split_ifs <;> exact ⟨ht.primary, ht.auxiliary, ht.mode⟩

theorem readFirmware_eq (s : NS6DeviceSession) (answer : IOReturn × List UInt8) :
    ∃ version, s.readFirmware answer = { s with firmwareVersion := version } := by
  unfold readFirmware
  split
  · split_ifs <;> exact ⟨_, rfl⟩
  · exact ⟨_, rfl⟩

end NS6DeviceSession

namespace SessionSystem

open NS6DeviceSession

variable {s : SessionSystem} {st st' : Option (ℕ × Bool)} {answers : OpenAnswers}

/-- As newly constructed, apart from the firmware version and the mode that was
last replaced, and with every object given back. -/
structure Closed (s : SessionSystem) : Prop where
  session : s.session = { NS6DeviceSession.fresh with
    firmwareVersion := s.session.firmwareVersion
    previousAudioMode := s.session.previousAudioMode }
  calls : Accounted Settled s.calls []

/-- Both interfaces are seized and have their event sources, and the pipes are of
the kinds the transports need. -/
structure Ready (answers : OpenAnswers) (i j : ℕ) (s : SessionSystem) : Prop where
  primary : s.session.primary.Holds (some (i, true))
  auxiliary : s.session.auxiliary.Holds (some (j, true))
  calls : Accounted Settled s.calls
    [(i, [.obtain, .seize, .createSource]), (j, [.obtain, .seize, .createSource])]
  primaryPipes : PrimaryFound answers.primary s.session
  feedback : Denotes answers.auxiliary PipeProperties.isFeedback s.session.feedbackPipe
  audioIn : Denotes answers.auxiliary PipeProperties.isAudioIn s.session.audioInPipe

def AllOrNothing (answers : OpenAnswers) (r : IOReturn × SessionSystem) : Prop :=
  (r.1 ≠ .success → r.2.Closed) ∧
    (r.1 = .success → ∃ i j, r.2.Ready answers i j)

/-- A session in the middle of `open`. -/
structure Holding (s : SessionSystem) (st st' : Option (ℕ × Bool)) : Prop where
  primary : s.session.primary.Holds st
  auxiliary : s.session.auxiliary.Holds st'
  mode : s.session.audioModeChanged = true → st.isSome = true
  calls : Accounted Settled s.calls (holding st ++ holding st')

theorem Holding.close (h : s.Holding st st') (answers : CloseAnswers) : (s.close answers).2.Closed := by
  have hperm := h.calls.perm List.perm_append_comm
  obtain ⟨haux, hcalls⟩ := h.auxiliary.detachEvents.close hperm
  rw [← List.append_nil (holding st)] at hcalls
  obtain ⟨hprim, hcalls⟩ := h.primary.detachEvents.close hcalls
  refine ⟨?_, hcalls⟩
  have hmode : (s.session.audioModeChanged && !(s.session.audioModeChanged &&
      s.session.primary.opened && s.session.primary.interface.isSome)) = false := by
    cases hchanged : s.session.audioModeChanged with
    | false => rfl
    | true =>
      rw [h.primary.opened, h.primary.interface, Option.isSome_map, h.mode hchanged]
      rfl
  simp only [SessionSystem.close, haux, hprim, hmode]
  rfl

theorem Closed.primary (h : s.Closed) : s.session.primary = .fresh := by
  rw [h.session]
  rfl

theorem Closed.auxiliary (h : s.Closed) : s.session.auxiliary = .fresh := by
  rw [h.session]
  rfl

theorem Closed.mode (h : s.Closed) : s.session.audioModeChanged = false := by
  rw [h.session]
  rfl

theorem Closed.primaryPipes (h : s.Closed) (answers : PortAnswers) :
    PrimaryPipes answers s.session := by
  rw [h.session]
  exact ⟨.inl rfl, .inl rfl, .inl rfl⟩

theorem Closed.auxiliaryPipes (h : s.Closed) (answers : PortAnswers) :
    AuxiliaryPipes answers s.session := by
  rw [h.session]
  exact ⟨.inl rfl, .inl rfl⟩

theorem Closed.holding (h : s.Closed) : s.Holding none none := by
  refine ⟨?_, ?_, ?_, h.calls⟩
  · rw [h.primary]
    exact ⟨rfl, rfl, rfl⟩
  · rw [h.auxiliary]
    exact ⟨rfl, rfl, rfl⟩
  · rw [h.mode]
    exact nofun

theorem Closed.drop (h : s.Closed) {calls : Registry Call} (hc : Accounted Settled calls []) :
    Closed ⟨{ s.session with primary := s.session.primary.drop }, calls⟩ := by
  refine ⟨?_, hc⟩
  rw [h.session]
  rfl

theorem Holding.samePorts (h : s.Holding st st') {session : NS6DeviceSession}
    (hsame : SamePorts s.session session) : Holding { s with session } st st' :=
  ⟨hsame.primary ▸ h.primary, hsame.auxiliary ▸ h.auxiliary, hsame.mode ▸ h.mode, h.calls⟩

theorem Holding.setPrimary (h : s.Holding st st') {p : Port} {calls : Registry Call}
    {i : ℕ} {listens : Bool} (hp : p.Holds (some (i, listens)))
    (hc : Accounted Settled calls (holding (some (i, listens)) ++ holding st')) :
    Holding ⟨{ s.session with primary := p }, calls⟩ (some (i, listens)) st' :=
  ⟨hp, h.auxiliary, fun _ ↦ rfl, hc⟩

theorem Holding.setAuxiliary (h : s.Holding st st') {p : Port} {calls : Registry Call}
    {st'' : Option (ℕ × Bool)} (hp : p.Holds st'')
    (hc : Accounted Settled calls (holding st ++ holding st'')) :
    Holding ⟨{ s.session with auxiliary := p }, calls⟩ st st'' :=
  ⟨h.primary, hp, h.mode, hc⟩

theorem AllOrNothing.of_closed {result : IOReturn} (h : s.Closed) (hfail : result ≠ .success) :
    AllOrNothing answers (result, s) := ⟨fun _ ↦ h, fun hok ↦ absurd hok hfail⟩

theorem Holding.giveUp (h : s.Holding st st') {result : IOReturn} (hfail : result ≠ .success) :
    AllOrNothing answers (s.giveUp answers result) := .of_closed (h.close answers.close) hfail

theorem Holding.setUpAuxiliary {i j : ℕ} (h : s.Holding (some (i, true)) (some (j, false)))
    (hprimary : PrimaryFound answers.primary s.session)
    (hauxiliary : AuxiliaryPipes answers.auxiliary s.session) (deviceID : UInt64) :
    AllOrNothing answers (s.setUpAuxiliary answers j deviceID) := by
  have hscanned := h.samePorts
    (scanAuxiliary_samePorts s.session answers.auxiliary.pipe (pipeNumbers answers.auxiliary.endpoints.2))
  have hfirst := hprimary.scanAuxiliary answers.auxiliary.pipe
    (pipeNumbers answers.auxiliary.endpoints.2)
  have hsecond := hauxiliary.scan
  simp only [SessionSystem.setUpAuxiliary]
  generalize scanPipes classifyAuxiliaryPipe answers.auxiliary.pipe
    (pipeNumbers answers.auxiliary.endpoints.2) s.session = scan at *
  split_ifs with h₁ h₂ h₃ h₄ h₅
  · exact h.giveUp h₁
  · exact h.giveUp h₂
  · exact hscanned.giveUp h₃
  · exact hscanned.giveUp nofun
  · exact hscanned.giveUp h₅
  · rw [Bool.or_eq_true, decide_eq_true_iff, decide_eq_true_iff, not_or] at h₄
    have hcalls := (hscanned.calls.perm List.perm_append_comm).call .createSource
    refine ⟨fun hfail ↦ absurd rfl hfail, fun _ ↦ ⟨i, j, ?_⟩⟩
    exact {
      primary := hscanned.primary
      auxiliary := hscanned.auxiliary.createSource
      calls := hcalls.perm (.swap _ _ _)
      primaryPipes := hfirst.congr rfl
      feedback := hsecond.feedback.resolve_left h₄.1
      audioIn := hsecond.audioIn.resolve_left h₄.2 }

theorem Holding.openAuxiliary {i : ℕ} (h : s.Holding (some (i, true)) none)
    (hprimary : PrimaryFound answers.primary s.session)
    (hauxiliary : AuxiliaryPipes answers.auxiliary s.session) (deviceID : UInt64) :
    AllOrNothing answers (s.openAuxiliary answers deviceID) := by
  have hfound := matchingInterface_accounted 1 (some deviceID) answers.auxiliaryMatching.2 h.calls
  unfold SessionSystem.openAuxiliary
  by_cases hmatching : answers.auxiliaryMatching.1 ≠ .success
  · rw [if_pos hmatching]
    exact h.giveUp hmatching
  rw [if_neg hmatching]
  split
  · next heq =>
    rw [heq] at hfound
    exact (h.setAuxiliary h.auxiliary.drop hfound).giveUp (by decide)
  · next j _ calls heq =>
    rw [heq] at hfound
    split_ifs with hseize
    · have hcalls := (hfound.call .release).retire (.inl rfl)
      exact (h.setAuxiliary h.auxiliary.drop hcalls).giveUp hseize
    · have hcalls := (hfound.call .seize).perm (.swap _ _ _)
      exact (h.setAuxiliary (h.auxiliary.seize j) hcalls).setUpAuxiliary
        (hprimary.congr rfl) (hauxiliary.congr rfl) deviceID

theorem Holding.setUpPrimary {i : ℕ} (h : s.Holding (some (i, false)) none)
    (hprimary : PrimaryPipes answers.primary s.session)
    (hauxiliary : AuxiliaryPipes answers.auxiliary s.session) (deviceID : UInt64) :
    AllOrNothing answers (s.setUpPrimary answers i deviceID) := by
  obtain ⟨version, hversion⟩ := s.session.readFirmware_eq answers.firmware
  have hfirmware : Holding { s with session := { s.session with firmwareVersion := version } }
      (some (i, false)) none := h.samePorts ⟨rfl, rfl, rfl⟩
  have hpipes : PrimaryPipes answers.primary { s.session with firmwareVersion := version } :=
    hprimary.congr rfl
  have hother : AuxiliaryPipes answers.auxiliary { s.session with firmwareVersion := version } :=
    hauxiliary.congr rfl
  have hscanned := hfirmware.samePorts (scan_samePorts _ answers.primary.pipe
    (pipeNumbers answers.primary.endpoints.2))
  have hfirst := hpipes.scan
  have hsecond := hother.scanPrimary answers.primary.pipe (pipeNumbers answers.primary.endpoints.2)
  simp only [SessionSystem.setUpPrimary, hversion]
  generalize scanPipes classifyPipe answers.primary.pipe (pipeNumbers answers.primary.endpoints.2)
    { s.session with firmwareVersion := version } = scan at *
  split_ifs with h₁ h₂ h₃ h₄ h₅
  · exact h.giveUp h₁
  · exact hfirmware.giveUp h₂
  · exact hscanned.giveUp h₃
  · exact hscanned.giveUp (by decide)
  · exact hscanned.giveUp h₅
  · have hlisten := hscanned.setPrimary hscanned.primary.createSource (hscanned.calls.call .createSource)
    exact hlisten.openAuxiliary ((hfirst.of_ne_zero h₄).congr rfl) (hsecond.congr rfl) deviceID

theorem Closed.openSession (h : s.Closed) (answers : OpenAnswers) :
    AllOrNothing answers (s.openSession answers) := by
  have hfound := findInterface_searched answers h.calls
  unfold SessionSystem.openSession
  by_cases hopened : s.session.primary.opened = true
  · rw [if_pos hopened]
    exact .of_closed h (by decide)
  rw [if_neg hopened]
  by_cases hmatching : answers.matching.1 ≠ .success
  · rw [if_pos hmatching]
    exact .of_closed h hmatching
  rw [if_neg hmatching]
  split
  · next heq =>
    rw [heq] at hfound
    exact .of_closed (h.drop hfound.calls) (hfound.failed rfl)
  · next i deviceID calls heq =>
    rw [heq] at hfound
    split_ifs with hseize
    · have hcalls := (hfound.calls.call .release).retire (.inl rfl)
      exact .of_closed (h.drop hcalls) hseize
    · have hseized := h.holding.setPrimary (h.holding.primary.seize i) (hfound.calls.call .seize)
      exact hseized.setUpPrimary ((h.primaryPipes answers.primary).congr rfl)
        ((h.auxiliaryPipes answers.auxiliary).congr rfl) deviceID

theorem Ready.holding {i j : ℕ} (h : s.Ready answers i j) :
    s.Holding (some (i, true)) (some (j, true)) := ⟨h.primary, h.auxiliary, fun _ ↦ rfl, h.calls⟩

theorem Ready.frame {i j : ℕ} (h : s.Ready answers i j) {p q : Port} (mode : UInt16) (changed : Bool)
    (hp : p.Holds (some (i, true))) (hq : q.Holds (some (j, true))) :
    Ready answers i j { s with session := { s.session with
      primary := p
      auxiliary := q
      previousAudioMode := mode
      audioModeChanged := changed } } where
  primary := hp
  auxiliary := hq
  calls := h.calls
  primaryPipes := h.primaryPipes.congr rfl
  feedback := h.feedback
  audioIn := h.audioIn

def ModeOnly (session next : NS6DeviceSession) : Prop :=
  ∃ previous changed, next =
    { session with previousAudioMode := previous, audioModeChanged := changed }

theorem configureAudioInputMode_modeOnly (session : NS6DeviceSession) (mode : ModeAnswers) :
    ModeOnly session (session.configureAudioInputMode mode).2 := by
  have hsame : ModeOnly session session := ⟨_, _, rfl⟩
  rw [NS6DeviceSession.configureAudioInputMode]
  -- each of the six requests may fail before the mode is written
  iterate 6
    refine iteInduction (motive := fun r : IOReturn × NS6DeviceSession ↦ ModeOnly session r.2)
      (fun _ ↦ hsame) fun _ ↦ ?_
  exact iteInduction (fun _ ↦ ⟨_, _, rfl⟩) fun _ ↦ hsame

theorem Ready.configureAudioInputMode {i j : ℕ} (h : s.Ready answers i j) (mode : ModeAnswers) :
    Ready answers i j { s with session := (s.session.configureAudioInputMode mode).2 } := by
  obtain ⟨previous, changed, hsession⟩ := configureAudioInputMode_modeOnly s.session mode
  rw [hsession]
  exact h.frame previous changed h.primary h.auxiliary

theorem Closed.configureAudioInputMode (h : s.Closed) (mode : ModeAnswers) :
    (s.session.configureAudioInputMode mode).2 = s.session := by
  unfold NS6DeviceSession.configureAudioInputMode
  rw [h.primary]
  rfl

theorem Closed.setPorts (h : s.Closed) {p q : Port} (hp : p = .fresh) (hq : q = .fresh) :
    Closed { s with session := { s.session with primary := p, auxiliary := q } } := by
  refine ⟨?_, h.calls⟩
  rw [hp, hq, h.session]
  rfl

theorem Ready.openSession {i j : ℕ} (h : s.Ready answers i j) (again : OpenAnswers) :
    s.openSession again = (.exclusiveAccess, s) := by
  unfold SessionSystem.openSession
  rw [h.primary.opened]
  rfl

def Consistent (s : SessionSystem) : Prop := s.Closed ∨ ∃ answers i j, s.Ready answers i j

theorem Closed.step (h : s.Closed) (op : Op) {t : SessionSystem} (ht : s.step op = some t) :
    t.Consistent := by
  cases op with
  | openSession answers =>
    cases ht
    have hopen := h.openSession answers
    by_cases hok : (s.openSession answers).1 = .success
    · exact .inr ⟨answers, hopen.2 hok⟩
    · exact .inl (hopen.1 hok)
  | close answers =>
    cases ht
    exact .inl (h.holding.close answers)
  | configureAudioInputMode mode =>
    cases ht
    rw [h.configureAudioInputMode mode]
    exact .inl h
  | acquireEvents runLoop =>
    cases ht
    refine .inl (h.setPorts ?_ h.auxiliary)
    rw [h.primary, Port.acquireEvents_fresh]
  | releaseEvents runLoop =>
    cases ht
    refine .inl (h.setPorts ?_ h.auxiliary)
    rw [h.primary, Port.releaseEvents_fresh]
  | acquireAuxiliaryEvents runLoop =>
    cases ht
    refine .inl (h.setPorts h.primary ?_)
    rw [h.auxiliary, Port.acquireEvents_fresh]
  | releaseAuxiliaryEvents runLoop =>
    cases ht
    refine .inl (h.setPorts h.primary ?_)
    rw [h.auxiliary, Port.releaseEvents_fresh]

theorem Ready.step {i j : ℕ} (h : s.Ready answers i j) (op : Op) {t : SessionSystem}
    (ht : s.step op = some t) : t.Consistent := by
  cases op with
  | openSession again =>
    cases ht
    rw [h.openSession again]
    exact .inr ⟨answers, i, j, h⟩
  | close close =>
    cases ht
    exact .inl (h.holding.close close)
  | configureAudioInputMode mode =>
    cases ht
    exact .inr ⟨answers, i, j, h.configureAudioInputMode mode⟩
  | acquireEvents runLoop =>
    cases ht
    exact .inr ⟨answers, i, j, h.frame _ _ (h.primary.acquireEvents runLoop) h.auxiliary⟩
  | releaseEvents runLoop =>
    cases ht
    exact .inr ⟨answers, i, j, h.frame _ _ (h.primary.releaseEvents runLoop) h.auxiliary⟩
  | acquireAuxiliaryEvents runLoop =>
    cases ht
    exact .inr ⟨answers, i, j, h.frame _ _ h.primary (h.auxiliary.acquireEvents runLoop)⟩
  | releaseAuxiliaryEvents runLoop =>
    cases ht
    exact .inr ⟨answers, i, j, h.frame _ _ h.primary (h.auxiliary.releaseEvents runLoop)⟩

theorem consistent_of_run {ops : List Op} (h : Run step initial ops s) : s.Consistent := by
  refine h.invariant (.inl ⟨rfl, .empty Settled⟩) fun t op u ht hu ↦ ?_
  rcases ht with ht | ⟨answers, i, j, ht⟩
  · exact ht.step op hu
  · exact ht.step op hu

/-- After any sequence of calls a session is either as newly constructed, with every
interface given back, or completely set up; and `open` on a session that is not
open leads to the first if it fails and to the second if it succeeds. -/
theorem openSession_allOrNothing {ops : List Op} (h : Run step initial ops s) :
    s.Consistent ∧ (s.session.primary.opened = false →
      s.Closed ∧ ∀ answers, AllOrNothing answers (s.openSession answers)) := by
  have hs := consistent_of_run h
  refine ⟨hs, fun hopened ↦ ?_⟩
  rcases hs with hclosed | ⟨answers, i, j, hready⟩
  · exact ⟨hclosed, hclosed.openSession⟩
  · exact absurd (hready.primary.opened.symm.trans hopened) Bool.noConfusion

def controllerAnswers (source : IOReturn) : OpenAnswers :=
  let device : DeviceEntry := ⟨some 0x15e4, some 0x0079, some 2, some 77⟩
  let services : List Service :=
    [⟨some device, true, true, (.success, 1)⟩, ⟨some device, true, true, (.success, 0)⟩]
  { matching := (.success, services)
    configure := ⟨(.success, []), (.success, true), (.success, true), .success, .success, .success⟩
    retries := fun _ ↦ (.success, services)
    primary := ⟨.success, .success, (.success, 1), fun _ ↦ (.success, ⟨.out, 2, .isoc, 156, 1⟩), .success⟩
    firmware := (.success, [0x31, 1, 20])
    auxiliaryMatching := (.success, services)
    auxiliary := ⟨.success, .success, (.success, 2), fun pipe ↦
      (.success, if pipe = 1 then ⟨.in, 1, .isoc, 64, 4⟩ else ⟨.in, 6, .bulk, 512, 0⟩), source⟩
    close := ⟨.success, .success, .success⟩ }

/-- An attempt that fails at its last call, a second one that succeeds, and the same
two again after the session was closed. -/
theorem openSession_allOrNothing_no_source :
    let failing := controllerAnswers .noResources
    let working := controllerAnswers .success
    ∃ s, Run step initial [.openSession failing, .openSession working, .acquireEvents (some 3),
        .close ⟨.success, .success, .success⟩] s ∧
      (s.openSession failing).1 = .noResources ∧ (s.openSession failing).2.Closed ∧
      (s.openSession working).1 = .success ∧
        ∃ i j, (s.openSession working).2.Ready working i j := by
  have hrun : ([Op.openSession (controllerAnswers .noResources),
      .openSession (controllerAnswers .success), .acquireEvents (some 3),
      .close ⟨.success, .success, .success⟩].foldlM step initial).any fun s ↦
        s.session.primary.opened = false ∧
        (s.openSession (controllerAnswers .noResources)).1 = .noResources ∧
        (s.openSession (controllerAnswers .success)).1 = .success := by
    decide +kernel
  obtain ⟨s, hfold, hs⟩ := (Option.any_eq_true _ _).mp hrun
  obtain ⟨hclosed, hfailing, hworking⟩ := of_decide_eq_true hs
  obtain ⟨-, hopen⟩ := (openSession_allOrNothing (.of_foldlM hfold)).2 hclosed
  refine ⟨s, .of_foldlM hfold, hfailing, (hopen _).1 ?_, hworking, (hopen _).2 hworking⟩
  rw [hfailing]
  decide

end SessionSystem

end NumarkNS6.Usb
