import NumarkNS6.Midi.ControllerActivation
import NumarkNS6.Usb.SessionOpen

namespace NumarkNS6.Usb.SessionSystem

open NS6DeviceSession

variable {s t : SessionSystem} {answers : OpenAnswers}

def Unwatched (s : SessionSystem) : Prop := s.session.primary.eventClients = 0

theorem close_unwatched (s : SessionSystem) (answers : CloseAnswers) :
    (s.close answers).2.Unwatched := rfl

theorem giveUp_unwatched (s : SessionSystem) (result : IOReturn) :
    (s.giveUp answers result).2.Unwatched := rfl

theorem Unwatched.samePorts (h : s.Unwatched) {session : NS6DeviceSession}
    (hsame : SamePorts s.session session) : Unwatched { s with session } :=
  (congrArg Port.eventClients hsame.primary).trans h

theorem Unwatched.setUpAuxiliary (h : s.Unwatched) (i : ℕ) (deviceID : UInt64) :
    (s.setUpAuxiliary answers i deviceID).2.Unwatched := by
  have hscanned := h.samePorts
    (scanAuxiliary_samePorts s.session answers.auxiliary.pipe (pipeNumbers answers.auxiliary.endpoints.2))
  unfold SessionSystem.setUpAuxiliary
  dsimp only
  split_ifs
  all_goals first | exact giveUp_unwatched _ _ | exact hscanned

theorem Unwatched.openAuxiliary (h : s.Unwatched) (deviceID : UInt64) :
    (s.openAuxiliary answers deviceID).2.Unwatched := by
  unfold SessionSystem.openAuxiliary
  split_ifs
  · exact giveUp_unwatched _ _
  · split <;> exact giveUp_unwatched _ _
  · split
    · exact giveUp_unwatched _ _
    · apply Unwatched.setUpAuxiliary
      exact h

theorem Unwatched.setUpPrimary (h : s.Unwatched) (i : ℕ) (deviceID : UInt64) :
    (s.setUpPrimary answers i deviceID).2.Unwatched := by
  obtain ⟨version, hversion⟩ := readFirmware_eq s.session answers.firmware
  have hread : Unwatched { s with session := s.session.readFirmware answers.firmware } := by
    rw [hversion]
    exact h
  have hscanned := hread.samePorts
    (scan_samePorts _ answers.primary.pipe (pipeNumbers answers.primary.endpoints.2))
  unfold SessionSystem.setUpPrimary
  dsimp only
  split_ifs
  · exact giveUp_unwatched _ _
  · exact giveUp_unwatched _ _
  · exact giveUp_unwatched _ _
  · exact giveUp_unwatched _ _
  · exact giveUp_unwatched _ _
  · apply Unwatched.openAuxiliary
    exact hscanned

theorem Unwatched.openSession (h : s.Unwatched) (answers : OpenAnswers) :
    (s.openSession answers).2.Unwatched := by
  unfold SessionSystem.openSession
  split_ifs
  · exact h
  · exact h
  · split <;> exact h
  · split
    · exact h
    · apply Unwatched.setUpPrimary
      exact h

theorem Consistent.step (h : s.Consistent) (op : Op) (ht : s.step op = some t) : t.Consistent := by
  rcases h with h | ⟨answers, i, j, h⟩
  · exact h.step op ht
  · exact h.step op ht

end NumarkNS6.Usb.SessionSystem

namespace NumarkNS6.Midi.ControllerActivation

open Foundation.Runs HandshakeReplyParser Usb

namespace Activation

variable {a b : Activation}

def Held (a : Activation) : Prop :=
  a.port.eventClients = 1 ∧ a.port.eventRunLoop = a.runLoop ∧ a.port.asyncEventSource.isSome = true

theorem acquire_cases (h : a.system.Unwatched) :
    (a.acquireEvents.1 ≠ .success ∧ a.acquireEvents.2 = a) ∨
      (a.acquireEvents.1 = .success ∧ Held a.acquireEvents.2) := by
  have hnone : a.port.eventClients = 0 := h
  simp only [acquireEvents, Port.acquireEvents, hnone]
  cases hsource : a.port.asyncEventSource with
  | none =>
    simp
    rfl
  | some source =>
    cases hloop : a.runLoop with
    | none =>
      simp
      rfl
    | some loop =>
      exact .inr ⟨rfl, rfl, hloop.symm, rfl⟩

theorem Held.release (h : Held a) : a.releaseEvents.1 = .success ∧
    a.releaseEvents.2.system.Unwatched ∧
      a.releaseEvents.2.port.asyncEventSource = a.port.asyncEventSource := by
  have heq : a.port.releaseEvents a.runLoop =
      (.success, { a.port with eventClients := 0, eventRunLoop := none }) := by
    simp [Port.releaseEvents, h.1, h.2.1]
  rw [releaseEvents, heq]
  exact ⟨rfl, rfl, rfl⟩

/-- The outcomes of `beginReads` on a session that nobody listens on. -/
inductive Begun (a : Activation) (failed running : Point) (first : Writer) : Activation → Prop
  | refused (result : IOReturn) (failure : result ≠ .success) : Begun a failed running first (a.ret result)
  | unclear (result : IOReturn) (failure : result ≠ .success) (held : Held a.acquireEvents.2) :
      Begun a failed running first (a.acquireEvents.2.releaseEvents.2.ret result)
  | failed {submit : Fin 4 → IOReturn} (reads : Reads) (result : IOReturn) (failure : result ≠ .success)
      (held : Held a.acquireEvents.2) (started : a.reads.step (.startReads submit) = some reads) :
      Begun a failed running first ({ a.acquireEvents.2 with reads, result }.await failed)
  | running {submit : Fin 4 → IOReturn} (reads : Reads) (held : Held a.acquireEvents.2)
      (started : a.reads.step (.startReads submit) = some reads) :
      Begun a failed running first
        { a.acquireEvents.2 with reads, writer := first, point := running }
  | noThread {submit : Fin 4 → IOReturn} (reads : Reads) (abort : IOReturn)
      (held : Held a.acquireEvents.2)
      (started : a.reads.step (.startReads submit) = some reads) :
      Begun a failed running first ({ a.acquireEvents.2 with reads }.stopReads .threadFailed abort)

theorem begun (h : a.system.Unwatched) (hidle : a.inFlight = false) (answers : StartAnswers)
    (failed running : Point) (first : Writer) :
    Begun a failed running first (a.beginReads answers failed running first) := by
  have hstart : a.reads.step (.startReads answers.submit) =
      some ({ a.reads with reads := fun _ ↦ .init }.startReads answers.submit).2 := by
    refine if_neg ?_
    rintro ⟨slot, hslot⟩
    rw [inFlight, List.any_eq_false] at hidle
    exact hidle slot (List.mem_finRange slot) hslot
  unfold beginReads
  dsimp only
  rcases acquire_cases h with ⟨hfail, hsame⟩ | ⟨hok, hheld⟩
  · rw [if_pos hfail, hsame]
    exact .refused _ hfail
  · rw [if_neg (not_not.mpr hok)]
    split_ifs with h₁ h₂ h₃ h₄
    · exact .unclear _ h₁ hheld
    · exact .unclear _ h₂ hheld
    · exact .failed _ _ h₃ hheld hstart
    · exact .running _ hheld hstart
    · exact .noThread _ _ hheld hstart

section Resources

/-- What `activate` holds at a place: outside of it nothing, unless a deadline
has passed. -/
def Holding (a : Activation) : Point → Prop
  | .entry => a.system.Unwatched ∧ a.inFlight = false ∧ a.expired = false
  | .startFailed | .restartFailed => Held a ∧ a.expired = false ∧ a.result ≠ .success
  | .sequence | .stopping _ _ | .waking => Held a ∧ a.expired = false
  | .returned => (a.expired = false → a.system.Unwatched ∧ a.inFlight = false) ∧
      (a.result = .success → a.expired = false ∧ a.port.asyncEventSource.isSome = true)

structure Kept (a : Activation) : Prop where
  reads : Reads.Inv a.reads (Reads.fed a.delivered)
  consistent : a.system.Consistent
  holding : Holding a a.point

theorem consistent_acquire (h : a.system.Consistent) : a.acquireEvents.2.system.Consistent :=
  h.step (.acquireEvents a.runLoop) rfl

theorem consistent_release (h : a.system.Consistent) : a.releaseEvents.2.system.Consistent :=
  h.step (.releaseEvents a.runLoop) rfl

theorem reads_started {reads : Reads} {submit : Fin 4 → IOReturn} {ds : List Delivery}
    (h : Reads.Inv a.reads (Reads.fed ds)) (hs : a.reads.step (.startReads submit) = some reads) :
    Reads.Inv reads (Reads.fed ds) := by
  have hstep := h.step hs
  rwa [show Reads.deliveries [.startReads submit] = [] from rfl,
    show Reads.fed [] = [] from rfl, List.append_nil] at hstep

theorem reads_stopped {ds : List Delivery} (h : Reads.Inv a.reads (Reads.fed ds)) :
    Reads.Inv a.reads.stopRunning (Reads.fed ds) := ⟨h.attached, h.seen, h.unseen⟩

theorem kept_ret (hr : Reads.Inv a.reads (Reads.fed a.delivered)) (hc : a.system.Consistent)
    {result : IOReturn} (hend : a.expired = false → a.system.Unwatched ∧ a.inFlight = false)
    (hok : result = .success → a.expired = false ∧ a.port.asyncEventSource.isSome = true) :
    Kept (a.ret result) := ⟨hr, hc, hend, hok⟩

theorem kept_failure (hr : Reads.Inv a.reads (Reads.fed a.delivered)) (hc : a.system.Consistent)
    (hu : a.system.Unwatched) (hi : a.inFlight = false) {result : IOReturn}
    (hne : result ≠ .success) : Kept (a.ret result) :=
  kept_ret hr hc (fun _ ↦ ⟨hu, hi⟩) fun hok ↦ absurd hok hne

theorem Kept.beginReads (hr : Reads.Inv a.reads (Reads.fed a.delivered))
    (hc : a.system.Consistent) (hu : a.system.Unwatched) (hi : a.inFlight = false)
    (he : a.expired = false) {answers : StartAnswers} {failed running : Point} {first : Writer}
    (hf : failed = .startFailed ∨ failed = .restartFailed)
    (hrun : running = .sequence ∨ running = .waking) :
    Kept (a.beginReads answers failed running first) := by
  have hbegun := begun hu hi answers failed running first
  generalize a.beginReads answers failed running first = b at hbegun
  have hacquired := consistent_acquire hc
  cases hbegun with
  | refused result hne => exact kept_failure hr hc hu hi hne
  | unclear result hne hheld =>
    exact kept_failure (a := a.acquireEvents.2.releaseEvents.2) hr (consistent_release hacquired)
      hheld.release.2.1 hi hne
  | failed reads result hne hheld hstarted =>
    refine ⟨reads_started hr hstarted, hacquired, ?_⟩
    rcases hf with rfl | rfl
    all_goals exact ⟨hheld, he, hne⟩
  | running reads hheld hstarted =>
    refine ⟨reads_started hr hstarted, hacquired, ?_⟩
    rcases hrun with rfl | rfl
    all_goals exact ⟨hheld, he⟩
  | noThread reads abort hheld hstarted =>
    exact ⟨reads_stopped (a := { a with reads }) (reads_started hr hstarted), hacquired,
      hheld, he⟩

theorem Kept.activate (h : Kept a) (hp : a.point = .entry) (answers : StartAnswers) :
    Kept (a.activate answers) := by
  have hholding := h.holding
  rw [hp] at hholding
  obtain ⟨hu, hi, he⟩ := hholding
  unfold Activation.activate
  dsimp only
  split_ifs
  · exact kept_failure h.reads h.consistent hu hi (by decide)
  · exact Kept.beginReads h.reads h.consistent hu hi he (.inl rfl) (.inl rfl)

theorem Kept.reopen (hr : Reads.Inv a.reads (Reads.fed a.delivered))
    (hc : a.system.Consistent) (hu : a.system.Unwatched) (hi : a.inFlight = false)
    (he : a.expired = false) (answers : ReopenAnswers) : Kept (a.reopen answers) := by
  have hclosed : (a.system.close answers.close).2.Consistent := hc.step (.close _) rfl
  have hopened : ((a.system.close answers.close).2.openSession answers.open_).2.Consistent :=
    hclosed.step (.openSession _) rfl
  have hunwatched := (a.system.close_unwatched answers.close).openSession answers.open_
  have hfailure {system : SessionSystem} (hc : system.Consistent) (hu : system.Unwatched)
      {result : IOReturn} (hne : result ≠ .success) : Kept ((a.setSystem system).ret result) :=
    kept_failure (a := a.setSystem system) hr hc hu hi hne
  have hbegin {system : SessionSystem} (hc : system.Consistent) (hu : system.Unwatched) :
      Kept ((a.setSystem system).beginReads answers.start .restartFailed .waking .wake) :=
    Kept.beginReads (a := a.setSystem system) hr hc hu hi he (.inr rfl) (.inr rfl)
  unfold Activation.reopen
  dsimp only
  split_ifs with h₁ h₂ h₃
  · exact hfailure hc hu h₁
  · exact hfailure hclosed rfl h₂
  · exact hfailure hopened hunwatched h₃
  · exact hbegin hopened hunwatched

theorem Kept.expire (hr : Reads.Inv a.reads (Reads.fed a.delivered)) (hc : a.system.Consistent)
    (he : a.expired = true) (answers : ReopenAnswers) (after : After) :
    Kept (a.resume answers .timeout after) := by
  have hlost {result : IOReturn} (hne : result ≠ .success) : Kept (a.ret result) := by
    refine kept_ret hr hc (fun hno ↦ ?_) fun hok ↦ absurd hok hne
    rw [he] at hno
    cases hno
  cases after with
  | threadFailed => exact hlost (by decide)
  | sequence =>
    simp only [Activation.resume]
    split_ifs with h₁ h₂
    · exact hlost h₁
    · exact hlost h₂
    · exact absurd (by decide) h₂
  | wake =>
    simp only [Activation.resume]
    split_ifs with h₁
    · exact hlost h₁.2
    · exact hlost fun hok ↦ h₁ ⟨hok, by decide⟩

theorem Kept.resume (hr : Reads.Inv a.reads (Reads.fed a.delivered))
    (hc : a.system.Consistent) (hu : a.system.Unwatched) (hi : a.inFlight = false)
    (he : a.expired = false) (hsource : a.port.asyncEventSource.isSome = true)
    (answers : ReopenAnswers) (stopResult : IOReturn) (after : After) :
    Kept (a.resume answers stopResult after) := by
  have hret (result : IOReturn) : Kept (a.ret result) :=
    kept_ret hr hc (fun _ ↦ ⟨hu, hi⟩) fun _ ↦ ⟨he, hsource⟩
  cases after with
  | threadFailed => exact hret _
  | sequence =>
    simp only [Activation.resume]
    split_ifs
    · exact hret _
    · exact hret _
    · exact Kept.reopen hr hc hu hi he answers
  | wake =>
    simp only [Activation.resume]
    split_ifs <;> exact hret _

theorem Kept.leave (h : Kept a) (hw : waits a.point = true) (answers : ReopenAnswers) :
    Kept (a.leave answers) := by
  have hholding := h.holding
  have hreleased : a.mark.releaseEvents.2.system.Consistent :=
    consistent_release (a := a.mark) h.consistent
  have hexpired (hi : a.inFlight = true) : a.mark.expired = true := by
    rw [mark, hi, Bool.or_true]
  have hfresh (hi : a.inFlight = false) (he : a.expired = false) : a.mark.expired = false := by
    rw [mark, hi, he, Bool.or_false]
  have hpoint : a.mark.point = a.point := rfl
  simp only [Activation.leave, hpoint]
  cases hp : a.point with
  | startFailed =>
    rw [hp] at hholding
    obtain ⟨hheld, he, hne⟩ := hholding
    have hmark : Held a.mark := hheld
    split_ifs with hi
    · refine kept_ret (a := a.mark) h.reads h.consistent (fun hno ↦ ?_)
        fun hok ↦ absurd hok (by decide)
      exact absurd ((hexpired hi).symm.trans hno) (by decide)
    · exact kept_failure (a := a.mark.releaseEvents.2) h.reads hreleased hmark.release.2.1
        (Bool.eq_false_iff.mpr hi) hne
  | restartFailed =>
    rw [hp] at hholding
    obtain ⟨hheld, he, hne⟩ := hholding
    have hmark : Held a.mark := hheld
    refine kept_ret (a := a.mark.releaseEvents.2) h.reads hreleased
      (fun hno ↦ ⟨hmark.release.2.1, ?_⟩) fun hok ↦ absurd hok hne
    exact (Bool.or_eq_false_iff.mp hno).2
  | stopping after abort =>
    rw [hp] at hholding
    obtain ⟨hheld, he⟩ := hholding
    have hmark : Held a.mark := hheld
    obtain ⟨-, hu, hsource⟩ := hmark.release
    dsimp only
    split_ifs with hi
    · exact Kept.expire (a := a.mark) h.reads h.consistent (hexpired hi) answers after
    all_goals
      have hidle : a.inFlight = false := Bool.eq_false_iff.mpr hi
      exact Kept.resume (a := a.mark.releaseEvents.2) h.reads hreleased hu hidle (hfresh hidle he)
        ((congrArg Option.isSome hsource).trans hheld.2.2) answers _ after
  | _ =>
    rw [hp] at hw
    cases hw

theorem join_cases {abort : IOReturn} (hs : a.join abort = some b) : a.writer = .finished ∧
    (a.point = .sequence ∧ b = { a with result := a.firstError }.stopReads .sequence abort ∨
      a.point = .waking ∧ b = { a with
        replySeen := a.reads.handshakeReplySeen
        result := if a.reads.handshakeReplySeen then .success else a.firstError }.stopReads
          .wake abort) := by
  unfold Activation.join at hs
  by_cases hw : a.writer = .finished
  · rw [if_pos hw] at hs
    refine ⟨hw, ?_⟩
    cases hp : a.point with
    | sequence =>
      simp only [hp] at hs
      exact .inl ⟨rfl, (Option.some_inj.mp hs).symm⟩
    | waking =>
      simp only [hp] at hs
      exact .inr ⟨rfl, (Option.some_inj.mp hs).symm⟩
    | _ => simp [hp] at hs
  · rw [if_neg hw] at hs
    cases hs

structure Aside (a b : Activation) : Prop where
  system : b.system = a.system
  runLoop : b.runLoop = a.runLoop
  reads : b.reads = a.reads
  point : b.point = a.point
  result : b.result = a.result
  delivered : b.delivered = a.delivered
  expired : b.expired = a.expired
  replySeen : b.replySeen = a.replySeen

theorem sendMessage_aside (a : Activation) (message : Message) (result : IOReturn) :
    Aside a (a.sendMessage message result).2 := by
  unfold sendMessage
  dsimp only
  split_ifs
  · exact ⟨rfl, rfl, rfl, rfl, rfl, rfl, rfl, rfl⟩
  · split <;> exact ⟨rfl, rfl, rfl, rfl, rfl, rfl, rfl, rfl⟩

theorem write_aside {result : IOReturn} (hs : a.write result = some b) : Aside a b := by
  have hsame : Aside a a := ⟨rfl, rfl, rfl, rfl, rfl, rfl, rfl, rfl⟩
  unfold Activation.write at hs
  cases hw : a.writer with
  | begin | jogWritten =>
    rw [hw] at hs
    cases hs
    exact { hsame with }
  | identify | wake =>
    rw [hw] at hs
    cases hs
    exact { sendMessage_aside a _ result with }
  | reply | deadline =>
    simp only [hw] at hs
    split_ifs at hs
    cases hs
    exact { hsame with }
  | jog =>
    simp only [hw] at hs
    split_ifs at hs
    cases hs
    exact { sendMessage_aside a _ result with }
  | finished =>
    rw [hw] at hs
    cases hs

theorem Kept.aside (h : Kept a) (hab : Aside a b) : Kept b := by
  refine ⟨?_, ?_, ?_⟩
  · rw [hab.reads, hab.delivered]
    exact h.reads
  · rw [hab.system]
    exact h.consistent
  · have hholding := h.holding
    rw [hab.point]
    unfold Holding Held port inFlight at hholding ⊢
    rw [hab.system, hab.runLoop, hab.reads, hab.expired, hab.result]
    exact hholding

theorem Kept.step (h : Kept a) {x : Action} (hs : a.step x = some b) : Kept b := by
  cases x with
  | tick duration =>
    cases hs
    obtain ⟨hr, hc, hholding⟩ := h
    refine ⟨hr, hc, ?_⟩
    cases hp : a.point <;> rw [hp] at hholding <;> exact hholding
  | activate answers =>
    simp only [Activation.step] at hs
    split_ifs at hs with hp
    cases hs
    exact h.activate hp answers
  | complete slot delivery resubmit =>
    simp only [Activation.step] at hs
    split_ifs at hs with hp
    cases hs
    obtain ⟨hpumps, hflight⟩ := hp
    refine ⟨?_, h.consistent, ?_⟩
    · rw [Reads.fed_append]
      exact h.reads.complete hflight delivery resubmit
    · have hholding := h.holding
      cases hp : a.point with
      | entry | returned =>
        rw [hp] at hpumps
        cases hpumps
      | _ =>
        rw [hp] at hholding
        exact hholding
  | write result =>
    simp only [Activation.step] at hs
    split_ifs at hs
    exact h.aside (write_aside hs)
  | join abort =>
    have hholding := h.holding
    obtain ⟨-, ⟨hp, rfl⟩ | ⟨hp, rfl⟩⟩ := join_cases hs
    all_goals
      rw [hp] at hholding
      exact ⟨reads_stopped h.reads, h.consistent, hholding⟩
  | leave answers =>
    simp only [Activation.step] at hs
    split_ifs at hs with hp
    cases hs
    exact h.leave hp.1 answers

end Resources

end Activation

end NumarkNS6.Midi.ControllerActivation
