import NumarkNS6.Midi.ActivationRuns

namespace NumarkNS6.Midi.ControllerActivation

open Foundation.Runs HandshakeReplyParser Usb

namespace Activation

variable {a b : Activation}

def script : List Message := [.hostIdentify, .jogEnable, .wake]

def delay : Message → ℕ
  | .hostIdentify => 0
  | .jogEnable => milliseconds 795
  | .wake => milliseconds 796

/-- What was written is a part of the script from its beginning on, in time, and
nothing is woken that has not answered the first messages. -/
structure Told (a : Activation) : Prop where
  order : a.written.map (·.message) <+: script
  packets : ∀ w ∈ a.written, w.packet = frame w.message.bytes
  due : ∀ w ∈ a.written, a.started + delay w.message ≤ w.time
  past : ∀ w ∈ a.written, w.time ≤ a.now
  gap : a.written.Pairwise fun v w ↦ v.time ≤ w.time ∧
    (w.message = .wake → v.time + milliseconds 1 ≤ w.time ∧ v.result = .success)

def said (a : Activation) : List Message := a.written.map (·.message)

def Answered (a : Activation) : Prop := ∀ w ∈ a.written, w.result = .success

def Rested (a : Activation) : Prop :=
  a.started + milliseconds 796 ≤ a.now ∧ ∀ w ∈ a.written, w.time + milliseconds 1 ≤ a.now

def Reach (a : Activation) : Prop :=
  (a.system.session.primary.interface.isNone || a.system.session.midiOutPipe = 0) = false

/-- The device has answered, or the wake message has got to it. -/
def Woken (a : Activation) : Prop :=
  a.replySeen = true ∨ ∃ w ∈ a.written, w.message = .wake ∧ w.result = .success

def Sequence (a : Activation) : Writer → Prop
  | .begin => a.written = []
  | .identify => a.written = [] ∧ a.started ≤ a.now ∧ a.firstError = .success
  | .reply | .jog => a.said = [.hostIdentify] ∧ (a.firstError = .success → Answered a)
  | .jogWritten => a.said = [.hostIdentify, .jogEnable] ∧ (a.firstError = .success → Answered a)
  | .deadline => a.said = [.hostIdentify, .jogEnable] ∧ (a.firstError = .success → Answered a) ∧
      ∀ w ∈ a.written, w.time ≤ a.jogCompleted
  | .finished => a.said = [.hostIdentify, .jogEnable] ∧ (a.firstError = .success → Answered a) ∧
      Rested a
  | .wake => False

def Waking (a : Activation) : Writer → Prop
  | .wake => a.said = [.hostIdentify, .jogEnable] ∧ Answered a ∧ Rested a
  | .finished => a.firstError = .success → ∃ w ∈ a.written, w.message = .wake ∧ w.result = .success
  | _ => False

def Stage (a : Activation) : Point → Prop
  | .entry => a.written = []
  | .startFailed | .restartFailed => a.result ≠ .success
  | .sequence => Reach a ∧ Sequence a a.writer
  | .stopping .threadFailed _ => True
  | .stopping .sequence _ => a.said = [.hostIdentify, .jogEnable] ∧
      (a.result = .success → Answered a) ∧ Rested a
  | .stopping .wake _ | .returned => a.result = .success → Woken a
  | .waking => Waking a a.writer

theorem buildPacket_message (message : Message) :
    buildPacket (some message.bytes) message.bytes.length true = some (frame message.bytes) := by
  have hbytes : 0 < message.bytes.length ∧ message.bytes.length < packetBytes := by
    cases message <;> decide
  rw [buildPacket_eq hbytes.1 hbytes.2 (Nat.le_refl _), List.take_length]

def note (a : Activation) (message : Message) (result : IOReturn) : Activation :=
  { a with written := a.written ++ [⟨message, frame message.bytes, a.now, result⟩] }

theorem sendMessage_cases (a : Activation) (message : Message) (result : IOReturn) :
    (¬ Reach a ∧ a.sendMessage message result = (.notReady, a)) ∨
      (Reach a ∧ a.sendMessage message result = (result, a.note message result)) := by
  unfold sendMessage Reach
  dsimp only
  rw [buildPacket_message]
  split_ifs with h
  · exact .inl ⟨by rw [h]; decide, rfl⟩
  · exact .inr ⟨Bool.eq_false_iff.mpr h, rfl⟩

theorem Told.note (h : Told a) {message : Message} (result : IOReturn)
    (horder : a.said ++ [message] <+: script) (hdue : a.started + delay message ≤ a.now)
    (hwake : message = .wake → Answered a ∧ Rested a) : Told (a.note message result) := by
  refine ⟨?_, ?_, ?_, ?_, ?_⟩
  · rw [Activation.note, List.map_append]
    exact horder
  · intro w hw
    rcases List.mem_append.mp hw with hw | hw
    · exact h.packets w hw
    · rw [List.mem_singleton.mp hw]
  · intro w hw
    rcases List.mem_append.mp hw with hw | hw
    · exact h.due w hw
    · rw [List.mem_singleton.mp hw]
      exact hdue
  · intro w hw
    rcases List.mem_append.mp hw with hw | hw
    · exact h.past w hw
    · rw [List.mem_singleton.mp hw]
      exact Nat.le_refl _
  · refine List.pairwise_append.mpr ⟨h.gap, List.pairwise_singleton .., fun v hv w hw ↦ ?_⟩
    rw [List.mem_singleton.mp hw]
    refine ⟨h.past v hv, fun hm ↦ ?_⟩
    obtain ⟨hanswered, hrested⟩ := hwake hm
    exact ⟨hrested.2 v hv, hanswered v hv⟩

theorem Told.congr (h : Told a) (hw : b.written = a.written) (hs : b.started = a.started)
    (hn : a.now ≤ b.now) : Told b := by
  refine ⟨?_, ?_, ?_, ?_, ?_⟩
  · rw [hw]
    exact h.order
  · rw [hw]
    exact h.packets
  · rw [hw, hs]
    exact h.due
  · intro w hmem
    rw [hw] at hmem
    exact (h.past w hmem).trans hn
  · rw [hw]
    exact h.gap

theorem told_of_written (hw : a.written = []) : Told a := by
  refine ⟨?_, ?_, ?_, ?_, ?_⟩
  all_goals rw [hw]
  · exact List.nil_prefix
  · exact fun _ hmem ↦ absurd hmem List.not_mem_nil
  · exact fun _ hmem ↦ absurd hmem List.not_mem_nil
  · exact fun _ hmem ↦ absurd hmem List.not_mem_nil
  · exact .nil

theorem said_note (a : Activation) (message : Message) (result : IOReturn) :
    (a.note message result).said = a.said ++ [message] := List.map_append

theorem forall_note {P : Write → Prop} {message : Message} {result : IOReturn}
    (h : ∀ w ∈ a.written, P w) (hnew : P ⟨message, frame message.bytes, a.now, result⟩) :
    ∀ w ∈ (a.note message result).written, P w := by
  intro w hw
  rcases List.mem_append.mp hw with hw | hw
  · exact h w hw
  · rw [List.mem_singleton.mp hw]
    exact hnew

theorem success_of_firstFailure {first result : IOReturn}
    (h : first.firstFailure result = .success) : first = .success ∧ result = .success := by
  unfold IOReturn.firstFailure at h
  split_ifs at h with hfirst
  · exact ⟨hfirst, h⟩
  · exact absurd h hfirst

theorem send_eq (h : Reach a) (message : Message) (result : IOReturn) : a.send message result =
    { a.note message result with firstError := a.firstError.firstFailure result } := by
  rcases sendMessage_cases a message result with ⟨hno, -⟩ | ⟨-, hsent⟩
  · exact absurd h hno
  · rw [send, hsent]
    rfl

theorem write_sequence (ht : Told a) (hr : Reach a) (hq : Sequence a a.writer) {result : IOReturn}
    (hs : a.write result = some b) : Told b ∧ Sequence b b.writer := by
  have hanswered {message : Message} (h : a.firstError = .success → Answered a)
      (hok : a.firstError.firstFailure result = .success) : Answered (a.note message result) := by
    obtain ⟨hfirst, hresult⟩ := success_of_firstFailure hok
    exact forall_note (h hfirst) hresult
  unfold Activation.write at hs
  cases hw : a.writer with
  | begin =>
    rw [hw] at hs hq
    cases hs
    exact ⟨told_of_written hq, hq, Nat.le_refl _, rfl⟩
  | identify =>
    rw [hw] at hs hq
    cases hs
    obtain ⟨hwritten, hstarted, -⟩ := hq
    have hsaid : a.said = [] := by rw [said, hwritten]; rfl
    have hall : Answered a := by
      intro w hmem
      rw [hwritten] at hmem
      cases hmem
    have hnote : Told (a.note .hostIdentify result) := by
      refine ht.note result ?_ hstarted fun hm ↦ by cases hm
      rw [hsaid]
      exact ⟨_, rfl⟩
    rw [send_eq hr]
    refine ⟨hnote.congr rfl rfl (Nat.le_refl _), ?_, hanswered fun _ ↦ hall⟩
    exact (said_note ..).trans (by rw [hsaid]; rfl)
  | reply =>
    rw [hw] at hq
    simp only [hw] at hs
    split_ifs at hs
    cases hs
    exact ⟨ht.congr rfl rfl (Nat.le_refl _), hq⟩
  | jog =>
    rw [hw] at hq
    simp only [hw] at hs
    split_ifs at hs with htime
    cases hs
    obtain ⟨hsaid, hall⟩ := hq
    have hnote : Told (a.note .jogEnable result) := by
      refine ht.note result ?_ htime fun hm ↦ by cases hm
      rw [hsaid]
      exact ⟨_, rfl⟩
    rw [send_eq hr]
    refine ⟨hnote.congr rfl rfl (Nat.le_refl _), ?_, hanswered hall⟩
    exact (said_note ..).trans (by rw [hsaid]; rfl)
  | jogWritten =>
    rw [hw] at hs hq
    cases hs
    exact ⟨ht.congr rfl rfl (Nat.le_refl _), hq.1, hq.2, ht.past⟩
  | deadline =>
    rw [hw] at hq
    simp only [hw] at hs
    split_ifs at hs with htime
    cases hs
    obtain ⟨hsaid, hall, hcompleted⟩ := hq
    obtain ⟨hprotocol, hpost⟩ := max_le_iff.mp htime
    refine ⟨ht.congr rfl rfl (Nat.le_refl _), hsaid, hall, hprotocol, fun w hmem ↦ ?_⟩
    exact (Nat.add_le_add_right (hcompleted w hmem) _).trans hpost
  | wake =>
    rw [hw] at hq
    exact hq.elim
  | finished =>
    rw [hw] at hs
    cases hs

theorem write_waking (ht : Told a) (hq : Waking a a.writer) {result : IOReturn}
    (hs : a.write result = some b) : Told b ∧ Waking b b.writer := by
  unfold Activation.write at hs
  cases hw : a.writer with
  | wake =>
    rw [hw] at hs hq
    cases hs
    obtain ⟨hsaid, hall, hrested⟩ := hq
    rcases sendMessage_cases a .wake result with ⟨-, hsent⟩ | ⟨-, hsent⟩
    · rw [hsent]
      exact ⟨ht.congr rfl rfl (Nat.le_refl _), fun hok ↦ by cases hok⟩
    · rw [hsent]
      have hnote : Told (a.note .wake result) := by
        refine ht.note result ?_ hrested.1 fun _ ↦ ⟨hall, hrested⟩
        rw [hsaid]
        exact List.prefix_refl _
      refine ⟨hnote.congr rfl rfl (Nat.le_refl _), fun hok ↦
        ⟨⟨.wake, frame Message.wake.bytes, a.now, result⟩, ?_, rfl, hok⟩⟩
      exact List.mem_append_right _ (List.mem_singleton_self _)
  | finished =>
    rw [hw] at hs
    cases hs
  | _ =>
    rw [hw] at hq
    exact hq.elim

theorem staged_ret (ht : Told a) {result : IOReturn} (hne : result ≠ .success) :
    Told (a.ret result) ∧ Stage (a.ret result) .returned :=
  ⟨ht.congr rfl rfl (Nat.le_refl _), fun hok ↦ absurd hok hne⟩

theorem Begun.staged {failed running : Point} {first : Writer} (h : Begun a failed running first b)
    (ht : Told a) (hf : failed = .startFailed ∨ failed = .restartFailed)
    (hrunning : ∀ reads,
      Stage { a.acquireEvents.2 with reads, writer := first, point := running } running) :
    Told b ∧ Stage b b.point := by
  have hsame {c : Activation} (hw : c.written = a.written) (hs : c.started = a.started)
      (hn : c.now = a.now) : Told c := ht.congr hw hs hn.ge
  cases h with
  | refused result hne => exact staged_ret ht hne
  | unclear result hne => exact ⟨hsame rfl rfl rfl, fun hok ↦ absurd hok hne⟩
  | failed reads result hne =>
    refine ⟨hsame rfl rfl rfl, ?_⟩
    rcases hf with rfl | rfl <;> exact hne
  | running reads => exact ⟨hsame rfl rfl rfl, hrunning reads⟩
  | noThread => exact ⟨hsame rfl rfl rfl, trivial⟩

theorem Reach.acquire (h : Reach a) : Reach a.acquireEvents.2 := by
  have hinterface : (a.port.acquireEvents a.runLoop).2.interface = a.port.interface := by
    unfold Port.acquireEvents
    split_ifs <;> rfl
  unfold Reach at h ⊢
  rw [← h]
  exact congrArg (fun i : Option ℕ ↦ i.isNone || a.system.session.midiOutPipe = 0) hinterface

theorem staged_activate (hk : Kept a) (ht : Told a) (hp : a.point = .entry)
    (hq : Stage a a.point) (answers : StartAnswers) :
    Told (a.activate answers) ∧ Stage (a.activate answers) (a.activate answers).point := by
  have hholding := hk.holding
  rw [hp] at hholding hq
  obtain ⟨hu, hi, -⟩ := hholding
  unfold Activation.activate
  dsimp only
  split_ifs with hready
  · exact staged_ret ht (by decide)
  · have hreach : Reach a := by
      simp only [Bool.or_eq_true, not_or] at hready
      simp [Reach, hready.1.1, hready.2]
    exact (begun hu hi answers .startFailed .sequence .begin).staged ht (.inl rfl)
      fun _ ↦ ⟨hreach.acquire, hq⟩

theorem staged_reopen (ht : Told a) (hi : a.inFlight = false) (hsaid : a.said = [.hostIdentify, .jogEnable])
    (hall : Answered a) (hrested : Rested a) (answers : ReopenAnswers) :
    Told (a.reopen answers) ∧ Stage (a.reopen answers) (a.reopen answers).point := by
  have hunwatched := (a.system.close_unwatched answers.close).openSession answers.open_
  unfold Activation.reopen
  dsimp only
  split_ifs with h₁ h₂ h₃
  · exact staged_ret ht h₁
  · exact ⟨ht.congr rfl rfl (Nat.le_refl _), fun hok ↦ absurd hok h₂⟩
  · exact ⟨ht.congr rfl rfl (Nat.le_refl _), fun hok ↦ absurd hok h₃⟩
  · have hbegun := begun (a := (a.setSystem (a.system.close answers.close).2).setSystem
      ((a.system.close answers.close).2.openSession answers.open_).2) hunwatched hi answers.start
      .restartFailed .waking .wake
    exact hbegun.staged (ht.congr rfl rfl (Nat.le_refl _)) (.inr rfl) fun _ ↦ ⟨hsaid, hall, hrested⟩

theorem staged_resume_sequence (ht : Told a) {answers : ReopenAnswers} {stopResult : IOReturn}
    (hi : stopResult = .success → a.inFlight = false)
    (hq : a.said = [.hostIdentify, .jogEnable] ∧ (a.result = .success → Answered a) ∧ Rested a) :
    Told (a.resume answers stopResult .sequence) ∧
      Stage (a.resume answers stopResult .sequence) (a.resume answers stopResult .sequence).point := by
  obtain ⟨hsaid, hall, hrested⟩ := hq
  simp only [Activation.resume]
  split_ifs with h₁ h₂
  · exact staged_ret ht h₁
  · exact staged_ret ht h₂
  · exact staged_reopen ht (hi (not_not.mp h₂)) hsaid (hall (not_not.mp h₁)) hrested answers

theorem staged_resume_wake (ht : Told a) {answers : ReopenAnswers} {stopResult : IOReturn}
    (hq : a.result = .success → Woken a) :
    Told (a.resume answers stopResult .wake) ∧
      Stage (a.resume answers stopResult .wake) (a.resume answers stopResult .wake).point := by
  simp only [Activation.resume]
  split_ifs with h
  · exact staged_ret ht h.2
  · exact ⟨ht.congr rfl rfl (Nat.le_refl _), hq⟩

theorem staged_leave (ht : Told a) (hw : waits a.point = true)
    (hq : Stage a a.point) (answers : ReopenAnswers) :
    Told (a.leave answers) ∧ Stage (a.leave answers) (a.leave answers).point := by
  have hmark : Told a.mark := ht.congr rfl rfl (Nat.le_refl _)
  have hreleased : Told a.mark.releaseEvents.2 := ht.congr rfl rfl (Nat.le_refl _)
  have hpoint : a.mark.point = a.point := rfl
  simp only [Activation.leave, hpoint]
  cases hp : a.point with
  | startFailed =>
    rw [hp] at hq
    dsimp only
    split_ifs
    · exact staged_ret hmark (by decide)
    · exact staged_ret hreleased hq
  | restartFailed =>
    rw [hp] at hq
    exact staged_ret hreleased hq
  | stopping after abort =>
    rw [hp] at hq
    cases after with
    | threadFailed =>
      dsimp only
      split_ifs
      all_goals exact ⟨ht.congr rfl rfl (Nat.le_refl _), fun hok ↦ by cases hok⟩
    | sequence =>
      dsimp only
      split_ifs with hi
      · exact staged_resume_sequence hmark (fun hok ↦ by cases hok) hq
      all_goals exact staged_resume_sequence hreleased (fun _ ↦ Bool.eq_false_iff.mpr hi) hq
    | wake =>
      dsimp only
      split_ifs
      · exact staged_resume_wake hmark hq
      all_goals exact staged_resume_wake hreleased hq
  | _ =>
    rw [hp] at hw
    cases hw

theorem Rested.later (h : Rested a) (duration : ℕ) :
    Rested { a with now := a.now + duration } :=
  ⟨h.1.trans (Nat.le_add_right _ _), fun w hw ↦ (h.2 w hw).trans (Nat.le_add_right _ _)⟩

theorem Sequence.later {writer : Writer} (h : Sequence a writer) (duration : ℕ) :
    Sequence { a with now := a.now + duration } writer := by
  cases writer with
  | identify => exact ⟨h.1, h.2.1.trans (Nat.le_add_right _ _), h.2.2⟩
  | finished => exact ⟨h.1, h.2.1, h.2.2.later duration⟩
  | _ => exact h

theorem Stage.later {point : Point} (h : Stage a point) (duration : ℕ) :
    Stage { a with now := a.now + duration } point := by
  cases point with
  | sequence => exact ⟨h.1, h.2.later duration⟩
  | stopping after abort =>
    cases after with
    | sequence => exact ⟨h.1, h.2.1, h.2.2.later duration⟩
    | _ => exact h
  | waking =>
    have hwaking : Waking a a.writer := h
    change Waking { a with now := a.now + duration } a.writer
    cases hw : a.writer with
    | wake =>
      rw [hw] at hwaking
      exact ⟨hwaking.1, hwaking.2.1, hwaking.2.2.later duration⟩
    | _ =>
      rw [hw] at hwaking
      exact hwaking
  | _ => exact h

theorem Stage.completed {point : Point} (h : Stage a point) (reads : Reads) (ds : List Delivery) :
    Stage { a with reads := reads, delivered := ds } point := by
  unfold Stage Sequence Waking Reach Woken Answered Rested said at h ⊢
  exact h

theorem staged_step (hk : Kept a) (ht : Told a) (hq : Stage a a.point) {x : Action}
    (hs : a.step x = some b) : Told b ∧ Stage b b.point := by
  cases x with
  | tick duration =>
    cases hs
    exact ⟨ht.congr rfl rfl (Nat.le_add_right _ _), hq.later duration⟩
  | activate answers =>
    simp only [Activation.step] at hs
    split_ifs at hs with hp
    cases hs
    exact staged_activate hk ht hp hq answers
  | complete slot delivery resubmit =>
    simp only [Activation.step] at hs
    split_ifs at hs with hp
    cases hs
    exact ⟨ht.congr rfl rfl (Nat.le_refl _), hq.completed _ _⟩
  | write result =>
    simp only [Activation.step] at hs
    split_ifs at hs with hp
    have haside := write_aside hs
    rcases hp with hp | hp
    · rw [hp] at hq
      obtain ⟨htold, hsequence⟩ := write_sequence ht hq.1 hq.2 hs
      refine ⟨htold, ?_⟩
      rw [haside.point, hp]
      refine ⟨?_, hsequence⟩
      rw [Reach, haside.system]
      exact hq.1
    · rw [hp] at hq
      obtain ⟨htold, hwaking⟩ := write_waking ht hq hs
      refine ⟨htold, ?_⟩
      rw [haside.point, hp]
      exact hwaking
  | join abort =>
    obtain ⟨hfinished, ⟨hp, rfl⟩ | ⟨hp, rfl⟩⟩ := join_cases hs
    · rw [hp] at hq
      obtain ⟨-, hsequence⟩ := hq
      rw [hfinished] at hsequence
      exact ⟨ht.congr rfl rfl (Nat.le_refl _), hsequence⟩
    · rw [hp] at hq
      have hwaking : Waking a .finished := hfinished ▸ hq
      refine ⟨ht.congr rfl rfl (Nat.le_refl _), fun hok ↦ ?_⟩
      cases hseen : a.reads.handshakeReplySeen with
      | true => exact .inl rfl
      | false =>
        rw [hseen] at hok
        exact .inr (hwaking hok)
  | leave answers =>
    simp only [Activation.step] at hs
    split_ifs at hs with hp
    cases hs
    exact staged_leave ht hp.1 hq answers

def Replied (a : Activation) : Prop :=
  a.replySeen = true → replyPrefix <:+: received (Reads.fed a.delivered)

theorem Replied.congr (h : Replied a) (hs : b.replySeen = a.replySeen)
    (hd : b.delivered = a.delivered) : Replied b := by
  rw [Replied, hs, hd]
  exact h

theorem beginReads_silent (a : Activation) (answers : StartAnswers) (failed running : Point)
    (first : Writer) : (a.beginReads answers failed running first).replySeen = a.replySeen ∧
      (a.beginReads answers failed running first).delivered = a.delivered := by
  unfold beginReads
  dsimp only
  split_ifs <;> exact ⟨rfl, rfl⟩

theorem resume_silent (a : Activation) (answers : ReopenAnswers) (stopResult : IOReturn)
    (after : After) : (a.resume answers stopResult after).replySeen = a.replySeen ∧
      (a.resume answers stopResult after).delivered = a.delivered := by
  cases after with
  | threadFailed => exact ⟨rfl, rfl⟩
  | sequence =>
    simp only [Activation.resume, reopen]
    split_ifs
    all_goals first | exact ⟨rfl, rfl⟩ | exact beginReads_silent ..
  | wake =>
    simp only [Activation.resume]
    split_ifs <;> exact ⟨rfl, rfl⟩

theorem leave_silent (a : Activation) (answers : ReopenAnswers) :
    (a.leave answers).replySeen = a.replySeen ∧ (a.leave answers).delivered = a.delivered := by
  unfold leave
  dsimp only
  split
  · split_ifs <;> exact ⟨rfl, rfl⟩
  · exact ⟨rfl, rfl⟩
  · split_ifs <;> exact resume_silent ..
  · exact ⟨rfl, rfl⟩

theorem Replied.step (h : Replied a) (hk : Kept a) {x : Action} (hs : a.step x = some b) :
    Replied b := by
  cases x with
  | tick duration =>
    cases hs
    exact h
  | activate answers =>
    simp only [Activation.step] at hs
    split_ifs at hs
    cases hs
    unfold Activation.activate
    dsimp only
    split_ifs
    · exact h
    · obtain ⟨hseen, hdelivered⟩ := beginReads_silent a answers .startFailed .sequence .begin
      exact h.congr hseen hdelivered
  | complete slot delivery resubmit =>
    simp only [Activation.step] at hs
    split_ifs at hs
    cases hs
    intro hseen
    rw [Reads.fed_append, received, List.flatten_append, significant_append]
    exact (h hseen).trans (List.prefix_append _ _).isInfix
  | write result =>
    simp only [Activation.step] at hs
    split_ifs at hs
    have haside := write_aside hs
    exact h.congr haside.replySeen haside.delivered
  | join abort =>
    obtain ⟨-, ⟨-, rfl⟩ | ⟨-, rfl⟩⟩ := join_cases hs
    · exact h
    · exact hk.reads.seen
  | leave answers =>
    simp only [Activation.step] at hs
    split_ifs at hs
    cases hs
    obtain ⟨hseen, hdelivered⟩ := leave_silent a answers
    exact h.congr hseen hdelivered

structure Inv (a : Activation) : Prop where
  kept : Kept a
  told : Told a
  stage : Stage a a.point
  replied : Replied a

theorem Inv.step (h : Inv a) {x : Action} (hs : a.step x = some b) : Inv b := by
  obtain ⟨htold, hstage⟩ := staged_step h.kept h.told h.stage hs
  exact ⟨h.kept.step hs, htold, hstage, h.replied.step h.kept hs⟩

theorem run_inv {system : SessionSystem} {runLoop : Option ℕ} {xs : List Action}
    (hc : system.Consistent) (hu : system.Unwatched)
    (h : Run step (initial system runLoop) xs a) : Inv a := by
  refine h.invariant ⟨⟨Reads.init_inv, hc, hu, rfl, rfl⟩, told_of_written rfl, rfl, ?_⟩
    fun _ _ _ hi hs ↦ hi.step hs
  intro hseen
  cases hseen

theorem Kept.ready (h : Kept a) (hs : a.port.asyncEventSource.isSome = true) :
    ∃ answers i j, a.system.Ready answers i j := by
  rcases h.consistent with hclosed | hready
  · rw [port, hclosed.primary] at hs
    cases hs
  · exact hready

/-- Whatever the USB stack answers and however the threads are scheduled: the
packets that are written are those of the three messages, in their order and each
at most once; every message waits for its time, the wake message also for one
millisecond after the others, and it is sent only if they got through. -/
theorem activation_keeps_to_script {system : SessionSystem} {runLoop : Option ℕ} {xs : List Action}
    (hc : system.Consistent) (hu : system.Unwatched)
    (h : Run step (initial system runLoop) xs a) :
    a.written.map (·.message) <+: [.hostIdentify, .jogEnable, .wake] ∧
      (∀ w ∈ a.written, w.packet = frame w.message.bytes ∧ a.started + delay w.message ≤ w.time) ∧
      a.written.Pairwise fun v w ↦ v.time ≤ w.time ∧
        (w.message = .wake → v.time + milliseconds 1 ≤ w.time ∧ v.result = .success) := by
  have htold := (run_inv hc hu h).told
  exact ⟨htold.order, fun w hw ↦ ⟨htold.packets w hw, htold.due w hw⟩, htold.gap⟩

/-- When `activate` returns, no read is in flight and nobody listens on the
session, unless the deadline for a read has passed; that deadline has not passed
if it returns success, and then the session is open, and the reply was seen or the
wake message got through. A reply that is reported stands in what the device sent. -/
theorem activation_returns_settled {system : SessionSystem} {runLoop : Option ℕ} {xs : List Action}
    (hc : system.Consistent) (hu : system.Unwatched)
    (h : Run step (initial system runLoop) xs a) (hp : a.point = .returned) :
    (a.expired = false → a.inFlight = false ∧ a.system.Unwatched) ∧
      (a.result = .success → a.expired = false ∧ (∃ answers i j, a.system.Ready answers i j) ∧
        (a.replySeen = true ∨ ∃ w ∈ a.written, w.message = .wake ∧ w.result = .success)) ∧
      (a.replySeen = true → replyPrefix <:+: received (Reads.fed a.delivered)) := by
  have hinv := run_inv hc hu h
  have hholding := hinv.kept.holding
  have hstage := hinv.stage
  rw [hp] at hholding hstage
  obtain ⟨hend, hok⟩ := hholding
  refine ⟨fun he ↦ (hend he).symm, fun hres ↦ ?_, hinv.replied⟩
  obtain ⟨he, hsource⟩ := hok hres
  exact ⟨he, hinv.kept.ready hsource, hstage hres⟩

theorem three_endpoints : 3 < 255 := by
  decide

def fullController : OpenAnswers :=
  { SessionSystem.controllerAnswers .success with
    primary := ⟨.success, .success, (.success, ⟨3, three_endpoints⟩), fun pipe ↦
      (.success, if pipe = 1 then ⟨.out, 2, .isoc, 156, 1⟩
        else if pipe = 2 then ⟨.in, 3, .bulk, 42, 0⟩ else ⟨.out, 4, .bulk, 512, 0⟩), .success⟩ }

def opened : SessionSystem := (SessionSystem.initial.openSession fullController).2

def uneventful : List Action :=
  let start : StartAnswers := ⟨.success, .success, fun _ ↦ .success, true, .success⟩
  let reopen : ReopenAnswers := ⟨.success, ⟨.success, .success, .success⟩, fullController, start⟩
  let aborted : List Action := (List.finRange 4).map fun slot ↦
    .complete slot ⟨.other 0xe00002eb, []⟩ .success
  [.activate start, .write .success, .write .success, .tick (milliseconds 800), .write .success,
    .write .success, .write .success, .tick (milliseconds 2), .write .success, .join .success] ++
    aborted ++ [.leave reopen, .write .success, .join .success] ++ aborted ++ [.leave reopen]

theorem uneventful_run : ∃ a, Run step (initial opened (some 7)) uneventful a ∧
    a.point = .returned ∧ a.result = .success ∧ a.written.length = 3 := by
  have hrun : (uneventful.foldlM step (initial opened (some 7))).any fun a ↦
      a.point = .returned ∧ a.result = .success ∧ a.written.length = 3 := by
    decide +kernel
  obtain ⟨a, hfold, ha⟩ := (Option.any_eq_true _ _).mp hrun
  exact ⟨a, .of_foldlM hfold, of_decide_eq_true ha⟩

theorem opened_consistent : opened.Consistent :=
  SessionSystem.consistent_of_run (.one (a := .openSession fullController) rfl)

theorem opened_unwatched : opened.Unwatched :=
  SessionSystem.Unwatched.openSession (s := .initial) rfl fullController

theorem activation_keeps_to_script_uneventful : ∃ a, Run step (initial opened (some 7)) uneventful a ∧
    a.written.map (·.message) = [.hostIdentify, .jogEnable, .wake] ∧
      a.written.Pairwise fun v w ↦ v.time ≤ w.time ∧
        (w.message = .wake → v.time + milliseconds 1 ≤ w.time ∧ v.result = .success) := by
  obtain ⟨a, hrun, -, -, hlength⟩ := uneventful_run
  obtain ⟨horder, -, hgap⟩ := activation_keeps_to_script opened_consistent opened_unwatched hrun
  refine ⟨a, hrun, horder.eq_of_length ?_, hgap⟩
  rw [List.length_map, hlength]
  rfl

theorem activation_returns_settled_uneventful : ∃ a,
    Run step (initial opened (some 7)) uneventful a ∧ a.result = .success ∧ a.inFlight = false ∧
      a.system.Unwatched := by
  obtain ⟨a, hrun, hreturned, hok, -⟩ := uneventful_run
  obtain ⟨hend, hsuccess, -⟩ :=
    activation_returns_settled opened_consistent opened_unwatched hrun hreturned
  exact ⟨a, hrun, hok, hend (hsuccess hok).1⟩

end Activation

end NumarkNS6.Midi.ControllerActivation
