import NumarkNS6.Legacy.AgreementRuns

namespace NumarkNS6.Legacy.NS6DeviceClient

open Foundation.Runs NS6DeviceService

namespace Party

variable {p : Party} {structSize : UInt64} {answers : ClientAnswers}

/-- The kernel holds for a client what the client knows of. -/
structure Even (p : Party) : Prop where
  zero : p.client.connected = false → p.client = .zero
  servicePort : p.client.servicePort = p.client.connected
  mappings : p.mappings = p.client.mapping.toNat
  ports : p.ports = p.client.servicePort.toNat

def greeting : Option Exchange → Bool
  | some ⟨.hello _, _⟩ => true
  | _ => false

/-- While the client waits for the answer to a hello it has a right to the port that it
has not written down. -/
def Balanced (p : Party) : Prop :=
  if greeting p.exchange then p.client = .zero ∧ p.mappings = 0 ∧ p.ports = 1 else Even p

theorem Even.clear (h : Even p) :
    p.clear.client = .zero ∧ p.clear.mappings = 0 ∧ p.clear.ports = 0 := by
  refine ⟨rfl, ?_, ?_⟩
  · rw [Party.clear, h.mappings]
    exact Nat.sub_self _
  · rw [Party.clear, h.ports]
    exact Nat.sub_self _

theorem even_of_zero (hc : p.client = .zero) (hm : p.mappings = 0) (hp : p.ports = 0) : Even p := by
  refine ⟨fun _ ↦ hc, ?_, ?_, ?_⟩
  · rw [hc]
    rfl
  · rw [hm, hc]
    rfl
  · rw [hp, hc]
    rfl

theorem Even.finish (h : Even p) (outcome : Outcome) : Balanced (p.finish outcome).1 :=
  ⟨h.zero, h.servicePort, h.mappings, h.ports⟩

theorem hello_balanced (hc : p.client = .zero) (hm : p.mappings = 0) (hp : p.ports = 0) :
    Balanced (p.hello structSize answers).1 := by
  have hfailed := (even_of_zero hc hm hp).finish (.done false)
  rw [hello]
  split_ifs
  · exact hfailed
  · dsimp only [exchangeMessage]
    split_ifs
    · exact ⟨hc, hm, congrArg (· + 1) hp⟩
    · exact hfailed

theorem Even.released (h : Even p) (next : Next) :
    Balanced (p.released structSize next answers).1 := by
  obtain ⟨hc, hm, hp⟩ := h.clear
  cases next with
  | finish connected => exact (even_of_zero hc hm hp).finish _
  | connect => exact hello_balanced hc hm hp

theorem Even.exchangeMessage (h : Even p) {request : DeviceRequest} {call : Call} {sent : Bool}
    {failed : Turn} (hcall : greeting (some ⟨call, none⟩) = false) (hfailed : Balanced failed.1) :
    Balanced (p.exchangeMessage request call sent failed).1 := by
  rw [Party.exchangeMessage]
  split_ifs
  · rw [Balanced, hcall]
    exact ⟨h.zero, h.servicePort, h.mappings, h.ports⟩
  · exact hfailed

theorem Even.disconnect (h : Even p) (next : Next) :
    Balanced (p.disconnect structSize next answers).1 := by
  rw [Party.disconnect]
  split_ifs
  · exact h.exchangeMessage rfl (h.released next)
  · exact h.released next

theorem Even.connect (h : Even p) : Balanced (p.connect structSize answers).1 := by
  rw [Party.connect]
  split_ifs
  · exact h.finish _
  · exact h.disconnect _

theorem Even.sendControl (h : Even p) (message : ControlMessage) (value : UInt32) (sent : Bool) :
    Balanced (p.sendControl message value sent).1 := by
  rw [Party.sendControl]
  split_ifs
  · exact h.finish _
  · exact h.exchangeMessage rfl (h.finish _)

theorem Even.setAudioActive (h : Even p) (active sent : Bool) :
    Balanced (p.setAudioActive active sent).1 := by
  have hsent := h.sendControl .setAudioActive (if active then 1 else 0) sent
  rw [Party.setAudioActive]
  generalize p.sendControl .setAudioActive (if active then 1 else 0) sent = turn at hsent
  dsimp only
  split_ifs
  · rw [Balanced] at hsent ⊢
    split_ifs at hsent ⊢
    · exact hsent
    · exact ⟨hsent.zero, hsent.servicePort, hsent.mappings, hsent.ports⟩
  · exact hsent

theorem Even.getStateResult (h : Even p) (sent : Bool) : Balanced (p.getStateResult sent).1 := by
  rw [Party.getStateResult]
  split_ifs
  · exact h.finish _
  · exact h.exchangeMessage rfl (h.finish _)

theorem helloReplied_balanced {clientId : UInt64} {reply : Option DeviceReply}
    (hc : p.client = .zero) (hm : p.mappings = 0) (hp : p.ports = 1) :
    Balanced (p.helloReplied structSize clientId reply answers).1 := by
  have hfailed : Balanced ({ p with ports := p.ports - 1 }.finish (.done false)).1 := by
    have heven : Even { p with ports := p.ports - 1 } := by
      refine even_of_zero hc hm ?_
      dsimp only
      rw [hp]
    exact heven.finish _
  have hattach (sessionId : UInt64) : Even (p.attach clientId sessionId) := by
    refine ⟨(fun h ↦ by cases h), rfl, ?_, hp⟩
    rw [attach, hm, hc]
    rfl
  have hmapped (sessionId : UInt64) (sharedMemory : Bool) :
      Even ((p.attach clientId sessionId).setMapping sharedMemory) := by
    refine ⟨(fun h ↦ by cases h), rfl, ?_, hp⟩
    rw [setMapping, attach, hm]
    rfl
  unfold helloReplied
  split
  · dsimp only
    split_ifs
    · exact hfailed
    · exact (hattach _).disconnect _
    · exact (hmapped _ _).disconnect _
    · exact (hmapped _ _).finish _
  · exact hfailed

theorem Balanced.even (h : Balanced p) (hx : greeting p.exchange = false) : Even p := by
  rw [Balanced, hx] at h
  exact h

theorem Balanced.resume (h : Balanced p) (reply : Option DeviceReply) :
    Balanced (p.resume structSize reply answers).1 := by
  unfold Party.resume
  split
  · exact h
  · next hx =>
    rw [Balanced, hx] at h
    exact helloReplied_balanced h.1 h.2.1 h.2.2
  · next hx => exact (h.even (by rw [hx]; rfl)).released _
  · next hx => exact (h.even (by rw [hx]; rfl)).finish _
  · next hx => exact (h.even (by rw [hx]; rfl)).finish _

theorem Balanced.deliver (h : Balanced p) (port : ℕ) (reply : DeviceReply) :
    Balanced (p.deliver port reply) := by
  rcases DeviceSystem.deliver_cases p port reply with heq | ⟨call, hx, -, heq⟩
  · rw [heq]
    exact h
  · rw [heq]
    rw [Balanced, hx] at h
    cases call with
    | hello clientId => exact h
    | release next => exact ⟨h.zero, h.servicePort, h.mappings, h.ports⟩
    | control => exact ⟨h.zero, h.servicePort, h.mappings, h.ports⟩
    | state => exact ⟨h.zero, h.servicePort, h.mappings, h.ports⟩

def Told (turn : Turn) : Prop := turn.1.exchange = none → ∃ ok, turn.1.outcome = .done ok

theorem finish_told (p : Party) (ok : Bool) : Told (p.finish (.done ok)) := fun _ ↦ ⟨ok, rfl⟩

theorem exchangeMessage_told {request : DeviceRequest} {call : Call} {sent : Bool} {failed : Turn}
    (hfailed : Told failed) : Told (p.exchangeMessage request call sent failed) := by
  rw [exchangeMessage]
  split_ifs
  · intro hx
    cases hx
  · exact hfailed

theorem hello_told (p : Party) : Told (p.hello structSize answers) := by
  rw [hello]
  split_ifs
  · exact finish_told p false
  · exact exchangeMessage_told (finish_told p false)

theorem released_told (p : Party) (next : Next) : Told (p.released structSize next answers) := by
  cases next with
  | finish connected => exact finish_told p.clear connected
  | connect => exact hello_told p.clear

theorem disconnect_told (p : Party) (next : Next) :
    Told (p.disconnect structSize next answers) := by
  rw [disconnect]
  split_ifs
  · exact exchangeMessage_told (released_told p next)
  · exact released_told p next

theorem helloReplied_told (p : Party) (clientId : UInt64) (reply : Option DeviceReply) :
    Told (p.helloReplied structSize clientId reply answers) := by
  unfold helloReplied
  split
  · dsimp only
    split_ifs
    · exact finish_told _ false
    · exact disconnect_told _ _
    · exact disconnect_told _ _
    · exact finish_told _ true
  · exact finish_told _ false

theorem resume_replaced {call : Call} {reply : DeviceReply}
    (hwait : p.exchange = some ⟨call, some reply⟩)
    (hx : (p.resume structSize (some reply) answers).1.exchange = none)
    (ho : (p.resume structSize (some reply) answers).1.outcome = .state .replaced) :
    call = .state ∧ (∃ snapshot, reply = .state .badId snapshot) ∧
      (p.resume structSize (some reply) answers).1.client = p.client := by
  have htold (h : Told (p.resume structSize (some reply) answers)) : False := by
    obtain ⟨ok, hok⟩ := h hx
    cases ho.symm.trans hok
  unfold resume at htold ho ⊢
  rw [hwait] at htold ho ⊢
  cases call with
  | hello clientId => exact (htold (helloReplied_told p clientId _)).elim
  | release next => exact (htold (released_told p next)).elim
  | control => exact (htold (finish_told p _)).elim
  | state =>
    refine ⟨rfl, ?_, rfl⟩
    cases reply with
    | state status snapshot =>
      cases status with
      | badId => exact ⟨snapshot, rfl⟩
      | _ => cases ho
    | _ => cases ho

end Party

namespace DeviceSystem

variable {ι : Type} {setting : Setting ι} {s t : DeviceSystem ι} {i : ι}
  {service : NS6DeviceService} {draw : UInt64} {as : List (Action ι)}

structure Manned (setting : Setting ι) (s : DeviceSystem ι) : Prop where
  service : s.service.Inv
  queue : ∀ e ∈ s.queue, e.processId = setting.processId e.sender
  leases : ∀ clientId lease, s.leases clientId = some lease →
    ∃ i, lease.processId = setting.processId i

theorem Manned.reap (h : Manned setting s) {t : DeviceSystem ι} (hservice : t.service = s.reap)
    (hqueue : t.queue = s.queue) : Manned setting t := by
  refine ⟨?_, ?_, fun clientId lease hlease ↦ ?_⟩
  · rw [hservice]
    exact reap_inv h.service
  · rw [hqueue]
    exact h.queue
  · rw [DeviceSystem.leases, hservice] at hlease
    exact h.leases clientId lease (reap_subset h.service hlease)

theorem Manned.served (h : Manned setting s) {e : Envelope ι} {service : NS6DeviceService}
    {usbReady restarts : Bool} {answer : DeviceReply × NS6DeviceService}
    (hinv : service.Inv) (hsub : ∀ clientId lease, service.clients.leases clientId = some lease →
      s.leases clientId = some lease) (he : e ∈ s.queue)
    (hanswer : s.handle service usbReady restarts e = answer) (hservice : t.service = answer.2)
    (hqueue : ∀ e ∈ t.queue, e ∈ s.queue) : Manned setting t := by
  refine ⟨?_, fun e he ↦ h.queue e (hqueue e he), fun clientId lease hlease ↦ ?_⟩
  · rw [hservice, ← hanswer]
    exact handle_inv hinv
  · rw [DeviceSystem.leases, hservice, ← hanswer] at hlease
    rcases handle_origin hinv hlease with ⟨before, hbefore, hsame⟩ | ⟨-, hprocess⟩
    · obtain ⟨i, hi⟩ := h.leases clientId before (hsub _ _ hbefore)
      exact ⟨i, hsame.symm.trans hi⟩
    · exact ⟨e.sender, hprocess.trans (h.queue e he)⟩

variable [DecidableEq ι]

section Setup

def twoClients : Setting Bool where
  processId := fun i ↦ if i then 501 else 502
  uid := fun _ ↦ 202
  structSize := fun _ ↦ 4096
  coreaudiodUid := 202

def willing (draw : UInt64) : ClientAnswers := ⟨true, true, true, draw, true, true, true⟩

def bothConnect : List (Action Bool) :=
  [.spawn 501, .spawn 502, .connect true (willing 11), .connect false (willing 12),
    .serve true true, .serve true true, .receive true (willing 0), .receive false (willing 0),
    .setAudioActive true true true]

def lateAnswer : List (Action Bool) := bothConnect ++ [.timeout true (willing 0)]

def inTime : List (Action Bool) := bothConnect ++ [.serve true true]

def bothExit : List (Action Bool) := inTime ++ [.exit 501, .exit 502]

theorem late_run : ∃ s, Run (step twoClients) (initial vacant 9) lateAnswer s ∧
    (s.drawn.map Prod.fst).Nodup ∧ s.sessions.Nodup ∧ (s.party true).client.connected = true ∧
      (s.party true).exchange.isNone = true ∧
      (s.party true).client.sessionId = s.service.sessionId ∧ (s.party true).asked = true := by
  have hrun : (lateAnswer.foldlM (step twoClients) (initial vacant 9)).any fun s ↦
      (s.drawn.map Prod.fst).Nodup ∧ s.sessions.Nodup ∧
        (s.party true).client.connected = true ∧ (s.party true).exchange.isNone = true ∧
        (s.party true).client.sessionId = s.service.sessionId ∧ (s.party true).asked = true := by
    decide +kernel
  obtain ⟨s, hfold, hs⟩ := (Option.any_eq_true _ _).mp hrun
  exact ⟨s, .of_foldlM hfold, of_decide_eq_true hs⟩

end Setup

section Rights

theorem balanced_update {p : Party} (h : ∀ j, (s.party j).Balanced) (hp : p.Balanced) (j : ι) :
    (Function.update s.party i p j).Balanced := by
  by_cases hj : j = i
  · subst hj
    rw [Function.update_self]
    exact hp
  · rw [Function.update_of_ne hj]
    exact h j

theorem balanced_call {f : Party → Turn} (h : ∀ j, (s.party j).Balanced)
    (hf : (s.party i).Even → (f (s.party i)).1.Balanced) (hs : s.call setting i f = some t) :
    ∀ j, (t.party j).Balanced := by
  rw [call] at hs
  split_ifs at hs with hguard
  rw [Bool.and_eq_true_iff, Option.isNone_iff_eq_none] at hguard
  cases hs
  exact balanced_update h (hf ((h i).even (by rw [hguard.2]; rfl)))

theorem balanced_step {a : Action ι} (h : ∀ j, (s.party j).Balanced)
    (hs : s.step setting a = some t) : ∀ j, (t.party j).Balanced := by
  cases a with
  | connect i answers =>
    rw [step] at hs
    exact balanced_call h (fun he ↦ he.connect) hs
  | disconnect i answers =>
    rw [step] at hs
    exact balanced_call h (fun he ↦ he.disconnect _) hs
  | setAudioActive i active sent =>
    rw [step] at hs
    exact balanced_call h (fun he ↦ he.setAudioActive active sent) hs
  | setStartupBuffer i frames sent =>
    rw [step] at hs
    exact balanced_call h (fun he ↦ he.sendControl _ _ _) hs
  | getState i sent =>
    rw [step] at hs
    exact balanced_call h (fun he ↦ he.getStateResult sent) hs
  | receive i answers =>
    rw [step] at hs
    split at hs
    · cases hs
      exact balanced_update h ((h i).resume _)
    · cases hs
  | timeout i answers =>
    rw [step] at hs
    split at hs
    · cases hs
      exact balanced_update h ((h i).resume _)
    · cases hs
  | serve usbReady restarts =>
    rw [step, serve] at hs
    split at hs
    · cases hs
    · split_ifs at hs
      · rw [← Option.some.inj hs]
        exact balanced_update h ((h _).deliver _ _)
      · rw [← Option.some.inj hs]
        exact balanced_update h ((h _).deliver _ _)
  | idle =>
    rw [step] at hs
    split_ifs at hs
    rw [← Option.some.inj hs]
    exact h
  | exit processId =>
    cases hs
    intro j
    change Party.Balanced (if setting.processId j = processId then _ else s.party j)
    split_ifs
    · exact Party.even_of_zero rfl rfl rfl
    · exact h j
  | spawn processId =>
    cases hs
    exact h
  | updateDeviceState connected transportReady firmwareVersion =>
    cases hs
    exact h
  | restart draw keep =>
    cases hs
    exact h

/-- Whichever calls fail, and wherever: a client that is not connected and waits for
nothing holds no right to the port of the service and no mapping of its memory, and one
that is connected holds one right, and the mapping if it has one. -/
theorem client_rights_balanced (h : Run (step setting) (initial service draw) as s)
    (hx : (s.party i).exchange = none) :
    (s.party i).ports = (s.party i).client.connected.toNat ∧
      (s.party i).mappings = (s.party i).client.mapping.toNat ∧
      ((s.party i).client.connected = false → (s.party i).client = .zero) := by
  have hbalanced : ∀ j, (s.party j).Balanced :=
    h.invariant (fun _ ↦ Party.even_of_zero rfl rfl rfl) fun _ _ _ hb hs ↦ balanced_step hb hs
  have heven := (hbalanced i).even (by rw [hx]; rfl)
  exact ⟨heven.ports.trans (congrArg Bool.toNat heven.servicePort), heven.mappings, heven.zero⟩

theorem client_rights_balanced_late : ∃ s, Run (step twoClients) (initial vacant 9)
    lateAnswer s ∧ (s.party true).ports = 1 := by
  obtain ⟨s, hrun, -, -, hconnected, hx, -⟩ := late_run
  have hports := (client_rights_balanced hrun (Option.isNone_iff_eq_none.mp hx)).1
  rw [hconnected] at hports
  exact ⟨s, hrun, hports⟩

end Rights

/-- Whatever calls time out, whatever processes end and however often the service is
published again: if no id was drawn twice, a client that is connected to the current
session has a lease in the name of its process. With the requests that still wait, the
lease comes to the activity that the client asked for last. -/
theorem connected_client_has_lease (h : Run (step setting) (initial service draw) as s)
    (hids : (s.drawn.map Prod.fst).Nodup) (hsessions : s.sessions.Nodup)
    (hconnected : (s.party i).client.connected = true)
    (hrelease : ∀ next reply, (s.party i).exchange ≠ some ⟨.release next, reply⟩)
    (hcurrent : (s.party i).client.sessionId = s.service.sessionId) :
    ∃ active, s.service.clients.leases (s.party i).client.clientId =
        some ⟨setting.processId i, active⟩ ∧
      settled (s.party i).client.clientId s.queue active = (s.party i).asked :=
  ((run_agreed h hids hsessions).attached hconnected hrelease).lease hcurrent

theorem connected_client_has_lease_late : ∃ s, Run (step twoClients) (initial vacant 9)
    lateAnswer s ∧ ∃ active,
      s.service.clients.leases (s.party true).client.clientId = some ⟨501, active⟩ ∧
        settled (s.party true).client.clientId s.queue active = true := by
  obtain ⟨s, hrun, hids, hsessions, hconnected, hx, hcurrent, hasked⟩ := late_run
  obtain ⟨active, hlease, hsettled⟩ := connected_client_has_lease hrun hids hsessions hconnected
    (Party.not_releasing_of_idle (Option.isNone_iff_eq_none.mp hx)) hcurrent
  exact ⟨s, hrun, active, hlease, hsettled.trans hasked⟩

theorem receive_queue {answers : ClientAnswers} (h : Agreed setting s)
    (hs : s.step setting (.receive i answers) = some t) (hx : (t.party i).exchange = none) :
    (∀ e ∈ t.queue, e.sender ≠ i) ∧ t.service = s.service ∧ ∃ call reply,
      (s.party i).exchange = some ⟨call, some reply⟩ ∧
      t.party i = ((s.party i).resume (setting.structSize i) (some reply) answers).1 := by
  rw [step] at hs
  split at hs
  · next call reply hwait =>
    cases hs
    have hself : (s.turn setting i ((s.party i).resume (setting.structSize i) (some reply)
        answers)).party i = ((s.party i).resume (setting.structSize i) (some reply) answers).1 :=
      Function.update_self ..
    refine ⟨fun e he ↦ ?_, rfl, call, reply, hwait, hself⟩
    rcases List.mem_append.mp he with he | he
    · exact h.answered i call reply hwait e he
    · obtain ⟨request, hrequest, -⟩ := mem_envelopes.mp he
      have hmoved : (s.party i).Moved
          ((s.party i).resume (setting.structSize i) (some reply) answers) := by
        refine Party.resume_moved hwait fun clientId hcall ↦ ?_
        have hstage := h.stage i
        rw [hwait, hcall] at hstage
        exact hstage.1
      rw [hself] at hx
      generalize (s.party i).resume (setting.structSize i) (some reply) answers = turn at *
      obtain ⟨p', posted⟩ := turn
      cases hmoved with
      | rest | attached => cases hrequest
      | hello hx' => cases hx'.symm.trans hx
      | release hx' => cases hx'.symm.trans hx
      | control _ _ hx' => cases hx'.symm.trans hx
  · cases hs

/-- A client that got its answer knows where it stands. If it is connected to the
current session, the service has the activity that it asked for; and if it is told that
it was replaced, the service has been published again since it connected. -/
theorem answered_client_agrees {answers : ClientAnswers}
    (h : Run (step setting) (initial service draw) as s)
    (hs : s.step setting (.receive i answers) = some t) (hids : (t.drawn.map Prod.fst).Nodup)
    (hsessions : t.sessions.Nodup) (hx : (t.party i).exchange = none) :
    ((t.party i).client.connected = true →
      (t.party i).client.sessionId = t.service.sessionId →
      t.service.clients.leases (t.party i).client.clientId =
        some ⟨setting.processId i, (t.party i).asked⟩) ∧
    ((t.party i).outcome = .state .replaced →
      (t.party i).client.sessionId ≠ t.service.sessionId) := by
  obtain ⟨hdrawn, hpublished⟩ := (stepped hs).grows
  have hbefore := run_agreed h (Apart.of_sublist hids hdrawn.sublist)
    (hsessions.sublist hpublished.sublist)
  have hafter := run_agreed (h.snoc hs) hids hsessions
  obtain ⟨hqueue, hservice, call, reply, hwait, hparty⟩ := receive_queue hbefore hs hx
  constructor
  · intro hconnected hcurrent
    have hattached := hafter.attached hconnected (Party.not_releasing_of_idle hx)
    obtain ⟨active, hlease, hsettled⟩ := hattached.lease hcurrent
    have hnone (e : Envelope ι) (he : e ∈ t.queue) :
        e.clientId ≠ (t.party i).client.clientId := by
      refine Apart.ne hids (hafter.sent e he).1 hattached.owner (hqueue e he)
    rw [← hsettled]
    exact hlease.trans (congrArg _ (congrArg _ (settled_of_ne [] hnone).symm))
  · intro ho
    rw [hparty] at hx ho
    obtain ⟨rfl, ⟨snapshot, rfl⟩, hclient⟩ := Party.resume_replaced hwait hx ho
    have hstage := hbefore.stage i
    rw [hwait] at hstage
    rw [hparty, hclient, hservice]
    exact hstage.2.2.2 snapshot rfl

theorem answered_client_agrees_in_time : ∃ s t, Run (step twoClients) (initial vacant 9)
    inTime s ∧ s.step twoClients (.receive true (willing 0)) = some t ∧
      t.service.clients.leases (t.party true).client.clientId = some ⟨501, true⟩ := by
  have hrun : (inTime.foldlM (step twoClients) (initial vacant 9)).any fun s ↦
      (s.step twoClients (.receive true (willing 0))).any
        fun t ↦ (t.drawn.map Prod.fst).Nodup ∧ t.sessions.Nodup ∧
          (t.party true).exchange.isNone = true ∧ (t.party true).client.connected = true ∧
          (t.party true).client.sessionId = t.service.sessionId ∧ (t.party true).asked = true := by
    decide +kernel
  obtain ⟨s, hfold, hs⟩ := (Option.any_eq_true _ _).mp hrun
  obtain ⟨t, ht, hall⟩ := (Option.any_eq_true _ _).mp hs
  obtain ⟨hids, hsessions, hx, hconnected, hcurrent, hasked⟩ := of_decide_eq_true hall
  have hlease := (answered_client_agrees (.of_foldlM hfold) ht hids hsessions
    (Option.isNone_iff_eq_none.mp hx)).1 hconnected hcurrent
  rw [hasked] at hlease
  exact ⟨s, t, .of_foldlM hfold, ht, hlease⟩

section Orphans

theorem Manned.step (h : Manned setting s) (hs : Stepped setting s t) : Manned setting t := by
  cases hs with
  | turn =>
    refine ⟨h.service, fun e he ↦ ?_, h.leases⟩
    rcases List.mem_append.mp he with he | he
    · exact h.queue e he
    · obtain ⟨request, -, rfl⟩ := mem_envelopes.mp he
      rfl
  | rejected hqueue =>
    refine ⟨h.service, fun e he ↦ h.queue e ?_, h.leases⟩
    exact hqueue ▸ List.mem_cons_of_mem _ he
  | served hqueue _ hanswer ht =>
    subst ht
    refine h.served (reap_inv h.service) (fun _ _ ↦ reap_subset h.service)
      (hqueue ▸ List.mem_cons_self) hanswer rfl fun e he ↦ ?_
    exact hqueue ▸ List.mem_cons_of_mem _ he
  | idle => exact h.reap rfl rfl
  | exit => exact ⟨h.service, h.queue, h.leases⟩
  | spawn => exact ⟨h.service, h.queue, h.leases⟩
  | snapshot => exact ⟨h.service, h.queue, h.leases⟩
  | restart draw keep =>
    refine ⟨⟨(publish_inv s.service).distinct, (publish_inv s.service).aggregate⟩, ?_, ?_⟩
    · intro e he
      rw [DeviceSystem.restart] at he
      dsimp only at he
      split_ifs at he
      · exact h.queue e he
      · cases he
    · intro clientId lease hlease
      cases (congrFun NS6DeviceClientRegistry.empty_leases clientId).symm.trans hlease

theorem run_manned (h : Run (DeviceSystem.step setting) (initial service draw) as s) :
    Manned setting s := by
  refine h.invariant ?_ fun _ _ _ hm hs ↦ hm.step (stepped hs)
  have hinitial : Agreed setting (initial service draw) := initial_agreed service draw
  refine ⟨hinitial.service, fun e he ↦ ?_, ?_⟩
  · cases he
  · intro clientId lease hlease
    cases (congrFun NS6DeviceClientRegistry.empty_leases clientId).symm.trans hlease

/-- Whenever the service has had nothing to do, the leases are those of processes that
are there, and it does not play for a client whose process has ended. -/
theorem orphaned_leases_end (h : Run (DeviceSystem.step setting) (initial service draw) as s)
    (hs : s.step setting .idle = some t) (hpositive : ∀ i, 0 < setting.processId i) :
    (∀ clientId lease, t.service.clients.leases clientId = some lease →
      ∃ i, lease.processId = setting.processId i ∧ t.alive (setting.processId i) = true) ∧
    ((∀ i, t.alive (setting.processId i) = false) → t.service.audioActive = false) := by
  have hbefore := run_manned h
  have hafter := run_manned (h.snoc hs)
  have hidle : t = { s with service := s.reap } := by
    rw [DeviceSystem.step] at hs
    split_ifs at hs
    exact (Option.some.inj hs).symm
  have hleases (clientId : UInt64) (lease : Lease)
      (hlease : t.service.clients.leases clientId = some lease) :
      ∃ i, lease.processId = setting.processId i ∧ t.alive (setting.processId i) = true := by
    obtain ⟨i, hi⟩ := hafter.leases clientId lease hlease
    refine ⟨i, hi, ?_⟩
    rw [hidle] at hlease ⊢
    change s.reap.clients.leases clientId = some lease at hlease
    rw [reap_leases hbefore.service, Leases.without, Option.filter_eq_some_iff, hi] at hlease
    simpa [hpositive i] using hlease.2
  refine ⟨hleases, fun hdead ↦ ?_⟩
  by_contra hactive
  rw [Bool.not_eq_false, hafter.service.audioActive_iff_playing] at hactive
  obtain ⟨clientId, lease, hlease, -⟩ := hactive
  obtain ⟨i, -, halive⟩ := hleases clientId lease hlease
  cases (hdead i).symm.trans halive

theorem orphaned_leases_end_playing : ∃ s t, Run (step twoClients) (initial vacant 9)
    bothExit s ∧ s.service.audioActive = true ∧
      s.step twoClients .idle = some t ∧ t.service.audioActive = false := by
  have hrun : (bothExit.foldlM (step twoClients) (initial vacant 9)).any fun s ↦
      s.service.audioActive = true ∧
        (s.step twoClients .idle).any fun t ↦
          t.alive (twoClients.processId true) = false ∧
            t.alive (twoClients.processId false) = false := by
    decide +kernel
  obtain ⟨s, hfold, hs⟩ := (Option.any_eq_true _ _).mp hrun
  obtain ⟨hactive, hidle⟩ := of_decide_eq_true hs
  obtain ⟨t, ht, hall⟩ := (Option.any_eq_true _ _).mp hidle
  obtain ⟨htrue, hfalse⟩ := of_decide_eq_true hall
  have hpositive (i : Bool) : 0 < twoClients.processId i := by
    cases i <;> decide
  have hdead (i : Bool) : t.alive (twoClients.processId i) = false := by
    cases i with
    | true => exact htrue
    | false => exact hfalse
  exact ⟨s, t, .of_foldlM hfold, hactive, ht,
    (orphaned_leases_end (.of_foldlM hfold) ht hpositive).2 hdead⟩

end Orphans

end DeviceSystem

end NumarkNS6.Legacy.NS6DeviceClient
