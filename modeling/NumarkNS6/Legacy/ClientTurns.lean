import NumarkNS6.Legacy.NS6DeviceClient

namespace NumarkNS6.Legacy

open Foundation.KeyedSlots Foundation.Runs NS6DeviceClientLease

namespace NS6DeviceService

variable {service : NS6DeviceService} {clientId : UInt64} {lease : Lease}

theorem handleControl_setAudioActive {request : NS6DeviceControlRequest}
    {env : ServiceEnvironment} (hd : Distinct client? service.clients.clients)
    (hlease : service.clients.leases request.clientId = some lease)
    (hversion : request.protocolVersion = protocolVersion)
    (hcurrent : env.session.isCurrent request.sessionId = true)
    (hmessage : request.message = .setAudioActive) (hvalue : request.value ≤ 1) :
    (service.handleControl request env).2.1.clients.leases request.clientId =
      some { lease with audioActive := request.value != 0 } := by
  have hgrants : service.clients.leases.Grants service.structSize (.control request env) :=
    ⟨beq_iff_eq.mpr hversion, hcurrent, Leases.mem_holders hlease, .inl ⟨hmessage, hvalue⟩⟩
  have hstep := handleControl_refines hd (fun _ ↦ false) request env
  generalize (service.handleControl request env).2.1.clients.leases = leases' at hstep ⊢
  generalize some (service.handleControl request env).1 = answer at hstep
  cases hstep with
  | refused h _ => exact absurd hgrants h
  | setAudioActive _ _ => rw [Leases.setAudioActive, Function.update_self, hlease]; rfl
  | releaseClient _ h => rw [hmessage] at h; cases h
  | setStartupBuffer h => rw [hmessage] at h; cases h

theorem handleControl_leases_of_ne {request : NS6DeviceControlRequest}
    {env : ServiceEnvironment} (hd : Distinct client? service.clients.clients)
    (hset : request.message ≠ .setAudioActive) (hrelease : request.message ≠ .releaseClient) :
    (service.handleControl request env).2.1.clients.leases = service.clients.leases := by
  have hstep := handleControl_refines hd (fun _ ↦ false) request env
  generalize (service.handleControl request env).2.1.clients.leases = leases' at hstep ⊢
  generalize some (service.handleControl request env).1 = answer at hstep
  cases hstep with
  | refused _ _ => rfl
  | setAudioActive _ h => exact absurd h hset
  | releaseClient _ h => exact absurd h hrelease
  | setStartupBuffer _ => rfl

end NS6DeviceService

namespace Leases

open NS6DeviceService

variable {structSize : UInt64} {gone : Int32 → Bool} {leases leases' : Leases} {clientId : UInt64}
  {answer : Option ServiceStatus}

theorem Step.same_of_ne {event : Event} {other : UInt64}
    (h : Step structSize leases gone event answer leases') (hother : event.clientId? = some other) (hne : clientId ≠ other) :
    leases' clientId = leases clientId := by
  cases h with
  | refused => rfl
  | hello =>
    cases hother
    exact Function.update_of_ne hne _ _
  | setAudioActive =>
    cases hother
    exact Function.update_of_ne hne _ _
  | releaseClient =>
    cases hother
    exact Function.update_of_ne hne _ _
  | setStartupBuffer => rfl
  | reap => cases hother

theorem Step.origin {event : Event} {lease : Lease}
    (h : Step structSize leases gone event answer leases') (hlease : leases' clientId = some lease) :
    (∃ before, leases clientId = some before ∧ before.processId = lease.processId) ∨
      ∃ request peerPid, event = .hello request peerPid ∧ request.clientId = clientId ∧
        lease.processId = peerPid := by
  cases h with
  | refused => exact .inl ⟨lease, hlease, rfl⟩
  | @hello request peerPid _ =>
    by_cases hid : clientId = request.clientId
    · subst hid
      rw [attach, Function.update_self] at hlease
      cases hlease
      exact .inr ⟨request, peerPid, rfl, rfl, rfl⟩
    · rw [attach, Function.update_of_ne hid] at hlease
      exact .inl ⟨lease, hlease, rfl⟩
  | @setAudioActive request env _ _ =>
    by_cases hid : clientId = request.clientId
    · subst hid
      rw [Leases.setAudioActive, Function.update_self, Option.map_eq_some_iff] at hlease
      obtain ⟨before, hbefore, rfl⟩ := hlease
      exact .inl ⟨before, hbefore, rfl⟩
    · rw [Leases.setAudioActive, Function.update_of_ne hid] at hlease
      exact .inl ⟨lease, hlease, rfl⟩
  | @releaseClient request env _ _ =>
    by_cases hid : clientId = request.clientId
    · subst hid
      rw [detach, Function.update_self] at hlease
      cases hlease
    · rw [detach, Function.update_of_ne hid] at hlease
      exact .inl ⟨lease, hlease, rfl⟩
  | setStartupBuffer => exact .inl ⟨lease, hlease, rfl⟩
  | reap dead =>
    rw [without, Option.filter_eq_some_iff] at hlease
    exact .inl ⟨lease, hlease.1, rfl⟩

end Leases

namespace NS6DeviceClient

namespace Party

variable {p : Party} {structSize : UInt64} {answers : ClientAnswers}

def Accepted (p : Party) (clientId sessionId : UInt64) : Prop :=
  ∃ reply, p.exchange = some ⟨.hello clientId, some (.hello reply)⟩ ∧ reply.status = .success ∧
    reply.sessionId = sessionId

def Holds (p : Party) (clientId : UInt64) : Prop :=
  (p.client.connected = true ∧ p.client.clientId = clientId ∧
      ∀ next reply, p.exchange ≠ some ⟨.release next, reply⟩) ∨
    ∃ sessionId, p.Accepted clientId sessionId

/-- What a request of a connected client makes of the activity it has asked for. -/
def Asks (request : NS6DeviceControlRequest) (before after : Bool) : Prop :=
  request.message = .setAudioActive ∧ request.value ≤ 1 ∧ after = (request.value != 0) ∨
    request.message ≠ .setAudioActive ∧ request.message ≠ .releaseClient ∧ after = before

/-- What a client can do up to its next wait. -/
inductive Moved (p : Party) : Turn → Prop
  | rest {p' : Party} (hx : p'.exchange = none) (hn : p'.number = p.number)
      (hc : p'.client.connected = true → p'.client = p.client ∧ p'.asked = p.asked ∧
        ∀ next reply, p.exchange ≠ some ⟨.release next, reply⟩) : Moved p (p', none)
  | attached {p' : Party} (hx : p'.exchange = none) (hn : p'.number = p.number)
      (h : p.Accepted p'.client.clientId p'.client.sessionId) (ha : p'.asked = false) :
      Moved p (p', none)
  | hello {p' : Party} {request : NS6DeviceHelloRequest}
      (hx : p'.exchange = some ⟨.hello request.clientId, none⟩) (hn : p'.number = p.number + 1)
      (hc : p'.client.connected = false) : Moved p (p', some (.hello request))
  | release {p' : Party} {request : NS6DeviceControlRequest} {next : Next}
      (hx : p'.exchange = some ⟨.release next, none⟩) (hn : p'.number = p.number + 1)
      (h : p.Holds request.clientId) : Moved p (p', some (.control request))
  | control {p' : Party} {request : NS6DeviceControlRequest} {call : Call}
      (hcall : call = .control ∨ call = .state) (hidle : p.exchange = none)
      (hx : p'.exchange = some ⟨call, none⟩) (hn : p'.number = p.number + 1)
      (hc : p.client.connected = true) (hsame : p'.client = p.client) (hid : request.clientId = p.client.clientId)
      (hsession : request.sessionId = p.client.sessionId)
      (hversion : request.protocolVersion = protocolVersion)
      (hasked : Asks request p.asked p'.asked) : Moved p (p', some (.control request))

theorem hello_moved {q : Party} (hn : q.number = p.number) (hc : q.client.connected = false) :
    Moved p (q.hello structSize answers) := by
  have hfailed : Moved p (q.finish (.done false)) := by
    refine .rest rfl hn fun h ↦ ?_
    cases hc.symm.trans h
  rw [hello]
  by_cases hretain : (!answers.retain) = true
  · rw [if_pos hretain]
    exact hfailed
  rw [if_neg hretain]
  dsimp only [exchangeMessage]
  split_ifs
  · exact .hello rfl (congrArg (· + 1) hn) hc
  · exact hfailed

theorem released_moved {q : Party} (hn : q.number = p.number) (next : Next) :
    Moved p (q.released structSize next answers) := by
  cases next with
  | finish connected =>
    refine .rest rfl hn fun h ↦ ?_
    cases h
  | connect => exact hello_moved hn rfl

theorem disconnect_moved {q : Party} (hn : q.number = p.number)
    (h : q.client.connected = true → p.Holds q.client.clientId) (next : Next) :
    Moved p (q.disconnect structSize next answers) := by
  rw [disconnect]
  split_ifs with hconnected
  · rw [exchangeMessage]
    split_ifs
    · rw [Bool.and_eq_true_iff, Bool.and_eq_true_iff] at hconnected
      exact .release rfl (congrArg (· + 1) hn) (h hconnected.1.1)
    · exact released_moved hn next
  · exact released_moved hn next

theorem holds_of_idle (hx : p.exchange = none) (hc : p.client.connected = true) :
    p.Holds p.client.clientId := by
  refine .inl ⟨hc, rfl, fun next reply h ↦ ?_⟩
  rw [hx] at h
  cases h

theorem finish_moved (hx : ∀ next reply, p.exchange ≠ some ⟨.release next, reply⟩)
    (outcome : Outcome) : Moved p (p.finish outcome) :=
  .rest rfl rfl fun _ ↦ ⟨rfl, rfl, hx⟩

theorem not_releasing_of_idle (hx : p.exchange = none) (next : Next) (reply : Option DeviceReply) :
    p.exchange ≠ some ⟨.release next, reply⟩ := by
  rw [hx]
  exact (Option.some_ne_none _).symm

theorem connect_moved (hx : p.exchange = none) : Moved p (p.connect structSize answers) := by
  rw [connect]
  split_ifs
  · exact finish_moved (not_releasing_of_idle hx) _
  · exact disconnect_moved rfl (holds_of_idle hx) _

theorem sendControl_cases (message : ControlMessage) (value : UInt32) (sent : Bool) :
    p.sendControl message value sent = p.finish (.done false) ∨
      p.client.connected = true ∧ p.sendControl message value sent =
        ({ p with exchange := some ⟨.control, none⟩, number := p.number + 1 },
          some (.control (p.controlRequest message value))) := by
  rw [sendControl, exchangeMessage]
  split_ifs with hconnected hsent
  · exact .inl rfl
  · rw [Bool.or_eq_true, not_or, Bool.not_eq_true', Bool.not_eq_false] at hconnected
    exact .inr ⟨hconnected.1, rfl⟩
  · exact .inl rfl

theorem setAudioActive_moved (hx : p.exchange = none) (active sent : Bool) :
    Moved p (p.setAudioActive active sent) := by
  rw [setAudioActive]
  rcases sendControl_cases (p := p) .setAudioActive (if active then 1 else 0) sent with h | ⟨hc, h⟩
  · rw [h]
    exact finish_moved (not_releasing_of_idle hx) _
  · rw [h]
    refine .control (.inl rfl) hx rfl rfl hc rfl rfl rfl rfl (.inl ⟨rfl, ?_, ?_⟩)
    · change (if active then 1 else 0) ≤ (1 : UInt32)
      cases active <;> decide
    · cases active <;> rfl

theorem setStartupBuffer_moved (hx : p.exchange = none) (frames : UInt32) (sent : Bool) :
    Moved p (p.setStartupBuffer frames sent) := by
  rw [setStartupBuffer]
  rcases sendControl_cases (p := p) .setStartupBuffer frames sent with h | ⟨hc, h⟩
  · rw [h]
    exact finish_moved (not_releasing_of_idle hx) _
  · rw [h]
    refine .control (.inl rfl) hx rfl rfl hc rfl rfl rfl rfl (.inr ⟨?_, ?_, rfl⟩)
    · exact fun h ↦ by cases h
    · exact fun h ↦ by cases h

theorem getStateResult_moved (hx : p.exchange = none) (sent : Bool) :
    Moved p (p.getStateResult sent) := by
  rw [getStateResult, exchangeMessage]
  split_ifs with hconnected
  · exact finish_moved (not_releasing_of_idle hx) _
  · rw [Bool.not_eq_true', Bool.not_eq_false] at hconnected
    refine .control (.inr rfl) hx rfl rfl hconnected rfl rfl rfl rfl (.inr ⟨?_, ?_, rfl⟩)
    · exact fun h ↦ by cases h
    · exact fun h ↦ by cases h
  · exact finish_moved (not_releasing_of_idle hx) _

theorem accepted_of_valid {clientId : UInt64} {reply : NS6DeviceHelloReply}
    (hx : p.exchange = some ⟨.hello clientId, some (.hello reply)⟩)
    (hvalid : valid structSize clientId reply = true) : p.Accepted clientId reply.sessionId := by
  refine ⟨reply, hx, ?_, rfl⟩
  simp only [valid, Bool.and_eq_true] at hvalid
  exact beq_iff_eq.mp hvalid.1.1.1.1.2

theorem helloReplied_moved {clientId : UInt64} {reply : Option DeviceReply}
    (hx : p.exchange = some ⟨.hello clientId, reply⟩) (hc : p.client.connected = false) :
    Moved p (p.helloReplied structSize clientId reply answers) := by
  have hfailed (ports : ℕ) : Moved p ({ p with ports := ports }.finish (.done false)) := by
    refine .rest rfl rfl fun h ↦ ?_
    cases hc.symm.trans h
  unfold helloReplied
  split
  · next reply =>
    by_cases hvalid : (!valid structSize clientId reply) = true
    · rw [if_pos hvalid]
      exact hfailed _
    rw [if_neg hvalid]
    rw [Bool.not_eq_true', Bool.not_eq_false] at hvalid
    have haccepted := accepted_of_valid hx hvalid
    dsimp only
    split_ifs
    · exact disconnect_moved (p := p) (q := p.attach clientId reply.sessionId) rfl
        (fun _ ↦ .inr ⟨_, haccepted⟩) _
    · exact disconnect_moved (p := p)
        (q := (p.attach clientId reply.sessionId).setMapping false) rfl
        (fun _ ↦ .inr ⟨_, haccepted⟩) _
    · exact .attached rfl rfl haccepted rfl
  · exact hfailed _

theorem resume_moved {call : Call} {reply : Option DeviceReply}
    (hx : p.exchange = some ⟨call, reply⟩)
    (hc : ∀ clientId, call = .hello clientId → p.client.connected = false) :
    Moved p (p.resume structSize reply answers) := by
  have hne (h : ∀ next, call ≠ .release next) (next : Next) (reply' : Option DeviceReply) :
      p.exchange ≠ some ⟨.release next, reply'⟩ := by
    rw [hx]
    intro heq
    exact h next (Exchange.mk.inj (Option.some.inj heq)).1
  unfold resume
  rw [hx]
  cases call with
  | hello clientId => exact helloReplied_moved hx (hc clientId rfl)
  | release next => exact released_moved rfl next
  | control => exact finish_moved (hne fun _ h ↦ by cases h) _
  | state => exact finish_moved (hne fun _ h ↦ by cases h) _

end Party

end NS6DeviceClient

end NumarkNS6.Legacy
