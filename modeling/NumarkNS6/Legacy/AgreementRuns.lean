import NumarkNS6.Legacy.ClientAgreement

namespace NumarkNS6.Legacy.NS6DeviceClient.DeviceSystem

open Foundation.KeyedSlots Foundation.Runs NS6DeviceClientLease NS6DeviceService

variable {ι : Type} {setting : Setting ι} {s t : DeviceSystem ι} {i : ι}
  {clientId sessionId : UInt64} {asked : Bool}

section Handle

variable {service : NS6DeviceService} {usbReady restarts : Bool} {e : Envelope ι}

theorem handle_cases (s : DeviceSystem ι) (service : NS6DeviceService) (usbReady restarts : Bool)
    (e : Envelope ι) : (s.handle service usbReady restarts e).2 = service ∨
      ∃ event, event.clientId? = some e.clientId ∧
        (s.handle service usbReady restarts e).2 = (service.step event).2.1 ∧
        ∀ request peerPid, event = .hello request peerPid → peerPid = e.processId := by
  rw [handle, Envelope.clientId]
  cases e.request with
  | hello request =>
    refine .inr ⟨.hello request e.processId, rfl, rfl, ?_⟩
    rintro _ _ ⟨⟩
    rfl
  | control request =>
    dsimp only
    split_ifs
    · exact .inl rfl
    · refine .inr ⟨.control request ⟨s.session, usbReady, restarts⟩, rfl, rfl, ?_⟩
      rintro _ _ ⟨⟩

theorem handle_inv (h : service.Inv) : (s.handle service usbReady restarts e).2.Inv := by
  rcases s.handle_cases service usbReady restarts e with heq | ⟨event, -, heq, -⟩
  · rw [heq]
    exact h
  · rw [heq]
    exact h.step event

theorem handle_sessionId :
    (s.handle service usbReady restarts e).2.sessionId = service.sessionId := by
  rw [handle]
  split
  · exact (step_fixed service (.hello _ _)).2
  · split_ifs
    · rfl
    · exact (step_fixed service (.control _ _)).2

theorem handle_others (h : service.Inv) (hne : clientId ≠ e.clientId) :
    (s.handle service usbReady restarts e).2.clients.leases clientId =
      service.clients.leases clientId := by
  rcases s.handle_cases service usbReady restarts e with heq | ⟨event, hclient, heq, -⟩
  · rw [heq]
  · rw [heq]
    exact (step_refines h event).same_of_ne hclient hne

theorem handle_origin {lease : Lease} (h : service.Inv)
    (hlease : (s.handle service usbReady restarts e).2.clients.leases clientId = some lease) :
    (∃ before, service.clients.leases clientId = some before ∧
        before.processId = lease.processId) ∨
      e.clientId = clientId ∧ lease.processId = e.processId := by
  rcases s.handle_cases service usbReady restarts e with heq | ⟨event, hclient, heq, hhello⟩
  · rw [heq] at hlease
    exact .inl ⟨lease, hlease, rfl⟩
  · rw [heq] at hlease
    rcases (step_refines h event).origin hlease with hbefore | ⟨request, peerPid, rfl, rfl, hpid⟩
    · exact .inl hbefore
    · exact .inr ⟨(Option.some.inj hclient).symm, hpid.trans (hhello _ _ rfl)⟩

theorem handle_hello {request : NS6DeviceHelloRequest} {reply : NS6DeviceHelloReply}
    (he : e.request = .hello request)
    (hreply : (s.handle service usbReady restarts e).1 = .hello reply)
    (hstatus : reply.status = .success) (hfresh : service.clients.leases request.clientId = none) :
    reply.sessionId = service.sessionId ∧
      (s.handle service usbReady restarts e).2.clients.leases request.clientId =
        some ⟨e.processId, false⟩ := by
  rw [handle, he] at hreply ⊢
  dsimp only at hreply ⊢
  cases hreply
  rw [handleHello] at hstatus ⊢
  dsimp only at hstatus ⊢
  by_cases hrefused : (!protocolVersionSupported request.protocolVersion ||
      request.clientStructSize.toUInt64 != service.structSize || request.clientId == 0) = true
  · rw [if_pos hrefused] at hstatus
    cases hstatus
  rw [if_neg hrefused] at hstatus ⊢
  cases hattach : service.clients.attach request.clientId e.processId with
  | none =>
    rw [hattach] at hstatus
    cases hstatus
  | some clients =>
    refine ⟨rfl, ?_⟩
    rw [NS6DeviceClientRegistry.attach_leases hattach, Leases.attach, Function.update_self, hfresh]
    rfl

theorem handle_control {request : NS6DeviceControlRequest} {before after active : Bool}
    {processId : Int32} (h : service.Inv) (he : e.request = .control request)
    (hlease : service.clients.leases request.clientId = some ⟨processId, active⟩)
    (hversion : request.protocolVersion = protocolVersion)
    (hcurrent : s.session.isCurrent request.sessionId = true)
    (hasks : Party.Asks request before after) :
    (s.handle service usbReady restarts e).2.clients.leases request.clientId =
        some ⟨processId, (e.sets request.clientId).getD active⟩ ∧
      ∀ snapshot, (s.handle service usbReady restarts e).1 ≠ .state .badId snapshot := by
  rw [Asks.settles hasks he, handle, he]
  dsimp only
  by_cases hstate : request.message = getStateMessage
  · have hne : request.message ≠ .setAudioActive := by
      rw [hstate]
      exact fun h ↦ by cases h
    rw [if_pos hstate, if_neg hne]
    refine ⟨hlease, fun snapshot hbad ↦ ?_⟩
    rw [handleState, hversion, hcurrent, NS6DeviceClientRegistry.contains_iff_mem_holders.mpr
      (Leases.mem_holders hlease)] at hbad
    cases hbad
  · rw [if_neg hstate]
    refine ⟨?_, fun snapshot hbad ↦ by cases hbad⟩
    rcases hasks with ⟨hmessage, hvalue, -⟩ | ⟨hset, hrelease, -⟩
    · rw [if_pos hmessage]
      exact handleControl_setAudioActive h.distinct hlease hversion hcurrent hmessage hvalue
    · rw [if_neg hset, ← hlease]
      dsimp only
      rw [handleControl_leases_of_ne h.distinct hset hrelease]

end Handle

section Reap

theorem reap_inv (h : s.service.Inv) : s.reap.Inv := by
  have hstep := h.step (.reap s.dead)
  rw [NS6DeviceService.step] at hstep
  exact hstep

theorem reap_leases (h : s.service.Inv) : s.reap.clients.leases =
    s.leases.without fun processId ↦ decide (0 < processId) && !s.alive processId := by
  have hdead (slot : ℕ) (lease : NS6DeviceClientLease)
      (hslot : s.service.clients.clients[slot]? = some lease) :
      s.dead slot = !s.alive lease.processId := by
    rw [dead, hslot]
    rfl
  rw [reap, @reapDeadClients_exact s.service h.distinct s.dead (!s.alive ·) hdead]
  rfl

theorem reap_of_alive (h : s.service.Inv) {lease : Lease}
    (hlease : s.leases clientId = some lease) (halive : s.alive lease.processId = true) :
    s.reap.clients.leases clientId = some lease := by
  rw [reap_leases h, Leases.without, hlease, Option.filter_some, halive, Bool.not_true,
    Bool.and_false]
  rfl

theorem reap_subset (h : s.service.Inv) {lease : Lease}
    (hlease : s.reap.clients.leases clientId = some lease) : s.leases clientId = some lease := by
  rw [reap_leases h, Leases.without, Option.filter_eq_some_iff] at hlease
  exact hlease.1

end Reap

theorem Stage.map {p : Party} {x : Option Exchange} (h : Stage setting s i p x)
    (hattached : ∀ clientId sessionId asked, Attached setting s i clientId sessionId asked →
      Attached setting t i clientId sessionId asked)
    (hdrawn : t.drawn = s.drawn) (hqueue : ∀ e ∈ t.queue, e ∈ s.queue)
    (hnumber : (t.party i).number = (s.party i).number)
    (hsession : ∀ sessionId ∈ s.sessions, sessionId ≠ s.service.sessionId →
      sessionId ≠ t.service.sessionId) : Stage setting t i p x := by
  have hmine {clientId : UInt64}
      (hm : ∀ e ∈ s.queue, e.sender = i → e.port = (s.party i).number → e.clientId = clientId) :
      ∀ e ∈ t.queue, e.sender = i → e.port = (t.party i).number → e.clientId = clientId :=
    fun e he hi hport ↦ hm e (hqueue e he) hi (hport.trans hnumber)
  have hconnected {reply : Option DeviceReply} (hc : Connected setting s i p reply) :
      Connected setting t i p reply := by
    obtain ⟨hcon, ha, hm, hreplaced⟩ := hc
    refine ⟨hcon, hattached _ _ _ ha, hmine hm, fun snapshot hreply ↦ ?_⟩
    exact hsession _ ha.session (hreplaced snapshot hreply)
  rcases x with - | ⟨call, reply⟩
  · exact fun hcon ↦ hattached _ _ _ (h hcon)
  cases call with
  | hello clientId =>
    refine ⟨h.1, ?_⟩
    have hgreeting := h.2
    rcases reply with - | reply
    · obtain ⟨howner, honly, hm⟩ := hgreeting
      exact ⟨hdrawn ▸ howner, fun e he ↦ honly e (hqueue e he), hmine hm⟩
    · cases reply with
      | hello reply => exact fun hstatus ↦ hattached _ _ _ (hgreeting hstatus)
      | control status => trivial
      | state status snapshot => trivial
      | noAccess => trivial
  | release next => trivial
  | control => exact hconnected h
  | state => exact hconnected h

theorem Agreed.of_sublist (h : Agreed setting s) (hqueue : t.queue.Sublist s.queue)
    (hdrawn : t.drawn = s.drawn) (hnumber : ∀ j, (t.party j).number = (s.party j).number)
    (service : t.service.Inv) (current : t.session.activeId = t.service.sessionId)
    (published : t.service.sessionId ∈ t.sessions)
    (nonzero : ∀ sessionId ∈ t.sessions, sessionId ≠ 0)
    (fresh : ∀ e ∈ t.queue, e.IsHello → t.leases e.clientId = none)
    (leased : ∀ clientId lease, t.leases clientId = some lease →
      ∃ i, (clientId, i) ∈ t.drawn ∧ lease.processId = setting.processId i)
    (alive : ∀ i, (t.party i).exchange.isSome = true → t.alive (setting.processId i) = true)
    (answered : ∀ i call reply, (t.party i).exchange = some ⟨call, some reply⟩ →
      ∀ e ∈ t.queue, e.sender ≠ i)
    (stage : ∀ i, Stage setting t i (t.party i) (t.party i).exchange) : Agreed setting t where
  service := service
  current := current
  published := published
  nonzero := nonzero
  sent := by
    intro e he
    rw [hdrawn, hnumber]
    exact h.sent e (hqueue.subset he)
  order := h.order.sublist hqueue
  single := h.single.sublist hqueue
  fresh := fresh
  leased := leased
  alive := alive
  answered := answered
  stage := stage

theorem Agreed.serviced (h : Agreed setting s) {service : NS6DeviceService} (hinv : service.Inv)
    (hsession : service.sessionId = s.service.sessionId)
    (hsub : ∀ clientId lease, service.clients.leases clientId = some lease →
      s.leases clientId = some lease)
    (hkept : ∀ clientId lease, s.leases clientId = some lease → s.alive lease.processId = true →
      service.clients.leases clientId = some lease) :
    Agreed setting { s with service := service } := by
  have hpublished : service.sessionId ∈ s.sessions := by
    rw [hsession]
    exact h.published
  refine h.of_sublist (List.Sublist.refl _) rfl (fun _ ↦ rfl) hinv
    (h.current.trans hsession.symm) hpublished h.nonzero ?_ ?_ h.alive h.answered ?_
  · intro e he hhello
    cases hlease : service.clients.leases e.clientId with
    | none => exact hlease
    | some lease =>
      have hheld := hsub _ _ hlease
      rw [h.fresh e he hhello] at hheld
      cases hheld
  · intro clientId lease hlease
    exact h.leased clientId lease (hsub _ _ hlease)
  · intro j
    refine (h.stage j).map ?_ rfl (fun _ he ↦ he) rfl ?_
    · intro clientId sessionId asked ha
      refine ⟨ha.owner, ha.session, ha.alive, ha.authorized, ha.only, fun hcurrent ↦ ?_⟩
      obtain ⟨active, hlease, hsettled⟩ := ha.lease (hcurrent.trans hsession)
      exact ⟨active, hkept _ _ hlease ha.alive, hsettled⟩
    · intro sessionId _ hne
      change sessionId ≠ service.sessionId
      rw [hsession]
      exact hne

theorem Agreed.reap (h : Agreed setting s) : Agreed setting { s with service := s.reap } := by
  apply h.serviced (reap_inv h.service)
  · have hfixed := (step_fixed s.service (.reap s.dead)).2
    rw [NS6DeviceService.step] at hfixed
    rw [DeviceSystem.reap, hfixed]
  · intro clientId lease hlease
    exact reap_subset h.service hlease
  · intro clientId lease hlease halive
    exact reap_of_alive h.service hlease halive

theorem Agreed.isCurrent (h : Agreed setting s) :
    s.session.isCurrent s.service.sessionId = true := by
  rw [NS6DeviceSession.isCurrent, h.current, Bool.and_eq_true_iff]
  exact ⟨bne_iff_ne.mpr (h.nonzero _ h.published), beq_self_eq_true _⟩

section Serve

variable [DecidableEq ι] {e : Envelope ι} {queue : List (Envelope ι)}

theorem deliver_cases (p : Party) (port : ℕ) (reply : DeviceReply) :
    p.deliver port reply = p ∨ ∃ call, p.exchange = some ⟨call, none⟩ ∧ p.number = port ∧
      p.deliver port reply = { p with exchange := some ⟨call, some reply⟩ } := by
  rw [Party.deliver]
  split
  · next call hx =>
    split_ifs with hport
    · exact .inr ⟨call, hx, hport, rfl⟩
    · exact .inl rfl
  · exact .inl rfl

theorem reply_cases (s : DeviceSystem ι) (e : Envelope ι) (answer : DeviceReply) (j : ι) :
    s.reply e answer j = s.party j ∨ j = e.sender ∧ ∃ call,
      (s.party j).exchange = some ⟨call, none⟩ ∧ (s.party j).number = e.port ∧
      s.reply e answer j = { s.party j with exchange := some ⟨call, some answer⟩ } := by
  rw [reply]
  by_cases hj : j = e.sender
  · subst hj
    rw [Function.update_self]
    exact (deliver_cases (s.party e.sender) e.port answer).imp_right fun hsent ↦ ⟨rfl, hsent⟩
  · rw [Function.update_of_ne hj]
    exact .inl rfl

theorem reply_number (s : DeviceSystem ι) (e : Envelope ι) (answer : DeviceReply) (j : ι) :
    (s.reply e answer j).number = (s.party j).number := by
  rcases reply_cases s e answer j with heq | ⟨-, call, -, -, heq⟩ <;> rw [heq]

/-- After a request has been answered and taken from the queue, whatever the service
has become: the clients that were attached still are, and the one that is answered
learns what `hdelivered` says. -/
theorem Agreed.answer (h : Agreed setting s) {service : NS6DeviceService} {answer : DeviceReply}
    (hqueue : s.queue = e :: queue)
    (ht : t = { s with queue := queue, party := s.reply e answer, service := service })
    (hinv : service.Inv) (hsession : service.sessionId = s.service.sessionId)
    (hfresh : ∀ e' ∈ queue, e'.IsHello → service.clients.leases e'.clientId = none)
    (hleased : ∀ clientId lease, service.clients.leases clientId = some lease →
      ∃ i, (clientId, i) ∈ s.drawn ∧ lease.processId = setting.processId i)
    (hattached : ∀ i clientId sessionId asked, Attached setting s i clientId sessionId asked →
      Attached setting t i clientId sessionId asked)
    (hdelivered : ∀ call, (s.party e.sender).exchange = some ⟨call, none⟩ →
      (s.party e.sender).number = e.port →
      Stage setting t e.sender (s.party e.sender) (some ⟨call, some answer⟩)) :
    Agreed setting t := by
  subst ht
  have hsub (e' : Envelope ι) (he : e' ∈ queue) : e' ∈ s.queue := by
    rw [hqueue]
    exact List.mem_cons_of_mem _ he
  have hstage (j : ι) : Stage setting
      { s with queue := queue, party := s.reply e answer, service := service } j (s.party j)
      (s.party j).exchange := by
    refine (h.stage j).map (hattached j) rfl hsub (reply_number s e answer j) ?_
    intro sessionId _ hne
    change sessionId ≠ service.sessionId
    rw [hsession]
    exact hne
  have hpublished : service.sessionId ∈ s.sessions := by
    rw [hsession]
    exact h.published
  refine h.of_sublist (hqueue ▸ List.sublist_cons_self e queue) rfl (reply_number s e answer) hinv
    (h.current.trans hsession.symm) hpublished h.nonzero hfresh hleased ?_ ?_ ?_
  · intro j hx
    change (s.reply e answer j).exchange.isSome = true at hx
    refine h.alive j ?_
    rcases reply_cases s e answer j with heq | ⟨-, call, hwait, -, -⟩
    · rw [heq] at hx
      exact hx
    · rw [hwait]
      rfl
  · intro j call reply hx e' he'
    change (s.reply e answer j).exchange = _ at hx
    rcases reply_cases s e answer j with heq | ⟨rfl, call', -, hport, -⟩
    · rw [heq] at hx
      exact h.answered j call reply hx e' (hsub e' he')
    · intro hsender
      have horder := h.order
      rw [hqueue, List.pairwise_cons] at horder
      have hlt := horder.1 e' he' hsender.symm
      have hle := (h.sent e' (hsub e' he')).2.2
      rw [hsender] at hle
      omega
  · intro j
    change Stage setting _ j (s.reply e answer j) (s.reply e answer j).exchange
    rcases reply_cases s e answer j with heq | ⟨rfl, call, hwait, hport, heq⟩
    · rw [heq]
      exact hstage j
    · rw [heq]
      have hlearns := hdelivered call hwait hport
      cases call with
      | hello clientId => exact hlearns
      | release next => trivial
      | control => exact hlearns
      | state => exact hlearns

/-- A client's request in the current session is granted, and the requests of the
others do not concern it. -/
theorem Attached.served (h : Agreed setting s) (hqueue : s.queue = e :: queue)
    {usbReady restarts : Bool} {answer : DeviceReply × NS6DeviceService}
    (hanswer : s.handle s.service usbReady restarts e = answer)
    (ht : t = { s with queue := queue, party := s.reply e answer.1, service := answer.2 })
    (ha : Attached setting s i clientId sessionId asked) :
    Attached setting t i clientId sessionId asked := by
  subst ht
  have hmem : e ∈ s.queue := hqueue ▸ List.mem_cons_self
  refine ⟨ha.owner, ha.session, ha.alive, ha.authorized, fun e' he' ↦ ?_, fun hcurrent ↦ ?_⟩
  · exact ha.only e' (hqueue ▸ List.mem_cons_of_mem _ he')
  · change sessionId = answer.2.sessionId at hcurrent
    rw [← hanswer, handle_sessionId] at hcurrent
    obtain ⟨active, hlease, hsettled⟩ := ha.lease hcurrent
    rw [hqueue, settled_cons] at hsettled
    change ∃ active, answer.2.clients.leases clientId = _ ∧ settled clientId queue active = asked
    rw [← hanswer]
    by_cases hid : e.clientId = clientId
    · obtain ⟨request, before, after, hrequest, hsession, hversion, hasks⟩ := ha.only e hmem hid
      have hsame : request.clientId = clientId := by
        rw [← hid, Envelope.clientId, hrequest]
        rfl
      subst hsame
      have hisCurrent : s.session.isCurrent request.sessionId = true := by
        rw [hsession, hcurrent]
        exact h.isCurrent
      exact ⟨_, (handle_control h.service hrequest hlease hversion hisCurrent hasks).1, hsettled⟩
    · rw [Envelope.sets_of_ne hid] at hsettled
      exact ⟨active, (handle_others h.service (Ne.symm hid)).trans hlease, hsettled⟩

theorem Connected.served (h : Agreed setting s) (hqueue : s.queue = e :: queue)
    {usbReady restarts : Bool} {answer : DeviceReply × NS6DeviceService}
    (hanswer : s.handle s.service usbReady restarts e = answer)
    (ht : t = { s with queue := queue, party := s.reply e answer.1, service := answer.2 })
    (hport : (s.party e.sender).number = e.port)
    (hc : Connected setting s e.sender (s.party e.sender) none) :
    Connected setting t e.sender (s.party e.sender) (some answer.1) := by
  obtain ⟨hcon, ha, hm, -⟩ := hc
  have hmem : e ∈ s.queue := hqueue ▸ List.mem_cons_self
  have hid := hm e hmem rfl hport.symm
  have htparty : (t.party e.sender).number = (s.party e.sender).number := by
    rw [ht]
    exact reply_number s e answer.1 e.sender
  refine ⟨hcon, ha.served h hqueue hanswer ht, fun e' he' hsender hport' ↦ ?_,
    fun snapshot hreply hcurrent ↦ ?_⟩
  · refine hm e' ?_ hsender (hport'.trans htparty)
    rw [ht] at he'
    exact hqueue ▸ List.mem_cons_of_mem _ he'
  · have hsession : answer.2.sessionId = s.service.sessionId := by
      rw [← hanswer]
      exact handle_sessionId
    rw [ht] at hcurrent
    have hnow := hcurrent.trans hsession
    obtain ⟨active, hlease, -⟩ := ha.lease hnow
    obtain ⟨request, before, after, hrequest, hrsession, hversion, hasks⟩ := ha.only e hmem hid
    rw [← hid, Envelope.clientId, hrequest] at hlease
    have hisCurrent : s.session.isCurrent request.sessionId = true := by
      rw [hrsession, hnow]
      exact h.isCurrent
    have hbad : (s.handle s.service usbReady restarts e).1 = .state .badId snapshot := by
      rw [hanswer]
      exact Option.some.inj hreply
    exact (handle_control h.service hrequest hlease hversion hisCurrent hasks).2 snapshot hbad

theorem Agreed.greeted (h : Agreed setting s) (hqueue : s.queue = e :: queue)
    (hauthorized : Authorized setting e.sender) {usbReady restarts : Bool}
    {answer : DeviceReply × NS6DeviceService}
    (hanswer : s.handle s.service usbReady restarts e = answer)
    (ht : t = { s with queue := queue, party := s.reply e answer.1, service := answer.2 })
    {clientId : UInt64} (hwait : (s.party e.sender).exchange = some ⟨.hello clientId, none⟩)
    (hport : (s.party e.sender).number = e.port) :
    Stage setting t e.sender (s.party e.sender) (some ⟨.hello clientId, some answer.1⟩) := by
  have hmem : e ∈ s.queue := hqueue ▸ List.mem_cons_self
  have hsingle := h.single
  rw [hqueue, List.pairwise_cons] at hsingle
  have hstage := h.stage e.sender
  rw [hwait] at hstage
  obtain ⟨hcon, hdrawn, honly, hm⟩ := hstage
  have hid := hm e hmem rfl hport.symm
  obtain ⟨request, hrequest⟩ := honly e hmem hid
  have hclient : request.clientId = clientId := by
    rw [← hid, Envelope.clientId, hrequest]
    rfl
  have hfresh := h.fresh e hmem ⟨request, hrequest⟩
  rw [hid] at hfresh
  refine ⟨hcon, ?_⟩
  have hreply : answer.1 = .hello (s.service.handleHello request e.processId).1 := by
    rw [← hanswer, handle, hrequest]
  rw [hreply]
  intro hstatus
  subst hclient
  have hreply' := hanswer ▸ hreply
  obtain ⟨hsid, hlease⟩ := handle_hello hrequest hreply' hstatus hfresh
  rw [hsid]
  have hnone (e' : Envelope ι) (he' : e' ∈ queue) : e'.clientId ≠ request.clientId := by
    rw [← hid]
    exact (hsingle.1 e' he' (.inl ⟨request, hrequest⟩)).symm
  subst ht
  refine ⟨hdrawn, h.published, h.alive e.sender (by rw [hwait]; rfl), hauthorized, ?_, ?_⟩
  · intro e' he' hid'
    exact absurd hid' (hnone e' he')
  · intro _
    refine ⟨false, ?_, ?_⟩
    · rw [← (h.sent e hmem).2.1, ← hlease, ← hanswer]
      rfl
    · exact settled_of_ne [] hnone

theorem Agreed.served (h : Agreed setting s) (hqueue : s.queue = e :: queue)
    (hauthorized : Authorized setting e.sender) {usbReady restarts : Bool}
    {answer : DeviceReply × NS6DeviceService}
    (hanswer : s.handle s.service usbReady restarts e = answer)
    (ht : t = { s with queue := queue, party := s.reply e answer.1, service := answer.2 }) :
    Agreed setting t := by
  have hmem : e ∈ s.queue := hqueue ▸ List.mem_cons_self
  have hsingle := h.single
  rw [hqueue, List.pairwise_cons] at hsingle
  obtain ⟨howner, hprocess, -⟩ := h.sent e hmem
  have hsession : answer.2.sessionId = s.service.sessionId := by
    rw [← hanswer]
    exact handle_sessionId
  refine h.answer hqueue ht ?_ hsession ?_ ?_ (fun _ _ _ _ ha ↦ ha.served h hqueue hanswer ht) ?_
  · rw [← hanswer]
    exact handle_inv h.service
  · intro e' he' hhello
    rw [← hanswer, handle_others h.service (hsingle.1 e' he' (.inr hhello)).symm]
    exact h.fresh e' (hqueue ▸ List.mem_cons_of_mem _ he') hhello
  · intro clientId lease hlease
    rw [← hanswer] at hlease
    rcases handle_origin h.service hlease with ⟨before, hbefore, hsame⟩ | ⟨rfl, hpid⟩
    · obtain ⟨i, hi, hpid⟩ := h.leased clientId before hbefore
      exact ⟨i, hi, hsame.symm.trans hpid⟩
    · exact ⟨e.sender, howner, hpid.trans hprocess⟩
  · intro call hwait hport
    have hstage := h.stage e.sender
    rw [hwait] at hstage
    cases call with
    | hello clientId => exact h.greeted hqueue hauthorized hanswer ht hwait hport
    | release next => trivial
    | control => exact Connected.served h hqueue hanswer ht hport hstage
    | state => exact Connected.served h hqueue hanswer ht hport hstage

theorem Agreed.rejected (h : Agreed setting s) (hapart : Apart s) (hqueue : s.queue = e :: queue)
    (hauthorized : ¬ Authorized setting e.sender)
    (ht : t = { s with queue := queue, party := s.reply e .noAccess }) : Agreed setting t := by
  have hmem : e ∈ s.queue := hqueue ▸ List.mem_cons_self
  have hsub (e' : Envelope ι) (he' : e' ∈ queue) : e' ∈ s.queue :=
    hqueue ▸ List.mem_cons_of_mem _ he'
  have hattached {i : ι} {clientId sessionId : UInt64} {asked : Bool}
      (ha : Attached setting s i clientId sessionId asked) :
      Attached setting t i clientId sessionId asked := by
    have hid : e.clientId ≠ clientId := by
      refine hapart.ne (h.sent e hmem).1 ha.owner ?_
      rintro rfl
      exact hauthorized ha.authorized
    subst ht
    refine ⟨ha.owner, ha.session, ha.alive, ha.authorized, fun e' he' ↦ ?_, fun hcurrent ↦ ?_⟩
    · exact ha.only e' (hsub e' he')
    · obtain ⟨active, hlease, hsettled⟩ := ha.lease hcurrent
      rw [hqueue, settled_cons, Envelope.sets_of_ne hid] at hsettled
      exact ⟨active, hlease, hsettled⟩
  refine h.answer hqueue ht h.service rfl (fun e' he' ↦ h.fresh e' (hsub e' he')) h.leased
    (fun _ _ _ _ ha ↦ hattached ha) ?_
  intro call hwait hport
  have hstage := h.stage e.sender
  rw [hwait] at hstage
  have hconnected (hc : Connected setting s e.sender (s.party e.sender) none) :
      Connected setting t e.sender (s.party e.sender) (some .noAccess) := by
    obtain ⟨hcon, ha, hm, -⟩ := hc
    subst ht
    refine ⟨hcon, hattached ha, fun e' he' hsender hport' ↦ ?_, fun _ hreply ↦ by cases hreply⟩
    exact hm e' (hsub e' he') hsender (hport'.trans (reply_number s e .noAccess e.sender))
  cases call with
  | hello clientId => exact ⟨hstage.1, trivial⟩
  | release next => trivial
  | control => exact hconnected hstage
  | state => exact hconnected hstage

end Serve

theorem Agreed.exit (h : Agreed setting s) (processId : Int32) :
    Agreed setting (s.exit setting processId) := by
  have hparty (j : ι) : (s.exit setting processId).party j =
      if setting.processId j = processId then { Party.zero with number := (s.party j).number }
      else s.party j := rfl
  have halive {j : ι} (hj : setting.processId j ≠ processId) :
      (s.exit setting processId).alive (setting.processId j) = s.alive (setting.processId j) :=
    Function.update_of_ne hj ..
  have hnumber (j : ι) : ((s.exit setting processId).party j).number = (s.party j).number := by
    rw [hparty]
    split_ifs
    · rfl
    · rfl
  refine h.of_sublist (List.Sublist.refl _) rfl hnumber h.service h.current h.published h.nonzero
    h.fresh h.leased ?_ ?_ ?_
  · intro j hx
    rw [hparty] at hx
    split_ifs at hx with hj
    · cases hx
    · rw [halive hj]
      exact h.alive j hx
  · intro j call reply hx
    rw [hparty] at hx
    split_ifs at hx with hj
    · cases hx
    · exact h.answered j call reply hx
  · intro j
    rw [hparty]
    split_ifs with hj
    · intro hcon
      cases hcon
    · refine (h.stage j).map ?_ rfl (fun _ he ↦ he) (hnumber j) fun _ _ hne ↦ hne
      intro clientId sessionId asked ha
      exact ⟨ha.owner, ha.session, (halive hj).trans ha.alive, ha.authorized, ha.only, ha.lease⟩

theorem Agreed.spawn (h : Agreed setting s) (processId : Int32) :
    Agreed setting { s with alive := Function.update s.alive processId true } := by
  have halive {other : Int32} (hother : s.alive other = true) :
      Function.update s.alive processId true other = true := by
    by_cases heq : other = processId
    · subst heq
      exact Function.update_self ..
    · rw [Function.update_of_ne heq]
      exact hother
  refine h.of_sublist (List.Sublist.refl _) rfl (fun _ ↦ rfl) h.service h.current h.published
    h.nonzero h.fresh h.leased (fun j hx ↦ halive (h.alive j hx)) h.answered fun j ↦ ?_
  refine (h.stage j).map ?_ rfl (fun _ he ↦ he) rfl fun _ _ hne ↦ hne
  intro clientId sessionId asked ha
  exact ⟨ha.owner, ha.session, halive ha.alive, ha.authorized, ha.only, ha.lease⟩

theorem Agreed.restart (h : Agreed setting s) {draw : UInt64} (keep : Bool)
    (hsessions : (s.restart draw keep).sessions.Nodup) :
    Agreed setting (s.restart draw keep) := by
  have hnew : ∀ sessionId ∈ s.sessions, sessionId ≠ DeviceSystem.nonzero draw := by
    intro sessionId hmem heq
    have hdisjoint := (List.nodup_append.mp hsessions).2.2
    exact hdisjoint sessionId hmem _ (List.mem_singleton_self _) heq
  have hqueue : (s.restart draw keep).queue.Sublist s.queue := by
    rw [DeviceSystem.restart]
    dsimp only
    split_ifs
    · exact List.Sublist.refl _
    · exact List.nil_sublist _
  have hnone (clientId : UInt64) : (s.restart draw keep).leases clientId = none :=
    congrFun NS6DeviceClientRegistry.empty_leases clientId
  refine h.of_sublist hqueue rfl (fun _ ↦ rfl) ?_ rfl ?_ ?_ (fun e _ _ ↦ hnone e.clientId) ?_
    h.alive (fun j call reply hx e he ↦ h.answered j call reply hx e (hqueue.subset he)) fun j ↦ ?_
  · exact ⟨(publish_inv s.service).distinct, (publish_inv s.service).aggregate⟩
  · exact List.mem_append_right _ (List.mem_singleton_self _)
  · intro sessionId hmem
    rcases List.mem_append.mp hmem with hmem | hmem
    · exact h.nonzero sessionId hmem
    · rw [List.mem_singleton.mp hmem, DeviceSystem.nonzero]
      split_ifs with hdraw
      · decide
      · exact hdraw
  · intro clientId lease hlease
    rw [hnone] at hlease
    cases hlease
  · refine (h.stage j).map ?_ rfl (fun e he ↦ hqueue.subset he) rfl fun sessionId hmem _ ↦ ?_
    · intro clientId sessionId asked ha
      refine ⟨ha.owner, List.mem_append_left _ ha.session, ha.alive, ha.authorized, ?_, ?_⟩
      · exact fun e he ↦ ha.only e (hqueue.subset he)
      · exact fun hcurrent ↦ absurd hcurrent (hnew _ ha.session)
    · exact hnew sessionId hmem

theorem initial_agreed (service : NS6DeviceService) (draw : UInt64) :
    Agreed setting (initial service draw) where
  service := ⟨(publish_inv service).distinct, (publish_inv service).aggregate⟩
  current := rfl
  published := List.mem_singleton_self _
  nonzero := by
    intro sessionId hmem
    rw [List.mem_singleton.mp hmem, nonzero]
    split_ifs with hdraw
    · decide
    · exact hdraw
  sent := fun _ he ↦ by cases he
  order := .nil
  single := .nil
  fresh := fun _ he ↦ by cases he
  leased := by
    intro clientId lease hlease
    cases (congrFun NS6DeviceClientRegistry.empty_leases clientId).symm.trans hlease
  alive := fun _ hx ↦ by cases hx
  answered := fun _ _ _ hx ↦ by cases hx
  stage := fun _ hcon ↦ by cases hcon

section Run

variable [DecidableEq ι] {a : Action ι}

/-- What a step can do. -/
inductive Stepped (setting : Setting ι) (s : DeviceSystem ι) : DeviceSystem ι → Prop
  | turn {i : ι} {t : Turn} (hmoved : s.alive (setting.processId i) = true → Agreed setting s →
      (s.party i).Moved t) (halive : Agreed setting s → s.alive (setting.processId i) = true) :
      Stepped setting s (s.turn setting i t)
  | rejected {e : Envelope ι} {queue : List (Envelope ι)} (hqueue : s.queue = e :: queue)
      (h : ¬ Authorized setting e.sender) :
      Stepped setting s { s with queue := queue, party := s.reply e .noAccess }
  | served {e : Envelope ι} {queue : List (Envelope ι)} (hqueue : s.queue = e :: queue)
      (h : Authorized setting e.sender) {usbReady restarts : Bool}
      {answer : DeviceReply × NS6DeviceService} {t : DeviceSystem ι}
      (hanswer : s.handle s.reap usbReady restarts e = answer)
      (ht : t = { s with queue := queue, party := s.reply e answer.1, service := answer.2 }) :
      Stepped setting s t
  | idle : Stepped setting s { s with service := s.reap }
  | exit (processId : Int32) : Stepped setting s (s.exit setting processId)
  | spawn (processId : Int32) :
      Stepped setting s { s with alive := Function.update s.alive processId true }
  | snapshot (snapshot : NS6DeviceStateSnapshot) : Stepped setting s { s with snapshot := snapshot }
  | restart (draw : UInt64) (keep : Bool) : Stepped setting s (s.restart draw keep)

theorem stepped_of_call {f : Party → Turn} (hs : s.call setting i f = some t)
    (hmoved : (s.party i).exchange = none → (s.party i).Moved (f (s.party i))) :
    Stepped setting s t := by
  rw [call] at hs
  split_ifs at hs with hguard
  rw [Bool.and_eq_true_iff, Option.isNone_iff_eq_none] at hguard
  cases hs
  exact .turn (fun _ _ ↦ hmoved hguard.2) fun _ ↦ hguard.1

theorem stepped_of_resume {call : Call} {reply : Option DeviceReply} {structSize : UInt64}
    {answers : ClientAnswers} (hx : (s.party i).exchange = some ⟨call, reply⟩) :
    Stepped setting s (s.turn setting i ((s.party i).resume structSize reply answers)) := by
  refine .turn (fun _ h ↦ Party.resume_moved hx fun clientId hcall ↦ ?_) fun h ↦ ?_
  · have hstage := h.stage i
    rw [hx, hcall] at hstage
    exact hstage.1
  · exact h.alive i (by rw [hx]; rfl)

theorem stepped (hs : s.step setting a = some t) : Stepped setting s t := by
  cases a with
  | connect i answers =>
    rw [step] at hs
    exact stepped_of_call hs Party.connect_moved
  | disconnect i answers =>
    rw [step] at hs
    exact stepped_of_call hs fun hx ↦
      Party.disconnect_moved rfl (Party.holds_of_idle hx) _
  | setAudioActive i active sent =>
    rw [step] at hs
    exact stepped_of_call hs fun hx ↦ Party.setAudioActive_moved hx active sent
  | setStartupBuffer i frames sent =>
    rw [step] at hs
    exact stepped_of_call hs fun hx ↦ Party.setStartupBuffer_moved hx frames sent
  | getState i sent =>
    rw [step] at hs
    exact stepped_of_call hs fun hx ↦ Party.getStateResult_moved hx sent
  | receive i answers =>
    rw [step] at hs
    split at hs
    · next hx =>
      cases hs
      exact stepped_of_resume hx
    · cases hs
  | timeout i answers =>
    rw [step] at hs
    split at hs
    · next hx =>
      cases hs
      exact stepped_of_resume hx
    · cases hs
  | serve usbReady restarts =>
    rw [step, serve] at hs
    split at hs
    · cases hs
    · next e queue hqueue =>
      split_ifs at hs with hauthorized
      · cases hs
        refine .rejected hqueue fun h ↦ ?_
        rw [h] at hauthorized
        cases hauthorized
      · rw [Bool.not_eq_true', Bool.not_eq_false] at hauthorized
        exact .served hqueue hauthorized rfl (Option.some.inj hs).symm
  | idle =>
    rw [step] at hs
    split_ifs at hs
    rw [← Option.some.inj hs]
    exact .idle
  | exit processId =>
    cases hs
    exact .exit processId
  | spawn processId =>
    cases hs
    exact .spawn processId
  | updateDeviceState connected transportReady firmwareVersion =>
    cases hs
    exact .snapshot _
  | restart draw keep =>
    cases hs
    exact .restart draw keep

theorem Stepped.grows (h : Stepped setting s t) : s.drawn <+: t.drawn ∧ s.sessions <+: t.sessions := by
  cases h with
  | turn => exact ⟨List.prefix_append .., List.prefix_refl _⟩
  | restart => exact ⟨List.prefix_refl _, List.prefix_append ..⟩
  | rejected => exact ⟨List.prefix_refl _, List.prefix_refl _⟩
  | served _ _ _ ht =>
    subst ht
    exact ⟨List.prefix_refl _, List.prefix_refl _⟩
  | idle => exact ⟨List.prefix_refl _, List.prefix_refl _⟩
  | exit => exact ⟨List.prefix_refl _, List.prefix_refl _⟩
  | spawn => exact ⟨List.prefix_refl _, List.prefix_refl _⟩
  | snapshot => exact ⟨List.prefix_refl _, List.prefix_refl _⟩

theorem Agreed.step (h : Agreed setting s) (hs : Stepped setting s t) (hapart : Apart t)
    (hsessions : t.sessions.Nodup) : Agreed setting t := by
  cases hs with
  | @turn i t hmoved halive => exact h.moved (hmoved (halive h) h) hapart (halive h)
  | rejected hqueue hauthorized => exact h.rejected hapart hqueue hauthorized rfl
  | served hqueue hauthorized hanswer ht =>
    have hreaped := h.reap
    generalize s.reap = service at hanswer hreaped
    exact hreaped.served hqueue hauthorized hanswer ht
  | idle => exact h.reap
  | exit processId => exact h.exit processId
  | spawn processId => exact h.spawn processId
  | snapshot snapshot =>
    refine h.of_sublist (List.Sublist.refl _) rfl (fun _ ↦ rfl) h.service h.current h.published
      h.nonzero h.fresh h.leased h.alive h.answered fun j ↦ ?_
    refine (h.stage j).map ?_ rfl (fun _ he ↦ he) rfl fun _ _ hne ↦ hne
    intro clientId sessionId asked ha
    exact ⟨ha.owner, ha.session, ha.alive, ha.authorized, ha.only, ha.lease⟩
  | restart draw keep => exact h.restart keep hsessions

theorem run_agreed {service : NS6DeviceService} {draw : UInt64} {as : List (Action ι)}
    (h : Run (step setting) (initial service draw) as s) (hapart : Apart s)
    (hsessions : s.sessions.Nodup) : Agreed setting s := by
  induction h with
  | nil => exact initial_agreed service draw
  | snoc _ hs ih =>
    have hstep := stepped hs
    obtain ⟨hdrawn, hpublished⟩ := hstep.grows
    exact (ih (hapart.of_sublist hdrawn.sublist) (hsessions.sublist hpublished.sublist)).step hstep
      hapart hsessions

end Run

end NumarkNS6.Legacy.NS6DeviceClient.DeviceSystem
