import NumarkNS6.Legacy.ClientTurns

namespace NumarkNS6.Legacy.NS6DeviceClient

open Foundation.KeyedSlots Foundation.Runs NS6DeviceClientLease

variable {ι : Type}

namespace Envelope

def clientId (e : Envelope ι) : UInt64 := e.request.clientId

def IsHello (e : Envelope ι) : Prop := ∃ request, e.request = .hello request

def sets (clientId : UInt64) (e : Envelope ι) : Option Bool :=
  match e.request with
  | .control request =>
    if request.clientId = clientId ∧ request.message = .setAudioActive then
      some (request.value != 0)
    else none
  | .hello _ => none

theorem sets_of_ne {clientId : UInt64} {e : Envelope ι} (h : e.clientId ≠ clientId) :
    e.sets clientId = none := by
  rw [sets]
  split
  · next request hrequest =>
    rw [Envelope.clientId, hrequest] at h
    exact if_neg fun heq ↦ h heq.1
  · rfl

end Envelope

def settled (clientId : UInt64) (queue : List (Envelope ι)) (active : Bool) : Bool :=
  (queue.filterMap (Envelope.sets clientId)).getLast?.getD active

section Settled

variable {clientId : UInt64} {queue : List (Envelope ι)} {e : Envelope ι} {active : Bool}

theorem settled_cons :
    settled clientId (e :: queue) active = settled clientId queue ((e.sets clientId).getD active) := by
  rw [settled, List.filterMap_cons]
  cases e.sets clientId with
  | none => rfl
  | some v =>
    dsimp only
    rw [List.getLast?_cons]
    rfl

theorem settled_append :
    settled clientId (queue ++ [e]) active = (e.sets clientId).getD (settled clientId queue active) := by
  rw [settled, List.filterMap_append, List.filterMap_cons]
  cases e.sets clientId with
  | none =>
    rw [List.filterMap_nil, List.append_nil]
    rfl
  | some v =>
    rw [List.filterMap_nil]
    dsimp only
    rw [List.getLast?_concat]
    rfl

end Settled

namespace DeviceSystem

variable {setting : Setting ι} {s t : DeviceSystem ι} {i : ι}

def leases (s : DeviceSystem ι) : Leases := s.service.clients.leases

variable (setting s i)

def Authorized : Prop :=
  NS6DeviceService.peerUidAuthorized (setting.uid i) setting.coreaudiodUid = true

/-- A client holds the id under which its hello was accepted, for the session it was
told. Under that id the queue has only what a connected client asks for, and while the
session lasts the service has a lease with the client's process, which comes to the
activity that the client asked for last. -/
structure Attached (clientId sessionId : UInt64) (asked : Bool) : Prop where
  owner : (clientId, i) ∈ s.drawn
  session : sessionId ∈ s.sessions
  alive : s.alive (setting.processId i) = true
  authorized : Authorized setting i
  only : ∀ e ∈ s.queue, e.clientId = clientId → ∃ request before after,
    e.request = .control request ∧ request.sessionId = sessionId ∧
      request.protocolVersion = protocolVersion ∧ Party.Asks request before after
  lease : sessionId = s.service.sessionId → ∃ active,
    s.leases clientId = some ⟨setting.processId i, active⟩ ∧
      settled clientId s.queue active = asked

def Greeting (clientId : UInt64) : Option DeviceReply → Prop
  | none => (clientId, i) ∈ s.drawn ∧ (∀ e ∈ s.queue, e.clientId = clientId → e.IsHello) ∧
      ∀ e ∈ s.queue, e.sender = i → e.port = (s.party i).number → e.clientId = clientId
  | some (.hello reply) =>
    reply.status = .success → Attached setting s i clientId reply.sessionId false
  | some _ => True

/-- The client waits under the id it is attached under, and is told that it was
replaced only if it was. -/
def Connected (p : Party) (reply : Option DeviceReply) : Prop :=
  p.client.connected = true ∧
    Attached setting s i p.client.clientId p.client.sessionId p.asked ∧
    (∀ e ∈ s.queue, e.sender = i → e.port = (s.party i).number →
      e.clientId = p.client.clientId) ∧
    ∀ snapshot, reply = some (.state .badId snapshot) → p.client.sessionId ≠ s.service.sessionId

def Stage (p : Party) : Option Exchange → Prop
  | none => p.client.connected = true →
      Attached setting s i p.client.clientId p.client.sessionId p.asked
  | some ⟨.hello clientId, reply⟩ => p.client.connected = false ∧ Greeting setting s i clientId reply
  | some ⟨.release _, _⟩ => True
  | some ⟨.control, reply⟩ | some ⟨.state, reply⟩ => Connected setting s i p reply

structure Agreed : Prop where
  service : s.service.Inv
  current : s.session.activeId = s.service.sessionId
  published : s.service.sessionId ∈ s.sessions
  nonzero : ∀ sessionId ∈ s.sessions, sessionId ≠ 0
  sent : ∀ e ∈ s.queue, (e.clientId, e.sender) ∈ s.drawn ∧
    e.processId = setting.processId e.sender ∧ e.port ≤ (s.party e.sender).number
  order : s.queue.Pairwise fun e e' ↦ e.sender = e'.sender → e.port < e'.port
  single : s.queue.Pairwise fun e e' ↦ e.IsHello ∨ e'.IsHello → e.clientId ≠ e'.clientId
  fresh : ∀ e ∈ s.queue, e.IsHello → s.leases e.clientId = none
  leased : ∀ clientId lease, s.leases clientId = some lease →
    ∃ i, (clientId, i) ∈ s.drawn ∧ lease.processId = setting.processId i
  alive : ∀ i, (s.party i).exchange.isSome = true → s.alive (setting.processId i) = true
  answered : ∀ i call reply, (s.party i).exchange = some ⟨call, some reply⟩ →
    ∀ e ∈ s.queue, e.sender ≠ i
  stage : ∀ i, Stage setting s i (s.party i) (s.party i).exchange

variable {setting s i} {clientId sessionId : UInt64} {asked : Bool}

def Apart (s : DeviceSystem ι) : Prop := (s.drawn.map Prod.fst).Nodup

theorem Apart.owner_eq {j : ι} (h : Apart s) (hi : (clientId, i) ∈ s.drawn)
    (hj : (clientId, j) ∈ s.drawn) : i = j := by
  have heq := List.inj_on_of_nodup_map h hi hj rfl
  exact (Prod.mk.inj heq).2

theorem Apart.of_sublist (h : Apart t) (hdrawn : s.drawn.Sublist t.drawn) : Apart s :=
  List.Nodup.sublist (hdrawn.map _) h

theorem Apart.ne {j : ι} {other : UInt64} (h : Apart s) (hi : (clientId, i) ∈ s.drawn)
    (hj : (other, j) ∈ s.drawn) (hne : i ≠ j) : clientId ≠ other := by
  rintro rfl
  exact hne (h.owner_eq hi hj)

theorem settled_of_ne {es : List (Envelope ι)} (queue : List (Envelope ι)) {active : Bool}
    (h : ∀ e ∈ es, e.clientId ≠ clientId) :
    settled clientId (queue ++ es) active = settled clientId queue active := by
  have hnone : es.filterMap (Envelope.sets clientId) = [] :=
    List.filterMap_eq_nil_iff.mpr fun e he ↦ Envelope.sets_of_ne (h e he)
  rw [settled, List.filterMap_append, hnone, List.append_nil]
  rfl

theorem Attached.post (h : Attached setting s i clientId sessionId asked) (es : List (Envelope ι))
    (hservice : t.service = s.service) (hsessions : t.sessions = s.sessions)
    (halive : t.alive = s.alive) (hdrawn : s.drawn ⊆ t.drawn) (hqueue : t.queue = s.queue ++ es)
    (hes : ∀ e ∈ es, e.clientId ≠ clientId) : Attached setting t i clientId sessionId asked where
  owner := hdrawn h.owner
  session := hsessions ▸ h.session
  alive := halive ▸ h.alive
  authorized := h.authorized
  only := by
    intro e he hid
    rw [hqueue, List.mem_append] at he
    rcases he with he | he
    · exact h.only e he hid
    · exact absurd hid (hes e he)
  lease := by
    intro hsession
    rw [hservice] at hsession
    obtain ⟨active, hlease, hsettled⟩ := h.lease hsession
    refine ⟨active, ?_, ?_⟩
    · rw [leases, hservice]
      exact hlease
    · rw [hqueue, settled_of_ne _ hes]
      exact hsettled

section Stage

variable {p : Party} {x : Option Exchange}

def named (p : Party) : Option Exchange → UInt64
  | some ⟨.hello clientId, _⟩ => clientId
  | _ => p.client.clientId

theorem Stage.post {es : List (Envelope ι)} (h : Stage setting s i p x)
    (hservice : t.service = s.service) (hsessions : t.sessions = s.sessions)
    (halive : t.alive = s.alive) (hdrawn : s.drawn ⊆ t.drawn) (hqueue : t.queue = s.queue ++ es)
    (hnumber : (t.party i).number = (s.party i).number) (hsender : ∀ e ∈ es, e.sender ≠ i)
    (hes : (named p x, i) ∈ s.drawn → ∀ e ∈ es, e.clientId ≠ named p x) :
    Stage setting t i p x := by
  have hattached {clientId sessionId : UInt64} {asked : Bool}
      (ha : Attached setting s i clientId sessionId asked) (hnamed : named p x = clientId) :
      Attached setting t i clientId sessionId asked := by
    subst hnamed
    exact ha.post es hservice hsessions halive hdrawn hqueue (hes ha.owner)
  have hmine {clientId : UInt64}
      (hm : ∀ e ∈ s.queue, e.sender = i → e.port = (s.party i).number → e.clientId = clientId) :
      ∀ e ∈ t.queue, e.sender = i → e.port = (t.party i).number → e.clientId = clientId := by
    intro e he hi hport
    rw [hqueue, List.mem_append] at he
    rcases he with he | he
    · exact hm e he hi (hport.trans hnumber)
    · exact absurd hi (hsender e he)
  have hconnected {reply : Option DeviceReply} (hc : Connected setting s i p reply)
      (hnamed : named p x = p.client.clientId) : Connected setting t i p reply := by
    obtain ⟨hcon, ha, hm, hreplaced⟩ := hc
    refine ⟨hcon, hattached ha hnamed, hmine hm, fun snapshot hreply ↦ ?_⟩
    rw [hservice]
    exact hreplaced snapshot hreply
  rcases x with - | ⟨call, reply⟩
  · exact fun hcon ↦ hattached (h hcon) rfl
  cases call with
  | hello clientId =>
    refine ⟨h.1, ?_⟩
    have hgreeting := h.2
    rcases reply with - | reply
    · obtain ⟨howner, honly, hm⟩ := hgreeting
      refine ⟨hdrawn howner, fun e he hid ↦ ?_, hmine hm⟩
      rw [hqueue, List.mem_append] at he
      rcases he with he | he
      · exact honly e he hid
      · exact absurd hid (hes howner e he)
    · cases reply with
      | hello reply => exact fun hstatus ↦ hattached (hgreeting hstatus) rfl
      | control status => trivial
      | state status snapshot => trivial
      | noAccess => trivial
  | release next => trivial
  | control => exact hconnected h rfl
  | state => exact hconnected h rfl

end Stage

theorem Agreed.attached (h : Agreed setting s) (hcon : (s.party i).client.connected = true)
    (hne : ∀ next reply, (s.party i).exchange ≠ some ⟨.release next, reply⟩) :
    Attached setting s i (s.party i).client.clientId (s.party i).client.sessionId
      (s.party i).asked := by
  have hstage := h.stage i
  generalize (s.party i).exchange = x at hstage hne
  rcases x with - | ⟨call, reply⟩
  · exact hstage hcon
  cases call with
  | hello clientId =>
    rw [hstage.1] at hcon
    cases hcon
  | release next => exact absurd rfl (hne next reply)
  | control => exact hstage.2.1
  | state => exact hstage.2.1

theorem Agreed.attached_of_accepted (h : Agreed setting s)
    (ha : (s.party i).Accepted clientId sessionId) :
    Attached setting s i clientId sessionId false := by
  obtain ⟨reply, hx, hstatus, rfl⟩ := ha
  have hstage := h.stage i
  rw [hx] at hstage
  exact hstage.2 hstatus

theorem Agreed.attached_of_holds (h : Agreed setting s) (hh : (s.party i).Holds clientId) :
    ∃ sessionId asked, Attached setting s i clientId sessionId asked := by
  rcases hh with ⟨hcon, rfl, hne⟩ | ⟨sessionId, haccepted⟩
  · exact ⟨_, _, h.attached hcon hne⟩
  · exact ⟨_, _, h.attached_of_accepted haccepted⟩

theorem Attached.not_hello (h : Attached setting s i clientId sessionId asked) {e : Envelope ι}
    (he : e ∈ s.queue) (hhello : e.IsHello) : e.clientId ≠ clientId := by
  intro hid
  obtain ⟨request, -, -, hrequest, -⟩ := h.only e he hid
  obtain ⟨hello, hhello⟩ := hhello
  rw [hhello] at hrequest
  cases hrequest

theorem Asks.settles {e : Envelope ι} {request : NS6DeviceControlRequest} {before after : Bool}
    (h : Party.Asks request before after) (he : e.request = .control request) (active : Bool) :
    (e.sets request.clientId).getD active =
      if request.message = .setAudioActive then request.value != 0 else active := by
  rw [Envelope.sets, he]
  dsimp only
  rcases h with ⟨hmessage, -, -⟩ | ⟨hmessage, -, -⟩
  · rw [if_pos ⟨rfl, hmessage⟩, if_pos hmessage]
    rfl
  · rw [if_neg fun heq ↦ hmessage heq.2, if_neg hmessage]
    rfl

theorem Agreed.unused (h : Agreed setting s) {j : ι}
    (hapart : ((s.drawn ++ [(clientId, j)]).map Prod.fst).Nodup) :
    (∀ e ∈ s.queue, e.clientId ≠ clientId) ∧ s.leases clientId = none := by
  have hnot (k : ι) : (clientId, k) ∉ s.drawn := by
    intro hk
    rw [List.map_append, List.nodup_append] at hapart
    exact hapart.2.2 clientId (List.mem_map_of_mem hk) clientId (List.mem_singleton_self _) rfl
  constructor
  · rintro e he rfl
    exact hnot _ (h.sent e he).1
  · cases hlease : s.leases clientId with
    | none => rfl
    | some lease =>
      obtain ⟨k, hk, -⟩ := h.leased clientId lease hlease
      exact absurd hk (hnot k)

theorem mem_envelopes {e : Envelope ι} {number : ℕ} {posted : Option DeviceRequest} :
    e ∈ (posted.map (envelope setting i number)).toList ↔
      ∃ request, posted = some request ∧ envelope setting i number request = e := by
  rw [Option.mem_toList, Option.map_eq_some_iff]

section Turn

variable [DecidableEq ι] {p' : Party} {posted : Option DeviceRequest}

/-- What the other clients and the service know stays true when a client moves: the
request it sends, if any, is made under an id of its own that no hello in the queue
has, and its stage is given for the new state. -/
theorem Agreed.turn (h : Agreed setting s) (hapart : Apart (s.turn setting i (p', posted)))
    (halive : s.alive (setting.processId i) = true)
    (hnumber : p'.number = (s.party i).number + posted.toList.length)
    (howner : ∀ request, posted = some request →
      (request.clientId, i) ∈ (s.turn setting i (p', posted)).drawn)
    (hnew : ∀ request, posted = some request → ∀ e ∈ s.queue,
      (∃ hello, request = .hello hello) ∨ e.IsHello → e.clientId ≠ request.clientId)
    (hfresh : ∀ hello, posted = some (.hello hello) → s.leases hello.clientId = none)
    (hreply : ∀ call reply, p'.exchange ≠ some ⟨call, some reply⟩)
    (hstage : Stage setting (s.turn setting i (p', posted)) i p' p'.exchange) :
    Agreed setting (s.turn setting i (p', posted)) := by
  have hself : (s.turn setting i (p', posted)).party i = p' := Function.update_self ..
  have hother {j : ι} (hj : j ≠ i) : (s.turn setting i (p', posted)).party j = s.party j :=
    Function.update_of_ne hj ..
  have hdrawn : s.drawn ⊆ (s.turn setting i (p', posted)).drawn := List.subset_append_left ..
  have hle (j : ι) : (s.party j).number ≤ ((s.turn setting i (p', posted)).party j).number := by
    by_cases hj : j = i
    · subst hj
      rw [hself, hnumber]
      exact Nat.le_add_right ..
    · rw [hother hj]
  refine ⟨h.service, h.current, h.published, h.nonzero, ?_, ?_, ?_, ?_, ?_, ?_, ?_, ?_⟩
  · intro e he
    rcases List.mem_append.mp he with he | he
    · obtain ⟨hid, hprocess, hport⟩ := h.sent e he
      exact ⟨hdrawn hid, hprocess, hport.trans (hle _)⟩
    · obtain ⟨request, hrequest, rfl⟩ := mem_envelopes.mp he
      exact ⟨howner request hrequest, rfl, (congrArg Party.number hself).ge⟩
  · refine List.pairwise_append.mpr ⟨h.order, ?_, fun e he e' he' hsender ↦ ?_⟩
    · cases posted <;> simp
    · obtain ⟨request, rfl, rfl⟩ := mem_envelopes.mp he'
      have hport := (h.sent e he).2.2
      rw [hsender] at hport
      change e.port < p'.number
      rw [hnumber]
      exact Nat.lt_succ_of_le hport
  · refine List.pairwise_append.mpr ⟨h.single, ?_, fun e he e' he' hhello ↦ ?_⟩
    · cases posted <;> simp
    · obtain ⟨request, hrequest, rfl⟩ := mem_envelopes.mp he'
      exact hnew request hrequest e he hhello.symm
  · intro e he hhello
    rcases List.mem_append.mp he with he | he
    · exact h.fresh e he hhello
    · obtain ⟨request, hrequest, rfl⟩ := mem_envelopes.mp he
      obtain ⟨hello, rfl⟩ := hhello
      exact hfresh hello hrequest
  · intro clientId lease hlease
    obtain ⟨j, hj, hprocess⟩ := h.leased clientId lease hlease
    exact ⟨j, hdrawn hj, hprocess⟩
  · intro j hx
    by_cases hj : j = i
    · subst hj
      exact halive
    · rw [hother hj] at hx
      exact h.alive j hx
  · intro j call reply hx e he
    by_cases hj : j = i
    · subst hj
      rw [hself] at hx
      exact absurd hx (hreply call reply)
    · rw [hother hj] at hx
      rcases List.mem_append.mp he with he | he
      · exact h.answered j call reply hx e he
      · obtain ⟨request, -, rfl⟩ := mem_envelopes.mp he
        exact Ne.symm hj
  · intro j
    by_cases hj : j = i
    · subst hj
      rw [hself]
      exact hstage
    · rw [hother hj]
      refine (h.stage j).post rfl rfl rfl hdrawn rfl (by rw [hother hj]) ?_ ?_
      · intro e he
        obtain ⟨request, -, rfl⟩ := mem_envelopes.mp he
        exact Ne.symm hj
      · intro hnamed e he
        obtain ⟨request, hrequest, rfl⟩ := mem_envelopes.mp he
        exact hapart.ne (howner request hrequest) (hdrawn hnamed) (Ne.symm hj)

theorem Agreed.last (h : Agreed setting s) {request : DeviceRequest} {e : Envelope ι}
    (hnumber : p'.number = (s.party i).number + 1)
    (he : e ∈ (s.turn setting i (p', some request)).queue) (hsender : e.sender = i)
    (hport : e.port = ((s.turn setting i (p', some request)).party i).number) :
    e.clientId = request.clientId := by
  have hself : (s.turn setting i (p', some request)).party i = p' := Function.update_self ..
  rcases List.mem_append.mp he with he | he
  · have hle := (h.sent e he).2.2
    rw [hsender] at hle
    rw [hself, hnumber] at hport
    omega
  · obtain ⟨_, hposted, rfl⟩ := mem_envelopes.mp he
    cases hposted
    rfl

theorem Agreed.rest (h : Agreed setting s) (hapart : Apart (s.turn setting i (p', none)))
    (halive : s.alive (setting.processId i) = true) (hx : p'.exchange = none)
    (hnumber : p'.number = (s.party i).number)
    (hattached : p'.client.connected = true →
      Attached setting s i p'.client.clientId p'.client.sessionId p'.asked) :
    Agreed setting (s.turn setting i (p', none)) := by
  refine h.turn hapart halive hnumber ?_ ?_ ?_ ?_ ?_
  · exact fun _ hp ↦ by cases hp
  · exact fun _ hp ↦ by cases hp
  · exact fun _ hp ↦ by cases hp
  · exact fun _ _ hreply ↦ by cases hx.symm.trans hreply
  · rw [hx]
    intro hconnected
    refine (hattached hconnected).post [] rfl rfl rfl (List.subset_append_left ..) rfl fun e he ↦ ?_
    cases he

theorem Agreed.hello (h : Agreed setting s) {request : NS6DeviceHelloRequest}
    (hapart : Apart (s.turn setting i (p', some (.hello request))))
    (halive : s.alive (setting.processId i) = true)
    (hx : p'.exchange = some ⟨.hello request.clientId, none⟩)
    (hnumber : p'.number = (s.party i).number + 1) (hclient : p'.client.connected = false) :
    Agreed setting (s.turn setting i (p', some (.hello request))) := by
  obtain ⟨hqueue, hlease⟩ := h.unused hapart
  have howner : (request.clientId, i) ∈ (s.turn setting i (p', some (.hello request))).drawn :=
    List.mem_append_right _ (List.mem_singleton_self _)
  refine h.turn hapart halive hnumber ?_ ?_ ?_ ?_ ?_
  · rintro _ ⟨⟩
    exact howner
  · rintro _ ⟨⟩ e he -
    exact hqueue e he
  · rintro _ ⟨⟩
    exact hlease
  · exact fun _ _ hreply ↦ by cases hx.symm.trans hreply
  · rw [hx]
    refine ⟨hclient, howner, fun e he hid ↦ ?_, fun e he ↦ h.last hnumber he⟩
    rcases List.mem_append.mp he with he | he
    · exact absurd hid (hqueue e he)
    · obtain ⟨_, hposted, rfl⟩ := mem_envelopes.mp he
      exact ⟨request, (Option.some.inj hposted).symm⟩

theorem Agreed.control (h : Agreed setting s) {request : NS6DeviceControlRequest}
    (hapart : Apart (s.turn setting i (p', some (.control request))))
    (halive : s.alive (setting.processId i) = true)
    (hnumber : p'.number = (s.party i).number + 1)
    (hattached : Attached setting s i request.clientId sessionId asked)
    (hreply : ∀ call reply, p'.exchange ≠ some ⟨call, some reply⟩)
    (hstage : Stage setting (s.turn setting i (p', some (.control request))) i p' p'.exchange) :
    Agreed setting (s.turn setting i (p', some (.control request))) := by
  refine h.turn hapart halive hnumber ?_ ?_ ?_ hreply hstage
  · rintro _ ⟨⟩
    exact List.mem_append_left _ hattached.owner
  · rintro _ ⟨⟩ e he (⟨_, hhello⟩ | hhello)
    · cases hhello
    · exact hattached.not_hello he hhello
  · exact fun _ hp ↦ by cases hp

/-- The client stays attached, and the activity its lease comes to is the one it asks for. -/
theorem Attached.control (h : Attached setting s i clientId sessionId asked)
    {request : NS6DeviceControlRequest} {after : Bool} (hid : request.clientId = clientId)
    (hsession : request.sessionId = sessionId) (hversion : request.protocolVersion = protocolVersion)
    (hasks : Party.Asks request asked after) :
    Attached setting (s.turn setting i (p', some (.control request))) i clientId sessionId after := by
  refine ⟨List.mem_append_left _ h.owner, h.session, h.alive, h.authorized, ?_, ?_⟩
  · intro e he heq
    rcases List.mem_append.mp he with he | he
    · exact h.only e he heq
    · obtain ⟨_, hposted, rfl⟩ := mem_envelopes.mp he
      cases hposted
      exact ⟨request, _, _, rfl, hsession, hversion, hasks⟩
  · intro hcurrent
    obtain ⟨active, hlease, hsettled⟩ := h.lease hcurrent
    refine ⟨active, hlease, ?_⟩
    change settled _ (s.queue ++ [envelope setting i p'.number (.control request)]) _ = _
    rw [settled_append, hsettled, ← hid, Asks.settles hasks rfl]
    rcases hasks with ⟨hmessage, -, hafter⟩ | ⟨hmessage, -, hafter⟩
    · rw [if_pos hmessage, hafter]
    · rw [if_neg hmessage, hafter]

theorem Agreed.moved (h : Agreed setting s) (hmoved : (s.party i).Moved (p', posted))
    (hapart : Apart (s.turn setting i (p', posted)))
    (halive : s.alive (setting.processId i) = true) :
    Agreed setting (s.turn setting i (p', posted)) := by
  cases hmoved with
  | rest hx hn hc =>
    refine h.rest hapart halive hx hn fun hcon ↦ ?_
    obtain ⟨hclient, hasked, hne⟩ := hc hcon
    rw [hclient, hasked]
    exact h.attached (hclient ▸ hcon) hne
  | attached hx hn haccepted hasked =>
    refine h.rest hapart halive hx hn fun _ ↦ ?_
    rw [hasked]
    exact h.attached_of_accepted haccepted
  | hello hx hn hc => exact h.hello hapart halive hx hn hc
  | release hx hn hholds =>
    obtain ⟨sessionId, asked, hattached⟩ := h.attached_of_holds hholds
    refine h.control hapart halive hn hattached (fun _ _ hreply ↦ by cases hx.symm.trans hreply) ?_
    rw [hx]
    trivial
  | @control _ request call hcall hidle hx hn hc hsame hid hsession hversion hasks =>
    have hattached := h.attached hc (Party.not_releasing_of_idle hidle)
    have hconnected :
        Connected setting (s.turn setting i (p', some (.control request))) i p' none := by
      rw [Connected, hsame]
      exact ⟨hc, hattached.control hid hsession hversion hasks, fun e he hsender hport ↦
        (h.last hn he hsender hport).trans hid, fun _ hreply ↦ by cases hreply⟩
    refine h.control hapart halive hn (hid.symm ▸ hattached)
      (fun _ _ hreply ↦ by cases hx.symm.trans hreply) ?_
    rw [hx]
    rcases hcall with rfl | rfl
    · exact hconnected
    · exact hconnected

end Turn

end DeviceSystem

end NumarkNS6.Legacy.NS6DeviceClient
