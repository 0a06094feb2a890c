import LiteChat.Proofs.Client.Lives

/-!
# What a claim does

A claim asks the session once, and goes on from the answer by steps in between which anything
may happen.  This module reads off each step what the claim does (`Claim.events`): which answer
it gets, and what it adds to the log of the transport.  What a claim can have done is known from
how far it is (`Told`): if it was told to announce, it looks up the account first, but only if
the address was not known, and then announces once, whatever comes of the lookup.
-/

namespace LiteChat

/-! ## Events -/

/-- What a claim does. -/
inductive ClaimEvent where
  /-- It has asked whether to announce. -/
  | decided (answer : Activation)
  /-- It has sent something. -/
  | sent (traffic : Traffic)

namespace ClaimEvent

/-- The answer that an event is. -/
def answer? : ClaimEvent → Option Activation
  | .decided answer => some answer
  | .sent _ => none

/-- Whether an event is the decision to announce. -/
def announces : ClaimEvent → Bool
  | .decided answer => answer.isAnnouncement
  | .sent _ => false

/-- Whether an event is a request to an endpoint. -/
def requests (endpoint : Endpoint) : ClaimEvent → Bool
  | .sent (.request path _ _) => decide (path = endpoint.path)
  | _ => false

/-- A request to an endpoint. -/
def request (endpoint : Endpoint) (body : Json) : ClaimEvent :=
  .sent (.request endpoint.path body false)

theorem exists_answer {event : ClaimEvent} (h : event.announces = true) :
    ∃ answer, event.answer? = some answer ∧ answer.isAnnouncement = true := by
  cases event with
  | decided answer => exact ⟨answer, rfl, h⟩
  | sent traffic => cases h

@[simp] theorem announces_request (endpoint : Endpoint) (body : Json) :
    (request endpoint body).announces = false := rfl

@[simp] theorem requests_decided (endpoint : Endpoint) (answer : Activation) :
    (decided answer).requests endpoint = false := rfl

theorem requests_request (endpoint other : Endpoint) (body : Json) :
    (request other body).requests endpoint = decide (other.path = endpoint.path) := rfl

@[simp] theorem requests_request_self (endpoint : Endpoint) (body : Json) :
    (request endpoint body).requests endpoint = true := by
  rw [requests_request]
  exact decide_eq_true rfl

@[simp] theorem requests_lookUp (body : Json) :
    (request .getSelfInfo body).requests .setActiveClient = false := by
  rw [requests_request]
  decide

@[simp] theorem requests_announcement (body : Json) :
    (request .setActiveClient body).requests .getSelfInfo = false := by
  rw [requests_request]
  decide

end ClaimEvent

/-- What a claim does in its next step: the answers that it gets, and what the log of the
transport grows by. -/
def Claim.events (c : Client) (x : Claim) : List ClaimEvent :=
  (c.session.answers (x.operations c)).map .decided ++
    ((x.step c).1.transport.log.drop c.transport.log.length).map .sent

theorem Claim.events_eq {c : Client} {x : Claim} {sent : List Traffic}
    (h : (x.step c).1.transport.log = c.transport.log ++ sent) :
    x.events c = (c.session.answers (x.operations c)).map .decided ++ sent.map .sent := by
  rw [events, h, List.drop_left]

theorem Claim.filterMap_answer? (c : Client) (x : Claim) :
    (x.events c).filterMap ClaimEvent.answer? = c.session.answers (x.operations c) := by
  have hanswers : ClaimEvent.answer? ∘ ClaimEvent.decided = some := rfl
  have hsent : ClaimEvent.answer? ∘ ClaimEvent.sent = fun _ => none := rfl
  rw [events, List.filterMap_append, List.filterMap_map, List.filterMap_map, hanswers, hsent]
  simp

section Wrapped
variable {c : Client} {x : Exchange} {sent : List Traffic}

theorem Claim.step_lookUp (h : x.outcome? = none) :
    (Claim.lookUp x).step c = ((x.step c).1, .lookUp (x.step c).2) := by
  rw [Claim.step, h]

theorem Claim.step_announce (h : x.outcome? = none) :
    (Claim.announce x).step c = ((x.step c).1, .announce (x.step c).2) := by
  rw [Claim.step, h]

theorem Claim.events_lookUp (h : x.outcome? = none)
    (hlog : (x.step c).1.transport.log = c.transport.log ++ sent) :
    (Claim.lookUp x).events c = sent.map .sent := by
  rw [events_eq (by rw [step_lookUp h]; exact hlog)]
  rfl

theorem Claim.events_announce (h : x.outcome? = none)
    (hlog : (x.step c).1.transport.log = c.transport.log ++ sent) :
    (Claim.announce x).events c = sent.map .sent := by
  rw [events_eq (by rw [step_announce h]; exact hlog)]
  rfl

end Wrapped

/-! ## Exchanges -/

namespace Exchange

variable {endpoint : Endpoint} {x : Exchange} {c : Client}

/-- The request of an exchange is yet to be sent, and it goes to an endpoint. -/
def Unsent (endpoint : Endpoint) : Exchange → Prop
  | .identify .. => endpoint = .setActiveClient
  | .build call => call.endpoint = endpoint
  | .send request => request.endpoint = endpoint
  | _ => False

/-- The request of an exchange has been sent. -/
def Sent : Exchange → Prop
  | .await .. => True
  | .done _ => True
  | _ => False

theorem Unsent.outcome? (h : x.Unsent endpoint) : x.outcome? = none := by
  cases x with
  | done outcome => exact absurd h id
  | _ => rfl

/-- A step towards the request, for which the client has to have an id, or the request itself. -/
theorem Unsent.step (h : x.Unsent endpoint) (hid : c.session.clientId.isSome = true) :
    ((x.step c).2.Unsent endpoint ∧ (x.step c).1.transport.log = c.transport.log ++ []) ∨
      ((x.step c).2.Sent ∧ ∃ body, (x.step c).1.transport.log =
        c.transport.log ++ [.request endpoint.path body false]) := by
  cases x with
  | identify isActive timeout =>
    obtain ⟨id, hid⟩ := Option.isSome_iff_exists.mp hid
    have hidentity : c.session.identity? = some (c.session.email.getD "" ++ "/" ++ id) := by
      rw [Session.identity?, hid, Option.map_some]
    rw [Exchange.step, hidentity]
    exact Or.inl ⟨h.symm, (List.append_nil _).symm⟩
  | build call => exact Or.inl ⟨h, (List.append_nil _).symm⟩
  | send request =>
    have hpath : request.endpoint = endpoint := h
    exact Or.inr ⟨trivial, request.body, by rw [← hpath]; rfl⟩
  | await endpoint reply => exact absurd h id
  | done outcome => exact absurd h id

theorem Sent.step (h : x.Sent) :
    (x.step c).2.Sent ∧ (x.step c).1.transport.log = c.transport.log ++ [] := by
  cases x with
  | await endpoint reply => exact ⟨trivial, (List.append_nil _).symm⟩
  | done outcome => exact ⟨trivial, (List.append_nil _).symm⟩
  | _ => exact absurd h id

end Exchange

/-! ## What a claim has done -/

/-- What a claim has done before it announces: it was told to, and it has looked up the account
if the address was not known. -/
inductive Asked : List ClaimEvent → Prop where
  | known (id email : String) : Asked [.decided (.announce id (some email))]
  | lookedUp (id : String) (body : Json) :
    Asked [.decided (.announce id none), .request .getSelfInfo body]

/-- What a claim has done, by how far it is. -/
inductive Told : Claim → List ClaimEvent → Prop where
  | undecided : Told .decide []
  | declined {answer : Activation} (h : answer.isAnnouncement = false) :
    Told (.done (.ok false)) [.decided answer]
  | lookingUp {x : Exchange} (h : x.Unsent .getSelfInfo) (id : String) :
    Told (.lookUp x) [.decided (.announce id none)]
  | lookedUp {x : Exchange} (h : x.Sent) (id : String) (body : Json) :
    Told (.lookUp x) [.decided (.announce id none), .request .getSelfInfo body]
  | storing (email id : String) (body : Json) :
    Told (.store email) [.decided (.announce id none), .request .getSelfInfo body]
  | announcing {x : Exchange} {events : List ClaimEvent} (h : x.Unsent .setActiveClient)
    (hasked : Asked events) : Told (.announce x) events
  | announced {x : Exchange} {events : List ClaimEvent} (h : x.Sent) (hasked : Asked events)
    (body : Json) : Told (.announce x) (events ++ [.request .setActiveClient body])
  | done (outcome : Except ClientError Bool) {events : List ClaimEvent} (hasked : Asked events)
    (body : Json) : Told (.done outcome) (events ++ [.request .setActiveClient body])

theorem Asked.countP_announces {events : List ClaimEvent} (h : Asked events) :
    events.countP ClaimEvent.announces = 1 := by
  cases h with
  | known id email => rfl
  | lookedUp id body => rfl

theorem Asked.announces {events : List ClaimEvent} (h : Asked events) :
    ∃ event ∈ events, event.announces = true := by
  refine List.countP_pos_iff.mp ?_
  rw [h.countP_announces]
  exact Nat.one_pos

theorem Asked.countP_requests {events : List ClaimEvent} (h : Asked events) :
    events.countP (ClaimEvent.requests .setActiveClient) = 0 := by
  cases h with
  | known id email => rfl
  | lookedUp id body => simp

theorem Asked.isAnnouncement {events : List ClaimEvent} (h : Asked events) {answer : Activation}
    (hmem : .decided answer ∈ events) : answer.isAnnouncement = true := by
  cases h with
  | known id email =>
    cases List.mem_singleton.mp hmem
    rfl
  | lookedUp id body =>
    rcases List.mem_cons.mp hmem with hfirst | hmem
    · cases hfirst
      rfl
    · cases List.mem_singleton.mp hmem

theorem Asked.exists_of_lookUp {events : List ClaimEvent} (h : Asked events) {event : ClaimEvent}
    (hmem : event ∈ events) (hevent : event.requests .getSelfInfo = true) :
    ∃ id, .decided (.announce id none) ∈ events := by
  cases h with
  | known id email =>
    cases List.mem_singleton.mp hmem
    cases hevent
  | lookedUp id body => exact ⟨id, List.mem_cons_self⟩

namespace Told

variable {c : Client} {x : Claim} {events : List ClaimEvent}

theorem announcement (c : Client) (hasked : Asked events) : Told (Claim.announcement c) events :=
  .announcing rfl hasked

/-- Whatever the lookup brings, the announcement is to come. -/
theorem afterLookUp (c : Client) (reply : Except ClientError Message) (hasked : Asked events)
    (hstore : ∀ email, Told (.store email) events) : Told (Claim.afterLookUp c reply) events := by
  unfold Claim.afterLookUp
  split
  · exact announcement c hasked
  · split
    · exact hstore _
    · exact announcement c hasked

theorem decide (c : Client) : Told (Claim.decide.step c).2 (Claim.decide.events c) := by
  have hlog : (Claim.decide.step c).1.transport.log = c.transport.log ++ [] := by
    rw [Claim.step, List.append_nil]
    dsimp only
    split <;> rfl
  have hdecided := c.session.decided_activate c.clock.seconds c.config.session.limit
  rw [Claim.events_eq hlog, Claim.step, Claim.operations, Session.answers,
    Session.Operation.answer?]
  dsimp only
  generalize c.session.activate c.clock.seconds c.config.session.limit = r at hdecided ⊢
  cases hdecided with
  | noClientId _ => exact .declined rfl
  | throttled _ _ _ => exact .declined rfl
  | @announce id _ _ =>
    cases c.session.email with
    | none =>
      have hunsent : (Exchange.build .getSelfInfo).Unsent .getSelfInfo := rfl
      exact .lookingUp hunsent id
    | some email => exact announcement _ (.known id email)

/-- A claim goes on by one step.  It can do so if the client has an id, once the claim has been
told to announce. -/
theorem step (h : Told x events)
    (hid : (∃ event ∈ events, event.announces = true) → c.session.clientId.isSome = true) :
    Told (x.step c).2 (events ++ x.events c) := by
  cases h with
  | undecided => exact decide c
  | declined hanswer =>
    rw [Claim.events_eq (List.append_nil _).symm]
    exact .declined hanswer
  | lookingUp he id =>
    have hhas := hid ⟨_, List.mem_cons_self, rfl⟩
    rw [Claim.step_lookUp he.outcome?]
    rcases he.step hhas with ⟨he', hlog⟩ | ⟨he', body, hlog⟩
    · rw [Claim.events_lookUp he.outcome? hlog]
      exact .lookingUp he' id
    · rw [Claim.events_lookUp he.outcome? hlog]
      exact .lookedUp he' id body
  | @lookedUp e he id body =>
    cases houtcome : e.outcome? with
    | none =>
      obtain ⟨he', hlog⟩ := he.step (c := c)
      rw [Claim.step_lookUp houtcome, Claim.events_lookUp houtcome hlog]
      exact .lookedUp he' id body
    | some reply =>
      have hstep : (Claim.lookUp e).step c = (c, Claim.afterLookUp c reply) := by
        rw [Claim.step, houtcome]
      rw [Claim.events_eq (by rw [hstep, List.append_nil]), hstep]
      exact afterLookUp c reply (.lookedUp id body) fun email => .storing email id body
  | storing email id body =>
    rw [Claim.events_eq (List.append_nil _).symm]
    exact announcement _ (.lookedUp id body)
  | announcing he hasked =>
    have hhas := hid hasked.announces
    rw [Claim.step_announce he.outcome?]
    rcases he.step hhas with ⟨he', hlog⟩ | ⟨he', body, hlog⟩
    · rw [Claim.events_announce he.outcome? hlog]
      exact .announcing he' ((List.append_nil events).symm ▸ hasked)
    · rw [Claim.events_announce he.outcome? hlog]
      exact .announced he' hasked body
  | @announced e asked he hasked body =>
    cases houtcome : e.outcome? with
    | none =>
      obtain ⟨he', hlog⟩ := he.step (c := c)
      rw [Claim.step_announce houtcome, Claim.events_announce houtcome hlog]
      exact (List.append_nil (asked ++ _)).symm ▸ .announced he' hasked body
    | some reply =>
      have hstep : (Claim.announce e).step c = (c, .done (reply.map fun _ => true)) := by
        rw [Claim.step, houtcome]
      rw [Claim.events_eq (by rw [hstep, List.append_nil]), hstep]
      exact (List.append_nil (asked ++ _)).symm ▸ .done _ hasked body
  | @done outcome asked hasked body =>
    rw [Claim.events_eq (List.append_nil _).symm]
    exact (List.append_nil (asked ++ _)).symm ▸ .done outcome hasked body

/-- What a claim has done by the time it has announced, or has not. -/
theorem cases_events (h : Told x events) :
    events = [] ∨ (∃ answer, answer.isAnnouncement = false ∧ events = [.decided answer]) ∨
      (∃ id, events = [.decided (.announce id none)]) ∨ Asked events ∨
        ∃ asked body, Asked asked ∧ events = asked ++ [.request .setActiveClient body] := by
  cases h with
  | undecided => exact Or.inl rfl
  | declined hanswer => exact Or.inr (Or.inl ⟨_, hanswer, rfl⟩)
  | lookingUp _ id => exact Or.inr (Or.inr (Or.inl ⟨id, rfl⟩))
  | lookedUp _ id body => exact Or.inr (Or.inr (Or.inr (Or.inl (.lookedUp id body))))
  | storing _ id body => exact Or.inr (Or.inr (Or.inr (Or.inl (.lookedUp id body))))
  | announcing _ hasked => exact Or.inr (Or.inr (Or.inr (Or.inl hasked)))
  | announced _ hasked body => exact Or.inr (Or.inr (Or.inr (Or.inr ⟨_, body, hasked, rfl⟩)))
  | done _ hasked body => exact Or.inr (Or.inr (Or.inr (Or.inr ⟨_, body, hasked, rfl⟩)))

/-- A claim announces at most as often as it was told to. -/
theorem countP_requests_le (h : Told x events) :
    events.countP (ClaimEvent.requests .setActiveClient) ≤ events.countP ClaimEvent.announces := by
  rcases h.cases_events with rfl | ⟨answer, -, rfl⟩ | ⟨id, rfl⟩ | hasked |
    ⟨asked, body, hasked, rfl⟩
  · exact Nat.le_refl 0
  · simp
  · simp
  · rw [hasked.countP_requests]
    exact Nat.zero_le _
  · rw [List.countP_append, List.countP_append, hasked.countP_requests, hasked.countP_announces]
    simp

/-- A claim that was told to announce and has come to its end has announced once. -/
theorem countP_requests_of_done {outcome : Except ClientError Bool}
    (h : Told (.done outcome) events) (htold : ∃ event ∈ events, event.announces = true) :
    events.countP (ClaimEvent.requests .setActiveClient) = 1 := by
  cases h with
  | declined hanswer =>
    obtain ⟨event, hevent, hannounces⟩ := htold
    rw [List.mem_singleton.mp hevent] at hannounces
    exact absurd (hanswer.symm.trans hannounces) Bool.false_ne_true
  | done _ hasked body => simp [hasked.countP_requests]

/-- A claim that was told not to announce does nothing more. -/
theorem eq_of_declined (h : Told x events) {answer : Activation} (hmem : .decided answer ∈ events)
    (hanswer : answer.isAnnouncement = false) : events = [.decided answer] := by
  rcases h.cases_events with rfl | ⟨other, -, rfl⟩ | ⟨id, rfl⟩ | hasked | ⟨asked, body, hasked, rfl⟩
  · cases hmem
  · rw [List.mem_singleton.mp hmem]
  · cases List.mem_singleton.mp hmem
    cases hanswer
  · exact absurd (hanswer.symm.trans (hasked.isAnnouncement hmem)) Bool.false_ne_true
  · rcases List.mem_append.mp hmem with hmem | hmem
    · exact absurd (hanswer.symm.trans (hasked.isAnnouncement hmem)) Bool.false_ne_true
    · cases List.mem_singleton.mp hmem

/-- A claim looks up the account only if it was told to announce without an address. -/
theorem exists_of_lookUp (h : Told x events) {event : ClaimEvent} (hmem : event ∈ events)
    (hevent : event.requests .getSelfInfo = true) :
    ∃ id, .decided (.announce id none) ∈ events := by
  rcases h.cases_events with rfl | ⟨answer, -, rfl⟩ | ⟨id, rfl⟩ | hasked |
    ⟨asked, body, hasked, rfl⟩
  · cases hmem
  · cases List.mem_singleton.mp hmem
    cases hevent
  · exact ⟨id, List.mem_cons_self⟩
  · exact hasked.exists_of_lookUp hmem hevent
  · rcases List.mem_append.mp hmem with hmem | hmem
    · obtain ⟨id, hid⟩ := hasked.exists_of_lookUp hmem hevent
      exact ⟨id, List.mem_append_left _ hid⟩
    · rw [List.mem_singleton.mp hmem, ClaimEvent.requests_announcement] at hevent
      cases hevent

end Told

end LiteChat
