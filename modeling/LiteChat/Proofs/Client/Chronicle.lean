import LiteChat.Client.Engine

/-!
# What outboxes do in a run

A run of the engine is a list of actions.  This module reads off a run what its outboxes
did with the chat messages in them: which one was begun, what was sent for it and what the
transport had for a reply, what came of it (`Engine.chronicle`).  Nothing is added to the
engine for that; every event is read off the state in which an outbox moves
(`Outbox.event?`).

`Reaches` has the runs that these events are looked at for: those in which nobody ends the
connection or stops what is under way, and in which only somebody who has the client posts
chat messages and starts errands, none of which sends a chat message by itself.
-/

namespace LiteChat

/-! ## Events -/

/-- What an outbox does with a chat message. -/
inductive OutboxEvent where
  /-- It begins with the message. -/
  | begun (job : Job)
  /-- It sends the request, for which the transport has a reply. -/
  | sent (job : Job) (request : Request) (reply : Reply)
  /-- It reads the reply. -/
  | answered (job : Job) (outcome : Except ClientError Message)
  /-- It does not send the message, since nobody holds the client. -/
  | refused (job : Job)

namespace OutboxEvent

/-- The ticket that an event settles in the outbox of a conversation, and the outcome. -/
def settled? (conversation : String) : OutboxEvent → Option (Nat × Except ClientError Message)
  | .answered job outcome => some (job.ticket, outcome)
  | .refused job => some (job.ticket, .error (.outboxClosed conversation))
  | _ => none

/-- The request that an event sends. -/
def request? : OutboxEvent → Option Request
  | .sent _ request _ => some request
  | _ => none

end OutboxEvent

/-- What an outbox will do in its next step, if that concerns a chat message. -/
def Outbox.event? (c : Client) (isHeld : Bool) (o : Outbox) : Option OutboxEvent :=
  match o.current with
  | some (job, .send request) =>
    some (.sent job request (c.transport.nextReply request.endpoint.path))
  | some (job, .await endpoint reply) => some (.answered job (endpoint.readReply reply))
  | some _ => none
  | none =>
    match o.queue with
    | job :: _ => some (if isHeld then .begun job else .refused job)
    | [] => none

/-- The events of outboxes, each with the conversation, in the order in which they came
about. -/
abbrev Chronicle := List (String × OutboxEvent)

namespace Chronicle

/-- The events of one conversation. -/
def eventsOf (c : String) (ch : Chronicle) : List OutboxEvent :=
  (ch.filter fun p => decide (p.1 = c)).map Prod.snd

/-- The first outcome for a ticket. -/
def outcomeOf? (ch : Chronicle) (ticket : Nat) : Option (Except ClientError Message) :=
  ch.findSome? fun p =>
    (p.2.settled? p.1).bind fun s => if s.1 = ticket then some s.2 else none

/-- The requests that were sent. -/
def requests (ch : Chronicle) : List Request := ch.filterMap fun p => p.2.request?

theorem eventsOf_append (c : String) (ch ch' : Chronicle) :
    eventsOf c (ch ++ ch') = eventsOf c ch ++ eventsOf c ch' := by
  rw [eventsOf, List.filter_append, List.map_append]
  rfl

theorem mem_eventsOf {c : String} {ch : Chronicle} {event : OutboxEvent} :
    event ∈ eventsOf c ch ↔ (c, event) ∈ ch := by
  simp [eventsOf]

theorem eventsOf_self (c : String) (event : Option OutboxEvent) :
    eventsOf c (event.map fun event => (c, event)).toList = event.toList := by
  cases event <;> simp [eventsOf]

theorem eventsOf_of_ne {c c' : String} (h : c' ≠ c) (event : Option OutboxEvent) :
    eventsOf c (event.map fun event => (c', event)).toList = [] := by
  cases event <;> simp [eventsOf, h]

theorem requests_append (ch ch' : Chronicle) : requests (ch ++ ch') = requests ch ++ requests ch' :=
  List.filterMap_append

theorem requests_of_event (c : String) (event : Option OutboxEvent) :
    requests (event.map fun event => (c, event)).toList =
      (event.bind OutboxEvent.request?).toList := by
  cases event with
  | none => rfl
  | some event => cases h : event.request? <;> simp [requests, h]

theorem exists_of_outcomeOf? {ch : Chronicle} {ticket : Nat}
    {outcome : Except ClientError Message} (h : ch.outcomeOf? ticket = some outcome) :
    ∃ c event, (c, event) ∈ ch ∧ event.settled? c = some (ticket, outcome) := by
  obtain ⟨⟨c, event⟩, hmem, hevent⟩ := List.exists_of_findSome?_eq_some h
  obtain ⟨s, hs, hticket⟩ := Option.bind_eq_some_iff.mp hevent
  split at hticket
  · rename_i hs'
    cases hticket
    exact ⟨c, event, hmem, hs' ▸ hs⟩
  · cases hticket

end Chronicle

/-! ## Runs -/

namespace Exchange

/-- Whether a call is none that sends a chat message. -/
def isQuiet : Exchange → Bool
  | .build call => decide (call.endpoint ≠ .sendChatMessage)
  | .send request => decide (request.endpoint ≠ .sendChatMessage)
  | _ => true

end Exchange

/-- Whether a claim sends no chat message. -/
def Claim.isQuiet : Claim → Bool
  | .lookUp e | .announce e => e.isQuiet
  | _ => true

/-- Whether an errand sends no chat message. -/
def Errand.isQuiet : Errand → Bool
  | .exchange e => e.isQuiet
  | .claim c => c.isQuiet
  | _ => true

/-- Whether an action drops a receipt. -/
def Action.isDrop : Action → Bool
  | .dropReceipt _ => true
  | _ => false

/-- Whether an action is a move of the outbox of a number. -/
def Action.movesOutbox (n : Nat) : Action → Bool
  | .move (.outbox k) => decide (k = n)
  | _ => false

/-- The chat messages that are posted, in order. -/
def Action.posted (actions : List Action) : List Posting :=
  actions.filterMap fun
    | .post conversation message requestId => some (.new conversation message requestId)
    | _ => none

namespace Engine

/-- What an outbox does in an action. -/
def event? (e : Engine) : Action → Option (String × OutboxEvent)
  | .move (.outbox n) =>
    (Keyed.get? n e.outboxes).bind fun o =>
      (o.event? e.client e.isHeld).map fun event => (o.conversation, event)
  | _ => none

/-- What the outboxes do in a run. -/
def chronicle : Engine → List Action → Chronicle
  | _, [] => []
  | e, a :: rest => (e.event? a).toList ++ (e.step a).chronicle rest

/-- Whether an action can come about without an end of the connection: a caller has to
have the client, and sends chat messages by posting them. -/
def permits (e : Engine) : Action → Prop
  | .post .. => e.hasCaller = true
  | .start errand => e.hasCaller = true ∧ errand.isQuiet = true
  | .disconnect => False
  | .stop => False
  | _ => True

/-- The engines that runs lead to from one engine. -/
inductive Reaches (start : Engine) : List Action → Engine → Prop where
  | refl : Reaches start [] start
  | next {actions : List Action} {e : Engine} {a : Action} (h : Reaches start actions e)
    (ha : e.permits a) : Reaches start (actions ++ [a]) (e.step a)

variable {start e : Engine} {actions : List Action}

theorem run_append (e : Engine) (actions actions' : List Action) :
    e.run (actions ++ actions') = (e.run actions).run actions' :=
  List.foldl_append ..

theorem Reaches.eq_run (h : start.Reaches actions e) : e = start.run actions := by
  induction h with
  | refl => rfl
  | next _ _ ih => rw [run_append, ← ih]; rfl

theorem Reaches.trans {e' : Engine} {actions' : List Action} (h : start.Reaches actions e)
    (h' : e.Reaches actions' e') : start.Reaches (actions ++ actions') e' := by
  induction h' with
  | refl => rwa [List.append_nil]
  | next _ ha ih =>
    rw [← List.append_assoc]
    exact ih.next ha

/-- Whether every action of a run can come about in its turn. -/
def permitsAll : Engine → List Action → Prop
  | _, [] => True
  | e, a :: rest => e.permits a ∧ (e.step a).permitsAll rest

theorem reaches_run (h : e.permitsAll actions) : e.Reaches actions (e.run actions) := by
  induction actions generalizing e with
  | nil => exact .refl
  | cons a rest ih =>
    obtain ⟨ha, hrest⟩ := h
    have hfirst : e.Reaches [a] (e.step a) := .next .refl ha
    exact hfirst.trans (ih hrest)

theorem chronicle_append (e : Engine) (actions actions' : List Action) :
    e.chronicle (actions ++ actions') = e.chronicle actions ++ (e.run actions).chronicle actions' := by
  induction actions generalizing e with
  | nil => rfl
  | cons a rest ih =>
    rw [List.cons_append, chronicle, chronicle, ih, List.append_assoc]
    rfl

theorem Reaches.chronicle_next (h : start.Reaches actions e) (a : Action) :
    start.chronicle (actions ++ [a]) = start.chronicle actions ++ (e.event? a).toList := by
  rw [chronicle_append, ← h.eq_run, chronicle, chronicle, List.append_nil]

end Engine

end LiteChat
