import LiteChat.Proofs.Client.Reception
import LiteChat.Proofs.Client.Runs

/-!
# What a listener makes of the push channel

A listener takes an event in one step and works it off in the steps after it, while other
things go on.  What is still to come of the event under way is known in every state
(`Client.finish`), so a run comes to the same as if the events that it takes were worked off
at once, one after another (`Engine.Follows.settled`).
-/

namespace LiteChat

/-! ## Events and the rest of a client -/

namespace Client

namespace SameSession

variable {c c' : Client}

theorem observe (h : c.SameSession c') (id : String) : (c.observe id).SameSession (c'.observe id) :=
  ⟨h.config_eq, congrArg (Session.observe · id) h.session_eq, h.published_eq, h.maps_eq⟩

theorem publish (h : c.SameSession c') (event : ClientEvent) :
    (c.publish event).SameSession (c'.publish event) :=
  ⟨h.config_eq, h.session_eq, congrArg (· ++ [event]) h.published_eq, h.maps_eq⟩

theorem subscribe (h : c.SameSession c') : c.subscribe.SameSession c'.subscribe := by
  refine ⟨h.config_eq, h.session_eq, h.published_eq, ?_⟩
  rw [Client.subscribe, Client.subscribe, Transport.sentMaps_sendMaps, Transport.sentMaps_sendMaps,
    h.maps_eq, h.config_eq]

theorem deliver (h : c.SameSession c') (push : Option PushEvent) :
    (c.deliver push).SameSession (c'.deliver push) := by
  cases push with
  | none => exact h
  | some event =>
    cases event with
    | ignored discriminator => exact h
    | batch updates =>
      rw [deliver_batch, deliver_batch]
      refine ⟨h.config_eq, ?_, ?_, h.maps_eq⟩
      · dsimp only
        rw [h.session_eq]
      · dsimp only
        rw [h.published_eq]

theorem finish (h : c.SameSession c') (hearing : Hearing) :
    (c.finish hearing).SameSession (c'.finish hearing) := by
  cases hearing with
  | waiting => exact h
  | subscribing push => exact h.subscribe.deliver push
  | delivering push => exact h.deliver push
  | observing envelope =>
    rw [Client.finish, Client.finish, h.session_eq]
    split
    · split
      · exact (h.observe _).subscribe.deliver _
      · exact h.deliver _
    · exact h.deliver _

theorem absorb (h : c.SameSession c') (event : TransportEvent) :
    (c.absorb event).SameSession (c'.absorb event) := by
  cases event with
  | message raw =>
    rw [Client.absorb, Client.absorb, Listener.hear, Listener.hear]
    cases Envelope.ofPush? raw with
    | none => exact h
    | some envelope => exact h.finish (.observing envelope)
  | _ => exact h.publish _

theorem absorb_all (h : c.SameSession c') (events : List TransportEvent) :
    (events.foldl Client.absorb c).SameSession (events.foldl Client.absorb c') := by
  induction events generalizing c c' with
  | nil => exact h
  | cons event rest ih => exact ih (h.absorb event)

end SameSession

end Client

/-! ## What a listener takes in a run -/

namespace Listener

/-- The event that a listener takes in its next step. -/
def taken (c : Client) (isHeld : Bool) (l : Listener) : List TransportEvent :=
  match l.hearing with
  | .waiting => if isHeld then (c.transport.feed.first? l.receiver).toList else []
  | _ => []

/-- How far a listener is, which waits if there is none. -/
def hearingOf (l : Option Listener) : Hearing := (l.map Listener.hearing).getD .waiting

/-- A step of a listener takes the event under way further, or takes the next one. -/
theorem settled_step (c : Client) (isHeld : Bool) (l : Listener) :
    ((l.taken c isHeld).foldl Client.absorb (c.finish l.hearing)).SameSession
      ((l.step c isHeld).1.finish (hearingOf (l.step c isHeld).2)) := by
  obtain ⟨receiver, hearing⟩ := l
  cases hearing with
  | subscribing push => exact .refl _
  | delivering push => exact .refl _
  | observing envelope =>
    rw [taken, List.foldl_nil, Client.finish, step]
    dsimp only
    cases envelope.clientId with
    | none => exact .refl _
    | some id =>
      dsimp only
      split <;> exact .refl _
  | waiting =>
    rw [taken, Client.finish, step]
    dsimp only
    cases c.transport.feed.first? receiver with
    | none =>
      -- there is nothing to take, and the receiver may be gone
      rw [Option.toList_none, ite_self, List.foldl_nil]
      cases c.transport.feed.hasEnded receiver <;> exact ⟨rfl, rfl, rfl, rfl⟩
    | some event =>
      cases isHeld with
      | false => exact ⟨rfl, rfl, rfl, rfl⟩
      | true =>
        have htaken : c.SameSession (c.takeEvent receiver) := ⟨rfl, rfl, rfl, rfl⟩
        exact htaken.absorb event

end Listener

namespace Engine

/-- How far the listener is. -/
def hearing (e : Engine) : Hearing := Listener.hearingOf e.listener

/-- The client once the event under way has been worked off. -/
def settled (e : Engine) : Client := e.client.finish e.hearing

/-- The event that is taken in an action. -/
def takes (e : Engine) : Action → List TransportEvent
  | .move .listener => e.listener.toList.flatMap fun l => l.taken e.client e.isHeld
  | _ => []

/-- The events that are taken in a run, in order. -/
def heard (e : Engine) (actions : List Action) : List TransportEvent := e.readings takes actions

/-- Whether an action leaves the session to the listener, and the listener in its place. -/
def attends (e : Engine) : Action → Prop
  | .disconnect => False
  | .stop => False
  | .move .listener => True
  | .move (.errand n) =>
    ¬ e.touches (.move (.errand n)) ∧
      ∀ receiver, Keyed.get? n e.errands ≠ some (.connect (.install receiver))
  | _ => True

variable {start e : Engine} {actions : List Action} {a : Action}

theorem stepConnection_listener (e : Engine) {x : Connection} (hx : ∀ r, x ≠ .install r) :
    (e.stepConnection x).1.listener = e.listener := by
  cases x with
  | install r => exact absurd rfl (hx r)
  | listen =>
    rw [stepConnection]
    dsimp only
    split <;> rfl
  | _ => rfl

theorem withClient_listener (e : Engine) (c : Client) :
    (e.withClient c).listener = e.listener := rfl

/-- Nobody else moves the listener. -/
theorem listener_step (ha : e.attends a) (hne : a ≠ .move .listener) :
    (e.step a).listener = e.listener := by
  cases a with
  | disconnect => exact absurd ha id
  | stop => exact absurd ha id
  | wait span => exact e.withClient_listener _
  | post c message requestId =>
    rw [step, post]
    dsimp only
    split <;> rfl
  | move m =>
    cases m with
    | listener => exact absurd rfl hne
    | outbox n =>
      rw [step, move]
      split
      · rename_i o _
        exact (e.moveOutbox_rest n o).2.2.1
      · rfl
    | errand n =>
      rw [step, move]
      split
      · rename_i t ht
        cases t with
        | connect x =>
          refine e.stepConnection_listener fun r hx => ha.2 r ?_
          rw [ht, hx]
        | _ => rfl
      · rfl
  | _ => rfl

/-- What goes on beside the listener leaves it where it is and the session alone. -/
theorem sameSession_settled (ha : e.attends a) (hne : a ≠ .move .listener) :
    e.settled.SameSession (e.step a).settled := by
  have huntouched : ¬ e.touches a := by
    intro htouches
    cases a with
    | move m =>
      cases m with
      | listener => exact hne rfl
      | outbox n => exact htouches
      | errand n => exact ha.1 htouches
    | _ => exact htouches
  rw [settled, settled, hearing, hearing, listener_step ha hne]
  exact (sameSession_step huntouched).finish _

/-- A step of the listener takes the event under way further, or takes the next one. -/
theorem settled_listener (e : Engine) :
    ((e.takes (.move .listener)).foldl Client.absorb e.settled).SameSession
      (e.step (.move .listener)).settled := by
  rw [takes, settled, settled, hearing, hearing, step, move]
  cases hlistener : e.listener with
  | none =>
    dsimp only
    rw [hlistener]
    exact .refl e.client
  | some l =>
    have hstep := l.settled_step e.client e.isHeld
    rw [Option.toList_some, List.flatMap_singleton]
    exact hstep

/-- A run comes to the same as its events one after another, each worked off at once. -/
theorem Follows.settled (h : start.Follows attends actions e) :
    ((start.heard actions).foldl Client.absorb start.settled).SameSession e.settled := by
  induction h with
  | refl => exact .refl _
  | @next actions e a h ha ih =>
    rw [heard, h.readings_next, List.foldl_append]
    refine (ih.absorb_all _).trans ?_
    by_cases hlistener : a = .move .listener
    · rw [hlistener]
      exact e.settled_listener
    · have hnothing : e.takes a = [] := by
        cases a with
        | move m =>
          cases m with
          | listener => exact absurd rfl hlistener
          | _ => rfl
        | _ => rfl
      rw [hnothing]
      exact sameSession_settled ha hlistener

/-- What a listener has made of the events of a run. -/
structure Received (start : Engine) (actions : List Action) (e : Engine) : Prop where
  demultiplexed : Demultiplexed start.client e.client (start.heard actions)
  /-- The updates of an array are those in its payload, one for one and in their order. -/
  inOrder : ∀ event ∈ start.heard actions, ∀ updates, event.push? = some (.batch updates) →
    ∃ payload batch, event.payload? = some payload ∧
      Lite.decode Service.schema "BatchUpdate" .discriminated payload = .ok batch ∧
      List.Forall₂ (fun m u => StateUpdate.ofMessage m = .ok u)
        ((batch.elements "state_update").filterMap Value.message?) updates
  /-- At an array that is dropped the listener goes on waiting, and nothing changes. -/
  dropped : ∀ raw, .message raw ∈ start.heard actions → Dropped raw →
    ∀ c, Listener.hear c (.message raw) = (c, .waiting)

/-- Whatever else goes on, a listener publishes what the events hold and nothing else, and leaves
the session as the last of them says. -/
theorem received (hstart : start.hearing = .waiting) (h : start.Follows attends actions e)
    (hend : e.hearing = .waiting) : start.Received actions e where
  demultiplexed := by
    have hrun := h.settled
    rw [Engine.settled, Engine.settled, hstart, hend] at hrun
    exact (Demultiplexed.absorb_all start.client (start.heard actions)).of_sameSession hrun
  inOrder := fun _ _ _ hpush => TransportEvent.forall₂_push? hpush
  dropped := by
    intro raw _ hdropped c
    rw [Listener.hear, hdropped.ofPush?]

/-- An engine whose client has just been connected. -/
def listening : Engine :=
  (Engine.new .standard ⟨0⟩).run
    [.start (.connect .reset), .move (.errand 0), .move (.errand 0), .move (.errand 0)]

/-- The channel opens, an id is assigned, and then come an array that is dropped and the same id
again, while a chat message is posted and sent. -/
def assignment : List Action :=
  [.push .connected, .push (.message [.object [("3", .object [("2", .string "id")])]]),
   .move .listener, .move .listener, .post "a" (.ofText "first") 1, .move .listener,
   .move (.outbox 0), .move .listener, .move .listener, .push (.message [.string "noop"]),
   .push (.message [.object [("3", .object [("2", .string "id")])]]), .move .listener,
   .move .listener, .move (.outbox 0), .move .listener, .move .listener]

theorem received_assignment :
    listening.hearing = .waiting ∧ listening.Follows attends assignment (listening.run assignment) ∧
      (listening.run assignment).hearing = .waiting ∧
      listening.Received assignment (listening.run assignment) := by
  have hstart : listening.hearing = .waiting := rfl
  have hfollows : listening.Follows attends assignment (listening.run assignment) :=
    follows_run ⟨trivial, trivial, trivial, trivial, trivial, trivial, trivial, trivial, trivial,
      trivial, trivial, trivial, trivial, trivial, trivial, trivial, trivial⟩
  have hend : (listening.run assignment).hearing = .waiting := rfl
  exact ⟨hstart, hfollows, hend, received hstart hfollows hend⟩

example : (listening.run assignment).client.transport.sentMaps = [[subscription "babel"]] := by
  decide +kernel

end Engine

end LiteChat
