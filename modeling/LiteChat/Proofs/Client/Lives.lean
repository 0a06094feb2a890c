import LiteChat.Proofs.Client.Runs
import LiteChat.Proofs.Client.Untouched
import LiteChat.Proofs.Session.Announcements

/-!
# The life of a session in a run

Whatever an engine does to the session of its client is done by the operations of a session.
This module reads off a run which of them come about (`Engine.operations`, `Engine.lived`), and
so what is known of the lives of sessions holds of the runs of an engine (`session_run`).
-/

namespace LiteChat

/-- What the next step of a listener does to the session. -/
def Listener.operations (c : Client) (l : Listener) : List Session.Operation :=
  match l.hearing with
  | .observing envelope => (envelope.clientId.filter c.session.isNew).toList.map .observe
  | .delivering (some (.batch updates)) =>
    (updates.filterMap StateUpdate.activeClientState?).map .heed
  | _ => []

/-- What the next step of a claim does to the session. -/
def Claim.operations (c : Client) : Claim → List Session.Operation
  | .decide => [.activate c.clock.seconds c.config.session.limit]
  | .store email => [.resolveEmail email]
  | _ => []

/-- What the next step of an errand does to the session. -/
def Errand.operations (c : Client) : Errand → List Session.Operation
  | .claim x => x.operations c
  | .connect .reset => [.reset]
  | _ => []

/-- The listener passes on ids and words on who is active. -/
theorem Listener.operations_cases {c : Client} {l : Listener} {op : Session.Operation}
    (h : op ∈ l.operations c) : (∃ id, op = .observe id) ∨ ∃ state, op = .heed state := by
  unfold operations at h
  split at h
  · obtain ⟨id, -, rfl⟩ := List.mem_map.mp h
    exact Or.inl ⟨id, rfl⟩
  · obtain ⟨state, -, rfl⟩ := List.mem_map.mp h
    exact Or.inr ⟨state, rfl⟩
  · cases h

/-! ## Single steps -/

theorem Client.session_deliver (c : Client) (updates : List StateUpdate) :
    (c.deliver (some (.batch updates))).session =
      ((updates.filterMap StateUpdate.activeClientState?).map Session.Operation.heed).foldl
        Session.Operation.apply c.session := by
  rw [deliver]
  induction updates generalizing c with
  | nil => rfl
  | cons update rest ih =>
    rw [List.foldl_cons, ih, apply]
    cases hstate : update.activeClientState? with
    | none => rw [List.filterMap_cons_none hstate]
    | some state =>
      rw [List.filterMap_cons_some hstate]
      rfl

theorem Listener.session_hear (c : Client) (event : TransportEvent) :
    (hear c event).1.session = c.session := by
  cases event with
  | message raw =>
    rw [hear]
    cases Envelope.ofPush? raw <;> rfl
  | _ => rfl

theorem Listener.session_step (c : Client) (isHeld : Bool) (l : Listener) :
    (l.step c isHeld).1.session = (l.operations c).foldl Session.Operation.apply c.session := by
  obtain ⟨receiver, hearing⟩ := l
  cases hearing with
  | subscribing push => rfl
  | delivering push =>
    cases push with
    | none => rfl
    | some event =>
      cases event with
      | ignored discriminator => rfl
      | batch updates => exact c.session_deliver updates
  | observing envelope =>
    rw [step, operations]
    dsimp only
    cases envelope.clientId with
    | none => rfl
    | some id =>
      rw [Option.filter_some]
      dsimp only
      cases c.session.isNew id <;> rfl
  | waiting =>
    rw [step, operations]
    dsimp only
    cases c.transport.feed.first? receiver with
    | none => cases c.transport.feed.hasEnded receiver <;> rfl
    | some event =>
      cases isHeld with
      | false => rfl
      | true => exact session_hear (c.takeEvent receiver) event

theorem Claim.session_step (c : Client) (x : Claim) :
    (x.step c).1.session = (x.operations c).foldl Session.Operation.apply c.session := by
  cases x with
  | decide =>
    rw [step]
    dsimp only
    split <;> rfl
  | lookUp e =>
    rw [step]
    split
    · rfl
    · exact (e.sameSession_step c).session_eq
  | announce e =>
    rw [step]
    split
    · rfl
    · exact (e.sameSession_step c).session_eq
  | _ => rfl

/-! ## Runs -/

namespace Engine

/-- What an action does to the session. -/
def operations (e : Engine) : Action → List Session.Operation
  | .move .listener => e.listener.toList.flatMap (Listener.operations e.client)
  | .move (.errand n) => (Keyed.get? n e.errands).toList.flatMap (Errand.operations e.client)
  | _ => []

/-- What a run does to the session. -/
def lived (e : Engine) (actions : List Action) : List Session.Operation :=
  e.readings operations actions

variable {e : Engine} {a : Action}

theorem operations_of_not_touches (h : ¬ e.touches a) : e.operations a = [] := by
  cases a with
  | move m =>
    cases m with
    | listener => exact absurd trivial h
    | outbox n => rfl
    | errand n =>
      rw [operations]
      cases ht : Keyed.get? n e.errands with
      | none => rfl
      | some t =>
        cases t with
        | claim x => exact absurd (Or.inl ⟨x, ht⟩) h
        | connect x =>
          cases x with
          | reset => exact absurd (Or.inr ht) h
          | _ => rfl
        | _ => rfl
  | _ => rfl

/-- The session goes through the operations of each action. -/
theorem session_step (e : Engine) (a : Action) :
    (e.step a).client.session =
      (e.operations a).foldl Session.Operation.apply e.client.session := by
  by_cases h : e.touches a
  · cases a with
    | move m =>
      cases m with
      | outbox n => exact absurd h id
      | listener =>
        rw [step, move, operations]
        cases e.listener with
        | none => rfl
        | some l =>
          rw [Option.toList_some, List.flatMap_singleton]
          exact l.session_step e.client e.isHeld
      | errand n =>
        rw [step, move, operations]
        rcases h with ⟨x, hx⟩ | hx
        · rw [hx, Option.toList_some, List.flatMap_singleton]
          exact x.session_step e.client
        · rw [hx]
          rfl
    | _ => exact absurd h id
  · rw [operations_of_not_touches h]
    exact (sameSession_step h).session_eq

theorem session_run (e : Engine) (actions : List Action) :
    (e.run actions).client.session =
      (e.lived actions).foldl Session.Operation.apply e.client.session := by
  induction actions generalizing e with
  | nil => rfl
  | cons a rest ih =>
    rw [lived, readings, List.foldl_append, ← session_step]
    exact ih (e.step a)

end Engine

end LiteChat
