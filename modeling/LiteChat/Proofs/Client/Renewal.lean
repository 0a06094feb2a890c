import LiteChat.Proofs.Client.Listening
import LiteChat.Proofs.Client.Numbers

/-!
# Connections that start over

A connection makes the session fresh, opens a receiver, and then puts a new listener in the place
of the one before.  These are three steps, and until the last one the listener before is still at
work.  If it leaves the session alone for so long (`Engine.yields`), what becomes of the session
is nothing but what was done to it since it was made fresh: by claims, and by events that were
taken from the receiver that was opened for it (`Engine.renewed_of_yields`).  Otherwise an id that
came to the receiver before can be stored in the fresh session, and is still there when the
connection has come to its end (`Engine.belated`); and a connection that is refused leaves the
listener before at work, though the session was made fresh (`Engine.refused`).
-/

namespace LiteChat

/-! ## Events and sessions -/

namespace TransportEvent

/-- What an event can bring about in a session. -/
def operations (event : TransportEvent) : List Session.Operation :=
  event.clientId?.toList.map .observe ++
    (event.updates.filterMap StateUpdate.activeClientState?).map .heed

variable {event : TransportEvent}

theorem clientId?_of_mem_operations {id : String} (h : .observe id ∈ event.operations) :
    event.clientId? = some id := by
  rcases List.mem_append.mp h with h | h
  · obtain ⟨id', hid, he⟩ := List.mem_map.mp h
    cases he
    exact Option.mem_toList.mp hid
  · obtain ⟨state, -, he⟩ := List.mem_map.mp h
    cases he

theorem exists_update_of_mem_operations {state : ActiveClientState}
    (h : .heed state ∈ event.operations) :
    ∃ update ∈ event.updates, update.activeClientState? = some state := by
  rcases List.mem_append.mp h with h | h
  · obtain ⟨id, -, he⟩ := List.mem_map.mp h
    cases he
  · obtain ⟨state', hstate, he⟩ := List.mem_map.mp h
    cases he
    exact List.mem_filterMap.mp hstate

end TransportEvent

/-- Whether an operation is one of those that calls bring about. -/
def Session.Operation.isCall : Session.Operation → Bool
  | .activate .. => true
  | .resolveEmail _ => true
  | _ => false

/-- How far a listener can be that has taken some events: it waits, or it is at one of them. -/
inductive Hearing.IsAt (events : List TransportEvent) : Hearing → Prop where
  | waiting : IsAt events .waiting
  | observing {event : TransportEvent} {envelope : Envelope} (h : event ∈ events)
    (hid : envelope.clientId = event.clientId?) (hpush : envelope.push = event.push?) :
    IsAt events (.observing envelope)
  | subscribing {event : TransportEvent} (h : event ∈ events) :
    IsAt events (.subscribing event.push?)
  | delivering {event : TransportEvent} (h : event ∈ events) :
    IsAt events (.delivering event.push?)

namespace Hearing

variable {events : List TransportEvent} {c : Client} {isHeld : Bool} {l : Listener}

/-- What a listener does to the session is what the event that it is at brings about. -/
theorem IsAt.exists_event (h : l.hearing.IsAt events) {op : Session.Operation}
    (hop : op ∈ l.operations c) : ∃ event ∈ events, op ∈ event.operations := by
  obtain ⟨receiver, hearing⟩ := l
  cases h with
  | waiting => cases hop
  | subscribing hevent => cases hop
  | @observing event envelope hevent hid _ =>
    obtain ⟨id, hnew, rfl⟩ := List.mem_map.mp hop
    have hpushed := (Option.filter_eq_some_iff.mp (Option.mem_toList.mp hnew)).1
    rw [hid] at hpushed
    exact ⟨event, hevent, List.mem_append_left _
      (List.mem_map_of_mem (Option.mem_toList.mpr hpushed))⟩
  | @delivering event hevent =>
    refine ⟨event, hevent, List.mem_append_right _ ?_⟩
    rw [TransportEvent.updates]
    cases hpush : event.push? with
    | none =>
      rw [hpush] at hop
      cases hop
    | some push =>
      rw [hpush] at hop
      cases push with
      | ignored discriminator => cases hop
      | batch updates => exact hop

/-- A listener stays with its receiver, and is at an event that it has taken from it. -/
theorem IsAt.step (h : l.hearing.IsAt events) {l' : Listener}
    (hl' : (l.step c isHeld).2 = some l') :
    l'.receiver = l.receiver ∧ l'.hearing.IsAt (events ++ l.taken c isHeld) := by
  obtain ⟨receiver, hearing⟩ := l
  cases h with
  | subscribing hevent =>
    cases hl'
    exact ⟨rfl, .delivering (List.mem_append_left _ hevent)⟩
  | delivering hevent =>
    cases hl'
    exact ⟨rfl, .waiting⟩
  | @observing event envelope hevent hid hpush =>
    have hevent' := List.mem_append_left
      (Listener.taken c isHeld ⟨receiver, .observing envelope⟩) hevent
    rw [Listener.step] at hl'
    dsimp only at hl'
    rw [hpush] at hl'
    cases hcase : envelope.clientId with
    | none =>
      rw [hcase] at hl'
      cases hl'
      exact ⟨rfl, .delivering hevent'⟩
    | some id =>
      rw [hcase] at hl'
      dsimp only at hl'
      split at hl'
      · cases hl'
        exact ⟨rfl, .subscribing hevent'⟩
      · cases hl'
        exact ⟨rfl, .delivering hevent'⟩
  | waiting =>
    rw [Listener.step] at hl'
    rw [Listener.taken]
    dsimp only at hl' ⊢
    cases hfirst : c.transport.feed.first? receiver with
    | none =>
      rw [hfirst] at hl'
      dsimp only at hl'
      split at hl'
      · cases hl'
      · cases hl'
        exact ⟨rfl, .waiting⟩
    | some event =>
      rw [hfirst] at hl'
      cases isHeld with
      | false => cases hl'
      | true =>
        cases hl'
        refine ⟨rfl, ?_⟩
        have hevent : event ∈ events ++ [event] :=
          List.mem_append_right _ (List.mem_singleton_self _)
        cases event with
        | message raw =>
          rcases Envelope.ofPush?_cases raw with ⟨hpush, -, -⟩ | ⟨envelope, hpush, hid, hpayload⟩
          · simp only [Listener.hear, hpush]
            exact .waiting
          · simp only [Listener.hear, hpush]
            exact .observing hevent hid hpayload
        | _ => exact .waiting

end Hearing

/-! ## The connection and what goes on beside it -/

/-- Whether an errand is a connection. -/
def Errand.isConnection : Errand → Bool
  | .connect _ => true
  | _ => false

namespace Engine

variable {start e : Engine} {actions : List Action} {a : Action} {n : Nat}

/-- Whether an action leaves all connections but one where they are. -/
def reconnects (n : Nat) (e : Engine) : Action → Prop
  | .move (.errand k) => k = n ∨ (Keyed.get? k e.errands).any Errand.isConnection = false
  | _ => True

instance (n : Nat) (e : Engine) : (a : Action) → Decidable (e.reconnects n a)
  | .move (.errand k) =>
    inferInstanceAs (Decidable (k = n ∨ (Keyed.get? k e.errands).any Errand.isConnection = false))
  | .start _ | .move .listener | .move (.outbox _) | .push _ | .close | .layDown .. | .refuse _
  | .slow _ | .wait _ | .post .. | .dropReceipt _ | .disconnect | .release
  | .stop => .isTrue trivial

/-- Whether, besides, the listener leaves the session alone until the connection has come to its
end. -/
def yields (n : Nat) (e : Engine) : Action → Prop
  | .move .listener => (Keyed.get? n e.errands).any Errand.isDone = true ∨
      (e.operations (.move .listener)).isEmpty = true
  | a => e.reconnects n a

instance (n : Nat) (e : Engine) : (a : Action) → Decidable (e.yields n a)
  | .move .listener =>
    inferInstanceAs (Decidable ((Keyed.get? n e.errands).any Errand.isDone = true ∨
      (e.operations (.move .listener)).isEmpty = true))
  | .move (.errand k) => inferInstanceAs (Decidable (e.reconnects n (.move (.errand k))))
  | .start _ | .move (.outbox _) | .push _ | .close | .layDown .. | .refuse _ | .slow _ | .wait _
  | .post .. | .dropReceipt _ | .disconnect | .release | .stop => .isTrue trivial

/-- The event that is taken in an action, with the receiver that held it. -/
def takings (e : Engine) : Action → List (Nat × TransportEvent)
  | .move .listener =>
    e.listener.toList.flatMap fun l =>
      (l.taken e.client e.isHeld).map fun event => (l.receiver, event)
  | _ => []

/-- The events that are taken from one receiver in a run, in order. -/
def heardFrom (e : Engine) (receiver : Nat) (actions : List Action) : List TransportEvent :=
  entriesOf receiver (e.readings takings actions)

theorem takings_eq_nil (ha : a ≠ .move .listener) : e.takings a = [] := by
  cases a with
  | move m =>
    cases m with
    | listener => exact absurd rfl ha
    | _ => rfl
  | _ => rfl

/-- Only connections put a listener in the place of another one. -/
theorem listener_of_step (hne : a ≠ .move .listener)
    (hmove : ∀ k, a = .move (.errand k) → (Keyed.get? k e.errands).any Errand.isConnection = false)
    {l : Listener} (hl : (e.step a).listener = some l) : e.listener = some l := by
  have hdrop : e.dropListener.listener = none := by
    unfold dropListener
    split
    · rfl
    · assumption
  cases a with
  | disconnect => exact absurd (hdrop.symm.trans hl) (Option.some_ne_none l).symm
  | stop =>
    obtain ⟨postings, hstop⟩ := e.stop_eq
    rw [step, hstop] at hl
    exact absurd (hdrop.symm.trans hl) (Option.some_ne_none l).symm
  | move m =>
    cases m with
    | listener => exact absurd rfl hne
    | outbox k =>
      refine (listener_step ?_ hne).symm.trans hl
      exact trivial
    | errand k =>
      rw [step, move] at hl
      cases ht : Keyed.get? k e.errands with
      | none =>
        rw [ht] at hl
        exact hl
      | some t =>
        rw [ht] at hl
        cases t with
        | connect x =>
          have hno := hmove k rfl
          rw [ht] at hno
          cases hno
        | _ => exact hl
  | _ =>
    refine (listener_step ?_ hne).symm.trans hl
    exact trivial

/-- Whatever is done to the session beside the listener and the connections, calls bring it
about. -/
theorem isCall_of_operations (hne : a ≠ .move .listener)
    (hmove : ∀ k, a = .move (.errand k) → (Keyed.get? k e.errands).any Errand.isConnection = false)
    {op : Session.Operation} (hop : op ∈ e.operations a) : op.isCall = true := by
  cases a with
  | move m =>
    cases m with
    | listener => exact absurd rfl hne
    | outbox k => cases hop
    | errand k =>
      obtain ⟨t, ht, hop⟩ := List.mem_flatMap.mp hop
      cases t with
      | connect x =>
        have hno := hmove k rfl
        rw [Option.mem_toList.mp ht] at hno
        cases hno
      | claim x =>
        cases x with
        | decide =>
          rw [List.mem_singleton.mp hop]
          rfl
        | store email =>
          rw [List.mem_singleton.mp hop]
          rfl
        | _ => cases hop
      | _ => cases hop
  | _ => cases hop

/-! ## The stages of a connection -/

/-- How far a connection is that has made the session fresh, and what is known then of the
listener, of the operations on the session since, and of the events that were taken since. -/
inductive Stage (first : Nat) (listener : Option Listener) (record : List (Nat × TransportEvent))
    (life : List Session.Operation) : Errand → Prop where
  | started (hlife : ∀ op ∈ life, op.isCall = true) :
    Stage first listener record life (.connect .listen)
  | opened {r : Nat} (hr : first ≤ r) (hlife : ∀ op ∈ life, op.isCall = true) :
    Stage first listener record life (.connect (.install r))
  | replaced {r : Nat} (hr : first ≤ r)
    (hlistener : ∀ l, listener = some l → l.receiver = r ∧ l.hearing.IsAt (entriesOf r record))
    (hlife : ∀ op ∈ life,
      op.isCall = true ∨ ∃ event ∈ entriesOf r record, op ∈ event.operations) :
    Stage first listener record life (.connect (.done (.ok ())))
  | refused (reason : ClientError) :
    Stage first listener record life (.connect (.done (.error reason)))

namespace Stage

variable {first : Nat} {listener listener' : Option Listener}
  {record record' : List (Nat × TransportEvent)} {life ops : List Session.Operation} {t : Errand}

theorem exists_connection (h : Stage first listener record life t) :
    ∃ x, t = .connect x ∧ x ≠ .reset := by
  cases h with
  | _ => exact ⟨_, rfl, nofun⟩

/-- Calls work on the session, and the listener may be taken away. -/
theorem aside (h : Stage first listener record life t)
    (hlistener : ∀ l, listener' = some l → listener = some l)
    (hops : ∀ op ∈ ops, op.isCall = true) : Stage first listener' record (life ++ ops) t := by
  have hcalls : (∀ op ∈ life, op.isCall = true) → ∀ op ∈ life ++ ops, op.isCall = true := by
    intro hlife op hop
    exact (List.mem_append.mp hop).elim (hlife op) (hops op)
  cases h with
  | started hlife => exact .started (hcalls hlife)
  | opened hr hlife => exact .opened hr (hcalls hlife)
  | refused reason => exact .refused reason
  | replaced hr hold hlife =>
    refine .replaced hr (fun l hl => hold l (hlistener l hl)) fun op hop => ?_
    exact (List.mem_append.mp hop).elim (hlife op) fun hop => Or.inl (hops op hop)

/-- Until the connection has come to its end, it does not matter what the listener is at. -/
theorem unheard (h : Stage first listener record life t) (ht : t.isDone = false) :
    Stage first listener' record' life t := by
  cases h with
  | started hlife => exact .started hlife
  | opened hr hlife => exact .opened hr hlife
  | replaced => cases ht
  | refused => cases ht

/-- From then on the listener is at events of its own receiver. -/
theorem heard {l : Listener} (h : Stage first (some l) record life t) (ht : t.isDone = true)
    (c : Client) (isHeld : Bool) :
    Stage first (l.step c isHeld).2
      (record ++ (l.taken c isHeld).map fun event => (l.receiver, event))
      (life ++ l.operations c) t := by
  cases h with
  | started => cases ht
  | opened => cases ht
  | refused reason => exact .refused reason
  | @replaced r hr hlistener hlife =>
    obtain ⟨hreceiver, hat⟩ := hlistener l rfl
    have hrecord : entriesOf r (record ++ (l.taken c isHeld).map fun event => (l.receiver, event)) =
        entriesOf r record ++ l.taken c isHeld := by
      rw [entriesOf_append, hreceiver, entriesOf_self]
    refine .replaced hr (fun l' hl' => ?_) fun op hop => ?_
    · obtain ⟨hsame, hat'⟩ := hat.step hl'
      rw [hrecord]
      exact ⟨hsame.trans hreceiver, hat'⟩
    · rw [hrecord]
      rcases List.mem_append.mp hop with hop | hop
      · refine (hlife op hop).imp_right ?_
        rintro ⟨event, hevent, hmem⟩
        exact ⟨event, List.mem_append_left _ hevent, hmem⟩
      · obtain ⟨event, hevent, hmem⟩ := hat.exists_event hop
        exact Or.inr ⟨event, List.mem_append_left _ hevent, hmem⟩

end Stage

/-- A connection has made the session fresh, when there were the receivers before the first one
of a number. -/
structure Renewing (n first : Nat) (e : Engine) (record : List (Nat × TransportEvent))
    (life : List Session.Operation) : Prop where
  numbered : e.Numbered
  later : first ≤ e.nextReceiver
  stage : ∃ t, Keyed.get? n e.errands = some t ∧ Stage first e.listener record life t

namespace Renewing

variable {first : Nat} {record : List (Nat × TransportEvent)} {life : List Session.Operation}

theorem stage_listener (h : Renewing n first e record life) (ha : e.yields n (.move .listener)) :
    ∃ t, Keyed.get? n (e.step (.move .listener)).errands = some t ∧
      Stage first (e.step (.move .listener)).listener (record ++ e.takings (.move .listener))
        (life ++ e.operations (.move .listener)) t := by
  obtain ⟨t, ht, hstage⟩ := h.stage
  refine ⟨t, get?_errands_step h.numbered ht nofun, ?_⟩
  cases hdone : t.isDone with
  | false =>
    have hnothing : e.operations (.move .listener) = [] := by
      rcases ha with hended | hnothing
      · rw [ht, Option.any_some, hdone] at hended
        cases hended
      · exact List.isEmpty_iff.mp hnothing
    rw [hnothing, List.append_nil]
    exact hstage.unheard hdone
  | true =>
    rw [takings, operations, step, move]
    cases hl : e.listener with
    | none =>
      rw [hl] at hstage
      simpa [hl] using hstage
    | some l =>
      rw [hl] at hstage
      simpa using hstage.heard hdone e.client e.isHeld

/-- The connection itself goes on, and does nothing to the session any more. -/
theorem stage_errand (h : Renewing n first e record life) :
    e.operations (.move (.errand n)) = [] ∧
      ∃ t, Keyed.get? n (e.step (.move (.errand n))).errands = some t ∧
        Stage first (e.step (.move (.errand n))).listener record life t := by
  obtain ⟨t, ht, hstage⟩ := h.stage
  have hnothing : e.operations (.move (.errand n)) = [] := by
    obtain ⟨x, rfl, hx⟩ := hstage.exists_connection
    rw [operations, ht]
    cases x with
    | reset => exact absurd rfl hx
    | _ => rfl
  have hlistener : (e.step (.move (.errand n))).listener = (e.stepErrand t).1.listener := by
    rw [step, move, ht]
  rw [(e.errands_move ht).1, Keyed.get?_insert_self, hlistener]
  refine ⟨hnothing, _, rfl, ?_⟩
  cases hstage with
  | refused reason => exact .refused reason
  | replaced hr hold hlife => exact .replaced hr hold hlife
  | opened hr hlife =>
    refine .replaced hr (fun l hl => ?_) fun op hop => Or.inl (hlife op hop)
    cases hl
    exact ⟨rfl, .waiting⟩
  | started hlife =>
    rcases e.stepConnection_listen.1 with hnext | ⟨reason, hnext⟩
    · have hopened : (e.stepErrand (.connect .listen)).2 = .connect (.install e.nextReceiver) :=
        congrArg Errand.connect hnext
      rw [hopened]
      exact .opened h.later hlife
    · have hrefused : (e.stepErrand (.connect .listen)).2 = .connect (.done (.error reason)) :=
        congrArg Errand.connect hnext
      rw [hrefused]
      exact .refused reason

theorem step (h : Renewing n first e record life) (ha : e.yields n a) :
    Renewing n first (e.step a) (record ++ e.takings a) (life ++ e.operations a) := by
  refine ⟨h.numbered.step a, h.later.trans (e.nextReceiver_le_step a), ?_⟩
  by_cases hlistener : a = .move .listener
  · subst hlistener
    exact h.stage_listener ha
  · rw [takings_eq_nil hlistener, List.append_nil]
    by_cases herrand : a = .move (.errand n)
    · subst herrand
      obtain ⟨hnothing, hstage⟩ := h.stage_errand
      rw [hnothing, List.append_nil]
      exact hstage
    · have hothers : ∀ k, a = .move (.errand k) →
          (Keyed.get? k e.errands).any Errand.isConnection = false := by
        rintro k rfl
        exact ha.resolve_left fun hk => herrand (hk ▸ rfl)
      obtain ⟨t, ht, hstage⟩ := h.stage
      refine ⟨t, get?_errands_step h.numbered ht herrand, ?_⟩
      exact hstage.aside (fun l hl => listener_of_step hlistener hothers hl)
        fun op hop => isCall_of_operations hlistener hothers hop

end Renewing

/-- What a session is after its connection started over: what became of a fresh one by calls and
by events from one receiver. -/
structure Renewed (start : Engine) (actions : List Action) (e : Engine) (receiver : Nat) :
    Prop where
  /-- Nobody listens to another receiver. -/
  replaced : ∀ l, e.listener = some l → l.receiver = receiver
  session : e.client.session = Session.after (start.lived actions)
  origin : ∀ op ∈ start.lived actions,
    op.isCall = true ∨ ∃ event ∈ start.heardFrom receiver actions, op ∈ event.operations
  /-- The id, if there is one, came with an event of that receiver. -/
  clientId : ∀ id, e.client.session.clientId = some id →
    ∃ event ∈ start.heardFrom receiver actions, event.clientId? = some id
  /-- The activity, if it is known, was claimed, or an event of that receiver said it. -/
  activity : e.client.session.activity = .unknown ∨
    (e.client.session.activity = .active ∧
      ∃ now limit, .activate now limit ∈ start.lived actions) ∨
    ∃ event ∈ start.heardFrom receiver actions, ∃ update ∈ event.updates, ∃ state,
      update.activeClientState? = some state ∧ e.client.session.activity = .ofRemote state

/-- What is known from the operations on a session is known of the session. -/
theorem Renewed.of_origin {r : Nat} (hreplaced : ∀ l, e.listener = some l → l.receiver = r)
    (hsession : e.client.session = Session.after (start.lived actions))
    (horigin : ∀ op ∈ start.lived actions,
      op.isCall = true ∨ ∃ event ∈ start.heardFrom r actions, op ∈ event.operations) :
    start.Renewed actions e r where
  replaced := hreplaced
  session := hsession
  origin := horigin
  clientId := by
    intro id hid
    rw [hsession] at hid
    rcases horigin _ (Session.mem_of_clientId_after hid) with hcall | ⟨event, hevent, hop⟩
    · cases hcall
    · exact ⟨event, hevent, TransportEvent.clientId?_of_mem_operations hop⟩
  activity := by
    rw [hsession]
    rcases Session.activity_after (start.lived actions) with
      hunknown | hactive | ⟨state, hmem, hstate⟩
    · exact Or.inl hunknown
    · exact Or.inr (Or.inl hactive)
    · rcases horigin _ hmem with hcall | ⟨event, hevent, hop⟩
      · cases hcall
      · obtain ⟨update, hupdate, hsaid⟩ := TransportEvent.exists_update_of_mem_operations hop
        exact Or.inr (Or.inr ⟨event, hevent, update, hupdate, state, hsaid, hstate⟩)

/-- The connection makes the session fresh. -/
theorem renewing_reset (hnumbered : start.Numbered)
    (hreset : Keyed.get? n start.errands = some (.connect .reset)) :
    Renewing n start.nextReceiver (start.step (.move (.errand n))) [] [] ∧
      (start.step (.move (.errand n))).client.session = .fresh := by
  have hstep : start.step (.move (.errand n)) =
      { start with
        client := { start.client with session := .fresh }
        errands := Keyed.insert n (.connect .listen) start.errands } := by
    rw [step, move, hreset]
    rfl
  have hstage : Keyed.get? n (start.step (.move (.errand n))).errands =
      some (.connect .listen) := by
    rw [hstep]
    exact Keyed.get?_insert_self ..
  have hstarted : ∀ op ∈ ([] : List Session.Operation), op.isCall = true :=
    fun op hop => absurd hop List.not_mem_nil
  refine ⟨⟨hnumbered.step _, start.nextReceiver_le_step _, _, hstage, .started hstarted⟩, ?_⟩
  rw [hstep]

theorem Follows.renewing (hnumbered : start.Numbered)
    (hreset : Keyed.get? n start.errands = some (.connect .reset))
    (h : (start.step (.move (.errand n))).Follows (yields n) actions e) :
    Renewing n start.nextReceiver e
      ((start.step (.move (.errand n))).readings takings actions)
      ((start.step (.move (.errand n))).lived actions) := by
  induction h with
  | refl => exact (renewing_reset hnumbered hreset).1
  | next h ha ih =>
    rw [lived, h.readings_next, h.readings_next]
    exact ih.step ha

/-- **A connection starts from a fresh session.**  If the listener before leaves the session alone
from the time when it is made fresh until the connection has come to its end, then from the end
on the session is what became of a fresh one by calls and by events that were taken from a
receiver opened since. -/
theorem renewed_of_yields {config : ClientConfig} {clock : Clock} {before : List Action}
    (hstart : start = (Engine.new config clock).run before)
    (hreset : Keyed.get? n start.errands = some (.connect .reset))
    (h : (start.step (.move (.errand n))).Follows (yields n) actions e)
    (hdone : Keyed.get? n e.errands = some (.connect (.done (.ok ())))) :
    ∃ receiver, start.nextReceiver ≤ receiver ∧
      (start.step (.move (.errand n))).Renewed actions e receiver := by
  have hnumbered : start.Numbered := hstart ▸ numbered_run config clock before
  obtain ⟨t, ht, hstage⟩ := (h.renewing hnumbered hreset).stage
  have hsession : e.client.session =
      Session.after ((start.step (.move (.errand n))).lived actions) := by
    rw [h.eq_run, session_run, (renewing_reset hnumbered hreset).2]
    rfl
  cases hdone.symm.trans ht
  cases hstage with
  | replaced hr hlistener hlife =>
    exact ⟨_, hr, .of_origin (fun l hl => (hlistener l hl).1) hsession hlife⟩

/-- An engine whose client is connected and to be connected again, while an id waits to be
taken. -/
def reconnecting : Engine :=
  (Engine.new .standard ⟨0⟩).run
    [.start (.connect .reset), .move (.errand 0), .move (.errand 0), .move (.errand 0),
     .push (.assigning "first"), .start (.connect .reset)]

/-- The listener before takes the id, and is replaced before it stores it.  Another id comes to
the new one. -/
def handover : List Action :=
  [.move .listener, .move (.errand 1), .move (.errand 1), .push (.assigning "second"),
   .move .listener, .move .listener, .start (.claim .decide), .move (.errand 2)]

theorem renewed_of_yields_handover :
    Keyed.get? 1 reconnecting.errands = some (.connect .reset) ∧
      (reconnecting.step (.move (.errand 1))).Follows (yields 1) handover
        ((reconnecting.step (.move (.errand 1))).run handover) ∧
      Keyed.get? 1 ((reconnecting.step (.move (.errand 1))).run handover).errands =
        some (.connect (.done (.ok ()))) ∧
      ∃ receiver, reconnecting.nextReceiver ≤ receiver ∧
        (reconnecting.step (.move (.errand 1))).Renewed handover
          ((reconnecting.step (.move (.errand 1))).run handover) receiver := by
  have hreset : Keyed.get? 1 reconnecting.errands = some (.connect .reset) := rfl
  have hfollows : (reconnecting.step (.move (.errand 1))).Follows (yields 1) handover
      ((reconnecting.step (.move (.errand 1))).run handover) := follows_run (by decide +kernel)
  have hdone : Keyed.get? 1 ((reconnecting.step (.move (.errand 1))).run handover).errands =
      some (.connect (.done (.ok ()))) := rfl
  exact ⟨hreset, hfollows, hdone, renewed_of_yields rfl hreset hfollows hdone⟩

example : ((reconnecting.step (.move (.errand 1))).run handover).client.session.clientId =
    some "second" := by
  decide +kernel

/-! ## An id that comes too late -/

/-- An id is not accounted for if all events come from receivers that were there before. -/
theorem not_renewed_of_takings {first : Nat} {id : String}
    (hid : e.client.session.clientId = some id)
    (htakings : ∀ p ∈ start.readings takings actions, p.1 < first) :
    ¬ ∃ receiver, first ≤ receiver ∧ start.Renewed actions e receiver := by
  rintro ⟨receiver, hreceiver, h⟩
  obtain ⟨event, hevent, -⟩ := h.clientId id hid
  exact (htakings _ (mem_entriesOf.mp hevent)).not_ge hreceiver

/-- The listener before takes the id and stores it in the fresh session, and is replaced after
that. -/
def belated : List Action :=
  [.move .listener, .move .listener, .move (.errand 1), .move (.errand 1)]

theorem belated_not_renewed :
    Keyed.get? 1 reconnecting.errands = some (.connect .reset) ∧
      (reconnecting.step (.move (.errand 1))).Follows (reconnects 1) belated
        ((reconnecting.step (.move (.errand 1))).run belated) ∧
      Keyed.get? 1 ((reconnecting.step (.move (.errand 1))).run belated).errands =
        some (.connect (.done (.ok ()))) ∧
      ((reconnecting.step (.move (.errand 1))).run belated).client.session.clientId =
        some "first" ∧
      ¬ ∃ receiver, reconnecting.nextReceiver ≤ receiver ∧
        (reconnecting.step (.move (.errand 1))).Renewed belated
          ((reconnecting.step (.move (.errand 1))).run belated) receiver := by
  have hid : ((reconnecting.step (.move (.errand 1))).run belated).client.session.clientId =
      some "first" := by
    decide +kernel
  have htaken : (reconnecting.step (.move (.errand 1))).readings takings belated =
      [(0, .assigning "first")] := rfl
  refine ⟨rfl, follows_run (by decide +kernel), rfl, hid, not_renewed_of_takings hid ?_⟩
  intro p hp
  rw [htaken] at hp
  rw [List.mem_singleton.mp hp]
  exact Nat.one_pos

/-- The transport refuses, when the session has been made fresh already.  The listener before is
not replaced, and stores the id. -/
def refused : List Action :=
  [.refuse "no answer", .move (.errand 1), .move .listener, .move .listener]

theorem refused_not_renewed :
    Keyed.get? 1 ((reconnecting.step (.move (.errand 1))).run refused).errands =
        some (.connect (.done (.error (.connectionClosed "no answer")))) ∧
      ((reconnecting.step (.move (.errand 1))).run refused).client.session.clientId =
        some "first" ∧
      ¬ ∃ receiver, reconnecting.nextReceiver ≤ receiver ∧
        (reconnecting.step (.move (.errand 1))).Renewed refused
          ((reconnecting.step (.move (.errand 1))).run refused) receiver := by
  have hid : ((reconnecting.step (.move (.errand 1))).run refused).client.session.clientId =
      some "first" := by
    decide +kernel
  have htaken : (reconnecting.step (.move (.errand 1))).readings takings refused =
      [(0, .assigning "first")] := rfl
  refine ⟨rfl, hid, not_renewed_of_takings hid ?_⟩
  intro p hp
  rw [htaken] at hp
  rw [List.mem_singleton.mp hp]
  exact Nat.one_pos

end Engine

end LiteChat
