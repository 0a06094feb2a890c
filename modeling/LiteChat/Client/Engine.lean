import LiteChat.Client.Activation
import LiteChat.Client.Listener
import LiteChat.Client.Outbox
import LiteChat.Client.Upload

/-!
# The engine

The engine is a client with everything that is under way: the listener, the outboxes,
and the errands that callers have started.  An `Action` is what can happen next.  It
comes from outside (the service pushes an event, time passes), from a caller (a message
is posted, an errand is started, the client is let go), or it is a move: one step of one
of the things under way.  A run of the engine is a list of actions, in whatever order
they come.

The directory says which outbox takes the messages of a conversation.  Posting looks
there first, and opens a new outbox if there is none or if the one there has been
stopped.  Disconnecting empties the directory and thereby closes the outboxes, which
go on until they have nothing left to send.
-/

namespace LiteChat

/-- How far a connection is. -/
inductive Connection where
  /-- The session has to be made fresh. -/
  | reset
  /-- The transport has to be listened to. -/
  | listen
  /-- The listener has to take the place of the one before. -/
  | install (receiver : Nat)
  /-- The connection has come to its end. -/
  | done (outcome : Except ClientError Unit)

/-- Something that a caller has started and waits for. -/
inductive Errand where
  /-- A call. -/
  | exchange (e : Exchange)
  /-- A claim to be the active client. -/
  | claim (c : Claim)
  /-- A connection. -/
  | connect (c : Connection)
  /-- An upload. -/
  | upload (u : Upload)

namespace Errand

/-- A bound on the steps that are left. -/
def remaining : Errand → Nat
  | .exchange e => e.remaining
  | .claim c => c.remaining
  | .connect .reset => 3
  | .connect .listen => 2
  | .connect (.install _) => 1
  | .connect (.done _) => 0
  | .upload u => u.remaining

/-- Whether the errand has come to its end. -/
def isDone (t : Errand) : Bool := decide (t.remaining = 0)

end Errand

/-- Something that is under way and can move. -/
inductive Mover where
  /-- The listener. -/
  | listener
  /-- The outbox of a number. -/
  | outbox (n : Nat)
  /-- The errand of a number. -/
  | errand (n : Nat)
  deriving DecidableEq, Repr

/-- A client with everything that is under way. -/
structure Engine where
  /-- What all of it has in common. -/
  client : Client
  /-- Whether a caller has the client. -/
  hasCaller : Bool := true
  /-- The listener. -/
  listener : Option Listener := none
  /-- The outboxes that have not come to their end, by number. -/
  outboxes : List (Nat × Outbox) := []
  /-- The number of the outbox that takes the messages of a conversation. -/
  directory : List (String × Nat) := []
  /-- The number of the next outbox. -/
  nextOutbox : Nat := 0
  /-- The chat messages that were posted, in order. -/
  postings : List Posting := []
  /-- The errands, by number. -/
  errands : List (Nat × Errand) := []
  /-- The number of the next errand. -/
  nextErrand : Nat := 0

/-- What can happen to an engine. -/
inductive Action where
  /-- The service pushes an event. -/
  | push (event : TransportEvent)
  /-- The push channel is closed. -/
  | close
  /-- A reply is laid down for a path or an address. -/
  | layDown (target : String) (reply : Reply)
  /-- The transport will refuse the next one who listens. -/
  | refuse (reason : String)
  /-- From now on a reply takes a number of milliseconds. -/
  | slow (millis : Nat)
  /-- Time passes. -/
  | wait (span : TimeSpan)
  /-- A caller posts a chat message. -/
  | post (conversation : String) (message : OutgoingMessage) (requestId : Nat)
  /-- A caller drops the receipt of a posting. -/
  | dropReceipt (ticket : Nat)
  /-- A caller starts an errand. -/
  | start (errand : Errand)
  /-- A caller ends the connection. -/
  | disconnect
  /-- The last caller lets the client go. -/
  | release
  /-- Whatever is under way without a caller is stopped. -/
  | stop
  /-- Something that is under way moves. -/
  | move (m : Mover)

namespace Engine

/-- An engine before anything has happened. -/
def new (config : ClientConfig) (clock : Clock) : Engine := { client := .new config clock }

/-- Whether anybody holds the client: a caller, or something at work. -/
def isHeld (e : Engine) : Bool :=
  e.hasCaller || (e.listener.any Listener.isBusy) || (e.outboxes.any fun o => o.2.isBusy) ||
    (e.errands.any fun t => !t.2.isDone)

/-- The engine with another state of the push channel. -/
def mapFeed (e : Engine) (f : Feed TransportEvent → Feed TransportEvent) : Engine :=
  { e with client :=
    { e.client with transport := { e.client.transport with feed := f e.client.transport.feed } } }

/-- The engine without its listener. -/
def dropListener (e : Engine) : Engine :=
  match e.listener with
  | some l => { e with client := e.client.dropReceiver l.receiver, listener := none }
  | none => e

/-! ## Outboxes -/

/-- The engine with the outcome of a posting. -/
def settlePosting (e : Engine) (ticket : Nat) (outcome : Except ClientError Message) : Engine :=
  { e with postings := e.postings.modify ticket (Posting.settle outcome) }

/-- The outbox that takes the messages of a conversation, with its number. -/
def outboxOf? (e : Engine) (conversation : String) : Option (Nat × Outbox) :=
  (Keyed.get? conversation e.directory).bind fun n =>
    (Keyed.get? n e.outboxes).map fun o => (n, o)

/-- The engine after a chat message was posted. -/
def post (e : Engine) (conversation : String) (message : OutgoingMessage) (requestId : Nat) :
    Engine :=
  let job : Job := ⟨e.postings.length, message, requestId⟩
  let e := { e with postings := e.postings ++ [Posting.new conversation message requestId] }
  match e.outboxOf? conversation with
  | some (n, o) => { e with outboxes := Keyed.insert n (o.enqueue job) e.outboxes }
  | none =>
    { e with
      outboxes := Keyed.insert e.nextOutbox (.new conversation job) e.outboxes
      directory := Keyed.insert conversation e.nextOutbox e.directory
      nextOutbox := e.nextOutbox + 1 }

/-- The engine with all outboxes closed: they go on without new messages. -/
def closeOutboxes (e : Engine) : Engine :=
  { e with
    directory := []
    outboxes := e.outboxes.map fun o => (o.1, { o.2 with isOpen := false }) }

/-- The engine after an outbox was stopped at whatever it was doing. -/
def stopOutbox (e : Engine) (o : Outbox) : Engine :=
  o.tickets.foldl (fun e t => e.settlePosting t (.error (.outboxClosed o.conversation))) e

/-- The engine after everything that goes on without a caller was stopped. -/
def stop (e : Engine) : Engine :=
  let e := e.dropListener
  { e.outboxes.foldl (fun e o => e.stopOutbox o.2) e with outboxes := [] }

/-- The engine after a step of an outbox. -/
def moveOutbox (e : Engine) (n : Nat) (o : Outbox) : Engine :=
  let result := o.step e.client e.isHeld
  let outboxes := match result.outbox with
    | some o => Keyed.insert n o e.outboxes
    | none => Keyed.erase n e.outboxes
  let e := { e with client := result.client, outboxes := outboxes }
  match result.settled with
  | some (ticket, outcome) => e.settlePosting ticket outcome
  | none => e

/-! ## Errands -/

/-- One step of a connection. -/
def stepConnection (e : Engine) : Connection → Engine × Connection
  | .reset => ({ e with client := { e.client with session := .fresh } }, .listen)
  | .listen =>
    let (transport, receiver) := e.client.transport.listen
    let e := { e with client := { e.client with transport := transport } }
    match receiver with
    | .ok r => (e, .install r)
    | .error reason => (e, .done (.error reason))
  | .install r => ({ e.dropListener with listener := some (.new r) }, .done (.ok ()))
  | .done outcome => (e, .done outcome)

/-- The engine with another client. -/
def withClient (e : Engine) (c : Client) : Engine := { e with client := c }

/-- One step of an errand. -/
def stepErrand (e : Engine) : Errand → Engine × Errand
  | .exchange x =>
    let (c, x) := x.step e.client
    (e.withClient c, .exchange x)
  | .claim x =>
    let (c, x) := x.step e.client
    (e.withClient c, .claim x)
  | .connect x =>
    let (e, x) := e.stepConnection x
    (e, .connect x)
  | .upload x =>
    let (c, x) := x.step e.client
    (e.withClient c, .upload x)

/-! ## Moves and actions -/

/-- The engine after a move. -/
def move (e : Engine) : Mover → Engine
  | .listener =>
    match e.listener with
    | some l =>
      let (c, l) := l.step e.client e.isHeld
      { e with client := c, listener := l }
    | none => e
  | .outbox n =>
    match Keyed.get? n e.outboxes with
    | some o => e.moveOutbox n o
    | none => e
  | .errand n =>
    match Keyed.get? n e.errands with
    | some t =>
      let (e, t) := e.stepErrand t
      { e with errands := Keyed.insert n t e.errands }
    | none => e

/-- The engine after an action. -/
def step (e : Engine) : Action → Engine
  | .push event => e.mapFeed (·.push event)
  | .close => e.mapFeed Feed.close
  | .layDown target reply =>
    e.withClient { e.client with transport := e.client.transport.layDown target reply }
  | .refuse reason =>
    e.withClient { e.client with transport := { e.client.transport with refusal := some reason } }
  | .slow millis =>
    e.withClient { e.client with transport := { e.client.transport with latency := millis } }
  | .wait span => e.withClient { e.client with clock := e.client.clock.advance span.micros }
  | .post conversation message requestId => e.post conversation message requestId
  | .dropReceipt ticket =>
    { e with postings := e.postings.modify ticket fun p => { p with receipt := .dropped } }
  | .start errand =>
    { e with errands := Keyed.insert e.nextErrand errand e.errands, nextErrand := e.nextErrand + 1 }
  | .disconnect => e.dropListener.closeOutboxes
  | .release => { e.closeOutboxes with hasCaller := false }
  | .stop => e.stop
  | .move m => e.move m

/-- The engine after a run. -/
def run (e : Engine) (actions : List Action) : Engine := actions.foldl step e

end Engine

end LiteChat
