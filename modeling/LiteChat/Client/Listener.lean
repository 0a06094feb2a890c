import LiteChat.Client.Basic
import LiteChat.Service.Envelope

/-!
# Listening

The listener takes the events of one receiver, one after another.  Changes of the
channel are published as they are.  A pushed array is read as an envelope: a new client
id is stored, and then the channel is subscribed to the service once; a batch of state
updates is delivered as one step, in which every update first changes the activity and
is then published.

An array that is empty, that only keeps the channel alive, that is malformed, or of
which no tag can be read, is dropped.  Whether the subscription succeeds is not asked.
-/

namespace LiteChat

/-- The envelope of a pushed array, if it has one that brings something or is empty. -/
def Envelope.ofPush? : List Json → Option Envelope
  | [] => none
  | .string "noop" :: _ => none
  | first :: _ =>
    match Envelope.decode Service.schema first with
    | .error _ => none
    | .ok e => if e.isRejected then none else some e

/-- The map that subscribes the push channel to a service. -/
def subscription (service : String) : ChannelMap :=
  let channel : Json := .object [("3", .object [("1", .object [("1", .string service)])])]
  [("p", channel.text)]

namespace Client

/-- The client after the service has assigned an id. -/
def observe (c : Client) (id : String) : Client := { c with session := c.session.observe id }

/-- The client after it has subscribed the push channel to its service. -/
def subscribe (c : Client) : Client :=
  { c with transport := c.transport.sendMaps [subscription c.config.serviceName] }

/-- The client after one entry of a batch. -/
def apply (c : Client) (update : StateUpdate) : Client :=
  let session := match update.activeClientState? with
    | some state => c.session.heed state
    | none => c.session
  { c with session := session, published := c.published ++ [.stateUpdate update] }

/-- The client after what a payload brings. -/
def deliver (c : Client) : Option PushEvent → Client
  | some (.batch updates) => updates.foldl apply c
  | _ => c

/-- The client after one of its receivers has taken an event. -/
def takeEvent (c : Client) (receiver : Nat) : Client :=
  { c with transport := { c.transport with feed := c.transport.feed.take receiver } }

/-- The client without a receiver. -/
def dropReceiver (c : Client) (receiver : Nat) : Client :=
  { c with transport := { c.transport with feed := c.transport.feed.drop receiver } }

end Client

/-- How far the listener is with an event. -/
inductive Hearing where
  /-- It waits for the next event. -/
  | waiting
  /-- The client id of an envelope has to be looked at. -/
  | observing (envelope : Envelope)
  /-- The channel has to be subscribed to the service; then comes the payload. -/
  | subscribing (push : Option PushEvent)
  /-- The payload has to be delivered. -/
  | delivering (push : Option PushEvent)

/-- A listener. -/
structure Listener where
  /-- The receiver whose events it takes. -/
  receiver : Nat
  /-- How far it is. -/
  hearing : Hearing

namespace Listener

/-- The listener of a receiver, at its start. -/
def new (receiver : Nat) : Listener := ⟨receiver, .waiting⟩

/-- Whether the listener is at work on an event. -/
def isBusy (l : Listener) : Bool :=
  match l.hearing with
  | .waiting => false
  | _ => true

/-- What the listener makes of an event. -/
def hear (c : Client) : TransportEvent → Client × Hearing
  | .connected => (c.publish .connected, .waiting)
  | .reconnected => (c.publish .reconnected, .waiting)
  | .disconnected => (c.publish .disconnected, .waiting)
  | .message raw =>
    match Envelope.ofPush? raw with
    | some envelope => (c, .observing envelope)
    | none => (c, .waiting)

/-- One step of a listener.  It ends with its receiver, and at the first event it takes
when nobody holds the client any more. -/
def step (c : Client) (isHeld : Bool) (l : Listener) : Client × Option Listener :=
  match l.hearing with
  | .waiting =>
    match c.transport.feed.first? l.receiver with
    | none =>
      if c.transport.feed.hasEnded l.receiver then (c.dropReceiver l.receiver, none)
      else (c, some l)
    | some event =>
      if isHeld then
        let (c, hearing) := hear (c.takeEvent l.receiver) event
        (c, some { l with hearing := hearing })
      else (c.dropReceiver l.receiver, none)
  | .observing envelope =>
    match envelope.clientId with
    | some id =>
      if c.session.isNew id then
        (c.observe id, some { l with hearing := .subscribing envelope.push })
      else (c, some { l with hearing := .delivering envelope.push })
    | none => (c, some { l with hearing := .delivering envelope.push })
  | .subscribing push => (c.subscribe, some { l with hearing := .delivering push })
  | .delivering push => (c.deliver push, some { l with hearing := .waiting })

/-- Whether a step of the listener changes anything. -/
def canMove (c : Client) (l : Listener) : Bool :=
  l.isBusy || (c.transport.feed.first? l.receiver).isSome ||
    c.transport.feed.hasEnded l.receiver

/-- A bound on the steps until the listener waits for an event that is yet to come. -/
def remaining (c : Client) (l : Listener) : Nat :=
  let ahead := 4 * ((c.transport.feed.held? l.receiver).getD []).length + 1
  match l.hearing with
  | .waiting => ahead
  | .delivering _ => ahead + 1
  | .subscribing _ => ahead + 2
  | .observing _ => ahead + 3

end Listener

end LiteChat
