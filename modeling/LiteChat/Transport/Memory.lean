import LiteChat.Client.Error
import LiteChat.Transport.Feed

/-!
# A transport in memory

The transport carries requests to the service and events from it.  This one never
leaves memory: it keeps what was sent in a log, and it answers from replies that were
laid down beforehand.  Replies lie under the path or the address that a request goes
to and are given in the order in which they were laid down; a request for which none
is left gets an empty array.

A request is logged when it is made, whatever becomes of it.
-/

namespace LiteChat

/-- What happens on the push channel. -/
inductive TransportEvent where
  /-- The channel is open for the first time. -/
  | connected
  /-- The channel is open again. -/
  | reconnected
  /-- The channel is gone. -/
  | disconnected
  /-- An array has been pushed. -/
  | message (raw : List Json)

/-- A map of texts that goes up the push channel. -/
abbrev ChannelMap := List (String × String)

/-- Something that was sent. -/
inductive Traffic where
  /-- Maps on the push channel. -/
  | maps (maps : List ChannelMap)
  /-- A request to an endpoint; the reply is asked for as an array or as an object. -/
  | request (path : String) (body : Json) (asObject : Bool)
  /-- Bytes to an address. -/
  | raw (url contentType : String) (data : ByteArray)

/-- What comes back for a request. -/
inductive Reply where
  /-- A body. -/
  | body (octets : ByteArray)
  /-- Nothing, for a reason. -/
  | failure (reason : String)

/-- The reply when none has been laid down: an empty array. -/
def Reply.blank : Reply := .body "[]".toUTF8

/-- The body of a reply to a request. -/
def Reply.read (target : String) : Reply → Except ClientError ByteArray
  | .body octets => .ok octets
  | .failure reason => .error (.requestFailed target reason)

/-- A transport that never leaves memory. -/
structure Transport where
  /-- The push channel. -/
  feed : Feed TransportEvent := {}
  /-- What was sent, in order. -/
  log : List Traffic := []
  /-- The replies laid down under each path or address. -/
  replies : List (String × List Reply) := []
  /-- The time that a reply takes, in milliseconds. -/
  latency : Nat := 0
  /-- Why the next attempt to listen fails. -/
  refusal : Option String := none

namespace Transport

/-- The transport with a reply laid down after the others of its target. -/
def layDown (t : Transport) (target : String) (reply : Reply) : Transport :=
  let queued := (Keyed.get? target t.replies).getD []
  { t with replies := Keyed.insert target (queued ++ [reply]) t.replies }

/-- The next reply for a target. -/
def nextReply (t : Transport) (target : String) : Reply :=
  ((Keyed.get? target t.replies).bind List.head?).getD .blank

/-- The transport after something was sent to a target and its reply was chosen. -/
def exchange (t : Transport) (target : String) (sent : Traffic) : Transport × Reply :=
  ({ t with
      log := t.log ++ [sent]
      replies := Keyed.modify target List.tail t.replies },
   t.nextReply target)

/-- Sends a body to an endpoint. -/
def request (t : Transport) (path : String) (body : Json) : Transport × Reply :=
  t.exchange path (.request path body false)

/-- Sends bytes to an address. -/
def upload (t : Transport) (url contentType : String) (data : ByteArray) : Transport × Reply :=
  t.exchange url (.raw url contentType data)

/-- The transport after maps were sent up the push channel. -/
def sendMaps (t : Transport) (maps : List ChannelMap) : Transport :=
  { t with log := t.log ++ [.maps maps] }

/-- The transport with a new receiver and its number, or why it refuses.  A refusal
holds once. -/
def listen (t : Transport) : Transport × Except ClientError Nat :=
  match t.refusal with
  | some reason => ({ t with refusal := none }, .error (.connectionClosed reason))
  | none => ({ t with feed := t.feed.listen }, .ok t.feed.next)

/-- The transport after an event was pushed. -/
def push (t : Transport) (event : TransportEvent) : Transport :=
  { t with feed := t.feed.push event }

/-! ## Views of the log -/

/-- The requests to endpoints, with their paths. -/
def requests (t : Transport) : List (String × Json) :=
  t.log.filterMap fun sent =>
    match sent with
    | .request path body _ => some (path, body)
    | _ => none

/-- The bodies of the requests to one endpoint. -/
def requestsTo (t : Transport) (path : String) : List Json :=
  (t.requests.filter fun r => decide (r.1 = path)).map Prod.snd

/-- The maps that were sent up the push channel. -/
def sentMaps (t : Transport) : List (List ChannelMap) :=
  t.log.filterMap fun sent =>
    match sent with
    | .maps maps => some maps
    | _ => none

end Transport

end LiteChat
