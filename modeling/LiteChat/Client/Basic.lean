import LiteChat.Client.Event
import LiteChat.Lite.Reply
import LiteChat.Request.Call
import LiteChat.Service.Declarations
import LiteChat.Transport.Memory

/-!
# What a client shares

A client does several things at a time: it listens, it sends the chat messages of each
conversation, and it makes the calls it is asked for.  All of them work on one
`Client`: the settings, the clock, the session, the transport and the published events.
Each of them moves in steps, and one step is done before another one starts; what one
step has read may have changed by the next.
-/

namespace LiteChat

/-- What everything that a client does has in common. -/
structure Client where
  /-- The settings. -/
  config : ClientConfig
  /-- The time. -/
  clock : Clock
  /-- Who the client is to the service. -/
  session : Session
  /-- The way to the service. -/
  transport : Transport
  /-- The events that were published, in order. -/
  published : List ClientEvent

namespace Client

/-- The client with some settings at some time, before anything has happened. -/
def new (config : ClientConfig) (clock : Clock) : Client := ⟨config, clock, .fresh, {}, []⟩

/-- The client after it has published an event. -/
def publish (c : Client) (event : ClientEvent) : Client :=
  { c with published := c.published ++ [event] }

/-- The request of a call, with the id that the client has now. -/
def request (c : Client) (call : Call) : Request := call.request c.config c.session.clientId

/-- The client after it has sent a request, and the reply that will come. -/
def send (c : Client) (r : Request) : Client × Reply :=
  let (transport, reply) := c.transport.request r.endpoint.path r.body
  ({ c with transport := transport }, reply)

end Client

/-- The message in the reply of an endpoint. -/
def Endpoint.readReply (e : Endpoint) (reply : Reply) : Except ClientError Message :=
  match reply.read e.path with
  | .error e => .error e
  | .ok body => (Lite.decodeReply Service.schema e.response body).mapError .payload

/-- Who the account is, from the reply to that question. -/
def SelfInfo.ofReply (reply : Except ClientError Message) : Except ClientError SelfInfo :=
  match reply with
  | .error e => .error e
  | .ok m => (SelfInfo.ofMessage m).mapError .payload

end LiteChat
