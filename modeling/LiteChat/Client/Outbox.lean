import LiteChat.Client.Exchange

/-!
# Outboxes

The chat messages of one conversation go through an outbox, one after another: the next
one is begun when the reply to the one before has been read.  Outboxes of different
conversations do not wait for each other.

Every chat message that is posted has a posting, which remembers what was posted and
holds the receipt: its outcome, as soon as there is one.  A caller may drop a receipt;
the message is sent all the same.

An outbox does not hold the client.  When it begins with a message and nobody holds the
client, the message is not sent, and its outcome is that the outbox is closed.
-/

namespace LiteChat

/-- What a caller learns about a chat message that it has posted. -/
inductive Receipt where
  /-- Nothing so far. -/
  | waiting
  /-- The outcome. -/
  | settled (outcome : Except ClientError Message)
  /-- Nothing any more: the caller has dropped the receipt. -/
  | dropped

/-- A receipt after its outcome has become known. -/
def Receipt.settle (outcome : Except ClientError Message) : Receipt → Receipt
  | .waiting => .settled outcome
  | receipt => receipt

/-- The outcome on a receipt. -/
def Receipt.outcome? : Receipt → Option (Except ClientError Message)
  | .settled outcome => some outcome
  | _ => none

/-- A chat message that was posted. -/
structure Posting where
  /-- The conversation. -/
  conversation : String
  /-- The message. -/
  message : OutgoingMessage
  /-- The id by which the service recognises the request. -/
  requestId : Nat
  /-- What the caller learns. -/
  receipt : Receipt

/-- A posting of which nothing is known yet. -/
def Posting.new (conversation : String) (message : OutgoingMessage) (requestId : Nat) : Posting :=
  ⟨conversation, message, requestId, .waiting⟩

/-- A posting with the outcome of its message. -/
def Posting.settle (outcome : Except ClientError Message) (p : Posting) : Posting :=
  { p with receipt := p.receipt.settle outcome }

/-- A chat message in an outbox. -/
structure Job where
  /-- The number of its posting. -/
  ticket : Nat
  /-- The message. -/
  message : OutgoingMessage
  /-- The id by which the service recognises the request. -/
  requestId : Nat
  deriving DecidableEq, Repr

/-- The call that sends a chat message. -/
def Job.call (j : Job) (conversation : String) : Call :=
  .sendChatMessage conversation j.message j.requestId

/-- The outbox of a conversation. -/
structure Outbox where
  /-- The conversation. -/
  conversation : String
  /-- The messages that wait. -/
  queue : List Job
  /-- The message that is being sent, and how far it is. -/
  current : Option (Job × Exchange)
  /-- Whether more messages can be posted to it. -/
  isOpen : Bool

/-- What a step of an outbox comes to. -/
structure Outbox.Result where
  /-- The client after the step. -/
  client : Client
  /-- The outbox after the step, if there still is one. -/
  outbox : Option Outbox
  /-- The outcome of a message that became known, with the number of its posting. -/
  settled : Option (Nat × Except ClientError Message)

namespace Outbox

/-- A new outbox with one message. -/
def new (conversation : String) (job : Job) : Outbox := ⟨conversation, [job], none, true⟩

/-- The outbox with one more message. -/
def enqueue (o : Outbox) (job : Job) : Outbox := { o with queue := o.queue ++ [job] }

/-- Whether the outbox is sending a message. -/
def isBusy (o : Outbox) : Bool := o.current.isSome

/-- Whether the outbox waits for a reply. -/
def isAwaiting (o : Outbox) : Bool :=
  match o.current with
  | some (_, e) => e.isAwaiting
  | none => false

/-- The numbers of the postings whose outcome is yet to come, in order. -/
def tickets (o : Outbox) : List Nat :=
  (o.current.map fun c => c.1.ticket).toList ++ o.queue.map Job.ticket

/-- One step of an outbox. -/
def step (c : Client) (isHeld : Bool) (o : Outbox) : Result :=
  match o.current with
  | some (job, e) =>
    let (c, e) := e.step c
    match e.outcome? with
    | some outcome => ⟨c, some { o with current := none }, some (job.ticket, outcome)⟩
    | none => ⟨c, some { o with current := some (job, e) }, none⟩
  | none =>
    match o.queue with
    | job :: rest =>
      if isHeld then
        ⟨c, some { o with queue := rest, current := some (job, .build (job.call o.conversation)) },
          none⟩
      else
        ⟨c, some { o with queue := rest },
          some (job.ticket, .error (.outboxClosed o.conversation))⟩
    | [] => if o.isOpen then ⟨c, some o, none⟩ else ⟨c, none, none⟩

/-- Whether a step of the outbox changes anything. -/
def canMove (o : Outbox) : Bool := o.isBusy || !o.queue.isEmpty || !o.isOpen

/-- A bound on the steps until the outbox waits for another message. -/
def remaining (o : Outbox) : Nat :=
  4 * o.queue.length + 1 +
    match o.current with
    | some (_, e) => e.remaining
    | none => 0

end Outbox

end LiteChat
