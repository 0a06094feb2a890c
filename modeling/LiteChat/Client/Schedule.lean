import LiteChat.Client.Engine
import LiteChat.Sorting

/-!
# A schedule

The engine leaves open in which order things move.  This module fixes one order, in
which nothing moves while something else can go on: an errand runs to its end
(`perform`), and then whatever is under way without a caller runs until all of it waits
(`settle`).

Among those that run, the first in line moves until it has to wait.  One that waits for
a reply that takes time goes to the end of the line.  The line begins with the
listener; the outboxes follow in the order in which their next messages were posted.

Both are runs of the engine, so what holds of every run holds of them.
-/

namespace LiteChat

namespace Engine

/-- The engine after an errand was started and has come to its end, and the errand. -/
def perform (e : Engine) (t : Errand) : Engine × Errand :=
  let n := e.nextErrand
  let e := e.run (.start t :: List.replicate t.remaining (.move (.errand n)))
  (e, (Keyed.get? n e.errands).getD t)

/-! ## What goes on without a caller -/

/-- Whether a move changes anything. -/
def canMove (e : Engine) : Mover → Bool
  | .listener => e.listener.any fun l => l.canMove e.client
  | .outbox n => (Keyed.get? n e.outboxes).any Outbox.canMove
  | .errand n => (Keyed.get? n e.errands).any fun t => !t.isDone

/-- Whether something waits for a reply that takes time. -/
def isDelayed (e : Engine) : Mover → Bool
  | .outbox n =>
    decide (0 < e.client.transport.latency) && (Keyed.get? n e.outboxes).any Outbox.isAwaiting
  | _ => false

/-- A bound on the moves until all that goes on without a caller waits. -/
def remaining (e : Engine) : Nat :=
  (e.listener.map fun l => l.remaining e.client).getD 0 +
    e.outboxes.foldr (fun o n => o.2.remaining + n) 0

/-- The listener and the outboxes in the order in which they come to move. -/
def line (e : Engine) : List Mover :=
  let first (o : Nat × Outbox) : Nat := (o.2.tickets.head?).getD e.postings.length
  .listener :: (Sorting.sortOn first e.outboxes).map fun o => .outbox o.1

/-- The engine after at most a number of turns of a line. -/
def turns : Nat → Engine → List Mover → Engine
  | 0, e, _ => e
  | _ + 1, e, [] => e
  | n + 1, e, m :: rest =>
    if e.canMove m then
      let e := e.move m
      turns n e (if e.isDelayed m then rest ++ [m] else m :: rest)
    else turns n e rest

/-- The engine after all that goes on without a caller has come to wait. -/
def settle (e : Engine) : Engine :=
  let line := e.line
  turns (e.remaining + line.length) e line

/-- The outcomes on the receipts of the postings from a number on, with their
conversations. -/
def outcomes (e : Engine) (start : Nat) : List (String × Except ClientError Message) :=
  (e.postings.drop start).filterMap fun p => p.receipt.outcome?.map fun o => (p.conversation, o)

end Engine

end LiteChat
