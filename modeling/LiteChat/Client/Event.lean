import LiteChat.Service.Record

/-!
# Events for subscribers

The client publishes what happens on the push channel.  A subscriber takes the events
in the order in which they were published, when it gets to it.  Only the latest events
are kept for it, in a number of slots that is a power of two; a subscriber that falls
further behind is told how many events it has missed, and goes on with the oldest one
that is left.
-/

namespace LiteChat

/-- Something that subscribers are told. -/
inductive ClientEvent where
  /-- The push channel is open for the first time. -/
  | connected
  /-- The push channel is open again. -/
  | reconnected
  /-- The push channel is gone. -/
  | disconnected
  /-- One entry of a pushed batch. -/
  | stateUpdate (update : StateUpdate)

/-- A subscriber, as the number of published events that lie behind it. -/
structure Subscriber where
  position : Nat
  deriving DecidableEq, Repr, Inhabited

namespace Subscriber

/-- The slots for a capacity: the least power of two that is not below it. -/
def slots (capacity : Nat) : Nat := Nat.pow 2 (Nat.log2 (2 * max capacity 1 - 1))

/-- The subscriber that will be told all that is published from now on. -/
def now (published : List ClientEvent) : Subscriber := ⟨published.length⟩

/-- How many events the subscriber has missed. -/
def missed (s : Subscriber) (capacity : Nat) (published : List ClientEvent) : Nat :=
  published.length - s.position - slots capacity

/-- The events that the subscriber is yet to be told. -/
def unread (s : Subscriber) (capacity : Nat) (published : List ClientEvent) :
    List ClientEvent :=
  published.drop (s.position + s.missed capacity published)

end Subscriber

example : Subscriber.slots 0 = 1 := by decide +kernel
example : Subscriber.slots 3 = 4 := by decide +kernel
example : Subscriber.slots 256 = 256 := by decide +kernel

end LiteChat
