import LiteChat.Keyed

/-!
# Event feeds

A feed hands pushed events to whoever listens.  Listening opens a receiver, which from
then on is the *current* one: an event that is pushed goes to the current receiver, and
waits with the feed while there is none.  The events that wait are given to the next
receiver, before anything that is pushed later.

A receiver is told apart by its number.  It keeps the events it was given until it
takes them, also after another receiver has become current, and it is gone for good
when it is dropped; a feed whose current receiver is gone has nobody to give events to.
Closing the feed takes the current receiver's place away but leaves it what it holds.
-/

namespace LiteChat

/-- A feed of events. -/
structure Feed (ε : Type) where
  /-- The number of the receiver that pushed events go to. -/
  current : Option Nat := none
  /-- The receivers that have not been dropped, with the events that they hold. -/
  receivers : List (Nat × List ε) := []
  /-- The events that wait for a receiver. -/
  pending : List ε := []
  /-- The number of the next receiver. -/
  next : Nat := 0
  deriving Repr, Inhabited

namespace Feed

variable {ε : Type}

/-- The events that a receiver holds, `none` for a receiver that is gone. -/
def held? (f : Feed ε) (r : Nat) : Option (List ε) := Keyed.get? r f.receivers

/-- The receiver that an event pushed now is given to. -/
def taker? (f : Feed ε) : Option Nat := f.current.filter fun r => (f.held? r).isSome

/-- The feed after an event has been pushed. -/
def push (f : Feed ε) (event : ε) : Feed ε :=
  match f.taker? with
  | some r => { f with receivers := Keyed.modify r (· ++ [event]) f.receivers }
  | none => { f with pending := f.pending ++ [event] }

/-- The feed without a current receiver. -/
def close (f : Feed ε) : Feed ε := { f with current := none }

/-- The feed with a new current receiver, which is given all that waits. -/
def listen (f : Feed ε) : Feed ε :=
  { current := some f.next
    receivers := Keyed.insert f.next f.pending f.receivers
    pending := []
    next := f.next + 1 }

/-- The first event that a receiver holds. -/
def first? (f : Feed ε) (r : Nat) : Option ε := (f.held? r).bind List.head?

/-- The feed after a receiver has taken its first event. -/
def take (f : Feed ε) (r : Nat) : Feed ε :=
  { f with receivers := Keyed.modify r List.tail f.receivers }

/-- The feed without a receiver. -/
def drop (f : Feed ε) (r : Nat) : Feed ε := { f with receivers := Keyed.erase r f.receivers }

/-- Whether a receiver will never hold an event again. -/
def hasEnded (f : Feed ε) (r : Nat) : Bool :=
  decide (f.current ≠ some r) && (f.first? r).isNone

end Feed

end LiteChat
