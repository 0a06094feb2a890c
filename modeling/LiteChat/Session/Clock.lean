import LiteChat.Floating.Double

/-!
# Time

The session measures time on a clock that counts microseconds in 64 bits.  A clock
moves only when it is advanced, and a step past the last count starts over from
zero.  Decisions about time are taken in seconds, as doubles: the count is rounded
first and then the quotient.

A length of time (`TimeSpan`) is a number of seconds and of nanoseconds within the
next one.
-/

namespace LiteChat

open Floating (Double)

/-- A clock, as the microseconds it shows. -/
structure Clock where
  /-- Microseconds since the epoch. -/
  micros : UInt64
  deriving DecidableEq, Repr, Inhabited

namespace Clock

/-- The microseconds of a second. -/
def microsPerSecond : Nat := 1000000

/-- The greatest count a clock can show. -/
def greatest : Nat := 18446744073709551615

/-- The clock that shows the start of a second, or the greatest count if that is
past it. -/
def atSecond (seconds : Nat) : Clock :=
  ⟨UInt64.ofNat (min (seconds * microsPerSecond) greatest)⟩

/-- The clock a number of microseconds later.  One step is at most the greatest
count. -/
def advance (c : Clock) (micros : Nat) : Clock :=
  ⟨c.micros + UInt64.ofNat (min micros greatest)⟩

/-- The time in seconds. -/
def seconds (c : Clock) : Double := (Double.ofInt c.micros.toNat).dividedBy microsPerSecond

end Clock

/-- A length of time. -/
structure TimeSpan where
  /-- The whole seconds. -/
  seconds : Nat
  /-- The nanoseconds beside them. -/
  nanos : Nat
  deriving DecidableEq, Repr, Inhabited

namespace TimeSpan

/-- The nanoseconds of a second. -/
def nanosPerSecond : Nat := 1000000000

/-- A number of whole seconds. -/
def ofSeconds (n : Nat) : TimeSpan := ⟨n, 0⟩

/-- A number of milliseconds. -/
def ofMillis (n : Nat) : TimeSpan := ⟨n / 1000, n % 1000 * 1000000⟩

/-- The whole microseconds of a length of time. -/
def micros (t : TimeSpan) : Nat := t.seconds * Clock.microsPerSecond + t.nanos / 1000

/-- The length in seconds: the two parts, each as a double, added. -/
def inSeconds (t : TimeSpan) : Double :=
  (Double.ofInt t.seconds).add ((Double.ofInt t.nanos).dividedBy nanosPerSecond)

end TimeSpan

example : ((Clock.atSecond 1000).advance (TimeSpan.ofMillis 1500).micros).micros = 1001500000 := by
  decide +kernel
example : (Clock.atSecond Clock.greatest).advance 5 = ⟨4⟩ := by decide +kernel
example : (TimeSpan.ofMillis 1500).inSeconds = ⟨0x3ff8000000000000⟩ := by decide +kernel

end LiteChat
