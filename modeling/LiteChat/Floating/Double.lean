import LiteChat.Floating.Format

/-!
# Single and double precision numbers

A `Double` and a `Single` are their bit patterns, so that equal patterns are
equal values and nothing about a not-a-number's payload is lost.  Comparison is
a separate matter: `Double.sameNumber` and `Double.below` follow the arithmetic
of the numbers, for which a not-a-number differs from everything, itself
included, and the two zeros are one number.

The arithmetic here is what the session clock and the codec need: reading
integers and decimals, widening and narrowing, sums and quotients, each the
exact result rounded once.
-/

namespace LiteChat.Floating

/-- A double precision number, as its bit pattern. -/
structure Double where
  /-- The sign bit, eleven exponent bits and fifty-two fraction bits. -/
  bits : UInt64
  deriving DecidableEq, Repr, Inhabited

/-- A single precision number, as its bit pattern. -/
structure Single where
  /-- The sign bit, eight exponent bits and twenty-three fraction bits. -/
  bits : UInt32
  deriving DecidableEq, Repr, Inhabited

/-! ## Signed magnitudes

Both precisions are read through the same three operations on a pattern `n` of a
format: its sign, its magnitude, and its place in the order of numbers. -/

namespace Format

variable (f : Format)

/-- Whether the sign bit of a pattern is set. -/
def isNegative (n : Nat) : Bool := decide (f.signWeight ≤ n)

/-- A pattern without its sign bit. -/
def magnitude (n : Nat) : Nat := n % f.signWeight

/-- The pattern with the given sign and magnitude. -/
def pattern (negative : Bool) (magnitude : Nat) : Nat :=
  if negative then f.signWeight + magnitude else magnitude

/-- The place of a pattern in the order of numbers; both zeros have place 0. -/
def rank (n : Nat) : Int :=
  if f.isNegative n then -(f.magnitude n : Int) else f.magnitude n

end Format

/-! ## Doubles -/

namespace Double

/-- The double with the given sign and magnitude pattern. -/
def ofMagnitude (negative : Bool) (magnitude : Nat) : Double :=
  ⟨UInt64.ofNat (Format.binary64.pattern negative magnitude)⟩

/-- Whether the sign bit is set. -/
def isNegative (x : Double) : Bool := Format.binary64.isNegative x.bits.toNat

/-- The pattern without the sign bit. -/
def magnitude (x : Double) : Nat := Format.binary64.magnitude x.bits.toNat

/-- Whether the pattern stores a number that is not infinite. -/
def isFinite (x : Double) : Bool := decide (x.magnitude < Format.binary64.infinity)

/-- Whether the pattern stores no number at all. -/
def isNaN (x : Double) : Bool := decide (Format.binary64.infinity < x.magnitude)

/-- Positive zero. -/
def zero : Double := ⟨0⟩

/-- Negative zero. -/
def negativeZero : Double := ofMagnitude true 0

/-- The place of the number in the order of numbers. -/
def rank (x : Double) : Int := Format.binary64.rank x.bits.toNat

/-- Whether two doubles store the same number. -/
def sameNumber (x y : Double) : Bool := !x.isNaN && !y.isNaN && decide (x.rank = y.rank)

/-- Whether `x` stores a smaller number than `y`. -/
def below (x y : Double) : Bool := !x.isNaN && !y.isNaN && decide (x.rank < y.rank)

/-- The double nearest to `± num / den`. -/
def ofRatio (negative : Bool) (num den : Nat) : Double :=
  ofMagnitude negative (Format.binary64.round num den)

/-- The double nearest to an integer. -/
def ofInt (n : Int) : Double := ofRatio (decide (n < 0)) n.natAbs 1

/-- The double nearest to `± m · 10^e`, `none` when that is past every finite
one. -/
def ofDecimal? (negative : Bool) (m : Nat) (e : Int) : Option Double :=
  let magnitude := Format.binary64.roundDecimal m e
  if magnitude < Format.binary64.infinity then some (ofMagnitude negative magnitude) else none

/-- The number with the other sign. -/
def neg (x : Double) : Double := ofMagnitude (!x.isNegative) x.magnitude

/-- The exact value of a finite double, as an integer times a power of two. -/
def parts (x : Double) : Int × Int :=
  let (m, q) := Format.binary64.parts x.magnitude
  (if x.isNegative then -(m : Int) else m, q)

/-- The sum, rounded once.  An exact zero is negative only when both terms are. -/
def add (x y : Double) : Double :=
  if x.isNaN then x
  else if y.isNaN then y
  else if !x.isFinite then
    if !y.isFinite && x.isNegative != y.isNegative then
      ofMagnitude false Format.binary64.quietNaN
    else x
  else if !y.isFinite then y
  else
    let (m, p) := x.parts
    let (n, q) := y.parts
    let least := min p q
    let sum := m * (Nat.pow 2 (p - least).toNat : Nat) + n * (Nat.pow 2 (q - least).toNat : Nat)
    if sum = 0 then ofMagnitude (x.isNegative && y.isNegative) 0
    else ofMagnitude (decide (sum < 0)) (Format.binary64.roundScaled sum.natAbs least)

/-- The difference, rounded once. -/
def sub (x y : Double) : Double := x.add y.neg

/-- A finite double divided by a positive integer, rounded once. -/
def dividedBy (x : Double) (n : Nat) : Double :=
  let (m, q) := Format.binary64.parts x.magnitude
  let (num, den) := scale m n q
  ofRatio x.isNegative num den

end Double

/-! ## Singles -/

namespace Single

/-- The single with the given sign and magnitude pattern. -/
def ofMagnitude (negative : Bool) (magnitude : Nat) : Single :=
  ⟨UInt32.ofNat (Format.binary32.pattern negative magnitude)⟩

/-- Whether the sign bit is set. -/
def isNegative (x : Single) : Bool := Format.binary32.isNegative x.bits.toNat

/-- The pattern without the sign bit. -/
def magnitude (x : Single) : Nat := Format.binary32.magnitude x.bits.toNat

/-- Whether the pattern stores a number that is not infinite. -/
def isFinite (x : Single) : Bool := decide (x.magnitude < Format.binary32.infinity)

/-- Whether the pattern stores no number at all. -/
def isNaN (x : Single) : Bool := decide (Format.binary32.infinity < x.magnitude)

/-- The place of the number in the order of numbers. -/
def rank (x : Single) : Int := Format.binary32.rank x.bits.toNat

/-- Whether two singles store the same number. -/
def sameNumber (x y : Single) : Bool := !x.isNaN && !y.isNaN && decide (x.rank = y.rank)

/-- The fraction bits that double precision has and single precision lacks. -/
def extraFraction : Nat := Format.binary64.fractionBits - Format.binary32.fractionBits

/-- The same number in double precision.  A not-a-number keeps its payload and
becomes quiet. -/
def widen (x : Single) : Double :=
  let magnitude :=
    if x.isFinite then
      let (m, q) := Format.binary32.parts x.magnitude
      Format.binary64.roundScaled m q
    else
      let payload := (x.magnitude - Format.binary32.infinity) * Nat.pow 2 extraFraction
      if payload = 0 then Format.binary64.infinity
      else Format.binary64.infinity + (payload ||| Nat.pow 2 (Format.binary64.fractionBits - 1))
  .ofMagnitude x.isNegative magnitude

end Single

/-- The nearest single precision number, infinity past the greatest.  A
not-a-number keeps the leading bits of its payload and becomes quiet. -/
def Double.narrow (x : Double) : Single :=
  let magnitude :=
    if x.isFinite then
      let (m, q) := Format.binary64.parts x.magnitude
      Format.binary32.roundScaled m q
    else
      let payload := (x.magnitude - Format.binary64.infinity) / Nat.pow 2 Single.extraFraction
      if x.magnitude = Format.binary64.infinity then Format.binary32.infinity
      else Format.binary32.infinity + (payload ||| Nat.pow 2 (Format.binary32.fractionBits - 1))
  .ofMagnitude x.isNegative magnitude

example : (Double.ofInt 3).sub (Double.ofInt 5) = Double.ofInt (-2) := by decide +kernel
example : (Double.ofInt 3).dividedBy 2 = ⟨0x3ff8000000000000⟩ := by decide +kernel
example : Double.zero.sameNumber Double.negativeZero = true := by decide +kernel
example : (Single.mk 0x3dcccccd).widen = ⟨0x3fb99999a0000000⟩ := by decide +kernel
example : (Single.mk 0x3dcccccd).widen.narrow = ⟨0x3dcccccd⟩ := by decide +kernel

end LiteChat.Floating
