/-!
# Binary floating-point formats

A binary format stores a number as a sign, an exponent field and a fraction
field.  This module describes a format by the widths of the two fields
(`Format`), reads the magnitude stored in a bit pattern as `m · 2^q`
(`Format.parts`), and goes the other way for an exact ratio: `Format.round` is
the bit pattern of the nearest representable number, a tie going to the even
neighbour.

Everything is arithmetic on natural numbers and integers, so the kernel can
evaluate it.  A magnitude is kept apart from its sign: its bit pattern, read as
a number, grows with the number it stores, which makes the order of bit patterns
the order of magnitudes.
-/

namespace LiteChat.Floating

/-- The two field widths that fix a binary format. -/
structure Format where
  /-- The number of stored fraction bits. -/
  fractionBits : Nat
  /-- The number of exponent bits. -/
  exponentBits : Nat
  deriving DecidableEq, Repr

namespace Format

/-- Double precision: 64 bits in all. -/
def binary64 : Format where
  fractionBits := 52
  exponentBits := 11

/-- Single precision: 32 bits in all. -/
def binary32 : Format where
  fractionBits := 23
  exponentBits := 8

variable (f : Format)

/-- The exponent `q` of the least magnitudes, which are `m · 2^q` with `m` below
`2 ^ fractionBits`. -/
def leastExponent : Int := 2 - (Nat.pow 2 (f.exponentBits - 1) : Nat) - f.fractionBits

/-- The magnitude pattern of infinity: all exponent bits set, no fraction. -/
def infinity : Nat := (Nat.pow 2 f.exponentBits - 1) * Nat.pow 2 f.fractionBits

/-- The magnitude pattern of the quiet not-a-number without further payload. -/
def quietNaN : Nat := f.infinity + Nat.pow 2 (f.fractionBits - 1)

/-- The weight of the sign bit. -/
def signWeight : Nat := Nat.pow 2 (f.fractionBits + f.exponentBits)

/-- The integer `m` and the exponent `q` of a finite magnitude `m · 2^q`. -/
def parts (magnitude : Nat) : Nat × Int :=
  let field := magnitude / Nat.pow 2 f.fractionBits
  let fraction := magnitude % Nat.pow 2 f.fractionBits
  if field = 0 then (fraction, f.leastExponent)
  else (fraction + Nat.pow 2 f.fractionBits, f.leastExponent + (field - 1 : Nat))

end Format

/-! ## Rounding -/

/-- The quotient rounded to the nearest natural number, a tie going to the even
one. -/
def roundQuotient (num den : Nat) : Nat :=
  let q := num / den
  let r := num % den
  if 2 * r < den then q
  else if den < 2 * r then q + 1
  else if q % 2 = 0 then q else q + 1

/-- The numerator and denominator of `num / den · 2^q`. -/
def scale (num den : Nat) (q : Int) : Nat × Nat :=
  (num * Nat.pow 2 q.toNat, den * Nat.pow 2 (-q).toNat)

/-- The exponent `e` with `2^e ≤ num / den < 2^(e+1)`, for a positive ratio. -/
def binaryExponent (num den : Nat) : Int :=
  let e : Int := (Nat.log2 num : Int) - Nat.log2 den
  let (n, d) := scale num den (-e)
  if n < d then e - 1 else e

namespace Format

variable (f : Format)

/-- The magnitude pattern nearest to `num / den`, infinity when that is past
every finite one. -/
def round (num den : Nat) : Nat :=
  if num = 0 then 0
  else
    let q := max f.leastExponent (binaryExponent num den - f.fractionBits)
    let (n, d) := scale num den (-q)
    min f.infinity ((q - f.leastExponent).toNat * Nat.pow 2 f.fractionBits + roundQuotient n d)

/-- The magnitude pattern nearest to `m · 2^q`. -/
def roundScaled (m : Nat) (q : Int) : Nat :=
  let (n, d) := scale m 1 q
  f.round n d

/-- The magnitude pattern nearest to `m · 10^e`.  Exponents far outside the range
of the format are answered without forming the power of ten. -/
def roundDecimal (m : Nat) (e : Int) : Nat :=
  let digits : Int := (Nat.toDigits 10 m).length
  if m = 0 then 0
  else if 400 < digits + e then f.infinity
  else if digits + e < -400 then 0
  else f.round (m * Nat.pow 10 e.toNat) (Nat.pow 10 (-e).toNat)

end Format

example : Format.binary64.round 1 1 = 0x3ff0000000000000 := by decide +kernel
example : Format.binary64.round 1 10 = 0x3fb999999999999a := by decide +kernel
example : Format.binary64.roundDecimal 5 (-324) = 1 := by decide +kernel
example : Format.binary64.roundDecimal 2 308 = Format.binary64.infinity := by decide +kernel
example : Format.binary32.round 1 10 = 0x3dcccccd := by decide +kernel

end LiteChat.Floating
