import LiteChat.Floating.Shortest

/-!
# How a floating-point number is written

The digits of a number are settled by `Format.shortest`; this module lays them
out.  A `Layout` records the decisions that differ between outputs: which
exponents are written positionally, whether a positive exponent carries a sign,
and which of two equally near decimals is taken.  Two layouts are used: `json`
for JSON text, and `inspection` for the readable view of a message.
-/

namespace LiteChat.Floating

/-- The decisions that fix the text of a finite number. -/
structure Layout where
  /-- The least exponent of the leading digit that is written positionally. -/
  plainFrom : Int
  /-- The first exponent of the leading digit that no longer is. -/
  plainBelow : Int
  /-- Whether a positive exponent is written with its sign. -/
  signedExponent : Bool
  /-- Which of two equally near decimals is taken. -/
  tie : Tie

namespace Layout

/-- Numbers in JSON text: `0.00001` and `1000000000000000.0` are positional, then
`1e-6` and `1e+16`. -/
def json : Layout where
  plainFrom := -5
  plainBelow := 16
  signedExponent := true
  tie := .toEven

/-- Numbers in the readable view of a message: `0.0001` and `1000000000000000.0`
are positional, then `1e-5` and `1e16`. -/
def inspection : Layout where
  plainFrom := -4
  plainBelow := 16
  signedExponent := false
  tie := .up

variable (l : Layout)

/-- The exponent part of a number that is not written positionally. -/
def exponentText (e : Int) : List Char :=
  let digits := Nat.toDigits 10 e.natAbs
  'e' :: (if e < 0 then '-' :: digits else if l.signedExponent then '+' :: digits else digits)

/-- The digits of a non-negative number, laid out.  A positional number always
has a fraction. -/
def text (d : Decimal) : List Char :=
  let digits := Nat.toDigits 10 d.digits
  let leading : Int := d.exponent + digits.length - 1
  if d.digits = 0 then ['0', '.', '0']
  else if l.plainFrom ≤ leading ∧ leading < l.plainBelow then
    if 0 ≤ d.exponent then
      digits ++ List.replicate d.exponent.toNat '0' ++ ['.', '0']
    else if 0 ≤ leading then
      digits.take (leading.toNat + 1) ++ '.' :: digits.drop (leading.toNat + 1)
    else
      ['0', '.'] ++ List.replicate (-leading - 1).toNat '0' ++ digits
  else
    match digits with
    | [] => []
    | first :: rest =>
      let fraction := if rest = [] then [] else '.' :: rest
      first :: fraction ++ l.exponentText leading

end Layout

/-- The text of a finite double. -/
def Double.text (l : Layout) (x : Double) : List Char :=
  let digits := l.text (Format.binary64.shortest l.tie x.magnitude)
  if x.isNegative then '-' :: digits else digits

/-- The text of a finite single, whose digits are the fewest that read back in
single precision. -/
def Single.text (l : Layout) (x : Single) : List Char :=
  let digits := l.text (Format.binary32.shortest l.tie x.magnitude)
  if x.isNegative then '-' :: digits else digits

example : (Double.ofRatio false 1 10).text .json = ['0', '.', '1'] := by decide +kernel
example : (Double.ofInt 100).text .json = ['1', '0', '0', '.', '0'] := by decide +kernel
example : Double.negativeZero.text .json = ['-', '0', '.', '0'] := by decide +kernel
example : (Double.ofRatio false 1 1000000).text .json = ['1', 'e', '-', '6'] := by decide +kernel
example :
    (Double.ofInt (15 * Nat.pow 10 299)).text .json = ['1', '.', '5', 'e', '+', '3', '0', '0'] := by
  decide +kernel

end LiteChat.Floating
