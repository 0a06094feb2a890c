/-!
# Integers in text

An integer is written as an optional sign and at least one decimal digit, with
nothing around it, and has to lie in the range that is asked for.  Only a signed
integer may have a minus sign.
-/

namespace LiteChat.Text

/-- The value of a decimal digit. -/
def digit? (c : Char) : Option Nat :=
  if '0' ≤ c ∧ c ≤ '9' then some (c.toNat - '0'.toNat) else none

/-- The value of a text of digits read after a value, `none` when another character
is among them. -/
def digitsFrom? (value : Nat) : List Char → Option Nat
  | [] => some value
  | c :: rest =>
    match digit? c with
    | some d => digitsFrom? (10 * value + d) rest
    | none => none

theorem digitsFrom?_cons (value : Nat) (c : Char) (rest : List Char) :
    digitsFrom? value (c :: rest) =
      match digit? c with
      | some d => digitsFrom? (10 * value + d) rest
      | none => none := rfl

/-- The natural number that a non-empty text of digits spells. -/
def nat? : List Char → Option Nat
  | [] => none
  | c :: rest => digitsFrom? 0 (c :: rest)

/-- The unsigned integer below a bound that a text spells. -/
def unsigned? (bound : Nat) (text : List Char) : Option Nat :=
  let digits := match text with
    | '+' :: rest => rest
    | text => text
  (nat? digits).filter (decide <| · < bound)

/-- The signed integer from a least one up to a bound that a text spells. -/
def signed? (least bound : Int) (text : List Char) : Option Int :=
  let value : Option Int := match text with
    | '+' :: rest => (nat? rest).map fun n => (n : Int)
    | '-' :: rest => (nat? rest).map fun n => -(n : Int)
    | text => (nat? text).map fun n => (n : Int)
  value.filter fun n => decide (least ≤ n ∧ n < bound)

/-- The decimal digits of a natural number. -/
def ofNat (n : Nat) : List Char := Nat.toDigits 10 n

/-- The decimal digits of an integer, after a minus sign if it is negative. -/
def ofInt (n : Int) : List Char :=
  if n < 0 then '-' :: ofNat n.natAbs else ofNat n.natAbs

example : unsigned? 4294967296 "+7".toList = some 7 := by decide
example : unsigned? 4294967296 "-7".toList = none := by decide
example : signed? (-2147483648) 2147483648 "-2147483648".toList = some (-2147483648) := by decide
example : signed? (-2147483648) 2147483648 "+".toList = none := by decide

end LiteChat.Text
