import LiteChat.Keyed
import LiteChat.Json.Tree

/-!
# JSON values

A number is an integer or a floating-point number, and which one it is depends
on its spelling: a numeral without point and exponent that fits in 64 bits,
signed or unsigned, is an integer (`Numeral.value?`).  An object is a map from
keys to values, kept by `Keyed`: its keys are sorted, and of several members
under one key the last wins.

`Json.ofText?` reads a whole text.  Beyond the grammar it asks three things of
it: that arrays and objects nest at most `Json.nestingLimit` deep, that no number
is past every finite double, and that surrogates stand in pairs.
-/

namespace LiteChat

/-- A JSON value. -/
inductive Json where
  /-- The null value. -/
  | null
  /-- A truth value. -/
  | bool (b : Bool)
  /-- A number spelt as an integer, within 64 bits. -/
  | int (n : Int)
  /-- Any other number. -/
  | float (x : Floating.Double)
  /-- A string. -/
  | string (s : String)
  /-- An array. -/
  | array (items : List Json)
  /-- An object, as a map from keys to values. -/
  | object (members : List (String × Json))
  deriving Repr, Inhabited

namespace Json

open Floating (Double)

/-! ## Reading a tree -/

/-- The least integer that a signed 64-bit number can be. -/
def leastInt64 : Int := -9223372036854775808

/-- The first integer past the signed 64-bit numbers. -/
def int64Bound : Int := 9223372036854775808

/-- The first integer past the unsigned 64-bit numbers. -/
def uint64Bound : Int := 18446744073709551616

/-- The number that a numeral spells.  Minus zero and an integer beyond 64 bits
are floating-point numbers. -/
def Numeral.value? (n : Numeral) : Option Json :=
  let fraction := n.fraction.getD []
  let m := digitsValue (n.whole ++ fraction)
  let integer : Int := if n.negative then -(m : Int) else m
  let integral := n.fraction.isNone && n.exponent.isNone && !(n.negative && decide (m = 0))
  if integral ∧ leastInt64 ≤ integer ∧ integer < uint64Bound then some (.int integer)
  else (Double.ofDecimal? n.negative m (n.exponent.getD 0 - fraction.length)).map .float

/-- The characters that the pieces of a string stand for: a high surrogate and
the low one that follows it are one character, and neither may stand alone. -/
def Piece.text? : List Piece → Option (List Char)
  | [] => some []
  | .char c :: rest => (Piece.text? rest).map (c :: ·)
  | .unit u :: rest =>
    if 0xD800 ≤ u ∧ u < 0xDC00 then
      match rest with
      | .unit v :: rest =>
        if 0xDC00 ≤ v ∧ v < 0xE000 then
          (Piece.text? rest).map (Char.ofNat (0x10000 + 0x400 * (u - 0xD800) + (v - 0xDC00)) :: ·)
        else none
      | _ => none
    else if 0xDC00 ≤ u ∧ u < 0xE000 then none
    else (Piece.text? rest).map (Char.ofNat u :: ·)

/-- The string that the pieces stand for. -/
def Piece.string? (pieces : List Piece) : Option String :=
  (Piece.text? pieces).map String.ofList

/-- How deep arrays and objects may nest in a value. -/
def nestingLimit : Nat := 127

mutual

/-- The value of a tree in which arrays and objects may nest `depth` deep. -/
def Tree.value? (depth : Nat) : Tree → Option Json
  | .null => some .null
  | .bool b => some (.bool b)
  | .number n => n.value?
  | .string pieces => (Piece.string? pieces).map .string
  | .array items =>
    match depth with
    | 0 => none
    | depth + 1 => (Tree.values? depth items).map .array
  | .object members =>
    match depth with
    | 0 => none
    | depth + 1 => (Tree.members? depth members).map fun pairs => .object (Keyed.ofList pairs)

/-- The values of the items of an array. -/
def Tree.values? (depth : Nat) : List Tree → Option (List Json)
  | [] => some []
  | item :: rest =>
    match Tree.value? depth item with
    | none => none
    | some v => (Tree.values? depth rest).map (v :: ·)

/-- The members of an object in the order of the text. -/
def Tree.members? (depth : Nat) : List (List Piece × Tree) → Option (List (String × Json))
  | [] => some []
  | (key, item) :: rest =>
    match Piece.string? key, Tree.value? depth item with
    | some k, some v => (Tree.members? depth rest).map ((k, v) :: ·)
    | _, _ => none

end

/-- The value of a JSON text. -/
def ofText? (text : String) : Option Json :=
  (Tree.ofText? text.toList).bind (Tree.value? nestingLimit)

/-- The value of a JSON text given as bytes, which have to be valid UTF-8. -/
def ofBytes? (bytes : ByteArray) : Option Json := (String.fromUTF8? bytes).bind ofText?

/-! ## Parts of a value -/

/-- The kind of a value, as error texts name it. -/
def kind : Json → String
  | .null => "null"
  | .bool _ => "bool"
  | .int _ => "number"
  | .float _ => "number"
  | .string _ => "string"
  | .array _ => "array"
  | .object _ => "object"

/-- Whether a value is null. -/
def isNull : Json → Bool
  | .null => true
  | _ => false

/-- The string, if the value is one. -/
def string? : Json → Option String
  | .string s => some s
  | _ => none

/-- The items, if the value is an array. -/
def items? : Json → Option (List Json)
  | .array items => some items
  | _ => none

/-- The integer, if the value is a signed 64-bit one. -/
def int64? : Json → Option Int
  | .int n => if leastInt64 ≤ n ∧ n < int64Bound then some n else none
  | _ => none

/-- The integer, if the value is an unsigned 64-bit one. -/
def uint64? : Json → Option Nat
  | .int n => if 0 ≤ n ∧ n < uint64Bound then some n.toNat else none
  | _ => none

/-- The number in double precision, if the value is a number. -/
def double? : Json → Option Double
  | .int n => some (Double.ofInt n)
  | .float x => some x
  | _ => none

/-- The value under a key, if the value is an object that has the key. -/
def get? (key : String) : Json → Option Json
  | .object members => Keyed.get? key members
  | _ => none

/-! ## Building a value -/

/-- The number, or null when it is not finite: JSON text has no spelling for
infinities. -/
def ofDouble (x : Double) : Json := if x.isFinite then .float x else .null

/-- The string, or null for none. -/
def ofString? : Option String → Json
  | none => .null
  | some s => .string s

/-- The object with the given members, of which the last under a key wins. -/
def ofMembers (members : List (String × Json)) : Json := .object (Keyed.ofList members)

/-! ## Sameness

Two values are the same when their numbers are; an integer and a floating-point
number never are. -/

mutual

/-- Whether two values are the same. -/
def same : Json → Json → Bool
  | .null, .null => true
  | .bool a, .bool b => a == b
  | .int m, .int n => decide (m = n)
  | .float x, .float y => x.sameNumber y
  | .string s, .string t => decide (s = t)
  | .array xs, .array ys => sameItems xs ys
  | .object xs, .object ys => sameMembers xs ys
  | _, _ => false

/-- Whether two lists of values are the same, item by item. -/
def sameItems : List Json → List Json → Bool
  | [], [] => true
  | x :: xs, y :: ys => same x y && sameItems xs ys
  | _, _ => false

/-- Whether two objects have the same keys with the same values. -/
def sameMembers : List (String × Json) → List (String × Json) → Bool
  | [], [] => true
  | (k, x) :: xs, (l, y) :: ys => decide (k = l) && same x y && sameMembers xs ys
  | _, _ => false

end

end Json

end LiteChat
