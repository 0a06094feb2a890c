import LiteChat.Floating.Double

/-!
# The grammar of JSON text

A `Tree` is what the grammar alone says about a JSON text: which values it is
built of, how each number is spelt, and which characters and escapes stand in a
string.  What a tree means is decided later (`Json.Tree.value?`), because some
readers look at a part of a text without asking what it means: a key that a
reader does not know may hold a number too great for any double, an unpaired
surrogate, or arrays nested beyond the limit for values.

`Tree.ofText?` reads a whole text: blanks are space, tab, line feed and carriage
return, and nothing but blanks may follow the value.
-/

namespace LiteChat.Json

/-- How a number is spelt. -/
structure Numeral where
  /-- Whether a minus sign stands in front. -/
  negative : Bool
  /-- The digits before the point. -/
  whole : List Char
  /-- The digits after the point, when there is a point. -/
  fraction : Option (List Char)
  /-- The exponent, when there is one. -/
  exponent : Option Int
  deriving DecidableEq, Repr

/-- One item of a string between its quotes. -/
inductive Piece where
  /-- A character, written as itself or by a short escape. -/
  | char (c : Char)
  /-- A code unit written as four hexadecimal digits. -/
  | unit (u : Nat)
  deriving DecidableEq, Repr

/-- A JSON text after the grammar has been applied to it. -/
inductive Tree where
  /-- The word `null`. -/
  | null
  /-- One of the words `true` and `false`. -/
  | bool (b : Bool)
  /-- A number as it is spelt. -/
  | number (n : Numeral)
  /-- A string as it is spelt. -/
  | string (pieces : List Piece)
  /-- An array. -/
  | array (items : List Tree)
  /-- An object, with its keys as they are spelt and in the order of the text. -/
  | object (members : List (List Piece × Tree))
  deriving Repr

/-- A scanner takes what it recognises off the front of a text and hands back
the rest. -/
abbrev Scanner (α : Type) := List Char → Option (α × List Char)

/-! ## Blanks, digits and words -/

/-- The characters that may stand between tokens. -/
def isBlank (c : Char) : Bool := c = ' ' || c = '\t' || c = '\n' || c = '\r'

/-- The text after its leading blanks. -/
def skipBlanks : List Char → List Char
  | [] => []
  | c :: rest => if isBlank c then skipBlanks rest else c :: rest

/-- The leading digits of a text, and the rest. -/
def spanDigits (text : List Char) : List Char × List Char := text.span Char.isDigit

/-- The natural number that a list of digits spells. -/
def digitsValue (digits : List Char) : Nat :=
  digits.foldl (fun n c => 10 * n + (c.toNat - '0'.toNat)) 0

/-- The rest of a text that begins with a given word. -/
def afterWord? : List Char → List Char → Option (List Char)
  | [], text => some text
  | _ :: _, [] => none
  | c :: word, d :: text => if c = d then afterWord? word text else none

/-! ## Numbers -/

/-- The digits before the point: a zero alone, or digits that do not begin with
one. -/
def scanWhole : Scanner (List Char)
  | [] => none
  | c :: rest =>
    if c = '0' then
      match rest with
      | d :: _ => if d.isDigit then none else some (['0'], rest)
      | [] => some (['0'], [])
    else if c.isDigit then
      let (digits, rest) := spanDigits rest
      some (c :: digits, rest)
    else none

/-- A point followed by at least one digit, or nothing. -/
def scanFraction : Scanner (Option (List Char))
  | '.' :: rest =>
    match spanDigits rest with
    | ([], _) => none
    | (digits, rest) => some (some digits, rest)
  | text => some (none, text)

/-- A sign, or nothing; the answer is whether it is a minus sign. -/
def scanSign : List Char → Bool × List Char
  | '-' :: rest => (true, rest)
  | '+' :: rest => (false, rest)
  | text => (false, text)

/-- An exponent mark, an optional sign and at least one digit, or nothing. -/
def scanExponent : Scanner (Option Int)
  | [] => some (none, [])
  | c :: rest =>
    if c = 'e' ∨ c = 'E' then
      let (negative, rest) := scanSign rest
      match spanDigits rest with
      | ([], _) => none
      | (digits, rest) =>
        let magnitude : Int := digitsValue digits
        some (some (if negative then -magnitude else magnitude), rest)
    else some (none, c :: rest)

/-- A number after its sign. -/
def scanUnsigned (negative : Bool) (text : List Char) : Option (Numeral × List Char) := do
  let (whole, text) ← scanWhole text
  let (fraction, text) ← scanFraction text
  let (exponent, text) ← scanExponent text
  return (⟨negative, whole, fraction, exponent⟩, text)

/-- A number. -/
def scanNumeral : Scanner Numeral
  | '-' :: rest => scanUnsigned true rest
  | text => scanUnsigned false text

/-! ## Strings -/

/-- The value of a hexadecimal digit. -/
def hexDigit? (c : Char) : Option Nat :=
  if '0' ≤ c ∧ c ≤ '9' then some (c.toNat - '0'.toNat)
  else if 'a' ≤ c ∧ c ≤ 'f' then some (c.toNat - 'a'.toNat + 10)
  else if 'A' ≤ c ∧ c ≤ 'F' then some (c.toNat - 'A'.toNat + 10)
  else none

/-- The character that a short escape stands for. -/
def shortEscape? (c : Char) : Option Char :=
  if c = '"' ∨ c = '\\' ∨ c = '/' then some c
  else if c = 'b' then some '\x08'
  else if c = 'f' then some '\x0c'
  else if c = 'n' then some '\n'
  else if c = 'r' then some '\r'
  else if c = 't' then some '\t'
  else none

/-- The rest of a string after its opening quote, up to and including the closing
one.  A control character may not stand in a string. -/
def scanString : Scanner (List Piece)
  | [] => none
  | '"' :: rest => some ([], rest)
  | '\\' :: 'u' :: a :: b :: c :: d :: rest => do
    let high := 16 * (← hexDigit? a) + (← hexDigit? b)
    let low := 16 * (← hexDigit? c) + (← hexDigit? d)
    let (pieces, rest) ← scanString rest
    return (.unit (256 * high + low) :: pieces, rest)
  | '\\' :: c :: rest => do
    let c ← shortEscape? c
    let (pieces, rest) ← scanString rest
    return (.char c :: pieces, rest)
  | c :: rest =>
    if c = '\\' ∨ c.toNat < 32 then none
    else do
      let (pieces, rest) ← scanString rest
      return (.char c :: pieces, rest)

/-! ## Values -/

mutual

/-- A value at the front of a text; `fuel` bounds the number of nested calls. -/
def scanValue (fuel : Nat) (text : List Char) : Option (Tree × List Char) :=
  match fuel with
  | 0 => none
  | fuel + 1 =>
    match skipBlanks text with
    | 'n' :: rest => (afterWord? "ull".toList rest).map (Tree.null, ·)
    | 't' :: rest => (afterWord? "rue".toList rest).map (Tree.bool true, ·)
    | 'f' :: rest => (afterWord? "alse".toList rest).map (Tree.bool false, ·)
    | '"' :: rest => (scanString rest).map fun (s, rest) => (Tree.string s, rest)
    | '[' :: rest =>
      match skipBlanks rest with
      | ']' :: rest => some (.array [], rest)
      | rest => (scanItems fuel rest).map fun (items, rest) => (Tree.array items, rest)
    | '\x7b' :: rest =>
      match skipBlanks rest with
      | '\x7d' :: rest => some (.object [], rest)
      | rest => (scanMembers fuel rest).map fun (members, rest) => (Tree.object members, rest)
    | rest => (scanNumeral rest).map fun (n, rest) => (Tree.number n, rest)

/-- The items of an array up to and including its closing bracket. -/
def scanItems (fuel : Nat) (text : List Char) : Option (List Tree × List Char) :=
  match fuel with
  | 0 => none
  | fuel + 1 =>
    match scanValue fuel text with
    | none => none
    | some (item, rest) =>
      match skipBlanks rest with
      | ']' :: rest => some ([item], rest)
      | ',' :: rest => (scanItems fuel rest).map fun (items, rest) => (item :: items, rest)
      | _ => none

/-- The members of an object up to and including its closing brace. -/
def scanMembers (fuel : Nat) (text : List Char) :
    Option (List (List Piece × Tree) × List Char) :=
  match fuel with
  | 0 => none
  | fuel + 1 =>
    match skipBlanks text with
    | '"' :: rest =>
      match scanString rest with
      | none => none
      | some (key, rest) =>
        match skipBlanks rest with
        | ':' :: rest =>
          match scanValue fuel rest with
          | none => none
          | some (value, rest) =>
            match skipBlanks rest with
            | '\x7d' :: rest => some ([(key, value)], rest)
            | ',' :: rest =>
              (scanMembers fuel rest).map fun (members, rest) => ((key, value) :: members, rest)
            | _ => none
        | _ => none
    | _ => none

end

/-- The tree of a whole text.  No value, item or member is shorter than one
character, so twice the length of the text bounds the nesting of the calls. -/
def Tree.ofText? (text : List Char) : Option Tree :=
  match scanValue (2 * text.length + 2) text with
  | none => none
  | some (tree, rest) => if skipBlanks rest = [] then some tree else none

end LiteChat.Json
