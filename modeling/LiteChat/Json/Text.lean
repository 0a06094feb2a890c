import LiteChat.Floating.Text
import LiteChat.Json.Basic

/-!
# JSON text

`Json.text` writes a value without blanks, with the keys of every object in
order.  Strings are written with as few escapes as JSON allows: only the quote,
the backslash and the control characters are escaped, and five of the latter have
short escapes.

A `Document` is a value whose objects keep their members in a declared order; it
can also be written over several lines.
-/

namespace LiteChat.Json

open Floating (Layout)

/-- A lower-case hexadecimal digit. -/
def hexChar (n : Nat) : Char := Nat.digitChar n

/-- A character between the quotes of a JSON string. -/
def escapeChar (c : Char) : List Char :=
  if c = '"' then ['\\', '"']
  else if c = '\\' then ['\\', '\\']
  else if c = '\x08' then ['\\', 'b']
  else if c = '\x0c' then ['\\', 'f']
  else if c = '\n' then ['\\', 'n']
  else if c = '\r' then ['\\', 'r']
  else if c = '\t' then ['\\', 't']
  else if c.toNat < 32 then
    ['\\', 'u', '0', '0', hexChar (c.toNat / 16), hexChar (c.toNat % 16)]
  else [c]

/-- A string between quotes. -/
def quote (s : String) : List Char := '"' :: s.toList.flatMap escapeChar ++ ['"']

/-- An integer in decimal digits. -/
def intText (n : Int) : List Char :=
  let digits := Nat.toDigits 10 n.natAbs
  if n < 0 then '-' :: digits else digits

mutual

/-- The characters of a value's text. -/
def chars : Json → List Char
  | .null => "null".toList
  | .bool true => "true".toList
  | .bool false => "false".toList
  | .int n => intText n
  | .float x => if x.isFinite then x.text Layout.json else "null".toList
  | .string s => quote s
  | .array [] => ['[', ']']
  | .array (item :: rest) => '[' :: (chars item ++ itemChars rest)
  | .object [] => ['\x7b', '\x7d']
  | .object ((k, v) :: rest) => '\x7b' :: (quote k ++ ':' :: (chars v ++ memberChars rest))

/-- The remaining items of an array and its closing bracket. -/
def itemChars : List Json → List Char
  | [] => [']']
  | item :: rest => ',' :: (chars item ++ itemChars rest)

/-- The remaining members of an object and its closing brace. -/
def memberChars : List (String × Json) → List Char
  | [] => ['\x7d']
  | (k, v) :: rest => ',' :: (quote k ++ ':' :: (chars v ++ memberChars rest))

end

/-- The text of a value. -/
def text (value : Json) : String := String.ofList value.chars

/-! ## Members in a declared order -/

/-- A JSON document whose objects keep their members in the order given. -/
inductive Document where
  /-- A value written as `Json.text` writes it. -/
  | value (v : Json)
  /-- An array. -/
  | array (items : List Document)
  /-- An object with its members in order. -/
  | object (members : List (String × Document))

namespace Document

mutual

/-- The characters of a document without blanks. -/
def compact : Document → List Char
  | .value v => v.chars
  | .array [] => ['[', ']']
  | .array (item :: rest) => '[' :: (compact item ++ compactItems rest)
  | .object [] => ['\x7b', '\x7d']
  | .object ((k, v) :: rest) => '\x7b' :: (quote k ++ ':' :: (compact v ++ compactMembers rest))

/-- The remaining items of an array and its closing bracket. -/
def compactItems : List Document → List Char
  | [] => [']']
  | item :: rest => ',' :: (compact item ++ compactItems rest)

/-- The remaining members of an object and its closing brace. -/
def compactMembers : List (String × Document) → List Char
  | [] => ['\x7d']
  | (k, v) :: rest => ',' :: (quote k ++ ':' :: (compact v ++ compactMembers rest))

end

/-- A line break and the indentation of a nesting depth, two blanks a level. -/
def newLine (depth : Nat) : List Char := '\n' :: List.replicate (2 * depth) ' '

mutual

/-- The characters of a document with every item and member on a line of its own;
what is empty stays on one line. -/
def indented (depth : Nat) : Document → List Char
  | .value v => v.chars
  | .array [] => ['[', ']']
  | .array (item :: rest) =>
    '[' :: (newLine (depth + 1) ++ indented (depth + 1) item ++ indentedItems depth rest)
  | .object [] => ['\x7b', '\x7d']
  | .object ((k, v) :: rest) =>
    '\x7b' :: (newLine (depth + 1) ++ quote k ++ [':', ' '] ++ indented (depth + 1) v ++
      indentedMembers depth rest)

/-- The remaining items of an array and its closing bracket. -/
def indentedItems (depth : Nat) : List Document → List Char
  | [] => newLine depth ++ [']']
  | item :: rest =>
    ',' :: (newLine (depth + 1) ++ indented (depth + 1) item ++ indentedItems depth rest)

/-- The remaining members of an object and its closing brace. -/
def indentedMembers (depth : Nat) : List (String × Document) → List Char
  | [] => newLine depth ++ ['\x7d']
  | (k, v) :: rest =>
    ',' :: (newLine (depth + 1) ++ quote k ++ [':', ' '] ++ indented (depth + 1) v ++
      indentedMembers depth rest)

end

/-- The text of a document on one line. -/
def text (d : Document) : String := String.ofList d.compact

/-- The text of a document over several lines. -/
def prettyText (d : Document) : String := String.ofList (d.indented 0)

/-- A string as a document. -/
def ofString (s : String) : Document := .value (.string s)

/-- A natural number as a document. -/
def ofNat (n : Nat) : Document := .value (.int n)

end Document

end LiteChat.Json
