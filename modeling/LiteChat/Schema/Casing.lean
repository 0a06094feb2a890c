import LiteChat.Text.Split
import LiteChat.Unicode.Casing

/-!
# Generated names

A field name such as `state_update_header` has the accessor name
`stateUpdateHeader` (`camelCase`).  An enum symbol such as
`TYPING_TYPE_STARTED` has the variant name `Started`: its components in upper
camel case, without the name of its enum wherever that occurs
(`pascalCase`), unless nothing would be left.
-/

namespace LiteChat.Schema

open Unicode (upper lower)

/-- A component with its first character in upper case and the others in lower
case. -/
def capitalize : List Char → List Char
  | [] => []
  | c :: rest => upper c ++ rest.flatMap lower

/-- The accessor name of a field name: the first component as it is, the others
capitalized. -/
def camelCase (name : List Char) : List Char :=
  match Text.splitOn '_' name with
  | [] => []
  | first :: others => first ++ others.flatMap capitalize

/-- Whether a text begins with a word, upper and lower case of the Latin letters
`a` to `z` being one. -/
def beginsWith : List Char → List Char → Bool
  | [], _ => true
  | _ :: _, [] => false
  | c :: word, d :: text => decide (c.toLower = d.toLower) && beginsWith word text

/-- A text without the occurrences of a word that do not overlap, taken from the
left; `skip` counts the characters of the current occurrence still to be left
out. -/
def removeFrom (word : List Char) (skip : Nat) : List Char → List Char
  | [] => []
  | c :: rest =>
    match skip with
    | skip + 1 => removeFrom word skip rest
    | 0 =>
      if beginsWith word (c :: rest) then removeFrom word (word.length - 1) rest
      else c :: removeFrom word 0 rest

theorem beginsWith_cons_cons (c d : Char) (word text : List Char) :
    beginsWith (c :: word) (d :: text) =
      (decide (c.toLower = d.toLower) && beginsWith word text) := rfl

theorem removeFrom_nil (word : List Char) (skip : Nat) : removeFrom word skip [] = [] := rfl

theorem removeFrom_succ_cons (word : List Char) (skip : Nat) (c : Char) (rest : List Char) :
    removeFrom word (skip + 1) (c :: rest) = removeFrom word skip rest := rfl

theorem removeFrom_zero_cons (word : List Char) (c : Char) (rest : List Char) :
    removeFrom word 0 (c :: rest) =
      if beginsWith word (c :: rest) then removeFrom word (word.length - 1) rest
      else c :: removeFrom word 0 rest := rfl

/-- The components of a symbol in upper camel case. -/
def fullName (symbol : List Char) : List Char :=
  (Text.splitOn '_' symbol).flatMap capitalize

/-- The variant name of a symbol: its full name without the occurrences of a word,
or the full name when nothing would be left. -/
def pascalCase (symbol strip : List Char) : List Char :=
  let full := fullName symbol
  if strip = [] then full
  else
    match removeFrom strip 0 full with
    | [] => full
    | name => name

example : camelCase "state_update_header".toList = "stateUpdateHeader".toList := by
  decide +kernel
example : pascalCase "TYPING_TYPE_STARTED".toList "TypingType".toList = "Started".toList := by
  decide +kernel
example : pascalCase "TYPING_TYPE".toList "TypingType".toList = "TypingType".toList := by
  decide +kernel

end LiteChat.Schema
