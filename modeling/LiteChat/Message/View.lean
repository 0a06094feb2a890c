import LiteChat.Unicode.Unseen
import LiteChat.Message.Basic

/-!
# The readable view of a message

For a reader at a terminal a message is shown as its type name and, in braces, its
set fields: unset fields and empty lists are left out, and every value carries its
kind.  The unknown elements come last, under `unknown`, by id.

In a string, characters without a shape of their own are shown by their numbers
(`Unicode.isUnseen`).  Numbers follow the layout `Floating.Layout.inspection`.
-/

namespace LiteChat.View

open Floating (Double Single Layout)

/-- A character of a shown string. -/
def character (c : Char) : List Char :=
  if c = '\x00' then ['\\', '0']
  else if c = '\t' then ['\\', 't']
  else if c = '\n' then ['\\', 'n']
  else if c = '\r' then ['\\', 'r']
  else if c = '"' then ['\\', '"']
  else if c = '\\' then ['\\', '\\']
  else if Unicode.isUnseen c then
    ['\\', 'u', '\x7b'] ++ Nat.toDigits 16 c.toNat ++ ['\x7d']
  else [c]

/-- A shown string. -/
def quoted (s : String) : List Char := '"' :: s.toList.flatMap character ++ ['"']

/-- A shown double. -/
def double (x : Double) : List Char :=
  if x.isNaN then "NaN".toList
  else if x.isFinite then x.text .inspection
  else if x.isNegative then "-inf".toList
  else "inf".toList

/-- A shown single. -/
def single (x : Single) : List Char :=
  if x.isNaN then "NaN".toList
  else if x.isFinite then x.text .inspection
  else if x.isNegative then "-inf".toList
  else "inf".toList

/-- A shown kind with its contents. -/
def labelled (kind : String) (contents : List Char) : List Char :=
  kind.toList ++ '(' :: contents ++ [')']

/-- Items with commas between them. -/
def commaSeparated (items : List (List Char)) : List Char :=
  (items.intersperse [',', ' ']).flatten

/-- A shown list. -/
def list (items : List (List Char)) : List Char := '[' :: commaSeparated items ++ [']']

/-- A shown map. -/
def map (members : List (List Char)) : List Char :=
  '\x7b' :: commaSeparated members ++ ['\x7d']

mutual

/-- A shown JSON value. -/
def json : Json → List Char
  | .null => "Null".toList
  | .bool b => labelled "Bool" (if b then "true".toList else "false".toList)
  | .int n => labelled "Number" (Json.intText n)
  | .float x => labelled "Number" (Json.float x).chars
  | .string s => labelled "String" (quoted s)
  | .array items => "Array ".toList ++ list (jsonItems items)
  | .object members => "Object ".toList ++ map (jsonMembers members)

/-- The shown items of a JSON array. -/
def jsonItems : List Json → List (List Char)
  | [] => []
  | v :: rest => json v :: jsonItems rest

/-- The shown members of a JSON object. -/
def jsonMembers : List (String × Json) → List (List Char)
  | [] => []
  | (k, v) :: rest => (quoted k ++ ':' :: ' ' :: json v) :: jsonMembers rest

end

/-- The shown unknown elements, if there are any. -/
def unknown : List (Nat × Json) → List (List Char)
  | [] => []
  | elements =>
    ["unknown: ".toList ++
      map (elements.map fun (id, raw) => Text.ofNat id ++ ':' :: ' ' :: json raw)]

/-- A shown record with the given fields. -/
def record (name : String) (fields : List (List Char)) : List Char :=
  match fields with
  | [] => name.toList
  | fields =>
    name.toList ++ [' ', '\x7b', ' '] ++ commaSeparated fields ++ [' ', '\x7d']

mutual

/-- A shown value. -/
def value : Value → List Char
  | .string s => labelled "String" (quoted s)
  | .bytes octets => labelled "Bytes" (list (octets.toList.map fun o => Text.ofNat o.toNat))
  | .bool b => labelled "Bool" (if b then "true".toList else "false".toList)
  | .double x => labelled "Double" (double x)
  | .float x => labelled "Float" (single x)
  | .int32 n => labelled "Int32" (Text.ofInt n.toInt)
  | .int64 n => labelled "Int64" (Text.ofInt n.toInt)
  | .uint32 n => labelled "Uint32" (Text.ofNat n.toNat)
  | .uint64 n => labelled "Uint64" (Text.ofNat n.toNat)
  | .enumeration n => labelled "Enum" (Text.ofInt n.toInt)
  | .message m => labelled "Message" (message m)

/-- A shown message. -/
def message : Message → List Char
  | ⟨name, entries, others⟩ => record name (fields entries ++ unknown others)

/-- The shown fields that are set. -/
def fields : List (Field × Slot Value) → List (List Char)
  | [] => []
  | (f, s) :: rest =>
    match slot s with
    | some shown => (f.name.toList ++ ':' :: ' ' :: shown) :: fields rest
    | none => fields rest

/-- A shown slot, unless nothing is in it. -/
def slot : Slot Value → Option (List Char)
  | .unset => none
  | .single v => some (value v)
  | .repeated vs =>
    match values vs with
    | [] => none
    | shown => some (list shown)

/-- The shown values of a list. -/
def values : List Value → List (List Char)
  | [] => []
  | v :: rest => value v :: values rest

end

end LiteChat.View

namespace LiteChat

/-- The readable view of a message. -/
def Message.view (m : Message) : String := String.ofList (View.message m)

end LiteChat
