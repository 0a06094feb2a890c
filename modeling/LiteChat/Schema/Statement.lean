import LiteChat.Text.Split
import LiteChat.Unicode.Blank
import LiteChat.Schema.Descriptor

/-!
# Statements of a block

The body of a block is a row of statements that end in semicolons; blank ones do
not count.  A field is declared as `label type name = id`, where an equals sign
counts as white space and everything from an opening bracket on is left out; an
enum value is declared as `SYMBOL = number`.

The first statement that is not well formed, or that repeats an id or a name, makes
the whole block malformed; `BlockFault` lists the ways.
-/

namespace LiteChat.Schema

/-- The keyword in front of a block. -/
inductive Keyword where
  /-- A message block. -/
  | message
  /-- An enum block. -/
  | enumeration
  deriving DecidableEq, Repr

/-- The word of a keyword. -/
def Keyword.word : Keyword → List Char
  | .message => "message".toList
  | .enumeration => "enum".toList

/-- The keyword that a word is. -/
def Keyword.ofWord? (word : List Char) : Option Keyword :=
  if word = Keyword.message.word then some .message
  else if word = Keyword.enumeration.word then some .enumeration
  else none

/-- Why a block is malformed. -/
inductive BlockFault where
  /-- No brace follows the keyword. -/
  | withoutBody (keyword : Keyword)
  /-- What stands between the keyword and the brace is no identifier. -/
  | invalidName (keyword : Keyword)
  /-- The brace is not closed. -/
  | unbalanced
  /-- A statement of a message holds a brace. -/
  | nestedBlock (statement : List Char)
  /-- A statement of a message does not have four words. -/
  | notAField (statement : List Char)
  /-- The first word of a field is no label. -/
  | unknownLabel (word : List Char)
  /-- The second word of a field is no identifier. -/
  | invalidType (word : List Char)
  /-- The third word of a field is no identifier. -/
  | invalidFieldName (word : List Char)
  /-- The last word of a field is no positive 32-bit number. -/
  | invalidFieldId (word : List Char)
  /-- Two fields have one id. -/
  | duplicateFieldId (id : Nat)
  /-- Two fields have one name. -/
  | duplicateFieldName (word : List Char)
  /-- A statement of an enum does not have two words. -/
  | notAValue (statement : List Char)
  /-- The first word of an enum value is no identifier. -/
  | invalidSymbol (word : List Char)
  /-- The last word of an enum value is no signed 32-bit number. -/
  | invalidNumber (word : List Char)
  /-- Two enum values have one symbol. -/
  | duplicateSymbol (word : List Char)
  deriving DecidableEq, Repr

/-- A text between backticks. -/
def backquoted (text : List Char) : List Char := '`' :: text ++ ['`']

/-- The reason for a fault, in words. -/
def BlockFault.chars : BlockFault → List Char
  | .withoutBody keyword => backquoted keyword.word ++ " without a body".toList
  | .invalidName keyword => "invalid ".toList ++ keyword.word ++ " name".toList
  | .unbalanced => "unbalanced braces".toList
  | .nestedBlock statement => "nested blocks are not supported: ".toList ++ backquoted statement
  | .notAField statement =>
    "expected ".toList ++ backquoted "label type name = id".toList ++ ", got ".toList ++
      backquoted statement
  | .unknownLabel word => "unknown label ".toList ++ backquoted word
  | .invalidType word => "invalid type ".toList ++ backquoted word
  | .invalidFieldName word => "invalid field name ".toList ++ backquoted word
  | .invalidFieldId word => "invalid field id ".toList ++ backquoted word
  | .duplicateFieldId id => "duplicate field id ".toList ++ Text.ofNat id
  | .duplicateFieldName word => "duplicate field name ".toList ++ backquoted word
  | .notAValue statement =>
    "expected ".toList ++ backquoted "NAME = N".toList ++ ", got ".toList ++ backquoted statement
  | .invalidSymbol word => "invalid enum value name ".toList ++ backquoted word
  | .invalidNumber word => "invalid enum value ".toList ++ backquoted word
  | .duplicateSymbol word => "duplicate enum value ".toList ++ backquoted word

/-- The text of the reason for a fault. -/
def BlockFault.reason (fault : BlockFault) : String := String.ofList fault.chars

/-! ## Identifiers -/

/-- The characters that an identifier may begin with. -/
def isIdentStart (c : Char) : Bool := c.isAlpha || decide (c = '_')

/-- The characters of an identifier. -/
def isIdentChar (c : Char) : Bool := c.isAlphanum || decide (c = '_')

/-- Whether a text is an identifier. -/
def isIdentifier : List Char → Bool
  | [] => false
  | c :: rest => isIdentStart c && rest.all isIdentChar

/-! ## Statements -/

/-- The statements of a block body: its parts between semicolons, without white
space around them and without the blank ones. -/
def statements (body : List Char) : List (List Char) :=
  ((Text.splitOn ';' body).map Unicode.trim).filter (decide <| · ≠ [])

/-- The words of a statement, an equals sign being white space. -/
def statementWords (statement : List Char) : List (List Char) :=
  Unicode.words (Text.replace '=' ' ' statement)

/-- The first number that is too great for a field id. -/
def fieldIdBound : Nat := 4294967296

/-- The field that a statement declares. -/
def readField (statement : List Char) : Except BlockFault Field :=
  if '\x7b' ∈ statement ∨ '\x7d' ∈ statement then .error (.nestedBlock statement)
  else
    let declaration := Text.upTo '[' statement
    match statementWords declaration with
    | [label, type, name, id] =>
      match Label.ofKeyword? (String.ofList label) with
      | none => .error (.unknownLabel label)
      | some l =>
        if !isIdentifier type then .error (.invalidType type)
        else if !isIdentifier name then .error (.invalidFieldName name)
        else
          match (Text.unsigned? fieldIdBound id).filter (decide <| 0 < ·) with
          | none => .error (.invalidFieldId id)
          | some n => .ok ⟨n, String.ofList name, .ofToken (String.ofList type), l⟩
    | _ => .error (.notAField declaration)

/-- The fields that a row of statements declares after the fields `seen`. -/
def readFields (seen : List Field) : List (List Char) → Except BlockFault (List Field)
  | [] => .ok seen
  | statement :: rest =>
    match readField statement with
    | .error fault => .error fault
    | .ok f =>
      if f.id ∈ seen.map Field.id then .error (.duplicateFieldId f.id)
      else if f.name ∈ seen.map Field.name then .error (.duplicateFieldName f.name.toList)
      else readFields (seen ++ [f]) rest

/-- The first integer past the numbers of enum values. -/
def enumNumberBound : Int := 2147483648

/-- The enum value that a statement declares. -/
def readValue (statement : List Char) : Except BlockFault (Int × String) :=
  match statementWords statement with
  | [symbol, number] =>
    if !isIdentifier symbol then .error (.invalidSymbol symbol)
    else
      match Text.signed? (-enumNumberBound) enumNumberBound number with
      | none => .error (.invalidNumber number)
      | some n => .ok (n, String.ofList symbol)
  | _ => .error (.notAValue statement)

/-- The enum values that a row of statements declares after the values `seen`. -/
def readValues (seen : List (Int × String)) :
    List (List Char) → Except BlockFault (List (Int × String))
  | [] => .ok seen
  | statement :: rest =>
    match readValue statement with
    | .error fault => .error fault
    | .ok v =>
      if v.2 ∈ seen.map Prod.snd then .error (.duplicateSymbol v.2.toList)
      else readValues (seen ++ [v]) rest

end LiteChat.Schema
