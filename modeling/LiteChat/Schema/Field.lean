import LiteChat.Text.Integer
import LiteChat.Schema.Casing

/-!
# Fields

A field of a message has a positive id, a name, a type and a label.  The label says
how often the field occurs; the type is one of fifteen scalar types or the name of
another declaration.  Such a name is only resolved when the field is used, so a
declaration may refer to one that follows it.
-/

namespace LiteChat

/-- How often a field occurs in a message. -/
inductive Label where
  /-- Exactly once. -/
  | required
  /-- At most once. -/
  | optional
  /-- Any number of times, in order. -/
  | repeated
  deriving DecidableEq, Repr

namespace Label

/-- The keyword of a label. -/
def keyword : Label → String
  | .required => "required"
  | .optional => "optional"
  | .repeated => "repeated"

/-- The label of a keyword. -/
def ofKeyword? (word : String) : Option Label :=
  [required, optional, repeated].find? fun l => decide (l.keyword = word)

theorem ofKeyword?_keyword (l : Label) : ofKeyword? l.keyword = some l := by
  cases l <;> rfl

end Label

/-- The type of a field. -/
inductive FieldType where
  | string
  | bytes
  | bool
  | double
  | float
  | int32
  | int64
  | uint32
  | uint64
  | sint32
  | sint64
  | fixed32
  | fixed64
  | sfixed32
  | sfixed64
  /-- The message or enum of the given name. -/
  | reference (name : String)
  deriving DecidableEq, Repr

namespace FieldType

/-- The types that are no references. -/
def scalars : List FieldType :=
  [string, bytes, bool, double, float, int32, int64, uint32, uint64, sint32, sint64, fixed32,
   fixed64, sfixed32, sfixed64]

/-- The word that names a type. -/
def token : FieldType → String
  | .string => "string"
  | .bytes => "bytes"
  | .bool => "bool"
  | .double => "double"
  | .float => "float"
  | .int32 => "int32"
  | .int64 => "int64"
  | .uint32 => "uint32"
  | .uint64 => "uint64"
  | .sint32 => "sint32"
  | .sint64 => "sint64"
  | .fixed32 => "fixed32"
  | .fixed64 => "fixed64"
  | .sfixed32 => "sfixed32"
  | .sfixed64 => "sfixed64"
  | .reference name => name

/-- The scalar type that a word names. -/
def scalar? (word : String) : Option FieldType := scalars.find? fun t => decide (t.token = word)

/-- The type that a word names: a scalar type if it is the word of one, a reference
otherwise. -/
def ofToken (word : String) : FieldType := (scalar? word).getD (.reference word)

/-- Whether a type is a reference. -/
def isReference : FieldType → Bool
  | .reference _ => true
  | _ => false

/-- The signed integers of 32 bits. -/
def isSigned32 : FieldType → Bool
  | .int32 | .sint32 | .sfixed32 => true
  | _ => false

/-- The signed integers of 64 bits. -/
def isSigned64 : FieldType → Bool
  | .int64 | .sint64 | .sfixed64 => true
  | _ => false

/-- The unsigned integers of 32 bits. -/
def isUnsigned32 : FieldType → Bool
  | .uint32 | .fixed32 => true
  | _ => false

/-- The unsigned integers of 64 bits. -/
def isUnsigned64 : FieldType → Bool
  | .uint64 | .fixed64 => true
  | _ => false

end FieldType

/-- A field of a message. -/
structure Field where
  /-- The id, which is also its place in a positional encoding. -/
  id : Nat
  /-- The name, unique in its message. -/
  name : String
  /-- The type. -/
  type : FieldType
  /-- The label. -/
  label : Label
  deriving DecidableEq, Repr

namespace Field

/-- The accessor name of a field. -/
def camelName (f : Field) : String := String.ofList (Schema.camelCase f.name.toList)

/-- What a value of the field has to be, as error texts name it. -/
def expectation (f : Field) : String := f.label.keyword ++ " " ++ f.type.token

/-- The declaration of a field. -/
def chars (f : Field) : List Char :=
  f.label.keyword.toList ++ ' ' :: f.type.token.toList ++ ' ' :: f.name.toList ++
    " = ".toList ++ Text.ofNat f.id ++ [';']

/-- The text of a field's declaration. -/
def text (f : Field) : String := String.ofList f.chars

end Field

end LiteChat
