import LiteChat.Sorting
import LiteChat.Schema.Field

/-!
# Descriptors

A descriptor is the compiled form of a declaration: a message with its fields in
the order of their ids, or an enum with its values in the order of their numbers.
Two enum values may share a number; the first in the text is then the name of the
number.
-/

namespace LiteChat

/-- A compiled message declaration. -/
structure MessageDescriptor where
  /-- The name of the message type. -/
  name : String
  /-- The fields in the order of their ids. -/
  fields : List Field
  deriving DecidableEq, Repr

namespace MessageDescriptor

/-- The descriptor of a message declared with the given fields. -/
def ofFields (name : String) (fields : List Field) : MessageDescriptor :=
  ⟨name, Sorting.sortOn Field.id fields⟩

/-- The field with an id. -/
def field? (d : MessageDescriptor) (id : Nat) : Option Field :=
  d.fields.find? fun f => decide (f.id = id)

/-- The place, among the fields, of the field with an id. -/
def indexOf? (d : MessageDescriptor) (id : Nat) : Option Nat :=
  Sorting.search Field.id id d.fields

/-- The field with a name. -/
def fieldNamed? (d : MessageDescriptor) (name : String) : Option Field :=
  d.fields.find? fun f => decide (f.name = name)

/-- The id of the last field, 0 when there is none. -/
def maxId (d : MessageDescriptor) : Nat := (d.fields.getLast?.map Field.id).getD 0

/-- The declaration of a message, a field on each line. -/
def chars (d : MessageDescriptor) : List Char :=
  "message ".toList ++ d.name.toList ++ [' ', '\x7b', '\n'] ++
    d.fields.flatMap (fun f => ' ' :: ' ' :: f.chars ++ ['\n']) ++ ['\x7d']

/-- The text of a message declaration. -/
def text (d : MessageDescriptor) : String := String.ofList d.chars

end MessageDescriptor

/-- A compiled enum declaration. -/
structure EnumDescriptor where
  /-- The name of the enum. -/
  name : String
  /-- The values, each a number and a symbol, in the order of their numbers. -/
  values : List (Int × String)
  deriving DecidableEq, Repr

namespace EnumDescriptor

/-- The descriptor of an enum declared with the given values. -/
def ofValues (name : String) (values : List (Int × String)) : EnumDescriptor :=
  ⟨name, Sorting.sortOn Prod.fst values⟩

/-- The symbol of a number. -/
def nameOf? (d : EnumDescriptor) (number : Int) : Option String :=
  (d.values.find? fun v => decide (v.1 = number)).map Prod.snd

/-- The number of a symbol. -/
def numberOf? (d : EnumDescriptor) (symbol : String) : Option Int :=
  (d.values.find? fun v => decide (v.2 = symbol)).map Prod.fst

/-- The variant name of a number: that of its symbol, without the enum's own
name. -/
def variantName? (d : EnumDescriptor) (number : Int) : Option String :=
  (d.nameOf? number).map fun symbol =>
    String.ofList (Schema.pascalCase symbol.toList d.name.toList)

/-- The declaration of an enum, a value on each line. -/
def chars (d : EnumDescriptor) : List Char :=
  "enum ".toList ++ d.name.toList ++ [' ', '\x7b', '\n'] ++
    d.values.flatMap (fun v =>
      ' ' :: ' ' :: v.2.toList ++ " = ".toList ++ Text.ofInt v.1 ++ [';', '\n']) ++ ['\x7d']

/-- The text of an enum declaration. -/
def text (d : EnumDescriptor) : String := String.ofList d.chars

end EnumDescriptor

end LiteChat
