import LiteChat.Json.Record
import LiteChat.Schema.Accessors

/-!
# Descriptors in JSON

A descriptor is written as a record of its name and its members and can be read
back.  Reading takes the members in the order given: unlike a compiled descriptor,
one that is read need not be sorted.
-/

namespace LiteChat

open Json (Document Tree)

namespace Label

/-- The label that a tree names. -/
def ofTree? (t : Tree) : Option Label := t.caseName?.bind ofKeyword?

end Label

namespace FieldType

/-- The type that a tree names: a scalar type by its word, a reference as the only
member of an object. -/
def ofTree? : Tree → Option FieldType
  | .object [(key, .string name)] =>
    if Json.Piece.string? key = some "message" then (Json.Piece.string? name).map .reference
    else none
  | t => t.caseName?.bind scalar?

end FieldType

namespace Field

/-- The field that a tree describes. -/
def ofTree? (t : Tree) : Option Field :=
  match t.record? ["id", "name", "type", "label"] with
  | some [some id, some name, some type, some label] => do
    return ⟨← id.nat? Schema.fieldIdBound, ← name.string?, ← FieldType.ofTree? type,
      ← Label.ofTree? label⟩
  | _ => none

/-- A field as a JSON document. -/
def document (f : Field) : Document :=
  .object
    [("id", .ofNat f.id), ("name", .ofString f.name), ("type", f.type.document),
     ("label", .ofString f.label.keyword)]

end Field

namespace MessageDescriptor

/-- The message descriptor that a tree describes. -/
def ofTree? (t : Tree) : Option MessageDescriptor :=
  match t.record? ["name", "fields"] with
  | some [some name, some fields] => do
    return ⟨← name.string?, ← fields.list? Field.ofTree?⟩
  | _ => none

/-- The message descriptor that a text describes. -/
def ofText? (text : String) : Option MessageDescriptor :=
  (Tree.ofText? text.toList).bind ofTree?

/-- A message descriptor as a JSON document. -/
def document (d : MessageDescriptor) : Document :=
  .object [("name", .ofString d.name), ("fields", .array (d.fields.map Field.document))]

end MessageDescriptor

namespace EnumDescriptor

/-- The enum value that a tree describes: an array of its number and its symbol. -/
def valueOfTree? : Tree → Option (Int × String)
  | .array [number, symbol] => do
    return (← number.intWithin? (-Schema.enumNumberBound) Schema.enumNumberBound,
      ← symbol.string?)
  | _ => none

/-- The enum descriptor that a tree describes. -/
def ofTree? (t : Tree) : Option EnumDescriptor :=
  match t.record? ["name", "values"] with
  | some [some name, some values] => do
    return ⟨← name.string?, ← values.list? valueOfTree?⟩
  | _ => none

/-- The enum descriptor that a text describes. -/
def ofText? (text : String) : Option EnumDescriptor :=
  (Tree.ofText? text.toList).bind ofTree?

/-- An enum descriptor as a JSON document. -/
def document (d : EnumDescriptor) : Document :=
  .object
    [("name", .ofString d.name),
     ("values", .array (d.values.map fun v =>
       .array [.value (.int v.1), .ofString v.2]))]

end EnumDescriptor

end LiteChat
