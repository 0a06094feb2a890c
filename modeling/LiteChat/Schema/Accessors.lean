import LiteChat.Json.Text
import LiteChat.Schema.Registry

/-!
# Accessor tables

Every message has a table that leads from field names to ids and from ids to
accessor names.  Tools print it instead of generating code; its JSON form keeps the
members of each object in a fixed order.
-/

namespace LiteChat

open Json (Document)

/-- A row of an accessor table. -/
structure AccessorEntry where
  /-- The id of the field. -/
  id : Nat
  /-- Its name. -/
  name : String
  /-- Its accessor name. -/
  camelName : String
  /-- Its type. -/
  type : FieldType
  /-- Its label. -/
  label : Label
  deriving DecidableEq, Repr

/-- The table of a message. -/
structure AccessorTable where
  /-- The name of the message. -/
  message : String
  /-- The rows in the order of the fields. -/
  entries : List AccessorEntry
  deriving DecidableEq, Repr

/-- A field type in a JSON document. -/
def FieldType.document : FieldType → Document
  | .reference name => .object [("message", .ofString name)]
  | scalar => .ofString scalar.token

namespace AccessorTable

/-- The table of a descriptor. -/
def ofDescriptor (d : MessageDescriptor) : AccessorTable where
  message := d.name
  entries := d.fields.map fun f => ⟨f.id, f.name, f.camelName, f.type, f.label⟩

/-- The id of a field name, from an index of the rows by name. -/
def idOf? (t : AccessorTable) (name : String) : Option Nat :=
  Keyed.get? name (Keyed.ofList (t.entries.map fun e => (e.name, e.id)))

/-- The accessor name of an id. -/
def camelNameOf? (t : AccessorTable) (id : Nat) : Option String :=
  (t.entries.find? fun e => decide (e.id = id)).map AccessorEntry.camelName

/-- A row as a JSON document. -/
def entryDocument (e : AccessorEntry) : Document :=
  .object
    [("id", .ofNat e.id), ("name", .ofString e.name), ("camel_name", .ofString e.camelName),
     ("type", e.type.document), ("label", .ofString e.label.keyword)]

/-- A table as a JSON document. -/
def document (t : AccessorTable) : Document :=
  .object [("message", .ofString t.message), ("entries", .array (t.entries.map entryDocument))]

end AccessorTable

/-- The accessor table of a message of a schema. -/
def Schema.accessors? (s : Schema) (name : String) : Option AccessorTable :=
  (s.message? name).map .ofDescriptor

end LiteChat
