import LiteChat.Keyed
import LiteChat.Schema.Block

/-!
# Schemas

A schema holds the declarations of a text by name, messages and enums apart.  Of
two declarations of one kind and name the later one counts.  A reference names a
message if there is one of that name, and an enum otherwise (`Schema.resolve?`);
references to neither are listed by `Schema.dangling`.

The text of a schema (`Schema.text`) is a normal form: enums before messages, each
in the order of their names, their members in the order of the descriptor.
-/

namespace LiteChat

/-- The declarations of a schema text, by name. -/
structure Schema where
  /-- The messages, in the order of their names. -/
  messages : List (String × MessageDescriptor)
  /-- The enums, in the order of their names. -/
  enums : List (String × EnumDescriptor)
  deriving DecidableEq, Repr

/-- What a reference names. -/
inductive Resolved where
  /-- A message. -/
  | message (descriptor : MessageDescriptor)
  /-- An enum. -/
  | enumeration (descriptor : EnumDescriptor)
  deriving DecidableEq, Repr

/-- A reference to a name that is not declared. -/
structure Dangling where
  /-- The message that holds the reference. -/
  message : String
  /-- The field that holds it. -/
  field : String
  /-- The name. -/
  target : String
  deriving DecidableEq, Repr

namespace Schema

/-- The schema without declarations. -/
def empty : Schema := ⟨[], []⟩

/-- The schema of the given declarations. -/
def ofCompiled (c : Compiled) : Schema where
  messages := Keyed.ofList (c.messages.map fun d => (d.name, d))
  enums := Keyed.ofList (c.enums.map fun d => (d.name, d))

/-- The schema that a text declares; malformed blocks declare nothing. -/
def ofSource (source : List Char) : Schema := ofCompiled (compile source)

variable (s : Schema)

/-- The message of a name. -/
def message? (name : String) : Option MessageDescriptor := Keyed.get? name s.messages

/-- The enum of a name. -/
def enum? (name : String) : Option EnumDescriptor := Keyed.get? name s.enums

/-- What a reference to a name means. -/
def resolve? (name : String) : Option Resolved :=
  match s.message? name with
  | some d => some (.message d)
  | none => (s.enum? name).map .enumeration

/-- The reference that a field of a message holds to an undeclared name. -/
def danglingAt? (d : MessageDescriptor) (f : Field) : Option Dangling :=
  match f.type with
  | .reference target =>
    if (s.resolve? target).isNone then some ⟨d.name, f.name, target⟩ else none
  | _ => none

/-- The references to undeclared names, by message name and field id. -/
def dangling : List Dangling :=
  s.messages.flatMap fun (_, d) => d.fields.filterMap (s.danglingAt? d)

/-- The declarations of a schema in normal form, a blank line between any two. -/
def chars : List Char :=
  let declarations := s.enums.map (fun e => e.2.chars) ++ s.messages.map (fun m => m.2.chars)
  ((declarations.map (· ++ ['\n'])).intersperse ['\n']).flatten

/-- The normal form of a schema. -/
def text : String := String.ofList s.chars

end Schema

end LiteChat
