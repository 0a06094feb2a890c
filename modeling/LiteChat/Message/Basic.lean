import LiteChat.Json.Text
import LiteChat.Schema.Registry

/-!
# Messages

A message is an instance of a message type.  It pairs every declared field with a
slot, in the order of the fields, and keeps apart what came in at positions that its
type does not declare: the *unknown* elements, by id, exactly as they were.

A slot is unset, holds one value, or holds a list of values.  The kinds of values
are fewer than the field types: `sint32` and `sfixed32` fields hold the same values
as `int32` fields, and a field that refers to an enum holds the number that stands
for the enum value.
-/

namespace LiteChat

open Floating (Double Single)

/-- The contents of a field, over the type of its values. -/
inductive Slot (α : Type) where
  /-- Nothing. -/
  | unset
  /-- One value. -/
  | single (a : α)
  /-- Any number of values, in order. -/
  | repeated (as : List α)
  deriving Repr, Inhabited

mutual

/-- A value of a field. -/
inductive Value where
  | string (s : String)
  | bytes (octets : ByteArray)
  | bool (b : Bool)
  | double (x : Double)
  | float (x : Single)
  | int32 (n : Int32)
  | int64 (n : Int64)
  | uint32 (n : UInt32)
  | uint64 (n : UInt64)
  /-- The number of an enum value. -/
  | enumeration (n : Int32)
  /-- A nested message. -/
  | message (m : Message)

/-- An instance of a message type. -/
structure Message where
  /-- The name of the type. -/
  name : String
  /-- The fields with their slots, in the order of the ids. -/
  entries : List (Field × Slot Value)
  /-- The elements at undeclared ids, in the order of the ids. -/
  unknown : List (Nat × Json)

end

instance : Inhabited Value := ⟨.bool false⟩
instance : Inhabited Message := ⟨⟨"", [], []⟩⟩

namespace Slot

variable {α : Type}

/-- Whether a slot is unset. -/
def isUnset : Slot α → Bool
  | .unset => true
  | _ => false

/-- The value of a slot that holds one. -/
def single? : Slot α → Option α
  | .single a => some a
  | _ => none

/-- The values of a slot that holds a list, none for any other. -/
def elements : Slot α → List α
  | .repeated as => as
  | _ => []

/-- The slot of a field nothing has been written to. -/
def blank : Label → Slot α
  | .repeated => .repeated []
  | _ => .unset

end Slot

/-! ## Values -/

namespace Value

/-- The kind of a value, as error texts name it. -/
def kind : Value → String
  | .string _ => "string"
  | .bytes _ => "bytes"
  | .bool _ => "bool"
  | .double _ => "double"
  | .float _ => "float"
  | .int32 _ => "int32"
  | .int64 _ => "int64"
  | .uint32 _ => "uint32"
  | .uint64 _ => "uint64"
  | .enumeration _ => "enum"
  | .message _ => "message"

/-- Whether a value can stand in a field of a type.  A reference takes an enum
number, and a message of the name it refers to: the type alone does not tell which
of the two the name stands for. -/
def fits : Value → FieldType → Bool
  | .string _, t => decide (t = .string)
  | .bytes _, t => decide (t = .bytes)
  | .bool _, t => decide (t = .bool)
  | .double _, t => decide (t = .double)
  | .float _, t => decide (t = .float)
  | .int32 _, t => t.isSigned32
  | .int64 _, t => t.isSigned64
  | .uint32 _, t => t.isUnsigned32
  | .uint64 _, t => t.isUnsigned64
  | .enumeration _, t => t.isReference
  | .message m, t => decide (t = .reference m.name)

/-- The string, if the value is one. -/
def string? : Value → Option String
  | .string s => some s
  | _ => none

/-- The octets, if the value is a row of octets. -/
def bytes? : Value → Option ByteArray
  | .bytes octets => some octets
  | _ => none

/-- The truth value, if the value is one. -/
def bool? : Value → Option Bool
  | .bool b => some b
  | _ => none

/-- The message, if the value is one. -/
def message? : Value → Option Message
  | .message m => some m
  | _ => none

/-- The integer, if the value is any kind of integer. -/
def int? : Value → Option Int
  | .int32 n => some n.toInt
  | .int64 n => some n.toInt
  | .uint32 n => some n.toNat
  | .uint64 n => some n.toNat
  | .enumeration n => some n.toInt
  | _ => none

/-- The integer, if the value is one that is not negative. -/
def uint64? (v : Value) : Option Nat := (v.int?.filter (decide <| 0 ≤ ·)).map Int.toNat

/-- The integer, if the value is one within 64 signed bits. -/
def int64? (v : Value) : Option Int := v.int?.filter (decide <| · < Json.int64Bound)

/-- The number of an enum value; a plain 32-bit integer is taken too. -/
def enum? : Value → Option Int32
  | .enumeration n => some n
  | .int32 n => some n
  | _ => none

/-- The floating-point number in double precision, if the value is one. -/
def double? : Value → Option Double
  | .double x => some x
  | .float x => some x.widen
  | _ => none

end Value

/-! ## Messages -/

namespace Message

/-- The message of a type to which nothing has been written. -/
def new (d : MessageDescriptor) : Message :=
  ⟨d.name, d.fields.map fun f => (f, .blank f.label), []⟩

/-- The type of a message. -/
def descriptor (m : Message) : MessageDescriptor := ⟨m.name, m.entries.map Prod.fst⟩

/-- The field with an id and its slot. -/
def entry? (m : Message) (id : Nat) : Option (Field × Slot Value) :=
  m.entries.find? fun e => decide (e.1.id = id)

/-- The field with a name and its slot. -/
def entryNamed? (m : Message) (name : String) : Option (Field × Slot Value) :=
  m.entries.find? fun e => decide (e.1.name = name)

/-- Whether an id is declared. -/
def declares (m : Message) (id : Nat) : Bool := (m.entry? id).isSome

/-! ### Readers

A reader answers with nothing alike when the field is not declared, when it is
unset, and when it holds a value of another kind. -/

/-- The value of a singular field. -/
def value? (m : Message) (name : String) : Option Value :=
  (m.entryNamed? name).bind fun e => e.2.single?

/-- The string in a field. -/
def string? (m : Message) (name : String) : Option String := (m.value? name).bind Value.string?

/-- The message in a field. -/
def message? (m : Message) (name : String) : Option Message :=
  (m.value? name).bind Value.message?

/-- The unsigned integer in a field. -/
def uint64? (m : Message) (name : String) : Option Nat := (m.value? name).bind Value.uint64?

/-- The signed integer in a field. -/
def int64? (m : Message) (name : String) : Option Int := (m.value? name).bind Value.int64?

/-- The enum number in a field. -/
def enum? (m : Message) (name : String) : Option Int32 := (m.value? name).bind Value.enum?

/-- The truth value in a field. -/
def bool? (m : Message) (name : String) : Option Bool := (m.value? name).bind Value.bool?

/-- The values of a repeated field. -/
def elements (m : Message) (name : String) : List Value :=
  ((m.entryNamed? name).map fun e => e.2.elements).getD []

end Message

end LiteChat
