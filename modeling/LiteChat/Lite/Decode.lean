import LiteChat.Message.Write

/-!
# Reading messages from positional arrays

In the positional form a message is an array, and the place of an element says which
field it belongs to.  The elements are numbered from 1 by their ids, or from 0 when
the array opens with a discriminator, which is then element 0 and belongs to no
field (`Framing`).  A null element, like one past the end of the array, leaves its
field unset; a non-null element at an undeclared id is kept as it is.

`readSlots` goes along the elements and reads those that belong to fields, so the
error of a message is that of the first element that cannot be read.  Only a message
whose elements can all be read is asked for its required fields.
-/

namespace LiteChat

open Floating (Double)

/-- Whether an array opens with a discriminator. -/
inductive Framing where
  /-- The first element has id 1. -/
  | plain
  /-- The first element is a discriminator. -/
  | discriminated
  deriving DecidableEq, Repr

/-- The id of the first element. -/
def Framing.firstId : Framing → Nat
  | .plain => 1
  | .discriminated => 0

namespace Lite

/-! ## Scalars -/

/-- The integers of signed 32 bits. -/
def int32? (n : Int) : Option Int32 :=
  if -2147483648 ≤ n ∧ n < 2147483648 then some (Int32.ofInt n) else none

/-- The integers of signed 64 bits. -/
def int64? (n : Int) : Option Int64 :=
  if -9223372036854775808 ≤ n ∧ n < 9223372036854775808 then some (Int64.ofInt n) else none

/-- The integers of unsigned 32 bits. -/
def uint32? (n : Nat) : Option UInt32 := if n < 4294967296 then some (UInt32.ofNat n) else none

/-- The integers of unsigned 64 bits. -/
def uint64? (n : Nat) : Option UInt64 :=
  if n < 18446744073709551616 then some (UInt64.ofNat n) else none

/-- An octet given as a number. -/
def octet? (e : Json) : Option UInt8 :=
  e.uint64?.bind fun n => if n < 256 then some (UInt8.ofNat n) else none

/-- A row of octets, given as a string or as numbers. -/
def bytes? : Json → Option ByteArray
  | .string s => some s.toUTF8
  | .array items => (items.mapM octet?).map fun octets => ⟨octets.toArray⟩
  | _ => none

/-- A truth value, given as one or as 0 or 1. -/
def bool? : Json → Option Bool
  | .bool b => some b
  | .int n => if n = 0 then some false else if n = 1 then some true else none
  | _ => none

/-- A signed 64-bit integer, given as a number or, lest it lose digits on the way, as
a string. -/
def wideSigned? : Json → Option Int
  | .string s => Text.signed? Json.leastInt64 Json.int64Bound s.toList
  | e => e.int64?

/-- An unsigned 64-bit integer, given as a number or as a string. -/
def wideUnsigned? : Json → Option Nat
  | .string s => Text.unsigned? 18446744073709551616 s.toList
  | e => e.uint64?

/-- The value of a scalar type that an element holds. -/
def scalar? : FieldType → Json → Option Value
  | .string, e => e.string?.map .string
  | .bytes, e => (bytes? e).map .bytes
  | .bool, e => (bool? e).map .bool
  | .double, e => e.double?.map .double
  | .float, e => e.double?.map fun x => .float x.narrow
  | .int32, e | .sint32, e | .sfixed32, e => (e.int64?.bind int32?).map .int32
  | .uint32, e | .fixed32, e => (e.uint64?.bind uint32?).map .uint32
  | .int64, e | .sint64, e | .sfixed64, e => ((wideSigned? e).bind int64?).map .int64
  | .uint64, e | .fixed64, e => ((wideUnsigned? e).bind uint64?).map .uint64
  | .reference _, _ => none

/-- The enum number that an element holds. -/
def enumNumber? (e : Json) : Option Value := (e.int64?.bind int32?).map .enumeration

/-! ## Messages -/

/-- The non-null elements at undeclared ids, `id` being that of the first element.
Element 0 is a discriminator and never among them; ids end at 32 bits. -/
def unknownFrom (d : MessageDescriptor) (id : Nat) : List Json → List (Nat × Json)
  | [] => []
  | e :: rest =>
    if Schema.fieldIdBound ≤ id then []
    else if id = 0 ∨ e.isNull ∨ (d.field? id).isSome then unknownFrom d (id + 1) rest
    else (id, e) :: unknownFrom d (id + 1) rest

/-- The message with raw elements kept at their ids. -/
def keepUnknown (m : Message) : List (Nat × Json) → Except MessageError Message
  | [] => .ok m
  | (id, raw) :: rest =>
    match m.insertUnknown id raw with
    | .ok m => keepUnknown m rest
    | .error e => .error e

/-- The message of a type with the given slots and unknown elements, and with every
required field set. -/
def assemble (d : MessageDescriptor) (slots : List (Nat × Slot Value))
    (unknown : List (Nat × Json)) : Except MessageError Message :=
  match (Message.new d).setAll slots with
  | .error e => .error e
  | .ok m =>
    match keepUnknown m unknown with
    | .error e => .error e
    | .ok m =>
      match m.checkRequired with
      | .error e => .error e
      | .ok () => .ok m

/-- The error of an element that is not what its field asks for. -/
def mismatch {α : Type} (d : MessageDescriptor) (f : Field) (expected : String) (e : Json) :
    Except MessageError α :=
  .error (.typeMismatch d.name f.name expected e.kind)

/-- The error of an element that is no message at all. -/
def rootMismatch (d : MessageDescriptor) (e : Json) : Except MessageError Message :=
  .error (.typeMismatch d.name "<root>" "array" e.kind)

variable (s : Schema)

mutual

/-- The value that an element holds for a field of a message type. -/
def readValue (d : MessageDescriptor) (f : Field) (e : Json) : Except MessageError Value :=
  match f.type with
  | .reference target =>
    match s.resolve? target with
    | none => .error (.unresolvedType target)
    | some (.enumeration _) =>
      match enumNumber? e with
      | some v => .ok v
      | none => mismatch d f target e
    | some (.message nested) =>
      match e with
      | .array items =>
        match readSlots nested Framing.plain.firstId items with
        | .error fault => .error fault
        | .ok slots =>
          (assemble nested slots (unknownFrom nested Framing.plain.firstId items)).map .message
      | other => (rootMismatch nested other).map .message
  | t =>
    match scalar? t e with
    | some v => .ok v
    | none => mismatch d f t.token e

/-- The values that the elements of a repeated field hold; null ones are left out. -/
def readValues (d : MessageDescriptor) (f : Field) : List Json → Except MessageError (List Value)
  | [] => .ok []
  | e :: rest =>
    if e.isNull then readValues d f rest
    else
      match readValue d f e with
      | .error fault => .error fault
      | .ok v =>
        match readValues d f rest with
        | .error fault => .error fault
        | .ok vs => .ok (v :: vs)

/-- The slot that a non-null element gives its field. -/
def readSlot (d : MessageDescriptor) (f : Field) (e : Json) : Except MessageError (Slot Value) :=
  match f.label with
  | .repeated =>
    match e with
    | .array items => (readValues d f items).map .repeated
    | other => mismatch d f "array" other
  | _ => (readValue d f e).map .single

/-- The slots that the elements of an array give to the fields of a message type, `id`
being that of the first element. -/
def readSlots (d : MessageDescriptor) (id : Nat) :
    List Json → Except MessageError (List (Nat × Slot Value))
  | [] => .ok []
  | e :: rest =>
    match d.field? id with
    | none => readSlots d (id + 1) rest
    | some f =>
      if e.isNull then readSlots d (id + 1) rest
      else
        match readSlot d f e with
        | .error fault => .error fault
        | .ok slot =>
          match readSlots d (id + 1) rest with
          | .error fault => .error fault
          | .ok slots => .ok ((id, slot) :: slots)

end

/-- The message of a type that an array holds. -/
def readMessage (d : MessageDescriptor) (framing : Framing) (items : List Json) :
    Except MessageError Message :=
  match readSlots s d framing.firstId items with
  | .error fault => .error fault
  | .ok slots => assemble d slots (unknownFrom d framing.firstId items)

/-- The message of a type that a JSON value holds. -/
def decodeAs (d : MessageDescriptor) (framing : Framing) : Json → Except MessageError Message
  | .array items => readMessage s d framing items
  | other => rootMismatch d other

/-- The message of a named type that a JSON value holds. -/
def decode (name : String) (framing : Framing) (raw : Json) : Except MessageError Message :=
  match s.message? name with
  | some d => decodeAs s d framing raw
  | none => .error (.unresolvedType name)

end Lite

end LiteChat
