import LiteChat.Message.Basic

/-!
# Writing messages as positional arrays

A message is written as an array in which the element of id `n` has index `n - 1`.
The array is as long as the last thing in the message asks for: a set field, a list
that is not empty, or an unknown element (`Message.extent`).  Within it every set
field and every list stands at its place, unknown elements go back to where they
came from, and all else is null.

Integers are written as numbers, enum values as their numbers, and a row of octets as
a string if it is valid text and as numbers if it is not.
-/

namespace LiteChat

/-- Whether a slot asks for its place in the array. -/
def Slot.isOccupied {α : Type} : Slot α → Bool
  | .unset => false
  | .single _ => true
  | .repeated as => !as.isEmpty

/-- The length of the positional form: the greatest id of an occupied slot or of an
unknown element. -/
def Message.extent (m : Message) : Nat :=
  let fields := (m.entries.filter fun e => e.2.isOccupied).map fun e => e.1.id
  (fields ++ m.unknown.map Prod.fst).foldl max 0

namespace Lite

/-- A row of octets in JSON. -/
def encodeBytes (octets : ByteArray) : Json :=
  match String.fromUTF8? octets with
  | some text => .string text
  | none => .array (octets.toList.map fun o => .int o.toNat)

/-- The array of a given length with each element at the place of its id, and null
elsewhere.  What has no place in it is left out. -/
def place (length : Nat) (elements : List (Nat × Json)) : List Json :=
  elements.foldl (fun items e => if e.1 = 0 then items else items.set (e.1 - 1) e.2)
    (List.replicate length .null)

mutual

/-- A value in JSON. -/
def encodeValue : Value → Json
  | .string s => .string s
  | .bytes octets => encodeBytes octets
  | .bool b => .bool b
  | .double x => .ofDouble x
  | .float x => .ofDouble x.widen
  | .int32 n => .int n.toInt
  | .int64 n => .int n.toInt
  | .uint32 n => .int n.toNat
  | .uint64 n => .int n.toNat
  | .enumeration n => .int n.toInt
  | .message m => encode m

/-- A message in its positional form. -/
def encode : Message → Json
  | ⟨name, entries, unknown⟩ =>
    .array (place (Message.extent ⟨name, entries, unknown⟩) (encodeEntries entries ++ unknown))

/-- The elements of the fields that are not unset, by id. -/
def encodeEntries : List (Field × Slot Value) → List (Nat × Json)
  | [] => []
  | (f, s) :: rest =>
    match encodeSlot s with
    | some e => (f.id, e) :: encodeEntries rest
    | none => encodeEntries rest

/-- The element of a slot that is not unset. -/
def encodeSlot : Slot Value → Option Json
  | .unset => none
  | .single v => some (encodeValue v)
  | .repeated vs => some (.array (encodeValues vs))

/-- The elements of a list of values. -/
def encodeValues : List Value → List Json
  | [] => []
  | v :: rest => encodeValue v :: encodeValues rest

end

theorem encodeValue_bytes (octets : ByteArray) : encodeValue (.bytes octets) = encodeBytes octets :=
  rfl

theorem encodeValue_double (x : Floating.Double) : encodeValue (.double x) = .ofDouble x := rfl

theorem encodeValue_float (x : Floating.Single) : encodeValue (.float x) = .ofDouble x.widen := rfl

theorem encodeValue_int32 (n : Int32) : encodeValue (.int32 n) = .int n.toInt := rfl

theorem encodeValue_int64 (n : Int64) : encodeValue (.int64 n) = .int n.toInt := rfl

theorem encodeValue_uint32 (n : UInt32) : encodeValue (.uint32 n) = .int n.toNat := rfl

theorem encodeValue_uint64 (n : UInt64) : encodeValue (.uint64 n) = .int n.toNat := rfl

theorem encodeValue_enumeration (n : Int32) : encodeValue (.enumeration n) = .int n.toInt := rfl

theorem encodeValue_message (m : Message) : encodeValue (.message m) = encode m := rfl

/-- The element of a field comes in front of those of the fields behind it. -/
theorem encodeEntries_cons (f : Field) (s : Slot Value) (rest : List (Field × Slot Value)) :
    encodeEntries ((f, s) :: rest) =
      match encodeSlot s with
      | some e => (f.id, e) :: encodeEntries rest
      | none => encodeEntries rest := rfl

end Lite

end LiteChat
