import LiteChat.Message.Basic

/-!
# Sameness of messages

Two messages are the same when they are of one type and agree in every slot and in
their unknown elements.  Floating-point numbers are compared as numbers, so a message
that holds a not-a-number is not the same as itself, and one that holds a negative
zero is the same as one that holds a positive zero.
-/

namespace LiteChat

mutual

/-- Whether two values are the same. -/
def Value.same : Value → Value → Bool
  | .string s, .string t => decide (s = t)
  | .bytes s, .bytes t => decide (s.data = t.data)
  | .bool a, .bool b => decide (a = b)
  | .double x, .double y => x.sameNumber y
  | .float x, .float y => x.sameNumber y
  | .int32 m, .int32 n => decide (m = n)
  | .int64 m, .int64 n => decide (m = n)
  | .uint32 m, .uint32 n => decide (m = n)
  | .uint64 m, .uint64 n => decide (m = n)
  | .enumeration m, .enumeration n => decide (m = n)
  | .message m, .message n => m.same n
  | _, _ => false

/-- Whether two messages are the same. -/
def Message.same : Message → Message → Bool
  | ⟨name, entries, unknown⟩, n =>
    decide (name = n.name) && Message.sameEntries entries n.entries &&
      Json.sameItems (unknown.map Prod.snd) (n.unknown.map Prod.snd) &&
      decide (unknown.map Prod.fst = n.unknown.map Prod.fst)

/-- Whether two lists of fields agree slot by slot. -/
def Message.sameEntries : List (Field × Slot Value) → List (Field × Slot Value) → Bool
  | [], [] => true
  | (_, s) :: xs, (_, t) :: ys => Value.sameSlot s t && Message.sameEntries xs ys
  | _, _ => false

/-- Whether two slots hold the same. -/
def Value.sameSlot : Slot Value → Slot Value → Bool
  | .unset, .unset => true
  | .single v, .single w => v.same w
  | .repeated vs, .repeated ws => Value.sameAll vs ws
  | _, _ => false

/-- Whether two lists of values are the same. -/
def Value.sameAll : List Value → List Value → Bool
  | [], [] => true
  | v :: vs, w :: ws => v.same w && Value.sameAll vs ws
  | _, _ => false

end

end LiteChat
