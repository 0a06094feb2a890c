import LiteChat.Message.Basic

/-!
# Writing to a message

A write has to agree with the declaration of the field: one value for a required or
optional field, a list for a repeated one, and every value of the field's type.  A
write that does not agree changes nothing and says why (`MessageError`).  Unsetting
a repeated field empties it.

`Message.ofSlots` builds a message from scratch: it writes the given slots in order,
so the last one of an id counts, and then asks for the required fields.
-/

namespace LiteChat

/-- How a field was asked for. -/
inductive FieldKey where
  /-- By its id. -/
  | id (n : Nat)
  /-- By its name. -/
  | name (s : String)
  /-- As a place for an unknown element. -/
  | unknown (n : Nat)
  deriving DecidableEq, Repr

/-- What was asked for, in words. -/
def FieldKey.text : FieldKey → String
  | .id n => String.ofList (Text.ofNat n)
  | .name s => s
  | .unknown n => "unknown position " ++ String.ofList (Text.ofNat n)

/-- Why a message cannot be read or written. -/
inductive MessageError where
  /-- A value does not agree with the declaration of its field. -/
  | typeMismatch (message field expected found : String)
  /-- A required field is unset. -/
  | requiredMissing (message field : String)
  /-- The message type does not declare the field. -/
  | fieldNotFound (message : String) (key : FieldKey)
  /-- A reference names no declaration. -/
  | unresolvedType (name : String)
  deriving DecidableEq, Repr

/-- The text of an error. -/
def MessageError.text : MessageError → String
  | .typeMismatch message field expected found =>
    "type mismatch for " ++ message ++ "." ++ field ++ ": expected " ++ expected ++ ", found " ++
      found
  | .requiredMissing message field =>
    "required field " ++ message ++ "." ++ field ++ " is missing"
  | .fieldNotFound message key => "message " ++ message ++ " has no field `" ++ key.text ++ "`"
  | .unresolvedType name => "unresolved type `" ++ name ++ "`"

/-! ## Slots against fields -/

/-- The slot that a field holds after a write, or what was found in place of it. -/
def Field.accept (f : Field) : Slot Value → Except String (Slot Value)
  | .unset => .ok (.blank f.label)
  | .single v =>
    match f.label with
    | .repeated => .error ("single " ++ v.kind)
    | _ => if v.fits f.type then .ok (.single v) else .error v.kind
  | .repeated vs =>
    match f.label with
    | .repeated =>
      match vs.find? fun v => !v.fits f.type with
      | some v => .error v.kind
      | none => .ok (.repeated vs)
    | _ => .error "repeated"

namespace Message

/-- The message with the slot of one field replaced. -/
def replace (m : Message) (id : Nat) (s : Slot Value) : Message :=
  { m with entries := m.entries.map fun e => if e.1.id = id then (e.1, s) else e }

/-- The slot of a field, by id. -/
def get (m : Message) (id : Nat) : Except MessageError (Slot Value) :=
  match m.entry? id with
  | some e => .ok e.2
  | none => .error (.fieldNotFound m.name (.id id))

/-- The slot of a field, by name. -/
def getNamed (m : Message) (name : String) : Except MessageError (Slot Value) :=
  match m.entryNamed? name with
  | some e => .ok e.2
  | none => .error (.fieldNotFound m.name (.name name))

/-- The message after a write to a field. -/
def write (m : Message) (f : Field) (s : Slot Value) : Except MessageError Message :=
  match f.accept s with
  | .ok s => .ok (m.replace f.id s)
  | .error found => .error (.typeMismatch m.name f.name f.expectation found)

/-- The message after a write to the field of an id. -/
def set (m : Message) (id : Nat) (s : Slot Value) : Except MessageError Message :=
  match m.entry? id with
  | some e => m.write e.1 s
  | none => .error (.fieldNotFound m.name (.id id))

/-- The message after a write to the field of a name. -/
def setNamed (m : Message) (name : String) (s : Slot Value) : Except MessageError Message :=
  match m.entryNamed? name with
  | some e => m.set e.1.id s
  | none => .error (.fieldNotFound m.name (.name name))

/-- The message with a raw element kept at an id, which has to be positive and
undeclared. -/
def insertUnknown (m : Message) (id : Nat) (raw : Json) : Except MessageError Message :=
  if id = 0 ∨ m.declares id then .error (.fieldNotFound m.name (.unknown id))
  else .ok { m with unknown := Keyed.insert id raw m.unknown }

/-- The first required field that is unset. -/
def missing? (m : Message) : Option Field :=
  (m.entries.find? fun e => decide (e.1.label = .required) && e.2.isUnset).map Prod.fst

/-- Success if every required field is set. -/
def checkRequired (m : Message) : Except MessageError Unit :=
  match m.missing? with
  | some f => .error (.requiredMissing m.name f.name)
  | none => .ok ()

/-- The message after a row of writes by id. -/
def setAll (m : Message) : List (Nat × Slot Value) → Except MessageError Message
  | [] => .ok m
  | (id, s) :: rest =>
    match m.set id s with
    | .ok m => m.setAll rest
    | .error e => .error e

/-- The message of a type built by a row of writes, with every required field
set. -/
def ofSlots (d : MessageDescriptor) (slots : List (Nat × Slot Value)) :
    Except MessageError Message :=
  match (new d).setAll slots with
  | .error e => .error e
  | .ok m =>
    match m.checkRequired with
    | .error e => .error e
    | .ok () => .ok m

end Message

/-- The message of a named type to which nothing has been written. -/
def Schema.newMessage (s : Schema) (name : String) : Except MessageError Message :=
  match s.message? name with
  | some d => .ok (.new d)
  | none => .error (.unresolvedType name)

end LiteChat
