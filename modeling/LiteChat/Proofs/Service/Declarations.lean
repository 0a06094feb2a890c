import LiteChat.Proofs.Schema.WellFormed
import LiteChat.Service.Declarations

/-!
# What the service's schema can be relied on for

The schema of the service is given as data, so what a compiled text owes to its compilation is
checked here by evaluation: every message type is well formed (`wellFormed_schema`), and is found
under its name, since no other has it (`message?_schema`).

That a message type has a field is a fact about the lists of declarations (`Declares`), and so is
whether the field holds messages or enum numbers (`DeclaresMessage`, `DeclaresEnum`): none of it
asks for the schema to be looked into.
-/

namespace LiteChat.Service

theorem wellFormed_messages : ∀ d ∈ messages, d.WellFormed := by decide +kernel

theorem nodup_names : (messages.map MessageDescriptor.name).Nodup := by decide +kernel

theorem nodup_enumNames : (enums.map EnumDescriptor.name).Nodup := by decide

theorem wellFormed_schema : schema.WellFormed := Schema.wellFormed_ofCompiled wellFormed_messages

theorem message?_schema {d : MessageDescriptor} (hd : d ∈ messages) :
    schema.message? d.name = some d :=
  Schema.message?_ofCompiled nodup_names hd

/-- A message type of a name declares a field. -/
def Declares (name : String) (f : Field) : Prop := ∃ d ∈ messages, d.name = name ∧ f ∈ d.fields

instance (name : String) (f : Field) : Decidable (Declares name f) :=
  inferInstanceAs (Decidable (∃ d ∈ messages, d.name = name ∧ f ∈ d.fields))

/-- A field that is declared is one of the message type that the schema finds. -/
theorem Declares.mem {name : String} {f : Field} (h : Declares name f) {d : MessageDescriptor}
    (hd : schema.message? name = some d) : f ∈ d.fields := by
  obtain ⟨d', hd', rfl, hf⟩ := h
  rw [message?_schema hd'] at hd
  cases hd
  exact hf

section
variable {name : String}

theorem exists_message? (h : name ∈ messages.map MessageDescriptor.name) :
    ∃ d, schema.message? name = some d := by
  obtain ⟨d, hd, rfl⟩ := List.mem_map.mp h
  exact ⟨d, message?_schema hd⟩

theorem resolve?_of_message? {d : MessageDescriptor} (h : schema.message? name = some d) :
    schema.resolve? name = some (.message d) := by
  rw [Schema.resolve?, h]

theorem exists_resolve?_message (h : name ∈ messages.map MessageDescriptor.name) :
    ∃ d, schema.resolve? name = some (.message d) := by
  obtain ⟨d, hd⟩ := exists_message? h
  exact ⟨d, resolve?_of_message? hd⟩

/-- The name of an enum that no message has stands for the enum. -/
theorem exists_resolve?_enumeration (hm : name ∉ messages.map MessageDescriptor.name)
    (he : name ∈ enums.map EnumDescriptor.name) :
    ∃ e, schema.resolve? name = some (.enumeration e) := by
  obtain ⟨e, hmem, rfl⟩ := List.mem_map.mp he
  refine ⟨e, ?_⟩
  rw [Schema.resolve?, schema, Schema.message?_ofCompiled_eq_none hm,
    Schema.enum?_ofCompiled nodup_enumNames hmem]
  rfl

end

/-- A message type declares an optional field for messages of another. -/
def DeclaresMessage (name : String) (id : Nat) (field target : String) : Prop :=
  Declares name (optional id field (ref target)) ∧ target ∈ messages.map MessageDescriptor.name

/-- A message type declares an optional field for the numbers of an enum. -/
def DeclaresEnum (name : String) (id : Nat) (field target : String) : Prop :=
  Declares name (optional id field (ref target)) ∧
    target ∉ messages.map MessageDescriptor.name ∧ target ∈ enums.map EnumDescriptor.name

instance (name : String) (id : Nat) (field target : String) :
    Decidable (DeclaresMessage name id field target) :=
  inferInstanceAs (Decidable (_ ∧ _))

instance (name : String) (id : Nat) (field target : String) :
    Decidable (DeclaresEnum name id field target) :=
  inferInstanceAs (Decidable (_ ∧ _ ∧ _))

end LiteChat.Service
