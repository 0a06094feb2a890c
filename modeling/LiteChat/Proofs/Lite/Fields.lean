import LiteChat.Proofs.Lite.Position
import LiteChat.Proofs.Lite.Scalar

/-!
# Reading the fields of a decoded message

A decoded message is asked for its fields by name, while the array that it was decoded from has
them by id.  `ReadFrom` says that a message was read from a row of elements: every field holds what
the element of its id was read as.  From that one fact each reader is told apart by the type of its
field: the strings, timestamps, enum numbers and nested messages that it finds by a name are there
exactly if the element of the id is, and are what the element says.  The answer of a reader and an
element are related by `Option.Rel`, which says both at once.

A nested message is read from the elements of an array again (`Json.element?`), so a path of names
in the message is a path of ids in the array.
-/

namespace LiteChat

/-! ## Answers and elements -/

section Answers
variable {α β γ δ : Type} {R : α → β → Prop} {a : Option α} {b : Option β}

/-- What is there exactly if something else is there, and is related to it, goes on so. -/
theorem rel_bind {Q : γ → δ → Prop} {f : α → Option γ} {g : β → Option δ}
    (h : Option.Rel R a b) (hfg : ∀ x y, R x y → Option.Rel Q (f x) (g y)) :
    Option.Rel Q (a.bind f) (b.bind g) := by
  cases h with
  | some hxy => exact hfg _ _ hxy
  | none => exact .none

/-- A part that whatever is related to an element has is there exactly if the element is. -/
theorem rel_bind_left {Q : γ → β → Prop} {f : α → Option γ} (h : Option.Rel R a b)
    (hf : ∀ x y, R x y → ∃ z, f x = some z ∧ Q z y) : Option.Rel Q (a.bind f) b := by
  cases h with
  | some hxy =>
    obtain ⟨z, hz, hQ⟩ := hf _ _ hxy
    rw [Option.bind_some, hz]
    exact .some hQ
  | none => exact .none

theorem rel_imp {Q : α → β → Prop} (h : Option.Rel R a b) (hRQ : ∀ x y, R x y → Q x y) :
    Option.Rel Q a b := by
  cases h with
  | some hxy => exact .some (hRQ _ _ hxy)
  | none => exact .none

/-- What an element determines is read from it. -/
theorem eq_bind_of_rel {f : β → Option α} (h : Option.Rel R a b)
    (hf : ∀ x y, R x y → f y = some x) : a = b.bind f := by
  cases h with
  | some hxy => exact (hf _ _ hxy).symm
  | none => rfl

/-- What elements determine agrees if they do. -/
theorem eq_of_rel {S : β → β → Prop} {a' : Option α} {b' : Option β} (h : Option.Rel R a b)
    (h' : Option.Rel R a' b') (hb : Option.Rel S b b')
    (hunique : ∀ x x' y y', R x y → R x' y' → S y y' → x = x') : a = a' := by
  cases hb with
  | some hS =>
    cases h with
    | some hxy =>
      cases h' with
      | some hxy' => rw [hunique _ _ _ _ hxy hxy' hS]
  | none =>
    cases h
    cases h'
    rfl

end Answers

/-- The element of an id in a JSON array that holds a nested message; a null one counts as absent,
and what is no array has no elements. -/
def Json.element? (id : Nat) : Json → Option Json
  | .array items => Lite.elementAt? Framing.plain.firstId items id
  | _ => none

/-- The elements of a JSON array that are not null; nothing has none. -/
def Json.present : Option Json → List Json
  | some (.array items) => items.filter fun e => !e.isNull
  | _ => []

namespace Lite

/-! ## Messages and rows of elements -/

/-- A message was read from a row of elements, each of which has an id. -/
structure ReadFrom (s : Schema) (d : MessageDescriptor) (row : Nat → Option Json) (m : Message) :
    Prop where
  /-- The message is of the type. -/
  name_eq : m.name = d.name
  /-- A singular field holds what its element was read as. -/
  value : ∀ f ∈ d.fields, f.label ≠ .repeated →
    Option.Rel (fun v e => readValue s d f e = .ok v) (m.value? f.name) (row f.id)
  /-- A repeated field holds what the elements of its list were read as. -/
  elements : ∀ f ∈ d.fields, f.label = .repeated →
    (∀ e, row f.id = some e → ∃ items, e = .array items) ∧
      List.Forall₂ (fun v e => readValue s d f e = .ok v) (m.elements f.name)
        (Json.present (row f.id))

section
variable {s : Schema} {d : MessageDescriptor} {m : Message}

/-- The slot of a field is found under the name of the field. -/
theorem entryNamed?_of_mem (hd : d.WellFormed) (hfields : m.entries.map Prod.fst = d.fields)
    {f : Field} {slot : Slot Value} (h : (f, slot) ∈ m.entries) :
    m.entryNamed? f.name = some (f, slot) := by
  have hnames : (m.entries.map fun e => e.1.name).Nodup := by
    have hdiffer := hd.names_differ
    rwa [← hfields, List.map_map] at hdiffer
  exact (Keyed.find?_eq_some_iff hnames).mpr ⟨h, rfl⟩

theorem readFrom_of_readMessage (hs : s.WellFormed) (hd : d.WellFormed) {framing : Framing}
    {items : List Json} (h : readMessage s d framing items = .ok m) :
    ReadFrom s d (elementAt? framing.firstId items) m := by
  have hconforms := conforms_of_readMessage hs hd h
  obtain ⟨hname, hfields, hread, -, -⟩ := (readMessage_eq_ok_iff hs hd).mp h
  refine ⟨hname, fun f hf hl => ?_, fun f hf hl => ?_⟩
  all_goals
    obtain ⟨slot, hslot⟩ := hconforms.exists_slot hf
    have hentry := entryNamed?_of_mem hd hfields hslot
    have hfield := hread f slot hslot
    rw [readField] at hfield
  · rw [Message.value?, hentry, Option.bind_some]
    cases he : elementAt? framing.firstId items f.id with
    | none =>
      rw [he] at hfield
      cases hfield
      cases hlabel : f.label with
      | repeated => exact absurd hlabel hl
      | _ => exact .none
    | some e =>
      rw [he] at hfield
      rcases readSlot_eq_ok_iff.mp hfield with ⟨hl', -⟩ | ⟨-, v, hv, rfl⟩
      · exact absurd hl' hl
      · exact .some hv
  · rw [Message.elements, hentry, Option.map_some, Option.getD_some]
    cases he : elementAt? framing.firstId items f.id with
    | none =>
      rw [he] at hfield
      cases hfield
      rw [hl]
      exact ⟨fun e h => (Option.some_ne_none e h.symm).elim, List.Forall₂.nil⟩
    | some e =>
      rw [he] at hfield
      rcases readSlot_eq_ok_iff.mp hfield with ⟨-, list, vs, rfl, hvs, rfl⟩ | ⟨hl', -⟩
      · refine ⟨fun e h => ⟨list, (Option.some.inj h).symm⟩, ?_⟩
        exact (mapM_eq_ok_iff.mp hvs).flip
      · exact absurd hl hl'

end

/-! ## Readers by the type of a field -/

namespace ReadFrom

variable {s : Schema} {d : MessageDescriptor} {row : Nat → Option Json} {m : Message} {f : Field}

theorem scalar?_of_readValue {e : Json} {v : Value} (ht : ∀ target, f.type ≠ .reference target)
    (h : readValue s d f e = .ok v) : scalar? f.type e = some v := by
  rw [readValue_scalar ht] at h
  split at h
  · rename_i hscalar
    cases h
    exact hscalar
  · cases h

/-- A string is the element itself. -/
theorem string (hm : ReadFrom s d row m) (hf : f ∈ d.fields) (hl : f.label ≠ .repeated)
    (ht : f.type = .string) :
    Option.Rel (fun text e => e = Json.string text) (m.string? f.name) (row f.id) := by
  refine rel_bind_left (hm.value f hf hl) fun v e hv => ?_
  have hscalar := scalar?_of_readValue (by simp [ht]) hv
  rw [ht] at hscalar
  cases e <;> cases hscalar
  exact ⟨_, rfl, rfl⟩

/-- A timestamp is the number that the element is, or spells. -/
theorem timestamp (hm : ReadFrom s d row m) (hf : f ∈ d.fields) (hl : f.label ≠ .repeated)
    (ht : f.type = .uint64) :
    Option.Rel (fun n e => wideUnsigned? e = some n) (m.uint64? f.name) (row f.id) := by
  refine rel_bind_left (hm.value f hf hl) fun v e hv => ?_
  have hscalar := scalar?_of_readValue (by simp [ht]) hv
  rw [ht, scalar?, Option.map_eq_some_iff] at hscalar
  obtain ⟨u, hu, rfl⟩ := hscalar
  obtain ⟨n, hn, hu⟩ := Option.bind_eq_some_iff.mp hu
  refine ⟨n, ?_, hn⟩
  unfold uint64? at hu
  split at hu
  · rename_i hlt
    cases hu
    have hsame : (UInt64.ofNat n).toNat = n := by
      rw [UInt64.toNat_ofNat']
      exact Nat.mod_eq_of_lt hlt
    simp [Value.uint64?, Value.int?, hsame]
  · cases hu

/-- An enum number is the number that the element is. -/
theorem enumeration (hm : ReadFrom s d row m) (hf : f ∈ d.fields) (hl : f.label ≠ .repeated)
    {target : String} {enum : EnumDescriptor} (ht : f.type = .reference target)
    (hr : s.resolve? target = some (.enumeration enum)) :
    Option.Rel (fun n e => e = Json.int n.toInt) (m.enum? f.name) (row f.id) := by
  refine rel_bind_left (hm.value f hf hl) fun v e hv => ?_
  rw [readValue_enumeration ht hr] at hv
  split at hv
  · rename_i hnumber
    cases hv
    obtain ⟨n, -, rfl⟩ := Option.map_eq_some_iff.mp hnumber
    exact ⟨n, rfl, by rw [← encodeValue_of_enumNumber? hnumber, encodeValue_enumeration]⟩
  · cases hv

/-- A nested message is what the element is read as. -/
theorem message (hm : ReadFrom s d row m) (hf : f ∈ d.fields) (hl : f.label ≠ .repeated)
    {target : String} {nested : MessageDescriptor} (ht : f.type = .reference target)
    (hr : s.resolve? target = some (.message nested)) :
    Option.Rel (fun m' e => decodeAs s nested .plain e = .ok m')
      (m.message? f.name) (row f.id) := by
  refine rel_bind_left (hm.value f hf hl) fun v e hv => ?_
  rw [readValue_message ht hr] at hv
  cases hm' : decodeAs s nested .plain e with
  | error fault =>
    rw [hm'] at hv
    cases hv
  | ok m' =>
    rw [hm'] at hv
    cases hv
    exact ⟨m', rfl, rfl⟩

/-- A list of strings has the elements that are not null, in their order. -/
theorem strings (hm : ReadFrom s d row m) (hf : f ∈ d.fields) (hl : f.label = .repeated)
    (ht : f.type = .string) :
    ((m.elements f.name).filterMap Value.string?).map Json.string =
      Json.present (row f.id) := by
  have hread := (hm.elements f hf hl).2
  generalize m.elements f.name = vs at hread ⊢
  generalize Json.present (row f.id) = es at hread ⊢
  induction hread with
  | nil => rfl
  | @cons v e vs es hv _ ih =>
    have hscalar := scalar?_of_readValue (by simp [ht]) hv
    rw [ht] at hscalar
    cases e <;> cases hscalar
    exact congrArg (_ :: ·) ih

/-- A list of nested messages has one for each element that is not null, in their order. -/
theorem messages (hm : ReadFrom s d row m) (hf : f ∈ d.fields) (hl : f.label = .repeated)
    {target : String} {nested : MessageDescriptor} (ht : f.type = .reference target)
    (hr : s.resolve? target = some (.message nested)) :
    List.Forall₂ (fun m' e => decodeAs s nested .plain e = .ok m')
      ((m.elements f.name).filterMap Value.message?) (Json.present (row f.id)) := by
  have hread := (hm.elements f hf hl).2
  generalize m.elements f.name = vs at hread ⊢
  generalize Json.present (row f.id) = es at hread ⊢
  induction hread with
  | nil => exact .nil
  | @cons v e vs es hv _ ih =>
    rw [readValue_message ht hr] at hv
    cases hm' : decodeAs s nested .plain e with
    | error fault =>
      rw [hm'] at hv
      cases hv
    | ok m' =>
      rw [hm'] at hv
      cases hv
      exact .cons hm' ih

end ReadFrom

/-! ## Rows that agree on what is declared -/

mutual

/-- Two elements differ, as values of a type, at undeclared positions of nested messages only. -/
inductive AlikeValue (s : Schema) : FieldType → Json → Json → Prop where
  /-- They do not differ at all. -/
  | same {t : FieldType} {e : Json} : AlikeValue s t e e
  /-- They hold nested messages that agree on what is declared. -/
  | message {target : String} {nested : MessageDescriptor} {items items' : List Json}
    (hr : s.resolve? target = some (.message nested))
    (h : AlikeRow s nested (Json.element? · (.array items)) (Json.element? · (.array items'))) :
    AlikeValue s (.reference target) (.array items) (.array items')

/-- Two lists of elements do so, one by one. -/
inductive AlikeValues (s : Schema) : FieldType → List Json → List Json → Prop where
  | nil {t : FieldType} : AlikeValues s t [] []
  | cons {t : FieldType} {e e' : Json} {items items' : List Json} (he : AlikeValue s t e e')
    (h : AlikeValues s t items items') : AlikeValues s t (e :: items) (e' :: items')

/-- Two elements do so as contents of a field. -/
inductive AlikeSlot (s : Schema) : Field → Json → Json → Prop where
  | single {f : Field} {e e' : Json} (h : AlikeValue s f.type e e') : AlikeSlot s f e e'
  | repeated {f : Field} {items items' : List Json} (hl : f.label = .repeated)
    (h : AlikeValues s f.type items items') : AlikeSlot s f (.array items) (.array items')

/-- Two rows of elements agree on what a message type declares, and may differ anywhere else. -/
inductive AlikeRow (s : Schema) :
    MessageDescriptor → (Nat → Option Json) → (Nat → Option Json) → Prop where
  | intro {d : MessageDescriptor} {row row' : Nat → Option Json}
    (absent_iff : ∀ f ∈ d.fields, row f.id = none ↔ row' f.id = none)
    (present : ∀ f ∈ d.fields, ∀ e e', row f.id = some e → row' f.id = some e' →
      AlikeSlot s f e e') :
    AlikeRow s d row row'

end

section
variable {s : Schema}

theorem AlikeRow.refl (d : MessageDescriptor) (row : Nat → Option Json) : AlikeRow s d row row := by
  refine .intro (fun f _ => Iff.rfl) fun f _ e e' he he' => ?_
  rw [he] at he'
  cases he'
  exact .single .same

/-- A type that is not that of a nested message. -/
def IsPlain (s : Schema) (t : FieldType) : Prop :=
  ∀ target nested, t = .reference target → s.resolve? target ≠ some (.message nested)

theorem AlikeValue.eq {t : FieldType} {e e' : Json} (ht : IsPlain s t) (h : AlikeValue s t e e') :
    e = e' := by
  cases h with
  | same => rfl
  | message hr => exact absurd hr (ht _ _ rfl)

theorem AlikeValues.eq {t : FieldType} (ht : IsPlain s t) {items items' : List Json}
    (h : AlikeValues s t items items') : items = items' := by
  induction items generalizing items' with
  | nil =>
    cases h
    rfl
  | cons e rest ih =>
    cases h with
    | cons he h => rw [he.eq ht, ih h]

theorem AlikeSlot.eq {f : Field} {e e' : Json} (ht : IsPlain s f.type) (h : AlikeSlot s f e e') :
    e = e' := by
  cases h with
  | single h => exact h.eq ht
  | repeated _ h => rw [h.eq ht]

namespace AlikeRow

variable {d : MessageDescriptor} {row row' : Nat → Option Json} {f : Field}

/-- What stands for the slot of a field is there in both rows or in neither. -/
theorem slot (h : AlikeRow s d row row') (hf : f ∈ d.fields) :
    Option.Rel (AlikeSlot s f) (row f.id) (row' f.id) := by
  obtain ⟨habsent, hpresent⟩ := h
  cases he : row f.id with
  | none =>
    rw [(habsent f hf).mp he]
    exact .none
  | some e =>
    cases he' : row' f.id with
    | none =>
      rw [(habsent f hf).mpr he'] at he
      cases he
    | some e' => exact .some (hpresent f hf e e' he he')

/-- A field that holds no nested message has one element in both rows. -/
theorem eq (h : AlikeRow s d row row') (hf : f ∈ d.fields) (ht : IsPlain s f.type) :
    row f.id = row' f.id := by
  have hslot := h.slot hf
  revert hslot
  generalize row f.id = x
  generalize row' f.id = y
  rintro (he | _)
  · rw [he.eq ht]
  · rfl

/-- The nested messages of a field agree on what is declared. -/
theorem nested (h : AlikeRow s d row row') (hf : f ∈ d.fields) (hl : f.label ≠ .repeated)
    {target : String} {nested : MessageDescriptor} (ht : f.type = .reference target)
    (hr : s.resolve? target = some (.message nested)) :
    Option.Rel (fun e e' => AlikeRow s nested (Json.element? · e) (Json.element? · e'))
      (row f.id) (row' f.id) := by
  refine rel_imp (h.slot hf) fun e e' hslot => ?_
  cases hslot with
  | repeated hl' => exact absurd hl' hl
  | single hvalue =>
    rw [ht] at hvalue
    cases hvalue with
    | same => exact .refl _ _
    | message hr' hrow =>
      rw [hr] at hr'
      cases hr'
      exact hrow

end AlikeRow

end

end Lite

end LiteChat
