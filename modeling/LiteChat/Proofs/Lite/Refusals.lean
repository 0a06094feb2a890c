import LiteChat.Proofs.Lite.Contents
import LiteChat.Proofs.Lite.Faults
import LiteChat.Proofs.Schema.NormalForm

/-!
# What is wrong with an array

An array that holds no message of a type has a fault, and of several faults one comes first:
that of the field of least id whose element stands for nothing, in a list that of the first such
element, in a nested message that of the message.  Only an array without such a field can lack a
required one.  `FaultInMessage` says so without reading anything, and reading ends with exactly
this fault (`readMessage_eq_error_iff_fault`).

Nothing else can go wrong.  Every element is read as what its field accepts, so the writes that
build the message all succeed (`exists_setAll_of_readSlots`, `exists_keepUnknown`), and the
errors that only a write can end with do not come up (`FaultInMessage.ofReading`).
-/

namespace LiteChat

namespace Lite

/-! ## The rules -/

mutual

/-- What is wrong with an element that stands for no value of a field. -/
inductive FaultInValue (s : Schema) :
    MessageDescriptor → Field → Json → MessageError → Prop where
  | undeclared {d : MessageDescriptor} {f : Field} {e : Json} {target : String}
    (ht : f.type = .reference target) (hr : s.resolve? target = none) :
    FaultInValue s d f e (.unresolvedType target)
  | enumeration {d : MessageDescriptor} {f : Field} {e : Json} {target : String}
    {enum : EnumDescriptor} (ht : f.type = .reference target)
    (hr : s.resolve? target = some (.enumeration enum)) (hn : enumNumber? e = none) :
    FaultInValue s d f e (.typeMismatch d.name f.name target e.kind)
  | root {d nested : MessageDescriptor} {f : Field} {e : Json} {target : String}
    (ht : f.type = .reference target) (hr : s.resolve? target = some (.message nested))
    (he : ∀ items, e ≠ .array items) :
    FaultInValue s d f e (.typeMismatch nested.name "<root>" "array" e.kind)
  | message {d nested : MessageDescriptor} {f : Field} {items : List Json} {target : String}
    {fault : MessageError} (ht : f.type = .reference target)
    (hr : s.resolve? target = some (.message nested))
    (h : FaultInMessage s nested Framing.plain.firstId items fault) :
    FaultInValue s d f (.array items) fault
  | scalar {d : MessageDescriptor} {f : Field} {e : Json}
    (ht : ∀ target, f.type ≠ .reference target) (hv : scalar? f.type e = none) :
    FaultInValue s d f e (.typeMismatch d.name f.name f.type.token e.kind)

/-- What is wrong with a non-null element that stands for no slot of a field.  In a list it is
what is wrong with the first element that is not null and stands for nothing. -/
inductive FaultInSlot (s : Schema) :
    MessageDescriptor → Field → Json → MessageError → Prop where
  | single {d : MessageDescriptor} {f : Field} {e : Json} {fault : MessageError}
    (hl : f.label ≠ .repeated) (h : FaultInValue s d f e fault) : FaultInSlot s d f e fault
  | list {d : MessageDescriptor} {f : Field} {e : Json} (hl : f.label = .repeated)
    (he : ∀ items, e ≠ .array items) :
    FaultInSlot s d f e (.typeMismatch d.name f.name "array" e.kind)
  | element {d : MessageDescriptor} {f : Field} {items before after : List Json} {e : Json}
    {fault : MessageError} (hl : f.label = .repeated) (hitems : items = before ++ e :: after)
    (hbefore : ∀ b ∈ before, b.isNull = false → ∃ v, HoldsValue s f.type b v)
    (he : e.isNull = false) (h : FaultInValue s d f e fault) :
    FaultInSlot s d f (.array items) fault

/-- What is wrong with an array, whose first element has the id `first`, that holds no message of
a type: what is wrong with the element of the field of least id that stands for nothing, or, if
each stands for something, that the field of least id that is required and absent is missing. -/
inductive FaultInMessage (s : Schema) :
    MessageDescriptor → Nat → List Json → MessageError → Prop where
  | field {d : MessageDescriptor} {first : Nat} {items : List Json} {f : Field} {e : Json}
    {fault : MessageError} (hf : f ∈ d.fields) (he : elementAt? first items f.id = some e)
    (h : FaultInSlot s d f e fault)
    (hleast : ∀ g ∈ d.fields, g.id < f.id → ∀ x, elementAt? first items g.id = some x →
      ∃ slot, HoldsSlot s g x slot) :
    FaultInMessage s d first items fault
  | required {d : MessageDescriptor} {first : Nat} {items : List Json} {f : Field}
    (h : ∀ g ∈ d.fields, ∀ x, elementAt? first items g.id = some x →
      ∃ slot, HoldsSlot s g x slot)
    (hf : FirstLacking d first items f) :
    FaultInMessage s d first items (.requiredMissing d.name f.name)

end

/-! ## Reading ends with the first fault -/

section Reading
variable {s : Schema} {d : MessageDescriptor} {f : Field} {e : Json} {fault : MessageError}

theorem readSlot_eq_error_iff_of (hs : s.WellFormed)
    (h : ∀ x, sizeOf x ≤ sizeOf e → ∀ fault,
      readValue s d f x = .error fault ↔ FaultInValue s d f x fault) :
    readSlot s d f e = .error fault ↔ FaultInSlot s d f e fault := by
  have helement : ∀ items x, e = .array items → x ∈ items → ∀ fault,
      (readValue s d f x = .error fault ↔ FaultInValue s d f x fault) := by
    rintro items x rfl hx
    exact h x (Json.sizeOf_lt_of_mem hx).le
  rw [readSlot_eq_error_iff]
  constructor
  · rintro (⟨hl, items, rfl, hitems⟩ | ⟨hl, he, rfl⟩ | ⟨hl, hvalue⟩)
    · obtain ⟨before, x, after, hsplit, hbefore, hnull, hx⟩ := readValues_eq_error_iff.mp hitems
      refine .element hl hsplit (fun b hb hb' => ?_) hnull
        ((helement items x rfl (by simp [hsplit]) fault).mp hx)
      obtain ⟨v, hv⟩ := hbefore b hb hb'
      exact ⟨v, (readValue_eq_ok_iff_holds hs).mp hv⟩
    · exact .list hl he
    · exact .single hl ((h e le_rfl fault).mp hvalue)
  · intro hfault
    cases hfault with
    | single hl hvalue => exact Or.inr (Or.inr ⟨hl, (h e le_rfl fault).mpr hvalue⟩)
    | list hl he => exact Or.inr (Or.inl ⟨hl, he, rfl⟩)
    | @element _ _ items before after x _ hl hsplit hbefore hnull hx =>
      refine Or.inl ⟨hl, items, rfl, readValues_eq_error_iff.mpr
        ⟨before, x, after, hsplit, fun b hb hb' => ?_, hnull, ?_⟩⟩
      · obtain ⟨v, hv⟩ := hbefore b hb hb'
        exact ⟨v, (readValue_eq_ok_iff_holds hs).mpr hv⟩
      · exact (helement items x rfl (by simp [hsplit]) fault).mpr hx

/-- A field does not fail if its element, where there is one, stands for a slot. -/
theorem exists_readField_iff_holds (hs : s.WellFormed) {first : Nat} {items : List Json} :
    (∃ slot, readField s d first items f = .ok slot) ↔
      ∀ x, elementAt? first items f.id = some x → ∃ slot, HoldsSlot s f x slot := by
  simp only [exists_readField_iff, readSlot_iff_holds hs]

/-- The step of the induction: if smaller elements are refused for what is wrong with them, so is
an array. -/
theorem readMessage_eq_error_iff_of (hs : s.WellFormed) (hd : d.WellFormed) {framing : Framing}
    {items : List Json}
    (ih : ∀ x, sizeOf x < sizeOf items → ∀ g fault,
      readValue s d g x = .error fault ↔ FaultInValue s d g x fault) :
    readMessage s d framing items = .error fault ↔
      FaultInMessage s d framing.firstId items fault := by
  have hslot : ∀ g x fault, elementAt? framing.firstId items g.id = some x →
      (readSlot s d g x = .error fault ↔ FaultInSlot s d g x fault) := fun g x fault hx =>
    readSlot_eq_error_iff_of hs fun y hy => ih y (hy.trans_lt (sizeOf_of_elementAt? hx)) g
  simp only [readMessage_eq_error_iff hs hd, exists_readField_iff_holds hs]
  constructor
  · rintro (⟨g, hg, hfault, hleast⟩ | ⟨hread, g, hg, rfl⟩)
    · obtain ⟨x, hx, hfault⟩ := readField_eq_error_iff.mp hfault
      exact .field hg hx ((hslot g x fault hx).mp hfault) hleast
    · exact .required hread hg
  · intro h
    cases h with
    | @field _ _ _ g x _ hg hx hfault hleast =>
      exact Or.inl ⟨g, hg, readField_eq_error_iff.mpr ⟨x, hx, (hslot g x fault hx).mpr hfault⟩,
        hleast⟩
    | required hread hg => exact Or.inr ⟨hread, _, hg, rfl⟩

/-- An element is no value of a field for exactly what is wrong with it. -/
theorem readValue_eq_error_iff_fault (hs : s.WellFormed) :
    readValue s d f e = .error fault ↔ FaultInValue s d f e fault := by
  induction hn : sizeOf e using Nat.strong_induction_on generalizing d f e fault with
  | _ n ih =>
    -- the elements of a nested message are smaller than its array
    have hnested : ∀ target nested items fault, s.resolve? target = some (.message nested) →
        e = .array items → (readMessage s nested .plain items = .error fault ↔
          FaultInMessage s nested Framing.plain.firstId items fault) := by
      rintro target nested items fault hr rfl
      exact readMessage_eq_error_iff_of hs (hs.message _ _ (name_of_resolve? hs hr).1)
        fun x hx g fault => ih (sizeOf x) (hn ▸ hx.trans (Json.sizeOf_items_lt items)) rfl
    simp only [readValue_eq_error_iff, decodeAs_eq_error_iff]
    constructor
    · rintro (⟨target, ht, hr, rfl⟩ | ⟨target, enum, ht, hr, hnumber, rfl⟩ |
        ⟨target, nested, ht, hr, ⟨items, rfl, hm⟩ | ⟨he, rfl⟩⟩ | ⟨ht, hv, rfl⟩)
      · exact .undeclared ht hr
      · exact .enumeration ht hr hnumber
      · exact .message ht hr ((hnested target nested items fault hr rfl).mp hm)
      · exact .root ht hr he
      · exact .scalar ht hv
    · intro h
      cases h with
      | undeclared ht hr => exact Or.inl ⟨_, ht, hr, rfl⟩
      | enumeration ht hr hnumber => exact Or.inr (Or.inl ⟨_, _, ht, hr, hnumber, rfl⟩)
      | root ht hr he => exact Or.inr (Or.inr (Or.inl ⟨_, _, ht, hr, Or.inr ⟨he, rfl⟩⟩))
      | message ht hr hm =>
        exact Or.inr (Or.inr (Or.inl ⟨_, _, ht, hr,
          Or.inl ⟨_, rfl, (hnested _ _ _ _ hr rfl).mpr hm⟩⟩))
      | scalar ht hv => exact Or.inr (Or.inr (Or.inr ⟨ht, hv, rfl⟩))

/-- **An array is refused for exactly its first fault.** -/
theorem readMessage_eq_error_iff_fault (hs : s.WellFormed) (hd : d.WellFormed)
    {framing : Framing} {items : List Json} :
    readMessage s d framing items = .error fault ↔
      FaultInMessage s d framing.firstId items fault :=
  readMessage_eq_error_iff_of hs hd fun _ _ _ _ => readValue_eq_error_iff_fault hs

end Reading

/-! ## Nothing fails to be written -/

section Writes
variable {s : Schema} {d : MessageDescriptor} {m : Message} {slots : List (Nat × Slot Value)}

/-- What is to be written is a slot that was read for a field of the message type. -/
theorem exists_field_of_mem_readSlots {first : Nat} {items : List Json}
    (h : readSlots s d first items = .ok slots) {p : Nat × Slot Value} (hp : p ∈ slots) :
    ∃ f e, f ∈ d.fields ∧ f.id = p.1 ∧ readSlot s d f e = .ok p.2 := by
  induction items generalizing first slots with
  | nil =>
    rw [readSlots] at h
    cases h
    cases hp
  | cons e rest ih =>
    cases hfield : d.field? first with
    | none =>
      rw [readSlots_cons_of_none hfield] at h
      exact ih h hp
    | some f =>
      cases he : e.isNull with
      | true =>
        rw [readSlots_cons_of_isNull he] at h
        exact ih h hp
      | false =>
        rw [readSlots_cons_of_some hfield he] at h
        cases hslot : readSlot s d f e with
        | error fault =>
          rw [hslot] at h
          cases h
        | ok slot =>
          cases hrest : readSlots s d (first + 1) rest with
          | error fault =>
            rw [hslot, hrest] at h
            cases h
          | ok later =>
            rw [hslot, hrest] at h
            cases h
            rcases List.mem_cons.mp hp with rfl | hp
            · obtain ⟨hf, hid⟩ := MessageDescriptor.mem_of_field?_eq_some hfield
              exact ⟨f, e, hf, hid, hslot⟩
            · exact ih hrest hp

/-- Writes of what their fields accept all succeed. -/
theorem exists_setAll (hd : d.WellFormed) (hm : m.Conforms d)
    (h : ∀ p ∈ slots, ∃ f ∈ d.fields, f.id = p.1 ∧ f.accept p.2 = .ok p.2) :
    ∃ m', m.setAll slots = .ok m' ∧ m'.Conforms d := by
  induction slots generalizing m with
  | nil => exact ⟨m, rfl, hm⟩
  | cons p rest ih =>
    obtain ⟨f, hf, hid, haccept⟩ := h p List.mem_cons_self
    obtain ⟨m₁, hset⟩ := hm.exists_set hd hf haccept
    rw [hid] at hset
    obtain ⟨m', hrest, hm'⟩ := ih (hm.set hd hset) fun q hq => h q (List.mem_cons_of_mem _ hq)
    exact ⟨m', by rw [Message.setAll, hset]; exact hrest, hm'⟩

theorem exists_setAll_of_readSlots (hs : s.WellFormed) (hd : d.WellFormed) {first : Nat}
    {items : List Json} (h : readSlots s d first items = .ok slots) :
    ∃ m', (Message.new d).setAll slots = .ok m' ∧ m'.Conforms d := by
  refine exists_setAll hd (Message.conforms_new d) fun p hp => ?_
  obtain ⟨f, e, hf, hid, hslot⟩ := exists_field_of_mem_readSlots h hp
  exact ⟨f, hf, hid, accept_of_readSlot hs hslot⟩

/-- Elements at positive ids that are not declared are all kept. -/
theorem exists_keepUnknown (hm : m.Conforms d) {elements : List (Nat × Json)}
    (h : ∀ p ∈ elements, 0 < p.1 ∧ p.1 < Schema.fieldIdBound ∧ d.field? p.1 = none) :
    ∃ m', keepUnknown m elements = .ok m' := by
  induction elements generalizing m with
  | nil => exact ⟨m, by rw [keepUnknown]⟩
  | cons p rest ih =>
    obtain ⟨hpos, hbound, hnone⟩ := h p List.mem_cons_self
    obtain ⟨m₁, hinsert⟩ := hm.exists_insertUnknown hpos hnone p.2
    obtain ⟨m', hrest⟩ := ih (hm.insertUnknown hbound hinsert) fun q hq =>
      h q (List.mem_cons_of_mem _ hq)
    exact ⟨m', by rw [keepUnknown, hinsert]; exact hrest⟩

/-- While an array is read, every slot is written and every unknown element is kept. -/
theorem exists_written_of_readSlots (hs : s.WellFormed) (hd : d.WellFormed) {first : Nat}
    {items : List Json} (h : readSlots s d first items = .ok slots) :
    ∃ m n, (Message.new d).setAll slots = .ok m ∧
      keepUnknown m (unknownFrom d first items) = .ok n := by
  have hids : ∀ p ∈ unknownFrom d first items,
      0 < p.1 ∧ p.1 < Schema.fieldIdBound ∧ d.field? p.1 = none := by
    intro p hp
    obtain ⟨hpos, hbound, hnone, -⟩ := mem_unknownFrom.mp hp
    exact ⟨hpos, hbound, hnone⟩
  obtain ⟨m, hset, hm⟩ := exists_setAll_of_readSlots hs hd h
  obtain ⟨n, hkeep⟩ := exists_keepUnknown hm hids
  exact ⟨m, n, hset, hkeep⟩

end Writes

end Lite

/-! ## The words of an error -/

/-- Whether reading can end with an error: no field is asked for that is not declared, and what
is expected of an element is said in one word, without the label of its field. -/
def MessageError.OfReading : MessageError → Prop
  | .typeMismatch _ _ expected _ => ' ' ∉ expected.toList
  | .requiredMissing _ _ => True
  | .unresolvedType _ => True
  | .fieldNotFound _ _ => False

/-- The types of the fields are named by words. -/
def MessageDescriptor.OneWordTypes (d : MessageDescriptor) : Prop :=
  ∀ f ∈ d.fields, ' ' ∉ f.type.token.toList

theorem Schema.oneWordTypes_ofSource {source : List Char} {name : String} {d : MessageDescriptor}
    (hd : (Schema.ofSource source).message? name = some d) : d.OneWordTypes := by
  intro f hf hspace
  have hreadable := (Schema.readable_ofSource source).message _ (Keyed.mem_of_get?_eq_some hd)
  have htoken := (hreadable.2.field f hf).proper.type
  have hident := Schema.isIdentChar_of_mem_identifier htoken hspace
  revert hident
  decide

/-- The wording of a write names the label too. -/
theorem Field.space_mem_expectation (f : Field) : ' ' ∈ f.expectation.toList := by
  simp [expectation, String.toList_append]

theorem MessageError.OfReading.ne_of_write {fault : MessageError} (h : fault.OfReading) :
    (∀ message key, fault ≠ .fieldNotFound message key) ∧
      ∀ message field (f : Field) found,
        fault ≠ .typeMismatch message field f.expectation found := by
  constructor
  · rintro message key rfl
    exact h
  · rintro message field f found rfl
    exact h f.space_mem_expectation

namespace Lite

section Words
variable {s : Schema}

theorem ofReading_of_array (message field found : String) :
    (MessageError.typeMismatch message field "array" found).OfReading :=
  have hword : ' ' ∉ "array".toList := by decide
  hword

mutual

theorem FaultInValue.ofReading (hs : s.WellFormed)
    (hwords : ∀ name d, s.message? name = some d → d.OneWordTypes) {d : MessageDescriptor}
    {f : Field} {e : Json} {fault : MessageError} :
    FaultInValue s d f e fault → ' ' ∉ f.type.token.toList → fault.OfReading
  | .undeclared _ _, _ => trivial
  | .enumeration ht _ _, hf => by rwa [ht] at hf
  | .root _ _ _, _ => ofReading_of_array _ _ _
  | .message _ hr hm, _ =>
    FaultInMessage.ofReading hs hwords hm (hwords _ _ (name_of_resolve? hs hr).1)
  | .scalar _ _, hf => hf

theorem FaultInSlot.ofReading (hs : s.WellFormed)
    (hwords : ∀ name d, s.message? name = some d → d.OneWordTypes) {d : MessageDescriptor}
    {f : Field} {e : Json} {fault : MessageError} :
    FaultInSlot s d f e fault → ' ' ∉ f.type.token.toList → fault.OfReading
  | .single _ hv, hf => FaultInValue.ofReading hs hwords hv hf
  | .list _ _, _ => ofReading_of_array _ _ _
  | .element _ _ _ _ hv, hf => FaultInValue.ofReading hs hwords hv hf

theorem FaultInMessage.ofReading (hs : s.WellFormed)
    (hwords : ∀ name d, s.message? name = some d → d.OneWordTypes) {d : MessageDescriptor}
    {first : Nat} {items : List Json} {fault : MessageError} :
    FaultInMessage s d first items fault → d.OneWordTypes → fault.OfReading
  | .field hf _ hslot _, hd => FaultInSlot.ofReading hs hwords hslot (hd _ hf)
  | .required _ _, _ => trivial

end

end Words

/-! ## Reading a declared message -/

/-- **What is read as a declared message is refused for its first fault, and for nothing else.**
An array is refused for exactly its first fault.  Every write that building the message takes
succeeds: the slots that have been read are written, and the elements that are left over are
kept, be it from a whole array or from what is in front of its first fault.  So there is no error
that only a write can end with, be it for a field that is not declared or for a value that a field
does not accept. -/
theorem decode_eq_error_iff {source : List Char} {name : String} {d : MessageDescriptor}
    (hd : (Schema.ofSource source).message? name = some d) (framing : Framing) :
    (∀ items fault,
      decode (Schema.ofSource source) name framing (.array items) = .error fault ↔
        FaultInMessage (Schema.ofSource source) d framing.firstId items fault) ∧
    (∀ items slots,
      readSlots (Schema.ofSource source) d framing.firstId items = .ok slots →
        ∃ m n, (Message.new d).setAll slots = .ok m ∧
          keepUnknown m (unknownFrom d framing.firstId items) = .ok n) ∧
    ∀ raw fault, decode (Schema.ofSource source) name framing raw = .error fault →
      (∀ message key, fault ≠ .fieldNotFound message key) ∧
        ∀ message field (f : Field) found,
          fault ≠ .typeMismatch message field f.expectation found := by
  have hs := Schema.wellFormed_ofSource source
  have hwf := hs.message name d hd
  refine ⟨fun items fault => ?_, fun items slots => exists_written_of_readSlots hs hwf,
    fun raw fault hfault => ?_⟩
  · rw [decode_eq_decodeAs hd]
    exact readMessage_eq_error_iff_fault hs hwf
  · refine MessageError.OfReading.ne_of_write ?_
    rw [decode_eq_decodeAs hd] at hfault
    rcases decodeAs_eq_error_iff.mp hfault with ⟨items, rfl, hitems⟩ | ⟨-, rfl⟩
    · exact ((readMessage_eq_error_iff_fault hs hwf).mp hitems).ofReading hs
        (fun _ _ => Schema.oneWordTypes_ofSource) (Schema.oneWordTypes_ofSource hd)
    · exact ofReading_of_array _ _ _

/-- The text is missing and the reply is no array, but the marks come first. -/
theorem decode_eq_error_note :
    decode (Schema.ofSource Schema.noteSource) "Note" .plain (.array
        [.null, .bool true, .array [.int 1, .null, .string "two", .bool true], .int 7]) =
      .error (.typeMismatch "Note" "marks" "int32" "string") ∧
    decode (Schema.ofSource Schema.noteSource) "Note" .plain (.array [.null, .bool true]) =
      .error (.requiredMissing "Note" "text") := by
  have hiff := decode_eq_error_iff Schema.message?_noteSource .plain
  constructor
  · refine (hiff.1 _ _).mpr (.field (f := ⟨3, "marks", .int32, .repeated⟩) (by decide) rfl ?_ ?_)
    · have hsplit : [Json.int 1, .null, .string "two", .bool true] =
          [.int 1, .null] ++ .string "two" :: [.bool true] := rfl
      refine .element rfl hsplit ?_ rfl (.scalar (fun target h => by cases h) rfl)
      intro b hb hnull
      rcases List.mem_pair.mp hb with rfl | rfl
      · exact ⟨_, .scalar rfl⟩
      · cases hnull
    · intro g hg hlt x hx
      simp only [Schema.noteType, List.mem_cons, List.not_mem_nil, or_false] at hg
      rcases hg with rfl | rfl | rfl | rfl | rfl
      · cases hx
      all_goals exact absurd hlt (by decide)
  · refine (hiff.1 _ _).mpr (.required (f := ⟨1, "text", .string, .required⟩) ?_
      ⟨by decide, rfl, rfl, ?_⟩)
    · intro g hg x hx
      simp only [Schema.noteType, List.mem_cons, List.not_mem_nil, or_false] at hg
      rcases hg with rfl | rfl | rfl | rfl | rfl <;> cases hx
    · intro g hg hlt
      have hwf := (Schema.wellFormed_ofSource _).message _ _ Schema.message?_noteSource
      exact absurd (Nat.lt_one_iff.mp hlt) (hwf.id_bounds g hg).1.ne'

end Lite

end LiteChat
