import Mathlib.Algebra.Group.Nat.Defs
import LiteChat.Proofs.Lite.Position

/-!
# What an array holds

An array holds a message if its elements, place by place, are what the fields of the
message type ask for.  `HoldsMessage` says so without reading anything: by one rule for
each way an element can stand for a value, a list or a message.  Reading finds exactly
what an array holds (`readMessage_iff_holds`), and `decode_positionwise` spells
out what that means for one array: when it can be read, what each slot then is, which
elements are left over as unknown, and that nothing is lost or taken twice.
-/

namespace LiteChat

theorem Json.sizeOf_items_lt (items : List Json) : sizeOf items < sizeOf (Json.array items) := by
  rw [Json.array.sizeOf_spec]
  omega

theorem Json.sizeOf_lt_of_mem {items : List Json} {e : Json} (h : e ∈ items) :
    sizeOf e < sizeOf (Json.array items) :=
  (List.sizeOf_lt_of_mem h).trans (sizeOf_items_lt items)

namespace Lite

/-! ## The rules -/

mutual

/-- An element stands for a value of a type. -/
inductive HoldsValue (s : Schema) : FieldType → Json → Value → Prop where
  | scalar {t : FieldType} {e : Json} {v : Value} (h : scalar? t e = some v) :
    HoldsValue s t e v
  | enumeration {target : String} {enum : EnumDescriptor} {e : Json} {v : Value}
    (hr : s.resolve? target = some (.enumeration enum)) (h : enumNumber? e = some v) :
    HoldsValue s (.reference target) e v
  | message {target : String} {nested : MessageDescriptor} {items : List Json} {m : Message}
    (hr : s.resolve? target = some (.message nested))
    (h : HoldsMessage s nested Framing.plain.firstId items m) :
    HoldsValue s (.reference target) (.array items) (.message m)

/-- Elements stand for the values of a repeated field; null ones stand for nothing. -/
inductive HoldsValues (s : Schema) : FieldType → List Json → List Value → Prop where
  | nil {t : FieldType} : HoldsValues s t [] []
  | null {t : FieldType} {items : List Json} {vs : List Value} (h : HoldsValues s t items vs) :
    HoldsValues s t (.null :: items) vs
  | cons {t : FieldType} {e : Json} {items : List Json} {v : Value} {vs : List Value}
    (he : e.isNull = false) (hv : HoldsValue s t e v) (h : HoldsValues s t items vs) :
    HoldsValues s t (e :: items) (v :: vs)

/-- A non-null element stands for the slot of a field. -/
inductive HoldsSlot (s : Schema) : Field → Json → Slot Value → Prop where
  | single {f : Field} {e : Json} {v : Value} (hl : f.label ≠ .repeated)
    (h : HoldsValue s f.type e v) : HoldsSlot s f e (.single v)
  | repeated {f : Field} {items : List Json} {vs : List Value} (hl : f.label = .repeated)
    (h : HoldsValues s f.type items vs) : HoldsSlot s f (.array items) (.repeated vs)

/-- An array whose first element has the id `first` stands for a message of a type: an
absent element for a field that is not required and is left blank, any other element of
a field for its slot, and the elements of the undeclared ids for themselves. -/
inductive HoldsMessage (s : Schema) :
    MessageDescriptor → Nat → List Json → Message → Prop where
  | intro {d : MessageDescriptor} {first : Nat} {items : List Json} {m : Message}
    (name_eq : m.name = d.name) (fields_eq : m.entries.map Prod.fst = d.fields)
    (absent : ∀ f slot, (f, slot) ∈ m.entries → elementAt? first items f.id = none →
      f.label ≠ .required ∧ slot = .blank f.label)
    (present : ∀ f slot e, (f, slot) ∈ m.entries → elementAt? first items f.id = some e →
      HoldsSlot s f e slot)
    (unknown_sorted : Keyed.Sorted m.unknown)
    (unknown_iff : ∀ id e, (id, e) ∈ m.unknown ↔
      0 < id ∧ id < Schema.fieldIdBound ∧ d.field? id = none ∧
        elementAt? first items id = some e) :
    HoldsMessage s d first items m

end

/-! ## Reading finds what an array holds -/

section Reading
variable {s : Schema} {d : MessageDescriptor} {f : Field} {e : Json}

theorem sizeOf_of_elementAt? {first id : Nat} {items : List Json}
    (h : elementAt? first items id = some e) : sizeOf e < sizeOf items :=
  List.sizeOf_lt_of_mem (List.mem_of_getElem? (elementAt?_eq_some_iff.mp h).2.1)

theorem readValues_eq_ok_iff_holds {items : List Json} {vs : List Value}
    (h : ∀ e ∈ items, ∀ v, readValue s d f e = .ok v ↔ HoldsValue s f.type e v) :
    readValues s d f items = .ok vs ↔ HoldsValues s f.type items vs := by
  induction items generalizing vs with
  | nil =>
    rw [readValues]
    constructor
    · intro h
      cases h
      exact .nil
    · intro h
      cases h
      rfl
  | cons e rest ih =>
    have hrest : ∀ {us}, readValues s d f rest = .ok us ↔ HoldsValues s f.type rest us :=
      ih fun x hx => h x (List.mem_cons_of_mem _ hx)
    have hhead := h e (List.mem_cons_self ..)
    unfold readValues
    constructor
    · intro hread
      split at hread
      · rename_i hnull
        cases e <;> cases hnull
        exact .null (hrest.mp hread)
      · rename_i hnull
        split at hread
        · cases hread
        · rename_i v hv
          split at hread
          · cases hread
          · rename_i vs' hvs
            cases hread
            exact .cons (Bool.not_eq_true _ ▸ hnull) ((hhead v).mp hv) (hrest.mp hvs)
    · intro hholds
      cases hholds with
      | null hvs => exact hrest.mpr hvs
      | cons he hv hvs =>
        rw [if_neg (by simp [he]), (hhead _).mpr hv, hrest.mpr hvs]

theorem readSlot_eq_ok_iff_holds {slot : Slot Value}
    (h : ∀ x, sizeOf x ≤ sizeOf e → ∀ v, readValue s d f x = .ok v ↔ HoldsValue s f.type x v) :
    readSlot s d f e = .ok slot ↔ HoldsSlot s f e slot := by
  have hlist : ∀ items vs, e = .array items →
      (readValues s d f items = .ok vs ↔ HoldsValues s f.type items vs) := by
    rintro items vs rfl
    exact readValues_eq_ok_iff_holds fun x hx => h x (Json.sizeOf_lt_of_mem hx).le
  rw [readSlot_eq_ok_iff]
  constructor
  · rintro (⟨hl, items, vs, rfl, hvs, rfl⟩ | ⟨hl, v, hv, rfl⟩)
    · rw [← readValues_eq] at hvs
      exact .repeated hl ((hlist items vs rfl).mp hvs)
    · exact .single hl ((h e le_rfl v).mp hv)
  · intro hholds
    cases hholds with
    | single hl hv => exact Or.inr ⟨hl, _, (h e le_rfl _).mpr hv, rfl⟩
    | @repeated _ items vs hl hvs =>
      refine Or.inl ⟨hl, items, vs, rfl, ?_, rfl⟩
      rw [← readValues_eq]
      exact (hlist items vs rfl).mpr hvs

/-- The step of the induction: if smaller elements are read as what they hold, so is an
array. -/
theorem readMessage_eq_ok_iff_of (hs : s.WellFormed) (hd : d.WellFormed) {framing : Framing}
    {items : List Json} {m : Message}
    (ih : ∀ x, sizeOf x < sizeOf items → ∀ g v,
      readValue s d g x = .ok v ↔ HoldsValue s g.type x v) :
    readMessage s d framing items = .ok m ↔ HoldsMessage s d framing.firstId items m := by
  have hslot : ∀ g x slot, elementAt? framing.firstId items g.id = some x →
      (readSlot s d g x = .ok slot ↔ HoldsSlot s g x slot) := fun g x slot hx =>
    readSlot_eq_ok_iff_holds fun y hy v => ih y (hy.trans_lt (sizeOf_of_elementAt? hx)) g v
  rw [readMessage_eq_ok_iff hs hd]
  constructor
  · rintro ⟨hname, hfields, hread, hunknown, hrequired⟩
    refine .intro hname hfields ?_ ?_ ?_ ?_
    · intro g slot hg habsent
      have hblank := hread g slot hg
      rw [readField, habsent] at hblank
      cases hblank
      refine ⟨fun hl => ?_, rfl⟩
      have hset := Message.checkRequired_eq_ok_iff.mp hrequired g _ hg hl
      rw [hl] at hset
      cases hset
    · intro g slot x hg hx
      have hslotRead := hread g slot hg
      rw [readField, hx] at hslotRead
      exact (hslot g x slot hx).mp hslotRead
    · exact hunknown ▸ sorted_unknownFrom d framing.firstId items
    · intro id x
      rw [hunknown]
      exact mem_unknownFrom
  · rintro ⟨hname, hfields, habsent, hpresent, hsorted, hunknown⟩
    refine ⟨hname, hfields, ?_, ?_, ?_⟩
    · intro g slot hg
      rw [readField]
      cases hx : elementAt? framing.firstId items g.id with
      | none => rw [(habsent g slot hg hx).2]
      | some x => exact (hslot g x slot hx).mpr (hpresent g slot x hg hx)
    · refine Keyed.Sorted.ext hsorted (sorted_unknownFrom d framing.firstId items) ?_
      intro p
      exact (hunknown p.1 p.2).trans mem_unknownFrom.symm
    · refine Message.checkRequired_eq_ok_iff.mpr fun g slot hg hl => ?_
      cases hx : elementAt? framing.firstId items g.id with
      | none => exact absurd hl (habsent g slot hg hx).1
      | some x =>
        cases hpresent g slot x hg hx with
        | single => rfl
        | repeated => rfl

/-- An element is read as a value exactly if it stands for it. -/
theorem readValue_eq_ok_iff_holds (hs : s.WellFormed) {v : Value} :
    readValue s d f e = .ok v ↔ HoldsValue s f.type e v := by
  induction hn : sizeOf e using Nat.strong_induction_on generalizing d f e v with
  | _ n ih =>
    -- the elements of a nested message are smaller than its array
    have hnested : ∀ target nested items m, s.resolve? target = some (.message nested) →
        e = .array items → (readMessage s nested .plain items = .ok m ↔
          HoldsMessage s nested Framing.plain.firstId items m) := by
      rintro target nested items m hr rfl
      exact readMessage_eq_ok_iff_of hs (hs.message _ _ (name_of_resolve? hs hr).1)
        fun x hx g w => ih (sizeOf x) (hn ▸ hx.trans (Json.sizeOf_items_lt items)) rfl
    rw [readValue_eq_ok_iff]
    constructor
    · rintro (⟨target, enum, ht, hr, hv⟩ | ⟨target, nested, items, m, ht, hr, rfl, hm, rfl⟩ |
        ⟨-, hv⟩)
      · rw [ht]
        exact .enumeration hr hv
      · rw [ht]
        exact .message hr ((hnested target nested items m hr rfl).mp hm)
      · exact .scalar hv
    · generalize htype : f.type = t
      intro hholds
      cases hholds with
      | scalar hv =>
        refine Or.inr (Or.inr ⟨?_, hv⟩)
        rintro target rfl
        cases hv
      | enumeration hr hv => exact Or.inl ⟨_, _, rfl, hr, hv⟩
      | message hr hm =>
        have hread := (hnested _ _ _ _ hr rfl).mpr hm
        exact Or.inr (Or.inl ⟨_, _, _, _, rfl, hr, rfl, hread, rfl⟩)

theorem readSlot_iff_holds (hs : s.WellFormed) {slot : Slot Value} :
    readSlot s d f e = .ok slot ↔ HoldsSlot s f e slot :=
  readSlot_eq_ok_iff_holds fun _ _ _ => readValue_eq_ok_iff_holds hs

/-- **An array is read as a message exactly if it holds it.** -/
theorem readMessage_iff_holds (hs : s.WellFormed) (hd : d.WellFormed) {framing : Framing}
    {items : List Json} {m : Message} :
    readMessage s d framing items = .ok m ↔ HoldsMessage s d framing.firstId items m :=
  readMessage_eq_ok_iff_of hs hd fun _ _ _ _ => readValue_eq_ok_iff_holds hs

end Reading

/-! ## One array, position by position -/

/-- An array has what a field asks for: nothing, if the field is not required, or an
element that stands for its slot. -/
def Supplies (s : Schema) (first : Nat) (items : List Json) (f : Field) : Prop :=
  (elementAt? first items f.id = none ∧ f.label ≠ .required) ∨
    ∃ e slot, elementAt? first items f.id = some e ∧ HoldsSlot s f e slot

/-- A message holds the elements of an array, each at its place. -/
structure Positionwise (s : Schema) (d : MessageDescriptor) (framing : Framing)
    (items : List Json) (m : Message) : Prop where
  descriptor_eq : m.descriptor = d
  /-- The slot of an absent element is blank. -/
  slot_of_absent : ∀ f slot, (f, slot) ∈ m.entries →
    elementAt? framing.firstId items f.id = none → slot = .blank f.label
  /-- The slot of an element is the one slot that the element stands for. -/
  slot_of_element : ∀ f slot e, (f, slot) ∈ m.entries →
    elementAt? framing.firstId items f.id = some e → ∀ t, HoldsSlot s f e t ↔ t = slot
  unknown_sorted : Keyed.Sorted m.unknown
  /-- The unknown elements are those of the positive ids that are not declared. -/
  unknown_iff : ∀ id e, (id, e) ∈ m.unknown ↔
    0 < id ∧ d.field? id = none ∧ elementAt? framing.firstId items id = some e
  /-- Every element but a null one and the discriminator is in one place of the message. -/
  placed_once : ∀ i e, items[i]? = some e → e.isNull = false →
    ¬(framing = .discriminated ∧ i = 0) → m.ids.count (i + framing.firstId) = 1

section Positions
variable {s : Schema} {d : MessageDescriptor} {items : List Json}

theorem elementAt?_add_firstId {framing : Framing} {i : Nat} {e : Json}
    (hi : items[i]? = some e) (he : e.isNull = false) :
    elementAt? framing.firstId items (i + framing.firstId) = some e :=
  elementAt?_eq_some_iff.mpr ⟨Nat.le_add_left .., by rwa [Nat.add_sub_cancel], he⟩

/-- The ids of an array of less than 2³² elements are numbers of 32 bits. -/
theorem lt_fieldIdBound_of_elementAt? {framing : Framing} {id : Nat} {e : Json}
    (hlength : items.length < 2 ^ 32) (h : elementAt? framing.firstId items id = some e) :
    id < Schema.fieldIdBound := by
  obtain ⟨hfirst, hget, -⟩ := elementAt?_eq_some_iff.mp h
  have hindex := (List.getElem?_eq_some_iff.mp hget).1
  have hle : framing.firstId ≤ 1 := by cases framing <;> decide
  unfold Schema.fieldIdBound
  omega

/-- An array can be read exactly if it has what each field asks for. -/
theorem exists_readMessage_iff (hs : s.WellFormed) (hd : d.WellFormed) {framing : Framing} :
    (∃ m, readMessage s d framing items = .ok m) ↔
      ∀ f ∈ d.fields, Supplies s framing.firstId items f := by
  constructor
  · rintro ⟨m, hm⟩ f hf
    obtain ⟨slot, hslot⟩ := (conforms_of_readMessage hs hd hm).exists_slot hf
    obtain ⟨-, -, habsent, hpresent, -, -⟩ := (readMessage_iff_holds hs hd).mp hm
    cases he : elementAt? framing.firstId items f.id with
    | none => exact Or.inl ⟨he, (habsent f slot hslot he).1⟩
    | some e => exact Or.inr ⟨e, slot, he, hpresent f slot e hslot he⟩
  · intro h
    have hread : ∀ f ∈ d.fields, ∃ slot, readField s d framing.firstId items f = .ok slot ∧
        (f.label = .required → slot.isUnset = false) := by
      intro f hf
      rw [readField]
      rcases h f hf with ⟨he, hl⟩ | ⟨e, slot, he, hslot⟩
      · rw [he]
        exact ⟨_, rfl, fun hl' => absurd hl' hl⟩
      · rw [he]
        refine ⟨slot, (readSlot_iff_holds hs).mpr hslot, fun _ => ?_⟩
        cases hslot <;> rfl
    choose! slot hslot hset using hread
    -- the message with these slots is the one that is read
    refine ⟨⟨d.name, d.fields.map fun f => (f, slot f), unknownFrom d framing.firstId items⟩, ?_⟩
    have hentry : ∀ f t, (f, t) ∈ d.fields.map (fun f => (f, slot f)) →
        f ∈ d.fields ∧ t = slot f := by
      intro f t ht
      obtain ⟨g, hg, he⟩ := List.mem_map.mp ht
      cases he
      exact ⟨hg, rfl⟩
    refine (readMessage_eq_ok_iff hs hd).mpr ⟨rfl, ?_, ?_, rfl, ?_⟩
    · simp [Function.comp_def]
    · intro f t ht
      obtain ⟨hf, rfl⟩ := hentry f t ht
      exact hslot f hf
    · refine Message.checkRequired_eq_ok_iff.mpr fun f t ht => ?_
      obtain ⟨hf, rfl⟩ := hentry f t ht
      exact hset f hf

/-- What is read holds the elements at their places. -/
theorem positionwise_of_readMessage (hs : s.WellFormed) (hd : d.WellFormed) {framing : Framing}
    (hlength : items.length < 2 ^ 32) {m : Message}
    (h : readMessage s d framing items = .ok m) : Positionwise s d framing items m := by
  have hm := conforms_of_readMessage hs hd h
  obtain ⟨-, -, habsent, hpresent, hsorted, hunknown⟩ := (readMessage_iff_holds hs hd).mp h
  have hunknown' : ∀ id e, (id, e) ∈ m.unknown ↔
      0 < id ∧ d.field? id = none ∧ elementAt? framing.firstId items id = some e := by
    intro id e
    rw [hunknown]
    constructor
    · rintro ⟨hpos, -, hnone, he⟩
      exact ⟨hpos, hnone, he⟩
    · rintro ⟨hpos, hnone, he⟩
      exact ⟨hpos, lt_fieldIdBound_of_elementAt? hlength he, hnone, he⟩
  refine ⟨?_, fun f slot hf he => (habsent f slot hf he).2, ?_, hsorted, hunknown', ?_⟩
  · rw [Message.descriptor, hm.name_eq, hm.fields_eq]
  · intro f slot e hf he t
    have hslot := hpresent f slot e hf he
    constructor
    · intro ht
      have hread := (readSlot_iff_holds (d := d) hs).mpr ht
      rw [(readSlot_iff_holds hs).mpr hslot] at hread
      exact (Except.ok.inj hread).symm
    · rintro rfl
      exact hslot
  · intro i e hi he hnot
    have hat : elementAt? framing.firstId items (i + framing.firstId) = some e :=
      elementAt?_add_firstId hi he
    refine List.count_eq_one_of_mem (hm.nodup_ids hd) (List.mem_append.mpr ?_)
    cases hfield : d.field? (i + framing.firstId) with
    | some f =>
      obtain ⟨hf, hid⟩ := MessageDescriptor.mem_of_field?_eq_some hfield
      obtain ⟨slot, hslot⟩ := hm.exists_slot hf
      exact Or.inl (List.mem_map.mpr ⟨(f, slot), hslot, hid⟩)
    | none =>
      have hpos : 0 < i + framing.firstId := by
        cases framing with
        | plain => exact Nat.succ_pos i
        | discriminated => exact Nat.pos_of_ne_zero fun h => hnot ⟨rfl, h⟩
      exact Or.inr (List.mem_map.mpr ⟨_, (hunknown' _ e).mpr ⟨hpos, hfield, hat⟩, rfl⟩)

end Positions

/-- **Reading is position by position.**  An array can be read as a declared message
exactly if it has what each field asks for, and the message then holds its elements, each
at its place and none left out. -/
theorem decode_positionwise {source : List Char} {name : String} {d : MessageDescriptor}
    (hd : (Schema.ofSource source).message? name = some d) {items : List Json}
    (hlength : items.length < 2 ^ 32) (framing : Framing) :
    ((∃ m, decode (Schema.ofSource source) name framing (.array items) = .ok m) ↔
      ∀ f ∈ d.fields, Supplies (Schema.ofSource source) framing.firstId items f) ∧
    ∀ m, decode (Schema.ofSource source) name framing (.array items) = .ok m →
      Positionwise (Schema.ofSource source) d framing items m := by
  have hs := Schema.wellFormed_ofSource source
  have hwf := hs.message name d hd
  have hread : decode (Schema.ofSource source) name framing (.array items) =
      readMessage (Schema.ofSource source) d framing items := by
    simp only [decode, hd, decodeAs]
  rw [hread]
  exact ⟨exists_readMessage_iff hs hwf, fun m => positionwise_of_readMessage hs hwf hlength⟩

theorem decode_positionwise_note :
    ∃ m, decode (Schema.ofSource Schema.noteSource) "Note" .plain
        (.array [.string "hi", .bool true, .array [.int 1, .null, .int 2],
          .array [.string "yes"]]) = .ok m ∧
      Positionwise (Schema.ofSource Schema.noteSource) Schema.noteType .plain
        [.string "hi", .bool true, .array [.int 1, .null, .int 2], .array [.string "yes"]] m := by
  have hs := Schema.wellFormed_ofSource Schema.noteSource
  have hwf := hs.message _ _ Schema.message?_noteSource
  have hresolve : (Schema.ofSource Schema.noteSource).resolve? "Note" =
      some (.message Schema.noteType) := by
    rw [Schema.resolve?, Schema.message?_noteSource]
  -- the fields of the nested note first, then those of the note itself
  obtain ⟨reply, hreply⟩ : ∃ reply, readMessage (Schema.ofSource Schema.noteSource)
      Schema.noteType .plain [.string "yes"] = .ok reply := by
    refine (exists_readMessage_iff hs hwf).mpr fun f hf => ?_
    simp only [Schema.noteType, List.mem_cons, List.not_mem_nil, or_false] at hf
    rcases hf with rfl | rfl | rfl | rfl | rfl
    · exact Or.inr ⟨_, _, rfl, .single (by decide) (.scalar rfl)⟩
    all_goals exact Or.inl ⟨rfl, by decide⟩
  have hiff := decode_positionwise Schema.message?_noteSource
    (show [Json.string "hi", .bool true, .array [.int 1, .null, .int 2],
      .array [.string "yes"]].length < 2 ^ 32 by decide) .plain
  obtain ⟨m, hm⟩ := hiff.1.mpr (by
    intro f hf
    simp only [Schema.noteType, List.mem_cons, List.not_mem_nil, or_false] at hf
    rcases hf with rfl | rfl | rfl | rfl | rfl
    · exact Or.inr ⟨_, _, rfl, .single (by decide) (.scalar rfl)⟩
    · exact Or.inr ⟨_, _, rfl, .repeated rfl
        (.cons rfl (.scalar rfl) (.null (.cons rfl (.scalar rfl) .nil)))⟩
    · exact Or.inr ⟨_, _, rfl, .single (by decide)
        (.message hresolve ((readMessage_iff_holds hs hwf).mp hreply))⟩
    all_goals exact Or.inl ⟨rfl, by decide⟩)
  exact ⟨m, hm, hiff.2 m hm⟩

end Lite

end LiteChat
