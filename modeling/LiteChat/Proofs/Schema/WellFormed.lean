import Mathlib.Order.Basic
import LiteChat.Sorting
import LiteChat.Proofs.Keyed
import LiteChat.Proofs.Schema.Scanning
import LiteChat.Proofs.Schema.Statements
import LiteChat.Schema.Registry

/-!
# What a compiled schema can be relied on for

Every message that a schema text declares has its fields in strictly increasing order of
their ids, which are positive numbers of 32 bits, and no two of its fields have one name
(`MessageDescriptor.WellFormed`).  A schema lists a message under its own name
(`Schema.WellFormed`).  Both hold of whatever a text is compiled to
(`Schema.wellFormed_ofSource`), so whoever reads or writes messages need not look at the
text again.  Of declarations that are given as data the first can be checked by evaluation, and
the second follows (`Schema.wellFormed_ofCompiled`).
-/

namespace LiteChat

/-! ## Sorting -/

namespace Sorting

variable {α κ : Type} [LinearOrder κ]

theorem pairwise_insertOn (key : α → κ) (a : α) {l : List α}
    (h : l.Pairwise fun b c => key b ≤ key c) :
    (insertOn key a l).Pairwise fun b c => key b ≤ key c := by
  induction l with
  | nil => exact List.pairwise_singleton _ _
  | cons b rest ih =>
    obtain ⟨hfirst, hrest⟩ := List.pairwise_cons.mp h
    unfold insertOn
    split
    · rename_i hlt
      refine List.pairwise_cons.mpr ⟨fun c hc => ?_, ih hrest⟩
      rcases List.mem_cons.mp ((perm_insertOn key a rest).mem_iff.mp hc) with rfl | hc
      · exact hlt.le
      · exact hfirst c hc
    · rename_i hge
      refine List.pairwise_cons.mpr ⟨fun c hc => ?_, h⟩
      rcases List.mem_cons.mp hc with rfl | hc
      · exact not_lt.mp hge
      · exact (not_lt.mp hge).trans (hfirst c hc)

theorem pairwise_sortOn (key : α → κ) (l : List α) :
    (sortOn key l).Pairwise fun b c => key b ≤ key c := by
  induction l with
  | nil => exact .nil
  | cons a rest ih => exact pairwise_insertOn key a ih

/-- Keys that are all different come in strictly increasing order. -/
theorem pairwise_lt_sortOn (key : α → κ) {l : List α} (h : (l.map key).Nodup) :
    (sortOn key l).Pairwise fun b c => key b < key c := by
  have hne : (sortOn key l).Pairwise fun b c => key b ≠ key c :=
    List.pairwise_map.mp (((perm_sortOn key l).map key).nodup_iff.mpr h)
  exact ((pairwise_sortOn key l).and hne).imp fun h => lt_of_le_of_ne h.1 h.2

end Sorting

/-! ## Descriptors -/

/-- What holds of every compiled message declaration. -/
structure MessageDescriptor.WellFormed (d : MessageDescriptor) : Prop where
  /-- The fields come in the order of their ids, each with an id of its own. -/
  ids_increase : d.fields.Pairwise fun f g => f.id < g.id
  /-- An id is a positive number of 32 bits. -/
  id_bounds : ∀ f ∈ d.fields, 0 < f.id ∧ f.id < Schema.fieldIdBound
  /-- Each field has a name of its own. -/
  names_differ : (d.fields.map Field.name).Nodup

namespace MessageDescriptor

instance (d : MessageDescriptor) : Decidable d.WellFormed :=
  decidable_of_iff
    (d.fields.Pairwise (fun f g => f.id < g.id) ∧
      (∀ f ∈ d.fields, 0 < f.id ∧ f.id < Schema.fieldIdBound) ∧ (d.fields.map Field.name).Nodup)
    ⟨fun ⟨hids, hbounds, hnames⟩ => ⟨hids, hbounds, hnames⟩,
      fun h => ⟨h.ids_increase, h.id_bounds, h.names_differ⟩⟩

variable {d : MessageDescriptor}

theorem mem_of_field?_eq_some {id : Nat} {f : Field} (h : d.field? id = some f) :
    f ∈ d.fields ∧ f.id = id :=
  ⟨List.mem_of_find?_eq_some h, by simpa using List.find?_some h⟩

theorem field?_eq_none_iff {id : Nat} : d.field? id = none ↔ ∀ f ∈ d.fields, f.id ≠ id := by
  simp [field?, List.find?_eq_none]

theorem WellFormed.nodup_ids (hd : d.WellFormed) : (d.fields.map Field.id).Nodup :=
  List.pairwise_map.mpr (hd.ids_increase.imp fun h => h.ne)

theorem WellFormed.eq_of_id_eq (hd : d.WellFormed) {f g : Field} (hf : f ∈ d.fields)
    (hg : g ∈ d.fields) (h : f.id = g.id) : f = g :=
  List.inj_on_of_nodup_map hd.nodup_ids hf hg h

/-- A field is found under its id, -/
theorem WellFormed.field?_eq_some_iff (hd : d.WellFormed) {id : Nat} {f : Field} :
    d.field? id = some f ↔ f ∈ d.fields ∧ f.id = id :=
  Keyed.find?_eq_some_iff hd.nodup_ids

theorem WellFormed.field?_id (hd : d.WellFormed) {f : Field} (hf : f ∈ d.fields) :
    d.field? f.id = some f :=
  hd.field?_eq_some_iff.mpr ⟨hf, rfl⟩

/-- and under its name. -/
theorem WellFormed.fieldNamed?_eq_some_iff (hd : d.WellFormed) {name : String} {f : Field} :
    d.fieldNamed? name = some f ↔ f ∈ d.fields ∧ f.name = name :=
  Keyed.find?_eq_some_iff hd.names_differ

end MessageDescriptor

/-! ## From the text to the descriptors -/

namespace Schema

theorem id_bounds_of_readField {statement : List Char} {f : Field}
    (h : readField statement = .ok f) : 0 < f.id ∧ f.id < fieldIdBound := by
  obtain ⟨f, rfl, hf, -⟩ := readField_eq_ok_iff.mp h
  exact ⟨hf.id_pos, hf.id_lt⟩

theorem wellFormed_ofFields {name : String} {fields : List Field} {rows : List (List Char)}
    (h : readFields [] rows = .ok fields) : (MessageDescriptor.ofFields name fields).WellFormed := by
  obtain ⟨hread, hids, hnames⟩ := readFields_nil_eq_ok_iff.mp h
  have hbounds : ∀ f ∈ fields, 0 < f.id ∧ f.id < fieldIdBound :=
    ((List.forall₂_and_left _ _).mp (hread.imp fun f row hrow => ⟨id_bounds_of_readField hrow, hrow⟩)).1
  have hperm : (Sorting.sortOn Field.id fields).Perm fields := Sorting.perm_sortOn Field.id fields
  exact
    { ids_increase := Sorting.pairwise_lt_sortOn Field.id hids
      id_bounds := fun f hf => hbounds f (hperm.mem_iff.mp hf)
      names_differ := (hperm.map Field.name).nodup_iff.mpr hnames }

theorem wellFormed_of_readBlock {keyword : Keyword} {name body : List Char}
    {d : MessageDescriptor} (h : Block.message d = readBlock keyword name body) :
    d.WellFormed := by
  unfold readBlock at h
  split at h
  · split at h
    · rename_i fields hfields
      cases h
      exact wellFormed_ofFields hfields
    · cases h
  · split at h <;> cases h

theorem wellFormed_of_mem_blocks {text : List Char} {d : MessageDescriptor}
    (h : Block.message d ∈ blocks text) : d.WellFormed := by
  obtain ⟨k, name, body, -, hread⟩ := exists_readBlock_of_mem_blocks h rfl
  exact wellFormed_of_readBlock hread.symm

/-- What holds of every compiled schema. -/
structure WellFormed (s : Schema) : Prop where
  /-- A message is listed under its own name. -/
  name_eq : ∀ name d, s.message? name = some d → d.name = name
  /-- Every declaration is well formed. -/
  message : ∀ name d, s.message? name = some d → d.WellFormed

theorem wellFormed_ofCompiled {c : Compiled} (h : ∀ d ∈ c.messages, d.WellFormed) :
    (ofCompiled c).WellFormed := by
  have key : ∀ name d, (ofCompiled c).message? name = some d →
      d.name = name ∧ d ∈ c.messages := by
    intro name d hd
    have hmem := Keyed.mem_of_mem_ofList (Keyed.mem_of_get?_eq_some hd)
    obtain ⟨d', hd', he⟩ := List.mem_map.mp hmem
    cases he
    exact ⟨rfl, hd'⟩
  exact
    { name_eq := fun name d hd => (key name d hd).1
      message := fun name d hd => h d (key name d hd).2 }

/-- A message is found under its name if no other has it. -/
theorem message?_ofCompiled {c : Compiled} {d : MessageDescriptor}
    (hnames : (c.messages.map MessageDescriptor.name).Nodup) (hd : d ∈ c.messages) :
    (ofCompiled c).message? d.name = some d := by
  refine Keyed.get?_ofList_of_mem ?_ (List.mem_map_of_mem hd)
  rwa [List.map_map]

/-- So is an enum. -/
theorem enum?_ofCompiled {c : Compiled} {e : EnumDescriptor}
    (hnames : (c.enums.map EnumDescriptor.name).Nodup) (he : e ∈ c.enums) :
    (ofCompiled c).enum? e.name = some e := by
  refine Keyed.get?_ofList_of_mem ?_ (List.mem_map_of_mem he)
  rwa [List.map_map]

theorem message?_ofCompiled_eq_none {c : Compiled} {name : String}
    (h : name ∉ c.messages.map MessageDescriptor.name) : (ofCompiled c).message? name = none := by
  by_contra hne
  obtain ⟨p, hp, rfl⟩ := Keyed.exists_mem_of_get?_ofList hne
  obtain ⟨d, hd, rfl⟩ := List.mem_map.mp hp
  exact h (List.mem_map_of_mem hd)

theorem Block.message?_eq_some_iff {b : Block} {d : MessageDescriptor} :
    b.message? = some d ↔ b = .message d := by
  cases b <;> simp [Block.message?]

theorem Block.enum?_eq_some_iff {b : Block} {e : EnumDescriptor} :
    b.enum? = some e ↔ b = .enumeration e := by
  cases b <;> simp [Block.enum?]

/-- A compiled message is one of the blocks of the text. -/
theorem mem_blocks_of_mem_messages {source : List Char} {d : MessageDescriptor}
    (h : d ∈ (compile source).messages) : .message d ∈ blocks (stripComments source) := by
  obtain ⟨b, hb, hbd⟩ := List.mem_filterMap.mp h
  rwa [Block.message?_eq_some_iff.mp hbd] at hb

/-- So is a compiled enum. -/
theorem mem_blocks_of_mem_enums {source : List Char} {e : EnumDescriptor}
    (h : e ∈ (compile source).enums) : .enumeration e ∈ blocks (stripComments source) := by
  obtain ⟨b, hb, hbe⟩ := List.mem_filterMap.mp h
  rwa [Block.enum?_eq_some_iff.mp hbe] at hb

theorem wellFormed_of_mem_compile {source : List Char} {d : MessageDescriptor}
    (h : d ∈ (compile source).messages) : d.WellFormed :=
  wellFormed_of_mem_blocks (mem_blocks_of_mem_messages h)

theorem wellFormed_ofSource (source : List Char) : (ofSource source).WellFormed :=
  wellFormed_ofCompiled fun _ hd => wellFormed_of_mem_compile hd

/-! ## A schema to try things on -/

/-- A schema with an enum and a message type that refers to itself. -/
def noteSource : List Char :=
  ("enum Mood \x7b CALM = 0; \x7d message Note \x7b required string text = 1; " ++
    "repeated int32 marks = 3; optional Note reply = 4; optional Mood mood = 5; " ++
    "optional float weight = 6; \x7d").toList

/-- The message type of that schema. -/
def noteType : MessageDescriptor where
  name := "Note"
  fields :=
    [⟨1, "text", .string, .required⟩, ⟨3, "marks", .int32, .repeated⟩,
     ⟨4, "reply", .reference "Note", .optional⟩, ⟨5, "mood", .reference "Mood", .optional⟩,
     ⟨6, "weight", .float, .optional⟩]

theorem compile_noteSource :
    compile noteSource = ⟨[⟨"Mood", [(0, "CALM")]⟩], [noteType], []⟩ := by
  -- decoding a literal takes the kernel longer than compiling its characters
  unfold noteSource
  rw [String.toList_append, String.toList_append, String.toList_ofList,
    String.toList_ofList, String.toList_ofList]
  decide +kernel

theorem noteType_mem_compile : noteType ∈ (compile noteSource).messages := by
  rw [compile_noteSource]
  exact List.mem_singleton_self _

theorem ofSource_noteSource :
    ofSource noteSource = ⟨[("Note", noteType)], [("Mood", ⟨"Mood", [(0, "CALM")]⟩)]⟩ := by
  rw [ofSource, compile_noteSource]
  rfl

theorem message?_noteSource : (ofSource noteSource).message? "Note" = some noteType := by
  rw [ofSource_noteSource]
  rfl

end Schema

end LiteChat
