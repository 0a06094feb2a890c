import Mathlib.Data.String.Basic
import LiteChat.Schema.Accessors
import LiteChat.Proofs.Schema.Acceptance

/-!
# The normal form of a schema

The text of a schema declares the schema again.  Whatever a source text is compiled to can be
written down: its names are identifiers, its ids and numbers lie in their ranges, and its
members are sorted already (`Schema.Readable`).  The text of a schema is one of the layouts
of these declarations (`Schema.schemaText_chars`), so it is accepted, and sorting what is
sorted changes nothing: compiling the text gives the same schema, and the same text
(`Schema.ofSource_text`).
-/

namespace LiteChat

open Unicode

/-! ## The declarations of descriptors -/

/-- The declaration of a field. -/
def Field.declaration (f : Field) : Schema.FieldDeclaration :=
  ⟨f.label, f.type.token, f.name, f.id⟩

/-- The declaration of a message. -/
def MessageDescriptor.declaration (d : MessageDescriptor) : Schema.MessageDeclaration :=
  ⟨d.name, d.fields.map Field.declaration⟩

/-- The declaration of an enum. -/
def EnumDescriptor.declaration (e : EnumDescriptor) : Schema.EnumDeclaration :=
  ⟨e.name, e.values⟩

/-- The declarations of a schema in the order of its text. -/
def Schema.declarations (s : Schema) : List Schema.Declaration :=
  s.enums.map (fun e => .enumeration e.2.declaration) ++
    s.messages.map fun m => .message m.2.declaration

/-- A field that its declaration is read as. -/
structure Field.Readable (f : Field) : Prop where
  /-- It can be declared. -/
  proper : f.declaration.Proper
  /-- The word for its type is read as the type. -/
  type : .ofToken f.type.token = f.type

/-- A message that its declaration is read as. -/
structure MessageDescriptor.Readable (d : MessageDescriptor) : Prop where
  /-- It can be declared. -/
  proper : d.declaration.Proper
  /-- So can each field. -/
  field : ∀ f ∈ d.fields, f.Readable
  /-- The fields come in the order of their ids. -/
  ids_increase : d.fields.Pairwise fun f g => f.id ≤ g.id

/-- An enum that its declaration is read as. -/
structure EnumDescriptor.Readable (e : EnumDescriptor) : Prop where
  /-- It can be declared. -/
  proper : e.declaration.Proper
  /-- The values come in the order of their numbers. -/
  numbers_increase : e.values.Pairwise fun v w => v.1 ≤ w.1

/-- A schema that its declarations are read as. -/
structure Schema.Readable (s : Schema) : Prop where
  /-- The messages come in the order of their names. -/
  messages_sorted : Keyed.Sorted s.messages
  /-- The enums come in the order of their names. -/
  enums_sorted : Keyed.Sorted s.enums
  /-- A message is listed under its own name, and can be read again. -/
  message : ∀ p ∈ s.messages, p.2.name = p.1 ∧ p.2.Readable
  /-- So is an enum. -/
  enum : ∀ p ∈ s.enums, p.2.name = p.1 ∧ p.2.Readable

/-! ## What is compiled can be declared -/

theorem FieldType.token_ofToken (word : String) : (FieldType.ofToken word).token = word := by
  rcases FieldType.named_ofToken word with ⟨-, hword⟩ | ⟨hreference, -⟩
  · exact hword
  · rw [hreference]
    rfl

namespace Schema

/-- The declaration of a declared field is the one that it was declared with. -/
theorem FieldDeclaration.declaration_field (f : FieldDeclaration) : f.field.declaration = f := by
  rw [Field.declaration, FieldDeclaration.field, FieldType.token_ofToken]

theorem readable_of_readField {statement : List Char} {f : Field}
    (h : readField statement = .ok f) : f.Readable := by
  obtain ⟨g, rfl, hg, -⟩ := readField_eq_ok_iff.mp h
  exact ⟨by rwa [g.declaration_field], congrArg FieldType.ofToken (FieldType.token_ofToken _)⟩

/-- A block that declares something that its declaration is read as. -/
def Block.Readable : Block → Prop
  | .message d => d.Readable
  | .enumeration e => e.Readable
  | .malformed _ _ => True

theorem readable_ofFields {name : List Char} (hname : isIdentifier name = true)
    {rows : List (List Char)} {fields : List Field} (h : readFields [] rows = .ok fields) :
    (MessageDescriptor.ofFields (String.ofList name) fields).Readable := by
  have hwell : (MessageDescriptor.ofFields (String.ofList name) fields).WellFormed :=
    wellFormed_ofFields h
  have hread : ∀ f ∈ fields, f.Readable :=
    ((List.forall₂_and_left _ _).mp ((readFields_nil_eq_ok_iff.mp h).1.imp fun f row hrow =>
      ⟨readable_of_readField hrow, hrow⟩)).1
  have hperm : (Sorting.sortOn Field.id fields).Perm fields := Sorting.perm_sortOn Field.id fields
  have hfield : ∀ f ∈ Sorting.sortOn Field.id fields, f.Readable := fun f hf =>
    hread f (hperm.mem_iff.mp hf)
  refine ⟨⟨?_, fun f hf => ?_, ?_, ?_⟩, hfield, Sorting.pairwise_sortOn Field.id fields⟩
  · simpa [MessageDescriptor.declaration, MessageDescriptor.ofFields] using hname
  · obtain ⟨g, hg, rfl⟩ := List.mem_map.mp hf
    exact (hfield g hg).proper
  · rw [MessageDescriptor.declaration, List.map_map]
    exact List.pairwise_map.mpr (hwell.ids_increase.imp fun h => h.ne)
  · rw [MessageDescriptor.declaration, List.map_map]
    exact hwell.names_differ

theorem readable_ofValues {name : List Char} (hname : isIdentifier name = true)
    {rows : List (List Char)} {values : List (Int × String)}
    (h : readValues [] rows = .ok values) :
    (EnumDescriptor.ofValues (String.ofList name) values).Readable := by
  obtain ⟨hread, hsymbols⟩ := readValues_nil_eq_ok_iff.mp h
  have hvalues : ∀ v ∈ values, ProperValue v :=
    ((List.forall₂_and_left _ _).mp (hread.imp fun v row hrow => ⟨(readValue_eq_ok_iff.mp hrow).1, hrow⟩)).1
  have hperm : (Sorting.sortOn Prod.fst values).Perm values := Sorting.perm_sortOn Prod.fst values
  refine ⟨⟨?_, fun v hv => hvalues v (hperm.mem_iff.mp hv), ?_⟩,
    Sorting.pairwise_sortOn Prod.fst values⟩
  · simpa [EnumDescriptor.declaration, EnumDescriptor.ofValues] using hname
  · exact (hperm.map Prod.snd).nodup_iff.mpr hsymbols

theorem readable_readBlock {keyword : Keyword} {name body : List Char}
    (hname : isIdentifier name = true) : (readBlock keyword name body).Readable := by
  unfold readBlock
  cases keyword with
  | message =>
    cases h : readFields [] (statements body) with
    | ok fields => exact readable_ofFields hname h
    | error fault => exact trivial
  | enumeration =>
    cases h : readValues [] (statements body) with
    | ok values => exact readable_ofValues hname h
    | error fault => exact trivial

theorem readable_of_mem_blocks {text : List Char} : ∀ b ∈ blocks text, b.Readable := by
  intro b hb
  cases hfault : b.malformed? with
  | some fault =>
    cases b <;> cases hfault
    exact trivial
  | none =>
    obtain ⟨k, name, body, hname, rfl⟩ := exists_readBlock_of_mem_blocks hb hfault
    exact readable_readBlock hname

theorem readable_ofSource (source : List Char) : (ofSource source).Readable where
  messages_sorted := Keyed.sorted_ofList _
  enums_sorted := Keyed.sorted_ofList _
  message p hp := by
    obtain ⟨d, hd, rfl⟩ := List.mem_map.mp (Keyed.mem_of_mem_ofList hp)
    exact ⟨rfl, readable_of_mem_blocks _ (mem_blocks_of_mem_messages hd)⟩
  enum p hp := by
    obtain ⟨e, he, rfl⟩ := List.mem_map.mp (Keyed.mem_of_mem_ofList hp)
    exact ⟨rfl, readable_of_mem_blocks _ (mem_blocks_of_mem_enums he)⟩

/-! ## The text is a layout -/

theorem Gap.of_allBlank {g : List Char} (h : AllBlank g) : Gap g := by
  induction g with
  | nil => exact .nil
  | cons c g ih => exact .blank h.head (ih h.tail)

theorem gap_space : Gap [' '] := .of_allBlank (.cons (by decide) .nil)

theorem allBlank_lineBreak : AllBlank ['\n'] := .cons (by decide) .nil

/-- A statement on each line. -/
theorem bodyText_lines {α β : Type} {R : β → List Char → Prop} {write : α → List Char}
    {f : α → β} (h : ∀ a, R (f a) (write a)) (as : List α) {gap : List Char}
    (hgap : AllBlank gap) :
    BodyText Gap R (as.map f)
      (gap ++ as.flatMap fun a => ' ' :: ' ' :: write a ++ [';', '\n']) := by
  -- the line break behind a semicolon belongs to the gap in front of the next statement
  induction as generalizing gap with
  | nil =>
    rw [List.flatMap_nil, List.append_nil]
    exact .done (.of_allBlank hgap)
  | cons a as ih =>
    have hindent : Gap (gap ++ [' ', ' ']) :=
      .of_allBlank (hgap.append (.cons (by decide) (.cons (by decide) .nil)))
    have hbody := BodyText.next hindent (h a) .nil (ih allBlank_lineBreak)
    simpa using hbody

/-- A field's declaration, without the semicolon. -/
def fieldLine (f : Field) : List Char :=
  f.label.keyword.toList ++ ' ' :: f.type.token.toList ++ ' ' :: f.name.toList ++
    " = ".toList ++ Text.ofNat f.id

/-- An enum value's declaration, without the semicolon. -/
def valueLine (v : Int × String) : List Char := v.2.toList ++ " = ".toList ++ Text.ofInt v.1

theorem fieldText_fieldLine (f : Field) : FieldText Gap f.declaration (fieldLine f) := by
  have hne : [' '] ≠ [] := List.cons_ne_nil _ _
  have hid : Text.Spells f.declaration.id (Text.ofNat f.id) := Text.spells_ofNat f.id
  have htext : FieldText Gap f.declaration _ :=
    .mk gap_space hne gap_space hne gap_space gap_space hid .none
  simpa [fieldLine, Field.declaration] using htext

theorem valueText_valueLine (v : Int × String) : ValueText Gap (id v) (valueLine v) := by
  have htext : ValueText Gap v _ := .mk gap_space gap_space (Text.spells_ofInt v.1)
  simpa [valueLine] using htext

/-- A block with its braces at the ends of lines. -/
theorem blockText_lines (k : Keyword) (name : List Char) {Body : List Char → Prop}
    {rows : List Char} (h : Body (['\n'] ++ rows)) :
    BlockText Gap k name Body
      (k.word ++ [' '] ++ name ++ [' ', '\x7b', '\n'] ++ rows ++ ['\x7d']) := by
  have hblock : BlockText Gap k name Body _ :=
    .mk gap_space (List.cons_ne_nil _ _) gap_space h
  simpa using hblock

theorem declarationText_message (d : MessageDescriptor) :
    DeclarationText Gap (.message d.declaration) d.chars := by
  have hword : "message ".toList = Keyword.message.word ++ [' '] := by decide
  have hrows : d.fields.flatMap (fun f => ' ' :: ' ' :: f.chars ++ ['\n']) =
      d.fields.flatMap fun f => ' ' :: ' ' :: fieldLine f ++ [';', '\n'] := by
    refine List.flatMap_congr fun f _ => ?_
    have hchars : f.chars = fieldLine f ++ [';'] := rfl
    rw [hchars, List.cons_append, List.cons_append, List.append_assoc]
    rfl
  unfold MessageDescriptor.chars
  rw [hword, hrows]
  exact blockText_lines .message d.name.toList
    (bodyText_lines fieldText_fieldLine d.fields allBlank_lineBreak)

theorem declarationText_enumeration (e : EnumDescriptor) :
    DeclarationText Gap (.enumeration e.declaration) e.chars := by
  have hword : "enum ".toList = Keyword.enumeration.word ++ [' '] := by decide
  have hrows : e.values.flatMap (fun v =>
        ' ' :: ' ' :: v.2.toList ++ " = ".toList ++ Text.ofInt v.1 ++ [';', '\n']) =
      e.values.flatMap fun v => ' ' :: ' ' :: valueLine v ++ [';', '\n'] := rfl
  have hlines := bodyText_lines valueText_valueLine e.values allBlank_lineBreak
  rw [List.map_id] at hlines
  unfold EnumDescriptor.chars
  rw [hword, hrows]
  exact blockText_lines .enumeration e.name.toList hlines

/-- Declarations with a blank line between any two. -/
theorem schemaText_intersperse {ds : List Declaration} {texts : List (List Char)}
    (h : List.Forall₂ (DeclarationText Gap) ds texts) {gap : List Char} (hgap : AllBlank gap) :
    SchemaText Gap ds (gap ++ ((texts.map (· ++ ['\n'])).intersperse ['\n']).flatten) := by
  -- so do the line break behind a declaration and the blank line after it
  induction h generalizing gap with
  | nil => exact .done (by simpa using Gap.of_allBlank hgap)
  | @cons d text ds texts hd hrest ih =>
    cases texts with
    | nil =>
      have hend : SchemaText Gap ds ['\n'] := by
        cases hrest
        exact .done (.of_allBlank allBlank_lineBreak)
      simpa using SchemaText.next (.of_allBlank hgap) hd hend
    | cons next texts =>
      have hmore := ih (allBlank_lineBreak.append allBlank_lineBreak)
      simpa using SchemaText.next (.of_allBlank hgap) hd hmore

/-- The text of a schema is a layout of its declarations. -/
theorem schemaText_chars (s : Schema) : SchemaText Gap s.declarations s.chars := by
  have hdeclarations : List.Forall₂ (DeclarationText Gap) s.declarations
      (s.enums.map (fun e => e.2.chars) ++ s.messages.map fun m => m.2.chars) := by
    refine List.rel_append ?_ ?_
    · rw [List.forall₂_map_left_iff, List.forall₂_map_right_iff]
      exact List.forall₂_same.mpr fun e _ => declarationText_enumeration e.2
    · rw [List.forall₂_map_left_iff, List.forall₂_map_right_iff]
      exact List.forall₂_same.mpr fun m _ => declarationText_message m.2
  exact schemaText_intersperse hdeclarations .nil

/-! ## Reading the text again -/

theorem block_message {d : MessageDescriptor} (hd : d.Readable) :
    (Declaration.message d.declaration).block = .message d := by
  have hfields : d.declaration.fields.map FieldDeclaration.field = d.fields := by
    rw [MessageDescriptor.declaration, List.map_map]
    refine (List.map_congr_left fun f hf => ?_).trans (List.map_id d.fields)
    show (⟨f.id, f.name, .ofToken f.type.token, f.label⟩ : Field) = f
    rw [(hd.field f hf).type]
  rw [Declaration.block, hfields, MessageDescriptor.ofFields,
    Sorting.sortOn_of_pairwise Field.id hd.ids_increase]
  rfl

theorem block_enumeration {e : EnumDescriptor} (he : e.Readable) :
    (Declaration.enumeration e.declaration).block = .enumeration e := by
  have hvalues : Sorting.sortOn Prod.fst e.declaration.values = e.values :=
    Sorting.sortOn_of_pairwise Prod.fst he.numbers_increase
  rw [Declaration.block, EnumDescriptor.ofValues, hvalues]
  rfl

namespace Readable

variable {s : Schema}

theorem proper (hs : s.Readable) : ∀ d ∈ s.declarations, d.Proper := by
  intro d hd
  rcases List.mem_append.mp hd with hd | hd
  · obtain ⟨p, hp, rfl⟩ := List.mem_map.mp hd
    exact (hs.enum p hp).2.proper
  · obtain ⟨p, hp, rfl⟩ := List.mem_map.mp hd
    exact (hs.message p hp).2.proper

theorem map_block (hs : s.Readable) :
    s.declarations.map Declaration.block =
      s.enums.map (fun p => .enumeration p.2) ++ s.messages.map fun p => .message p.2 := by
  rw [declarations, List.map_append, List.map_map, List.map_map]
  refine congrArg₂ (· ++ ·) ?_ ?_
  · exact List.map_congr_left fun p hp => block_enumeration (hs.enum p hp).2
  · exact List.map_congr_left fun p hp => block_message (hs.message p hp).2

/-- The text declares what the schema lists, and nothing in it is malformed. -/
theorem compile_chars (hs : s.Readable) :
    compile s.chars = ⟨s.enums.map Prod.snd, s.messages.map Prod.snd, []⟩ := by
  rw [s.schemaText_chars.compile_eq hs.proper, hs.map_block]
  simp [Compiled.ofBlocks, List.filterMap_append, List.filterMap_map, Function.comp_def,
    Block.enum?, Block.message?, Block.malformed?]

/-- Declarations that are listed by name are listed the same way again. -/
theorem ofList_map {α : Type} {name : α → String} {pairs : List (String × α)}
    (hsorted : Keyed.Sorted pairs) (hname : ∀ p ∈ pairs, name p.2 = p.1) :
    Keyed.ofList ((pairs.map Prod.snd).map fun a => (name a, a)) = pairs := by
  have hpairs : (pairs.map Prod.snd).map (fun a => (name a, a)) = pairs := by
    rw [List.map_map]
    refine (List.map_congr_left fun p hp => ?_).trans (List.map_id pairs)
    exact Prod.ext (hname p hp) rfl
  rw [hpairs, Keyed.ofList_of_sorted hsorted]

theorem ofSource_chars (hs : s.Readable) : ofSource s.chars = s := by
  rw [ofSource, hs.compile_chars, ofCompiled,
    ofList_map hs.messages_sorted fun p hp => (hs.message p hp).1,
    ofList_map hs.enums_sorted fun p hp => (hs.enum p hp).1]

end Readable

/-- The text of a compiled schema is accepted, declares the same messages, enums and
accessors again, and is its own normal form. -/
theorem ofSource_text (source : List Char) :
    (compile (ofSource source).text.toList).errors = [] ∧
      ofSource (ofSource source).text.toList = ofSource source ∧
      (∀ name, (ofSource (ofSource source).text.toList).accessors? name =
        (ofSource source).accessors? name) ∧
      (ofSource (ofSource source).text.toList).text = (ofSource source).text := by
  have hs := readable_ofSource source
  have hchars : (ofSource source).text.toList = (ofSource source).chars := String.toList_ofList
  have hsame := hs.ofSource_chars
  rw [hchars, hsame, hs.compile_chars]
  exact ⟨rfl, rfl, fun name => rfl, rfl⟩

end Schema

end LiteChat
