import Mathlib.Data.List.Forall2
import LiteChat.Proofs.Schema.Layout
import LiteChat.Proofs.Schema.Statements
import LiteChat.Proofs.Sorting

/-!
# Every layout is accepted

Whatever way a list of proper declarations is laid out, the text is compiled without a fault
to their descriptors, in the order of the text (`compile_layout`): fields in the order of
their ids, enum values in that of their numbers with aliases as they stood, a word for a
scalar type as that type and any other as a reference.

The proof goes from the inside to the outside: the words of a statement, the statements of a
body, the blocks of a text (`SchemaText.blocks_eq`).
-/

namespace LiteChat

/-- What a word means as a type: the scalar type of that word, and a reference if there is
no such type. -/
def FieldType.Named (word : String) (t : FieldType) : Prop :=
  (t ∈ scalars ∧ t.token = word) ∨ (t = .reference word ∧ ∀ s ∈ scalars, s.token ≠ word)

theorem FieldType.named_ofToken (word : String) : FieldType.Named word (.ofToken word) := by
  unfold ofToken
  cases h : scalar? word with
  | none =>
    refine Or.inr ⟨rfl, fun s hs hword => ?_⟩
    exact absurd (List.find?_eq_none.mp h s hs) (by simpa using hword)
  | some t =>
    have hword := List.find?_some h
    exact Or.inl ⟨List.mem_of_find?_eq_some h, of_decide_eq_true hword⟩

namespace Schema

open Unicode

/-! ## What a declaration compiles to -/

/-- The block that a declaration is read as. -/
def Declaration.block : Declaration → Block
  | .message d => .message (.ofFields d.name (d.fields.map FieldDeclaration.field))
  | .enumeration d => .enumeration (.ofValues d.name d.values)

/-! ## Delimiters -/

/-- The signs in which statements and bodies end. -/
def IsDelimiter (c : Char) : Prop := c = ';' ∨ c = '\x7b' ∨ c = '\x7d'

namespace IsDelimiter

variable {c : Char}

theorem semicolon : IsDelimiter ';' := Or.inl rfl

theorem openBrace : IsDelimiter '\x7b' := Or.inr (Or.inl rfl)

theorem closeBrace : IsDelimiter '\x7d' := Or.inr (Or.inr rfl)

theorem isBlank_eq_false (h : IsDelimiter c) : isBlank c = false := by
  rcases h with rfl | rfl | rfl <;> decide

theorem ne_equals (h : IsDelimiter c) : c ≠ '=' := by
  rcases h with rfl | rfl | rfl <;> decide

theorem not_mem_token (h : IsDelimiter c) {word : List Char} (hword : IsToken word) :
    c ∉ word := by
  rcases h with rfl | rfl | rfl <;> exact hword.not_mem (by decide) (by decide) (by decide)

theorem not_mem_blank (h : IsDelimiter c) {g : List Char} (hg : AllBlank g) : c ∉ g :=
  hg.not_mem h.isBlank_eq_false

end IsDelimiter

/-! ## Statements -/

/-- The text of one statement: no semicolon is in it, and no white space around it. -/
structure IsStatement (text : List Char) : Prop where
  /-- No statement ends in it. -/
  unbroken : ';' ∉ text
  /-- No white space is around it. -/
  trimmed : IsTrimmed text

/-- The statements of a body are the texts of its elements, so what holds of those texts
holds of the statements. -/
theorem BodyText.forall₂_statements {α : Type} {R S : α → List Char → Prop} {as : List α}
    {body : List Char} (h : BodyText AllBlank R as body)
    (hR : ∀ a ∈ as, ∀ text, R a text → IsStatement text)
    (hS : ∀ a ∈ as, ∀ text, R a text → S a text) : List.Forall₂ S as (statements body) := by
  have hgap : ∀ {g : List Char}, AllBlank g → ';' ∉ g := fun hg => hg.not_mem (by decide)
  have hpadded : ∀ {g₁ text g₂ : List Char}, AllBlank g₁ → IsStatement text → AllBlank g₂ →
      ';' ∉ g₁ ++ text ++ g₂ := by
    intro g₁ text g₂ h₁ htext h₂
    simp [hgap h₁, hgap h₂, htext.unbroken]
  induction h with
  | done hg =>
    have htrim : trim _ = [] := trim_of_allBlank hg
    simp [statements, Text.splitOn_of_not_mem (hgap hg), htrim]
  | last h₁ htext h₂ =>
    have hs := hR _ (List.mem_cons_self ..) _ htext
    have hrow := trim_padded h₁ h₂ hs.trimmed
    rw [statements, Text.splitOn_of_not_mem (hpadded h₁ hs h₂), List.map_cons, hrow,
      List.filter_cons_of_pos (by simp [hs.trimmed.ne_nil])]
    exact .cons (hS _ (List.mem_cons_self ..) _ htext) .nil
  | next h₁ htext h₂ hrest ih =>
    have hs := hR _ (List.mem_cons_self ..) _ htext
    have hrow := trim_padded h₁ h₂ hs.trimmed
    have hmore := ih (fun a ha => hR a (List.mem_cons_of_mem _ ha))
      fun a ha => hS a (List.mem_cons_of_mem _ ha)
    rw [statements, Text.splitOn_append_cons (hpadded h₁ hs h₂), List.map_cons, hrow,
      List.filter_cons_of_pos (by simp [hs.trimmed.ne_nil])]
    exact .cons (hS _ (List.mem_cons_self ..) _ htext) hmore

/-- A brace that no statement has does not stand in the body. -/
theorem BodyText.not_mem {α : Type} {R : α → List Char → Prop} {as : List α} {body : List Char}
    (h : BodyText AllBlank R as body) {c : Char} (hc : IsDelimiter c) (hne : c ≠ ';')
    (hR : ∀ a ∈ as, ∀ text, R a text → c ∉ text) : c ∉ body := by
  induction h with
  | done hg => exact hc.not_mem_blank hg
  | last h₁ htext h₂ =>
    have htext' := hR _ (List.mem_cons_self ..) _ htext
    simp [hc.not_mem_blank h₁, hc.not_mem_blank h₂, htext']
  | next h₁ htext h₂ hrest ih =>
    have htext' := hR _ (List.mem_cons_self ..) _ htext
    have hmore := ih fun a ha => hR a (List.mem_cons_of_mem _ ha)
    simp [hc.not_mem_blank h₁, hc.not_mem_blank h₂, htext', hmore, hne]

/-- Statements whose texts hold no brace make a balanced body. -/
theorem BodyText.balanced {α : Type} {R : α → List Char → Prop} {as : List α} {body : List Char}
    (h : BodyText AllBlank R as body)
    (hR : ∀ a ∈ as, ∀ text, R a text → ∀ c, IsDelimiter c → c ∉ text) : Balanced body :=
  balanced_of_not_mem
    (h.not_mem .openBrace (by decide) fun a ha text htext => hR a ha text htext _ .openBrace)
    (h.not_mem .closeBrace (by decide) fun a ha text htext => hR a ha text htext _ .closeBrace)

/-! ## Fields -/

theorem OptionsText.not_mem {options : List Char} (h : OptionsText AllBlank options) {c : Char}
    (hc : IsDelimiter c) : c ∉ options := by
  cases h with
  | none => exact List.not_mem_nil
  | list hgap hinner _ =>
    have hbrackets : c ≠ '[' ∧ c ≠ ']' := by rcases hc with rfl | rfl | rfl <;> decide
    have hmem : c ∉ _ := fun hm => by
      obtain ⟨h1, h2, h3⟩ := hinner c hm
      rcases hc with hc | hc | hc
      · exact h1 hc
      · exact h2 hc
      · exact h3 hc
    simp [hc.not_mem_blank hgap, hbrackets, hmem]

theorem FieldText.not_mem {f : FieldDeclaration} (hf : f.Proper) {text : List Char}
    (h : FieldText AllBlank f text) {c : Char} (hc : IsDelimiter c) : c ∉ text := by
  obtain ⟨h₁, -, h₂, -, h₃, h₄, hnumber, hoptions⟩ := h
  simp only [List.mem_append, List.mem_cons, not_or]
  exact ⟨hc.not_mem_token (isToken_keyword f.label), hc.not_mem_blank h₁,
    hc.not_mem_token (isToken_of_isIdentifier hf.type), hc.not_mem_blank h₂,
    hc.not_mem_token (isToken_of_isIdentifier hf.name), hc.not_mem_blank h₃,
    ⟨hc.ne_equals, hc.not_mem_blank h₄⟩, hc.not_mem_token (isToken_of_spells hnumber),
    hoptions.not_mem hc⟩

theorem FieldText.isStatement {f : FieldDeclaration} (hf : f.Proper) {text : List Char}
    (h : FieldText AllBlank f text) : IsStatement text where
  unbroken := h.not_mem hf .semicolon
  trimmed := by
    obtain @⟨g₁, g₂, g₃, g₄, number, options, -, -, -, -, -, -, hnumber, hoptions⟩ := h
    have hlabel := (isToken_keyword f.label).isWord.isTrimmed
    -- the last character is one of the number, or the bracket that closes the options
    have hlast : ∃ middle last, IsTrimmed last ∧ number ++ options = middle ++ last := by
      cases hoptions with
      | none =>
        exact ⟨[], number, (isToken_of_spells hnumber).isWord.isTrimmed, List.append_nil _⟩
      | @list gap inner _ _ _ =>
        have hbracket : IsTrimmed [']'] :=
          ⟨⟨']', [], rfl, by decide⟩, ⟨[], ']', rfl, by decide⟩⟩
        exact ⟨number ++ (gap ++ '[' :: inner), [']'], hbracket, by simp⟩
    obtain ⟨middle, last, hlast, he⟩ := hlast
    have htext := hlabel.append hlast (g₁ ++ (f.type.toList ++ (g₂ ++ (f.name.toList ++
      (g₃ ++ ('=' :: g₄ ++ middle))))))
    rw [he]
    simpa using htext

/-- A field's text in the grammar is one of the texts that are read as the field. -/
theorem FieldText.looseField {f : FieldDeclaration} (hf : f.Proper) {text : List Char}
    (h : FieldText AllBlank f text) : LooseField f text := by
  have hopen := h.not_mem hf .openBrace
  have hclose := h.not_mem hf .closeBrace
  obtain @⟨g₁, g₂, g₃, g₄, number, options, h₁, hne₁, h₂, hne₂, h₃, h₄, hnumber, hoptions⟩ := h
  have hl := isToken_keyword f.label
  have ht := isToken_of_isIdentifier hf.type
  have hn := isToken_of_isIdentifier hf.name
  have hd := isToken_of_spells hnumber
  have hwords : ∀ {gap : List Char}, AllBlank gap →
      Spaced IsSpacing [f.label.keyword.toList, f.type.toList, f.name.toList, number]
        (f.label.keyword.toList ++ (g₁ ++ (f.type.toList ++ (g₂ ++ (f.name.toList ++
          ((g₃ ++ '=' :: g₄) ++ (number ++ gap))))))) := fun hgap =>
    .word_spaces hl.ne_nil hl.solid (isSpacing_of_allBlank h₁) hne₁ <|
      .word_spaces ht.ne_nil ht.solid (isSpacing_of_allBlank h₂) hne₂ <|
      .word_spaces hn.ne_nil hn.solid (isSpacing_equals h₃ h₄) (by simp) <|
      .last_word hd.ne_nil hd.solid (isSpacing_of_allBlank hgap)
  -- what is read goes on to the bracket, with the white space in front of it
  have hsplit : ∃ gap tail, AllBlank gap ∧ options = gap ++ tail ∧
      (tail = [] ∨ ∃ more, tail = '[' :: more) := by
    cases hoptions with
    | none => exact ⟨[], [], .nil, rfl, Or.inl rfl⟩
    | @list gap inner hgap _ _ =>
      exact ⟨gap, '[' :: inner ++ [']'], hgap, rfl, Or.inr ⟨inner ++ [']'], rfl⟩⟩
  obtain ⟨gap, tail, hgap, rfl, htail⟩ := hsplit
  have htext := LooseField.mk (hwords hgap) hnumber htail
    (fun hmem => hopen (by simp [hmem])) fun hmem => hclose (by simp [hmem])
  simpa only [List.append_assoc, List.cons_append] using htext

/-- A field's statement is read as the field. -/
theorem FieldText.readField_eq {f : FieldDeclaration} (hf : f.Proper) {text : List Char}
    (h : FieldText AllBlank f text) : readField text = .ok f.field :=
  readField_eq_ok_iff.mpr ⟨f, rfl, hf, h.looseField hf⟩

/-! ## Enum values -/

theorem ValueText.not_mem {v : Int × String} (hv : ProperValue v) {text : List Char}
    (h : ValueText AllBlank v text) {c : Char} (hc : IsDelimiter c) : c ∉ text := by
  obtain ⟨h₁, h₂, hnumber⟩ := h
  simp only [List.mem_append, List.mem_cons, not_or]
  exact ⟨hc.not_mem_token (isToken_of_isIdentifier hv.symbol), hc.not_mem_blank h₁,
    ⟨hc.ne_equals, hc.not_mem_blank h₂⟩, hc.not_mem_token (isToken_of_spells hnumber)⟩

theorem ValueText.isStatement {v : Int × String} (hv : ProperValue v) {text : List Char}
    (h : ValueText AllBlank v text) : IsStatement text where
  unbroken := h.not_mem hv .semicolon
  trimmed := by
    obtain @⟨g₁, g₂, number, -, -, hnumber⟩ := h
    have hsymbol := (isToken_of_isIdentifier hv.symbol).isWord.isTrimmed
    have hlast := (isToken_of_spells hnumber).isWord.isTrimmed
    have htext := hsymbol.append hlast (g₁ ++ '=' :: g₂)
    simpa using htext

/-- A value's text in the grammar is one of the texts that are read as the value. -/
theorem ValueText.looseValue {v : Int × String} (hv : ProperValue v) {text : List Char}
    (h : ValueText AllBlank v text) : LooseValue v text := by
  obtain @⟨g₁, g₂, number, h₁, h₂, hnumber⟩ := h
  have hs := isToken_of_isIdentifier hv.symbol
  have hd := isToken_of_spells hnumber
  have hwords : Spaced IsSpacing [v.2.toList, number]
      (v.2.toList ++ ((g₁ ++ '=' :: g₂) ++ (number ++ []))) :=
    .word_spaces hs.ne_nil hs.solid (isSpacing_equals h₁ h₂) (by simp) <|
      .last_word hd.ne_nil hd.solid (by simp)
  refine ⟨number, hnumber, ?_⟩
  simpa using hwords

/-- An enum value's statement is read as the value. -/
theorem ValueText.readValue_eq {v : Int × String} (hv : ProperValue v) {text : List Char}
    (h : ValueText AllBlank v text) : readValue text = .ok v :=
  readValue_eq_ok_iff.mpr ⟨hv, h.looseValue hv⟩

/-! ## Blocks -/

theorem blocks_allBlank_append {g : List Char} (hg : AllBlank g) (text : List Char) :
    blocks (g ++ text) = blocks text := by
  induction g with
  | nil => rfl
  | cons c g ih =>
    have hc := isIdentStart_eq_false (isIdentChar_eq_false_of_isBlank hg.head)
    rw [List.cons_append, blocks_cons_of_not_isIdentStart hc, ih hg.tail]

/-- A laid out block in front of other text is read as what its body declares. -/
theorem BlockText.blocks_append {k : Keyword} {name : List Char} {Body : List Char → Prop}
    {text : List Char} (h : BlockText AllBlank k name Body text)
    (hname : isIdentifier name = true)
    (hbody : ∀ body, Body body → Balanced body) :
    ∃ body, Body body ∧
      ∀ rest, blocks (text ++ rest) = readBlock k name body :: blocks rest := by
  obtain @⟨g₁, g₂, body, h₁, hne₁, h₂, htext⟩ := h
  refine ⟨body, htext, fun rest => ?_⟩
  have hheader : '\x7b' ∉ g₁ ++ name ++ g₂ := by
    have hmem := IsDelimiter.openBrace.not_mem_token (isToken_of_isIdentifier hname)
    simp [IsDelimiter.openBrace.not_mem_blank h₁, IsDelimiter.openBrace.not_mem_blank h₂, hmem]
  have hafter : EndsWord (g₁ ++ name ++ g₂ ++ '\x7b' :: (body ++ '\x7d' :: rest)) := by
    obtain ⟨c, g, rfl⟩ := List.exists_cons_of_ne_nil hne₁
    exact endsWord_cons (isIdentChar_eq_false_of_isBlank h₁.head) _
  have htrim : trim (g₁ ++ name ++ g₂) = name :=
    trim_padded h₁ h₂ (isWord_of_isIdentifier hname).isTrimmed
  have hscan : Scan (k.word ++ (g₁ ++ name ++ g₂ ++ '\x7b' :: (body ++ '\x7d' :: rest)))
      [readBlock k (trim (g₁ ++ name ++ g₂)) body] rest :=
    .block hafter (Text.cut?_append_cons hheader _) (by rw [htrim]; exact hname)
      (closing?_balanced (hbody body htext) rest)
  rw [htrim] at hscan
  simpa using hscan.blocks_eq

theorem readBlock_message {d : MessageDeclaration} (hd : d.Proper) {body : List Char}
    (h : BodyText AllBlank (FieldText AllBlank) d.fields body) :
    readBlock .message d.name.toList body = (Declaration.message d).block := by
  have hrows : List.Forall₂ (fun f row => readField row = .ok f.field) d.fields
      (statements body) :=
    h.forall₂_statements (fun f hf _ htext => htext.isStatement (hd.field f hf))
      fun f hf _ htext => htext.readField_eq (hd.field f hf)
  have hread : List.Forall₂ (fun f row => readField row = .ok f)
      (d.fields.map FieldDeclaration.field) (statements body) :=
    List.forall₂_map_left_iff.mpr hrows
  have hids : ((d.fields.map FieldDeclaration.field).map Field.id).Nodup := by
    rw [List.map_map]
    exact hd.ids_differ
  have hnames : ((d.fields.map FieldDeclaration.field).map Field.name).Nodup := by
    rw [List.map_map]
    exact hd.names_differ
  simp only [readBlock, readFields_nil_eq_ok_iff.mpr ⟨hread, hids, hnames⟩,
    String.ofList_toList]
  rfl

theorem readBlock_enumeration {d : EnumDeclaration} (hd : d.Proper) {body : List Char}
    (h : BodyText AllBlank (ValueText AllBlank) d.values body) :
    readBlock .enumeration d.name.toList body = (Declaration.enumeration d).block := by
  have hread : List.Forall₂ (fun v row => readValue row = .ok v) d.values (statements body) :=
    h.forall₂_statements (fun v hv _ htext => htext.isStatement (hd.value v hv))
      fun v hv _ htext => htext.readValue_eq (hd.value v hv)
  simp only [readBlock, readValues_nil_eq_ok_iff.mpr ⟨hread, hd.symbols_differ⟩,
    String.ofList_toList]
  rfl

/-- A laid out declaration in front of other text is read as its block. -/
theorem DeclarationText.blocks_append {d : Declaration} (hd : d.Proper) {text : List Char}
    (h : DeclarationText AllBlank d text) (rest : List Char) :
    blocks (text ++ rest) = d.block :: blocks rest := by
  cases d with
  | message d =>
    obtain ⟨body, hbody, hblocks⟩ := BlockText.blocks_append h hd.name fun body hbody =>
      hbody.balanced fun f hf text htext c hc => htext.not_mem (hd.field f hf) hc
    rw [hblocks, readBlock_message hd hbody]
  | enumeration d =>
    obtain ⟨body, hbody, hblocks⟩ := BlockText.blocks_append h hd.name fun body hbody =>
      hbody.balanced fun v hv text htext c hc => htext.not_mem (hd.value v hv) hc
    rw [hblocks, readBlock_enumeration hd hbody]

/-- A layout is read as the blocks of its declarations. -/
theorem SchemaText.blocks_eq {ds : List Declaration} (hds : ∀ d ∈ ds, d.Proper)
    {text : List Char} (h : SchemaText AllBlank ds text) :
    blocks text = ds.map Declaration.block := by
  induction h with
  | done h =>
    have hblank := blocks_allBlank_append h []
    rwa [List.append_nil, blocks_nil] at hblank
  | @next d ds gap text rest h htext hrest ih =>
    rw [blocks_allBlank_append h, htext.blocks_append (hds d (List.mem_cons_self ..)),
      ih fun d hd => hds d (List.mem_cons_of_mem _ hd)]
    rfl

/-! ## What is compiled -/

/-- The field is the one that is declared. -/
structure FieldDeclaration.Describes (f : FieldDeclaration) (field : Field) : Prop where
  /-- It has the declared id. -/
  id : field.id = f.id
  /-- It has the declared name. -/
  name : field.name = f.name
  /-- It has the declared label. -/
  label : field.label = f.label
  /-- Its type is what the declared word means. -/
  type : FieldType.Named f.type field.type

/-- The descriptor is that of the declared message: its fields are the declared ones, sorted
by their ids. -/
def MessageDeclaration.Describes (d : MessageDeclaration) (m : MessageDescriptor) : Prop :=
  m.name = d.name ∧
    ∃ fields, List.Forall₂ FieldDeclaration.Describes d.fields fields ∧
      Sorting.StablySorted Field.id fields m.fields

/-- The descriptor is that of the declared enum: its values are the declared ones, sorted
stably by their numbers. -/
def EnumDeclaration.Describes (d : EnumDeclaration) (e : EnumDescriptor) : Prop :=
  e.name = d.name ∧ Sorting.StablySorted Prod.fst d.values e.values

/-- The message that is declared. -/
def Declaration.message? : Declaration → Option MessageDeclaration
  | .message d => some d
  | .enumeration _ => none

/-- The enum that is declared. -/
def Declaration.enum? : Declaration → Option EnumDeclaration
  | .message _ => none
  | .enumeration d => some d

theorem FieldDeclaration.describes_field (f : FieldDeclaration) : f.Describes f.field :=
  ⟨rfl, rfl, rfl, FieldType.named_ofToken f.type⟩

theorem MessageDeclaration.describes_ofFields (d : MessageDeclaration) :
    d.Describes (.ofFields d.name (d.fields.map FieldDeclaration.field)) := by
  refine ⟨rfl, d.fields.map FieldDeclaration.field, ?_, Sorting.stablySorted_sortOn _ _⟩
  exact List.forall₂_map_right_iff.mpr (List.forall₂_same.mpr fun f _ => f.describes_field)

theorem EnumDeclaration.describes_ofValues (d : EnumDeclaration) :
    d.Describes (.ofValues d.name d.values) :=
  ⟨rfl, Sorting.stablySorted_sortOn _ _⟩

/-- The blocks of declarations hold no fault, and declare what they should. -/
theorem ofBlocks_map_block (ds : List Declaration) :
    (Compiled.ofBlocks (ds.map Declaration.block)).errors = [] ∧
      List.Forall₂ MessageDeclaration.Describes (ds.filterMap Declaration.message?)
        (Compiled.ofBlocks (ds.map Declaration.block)).messages ∧
      List.Forall₂ EnumDeclaration.Describes (ds.filterMap Declaration.enum?)
        (Compiled.ofBlocks (ds.map Declaration.block)).enums := by
  induction ds with
  | nil => exact ⟨rfl, .nil, .nil⟩
  | cons d ds ih =>
    obtain ⟨herrors, hmessages, henums⟩ := ih
    cases d with
    | message d => exact ⟨herrors, .cons d.describes_ofFields hmessages, henums⟩
    | enumeration d => exact ⟨herrors, hmessages, .cons d.describes_ofValues henums⟩

/-- A layout is read as the blocks of its declarations, comments or not. -/
theorem SchemaText.compile_eq {ds : List Declaration} (hds : ∀ d ∈ ds, d.Proper)
    {text : List Char} (h : SchemaText Gap ds text) :
    compile text = .ofBlocks (ds.map Declaration.block) := by
  obtain ⟨left, hstrips, hleft⟩ := SchemaText.strips hds text h
  rw [compile, hstrips.stripComments_eq, hleft.blocks_eq hds]

/-- Every layout of proper declarations compiles without a fault to the descriptors of the
declarations, messages and enums each in the order of the text. -/
theorem compile_layout {ds : List Declaration} (hds : ∀ d ∈ ds, d.Proper) {text : List Char}
    (h : SchemaText Gap ds text) :
    (compile text).errors = [] ∧
      List.Forall₂ MessageDeclaration.Describes (ds.filterMap Declaration.message?)
        (compile text).messages ∧
      List.Forall₂ EnumDeclaration.Describes (ds.filterMap Declaration.enum?)
        (compile text).enums := by
  rw [h.compile_eq hds]
  exact ofBlocks_map_block ds

/-- A message and an enum that are named like each other's keyword. -/
def crampedDeclarations : List Declaration :=
  [.message ⟨"enum", [⟨.optional, "Note", "message", 7⟩, ⟨.repeated, "int32", "x", 1⟩]⟩,
   .enumeration ⟨"message", [(-1, "B"), (-1, "A"), (-2, "C")]⟩]

theorem proper_crampedDeclarations : ∀ d ∈ crampedDeclarations, d.Proper := by
  have hfirst : FieldDeclaration.Proper ⟨.optional, "Note", "message", 7⟩ :=
    ⟨by decide, by decide, by decide, by decide⟩
  have hsecond : FieldDeclaration.Proper ⟨.repeated, "int32", "x", 1⟩ :=
    ⟨by decide, by decide, by decide, by decide⟩
  have hvalue : ∀ v ∈ [((-1 : Int), "B"), (-1, "A"), (-2, "C")], ProperValue v := by
    intro v hv
    simp only [List.mem_cons, List.not_mem_nil, or_false] at hv
    rcases hv with rfl | rfl | rfl <;> exact ⟨by decide, by decide, by decide⟩
  intro d hd
  simp only [crampedDeclarations, List.mem_cons, List.not_mem_nil, or_false] at hd
  rcases hd with rfl | rfl
  · refine ⟨by decide, fun f hf => ?_, by decide, by decide⟩
    simp only [List.mem_cons, List.not_mem_nil, or_false] at hf
    rcases hf with rfl | rfl
    · exact hfirst
    · exact hsecond
  · exact ⟨by decide, hvalue, by decide⟩

/-- The two laid out with little white space. -/
def crampedText : List Char :=
  ("message/**/enum\x7boptional Note message=+007[x];//\nrepeated int32 x = 1\x7d" ++
    "enum message \x7bB=-1;A=-1;C=-02;\x7d").toList

theorem schemaText_crampedText : SchemaText Gap crampedDeclarations crampedText := by
  have hnil : Gap [] := .nil
  have hblank : Gap [' '] := .blank (by decide) .nil
  have hstar : ¬ ['*', '/'] <:+: ([] : List Char) := by decide
  have hblock : Gap ('/' :: '*' :: [] ++ ['*', '/'] ++ []) := .comment (.block hstar) .nil
  have hline : Gap ('/' :: '/' :: [] ++ ['\n'] ++ []) := .comment (.line List.not_mem_nil) .nil
  have hne : ∀ {c : Char} {rest : List Char}, c :: rest ≠ [] := fun {c rest} =>
    List.cons_ne_nil c rest
  have hinner : ∀ c ∈ ['x'], c ≠ ';' ∧ c ≠ '\x7b' ∧ c ≠ '\x7d' := by
    intro c hc
    rw [List.mem_singleton.mp hc]
    decide
  have hoptions : OptionsText Gap ([] ++ ('[' :: ['x'] ++ [']'])) :=
    .list hnil hinner (uncommented_of_no_slash (by decide))
  have hfields : BodyText Gap (FieldText Gap)
      [⟨.optional, "Note", "message", 7⟩, ⟨.repeated, "int32", "x", 1⟩] _ :=
    .next hnil (.mk hblank hne hblank hne hnil hnil (.plus 2 7) hoptions) hnil
      (.last hline (.mk hblank hne hblank hne hblank hblank (.plain 0 1) .none) hnil)
  have hvalues : BodyText Gap (ValueText Gap) [(-1, "B"), (-1, "A"), (-2, "C")] _ :=
    .next hnil (.mk hnil hnil (.minus 0 1)) hnil <|
      .next hnil (.mk hnil hnil (.minus 0 1)) hnil <|
        .next hnil (.mk hnil hnil (.minus 1 2)) hnil (.done hnil)
  have hmessage : DeclarationText Gap
      (.message ⟨"enum", [⟨.optional, "Note", "message", 7⟩, ⟨.repeated, "int32", "x", 1⟩]⟩) _ :=
    BlockText.mk hblock hne hnil hfields
  have henum : DeclarationText Gap
      (.enumeration ⟨"message", [(-1, "B"), (-1, "A"), (-2, "C")]⟩) _ :=
    BlockText.mk hblank hne hblank hvalues
  have htext : SchemaText Gap crampedDeclarations _ :=
    .next hnil hmessage (.next hnil henum (.done hnil))
  refine (congrArg (SchemaText Gap crampedDeclarations) ?_).mp htext
  unfold crampedText
  rw [String.toList_append, String.toList_ofList, String.toList_ofList]
  decide +kernel

theorem compile_layout_crampedText :
    (∀ d ∈ crampedDeclarations, d.Proper) ∧ SchemaText Gap crampedDeclarations crampedText ∧
      (compile crampedText).errors = [] ∧
      List.Forall₂ MessageDeclaration.Describes (crampedDeclarations.filterMap Declaration.message?)
        (compile crampedText).messages ∧
      List.Forall₂ EnumDeclaration.Describes (crampedDeclarations.filterMap Declaration.enum?)
        (compile crampedText).enums :=
  ⟨proper_crampedDeclarations, schemaText_crampedText,
    compile_layout proper_crampedDeclarations schemaText_crampedText⟩

end Schema

end LiteChat
