import LiteChat.Proofs.Schema.Lookup

/-!
# The statements of a compiled block

A block compiles exactly if each of its statements is one of the loose texts of a proper field or
value, and ids and names are kept apart (`readBlock_eq_message_iff`,
`readBlock_eq_enumeration_iff`).  Any other statement makes the block malformed.

The grammar of declarations is narrower than the loose texts: one equals sign in its place, and
behind the id nothing but options that are closed and end the statement (`FieldStatement`,
`ValueText`).  The readers do not look at these signs.  What sets the statements of the grammar
apart among those that compile is how the signs stand in them (`TidyField`, `Marked`); the words
need no further look (`compile_statements`).
-/

namespace LiteChat.Schema

open Unicode

/-! ## The grammar -/

/-- The statements `label type name = id` of a field, with options in brackets or without. -/
inductive FieldStatement (f : FieldDeclaration) : List Char → Prop
  /-- Without options. -/
  | plain {declaration : List Char} (h : FieldText AllBlank f declaration)
      (hplain : '[' ∉ declaration) : FieldStatement f declaration
  /-- With options, which the first closing bracket closes and ends the statement with. -/
  | options {declaration gap inner : List Char} (h : FieldText AllBlank f declaration)
      (hplain : '[' ∉ declaration) (hgap : AllBlank gap) (hinner : ']' ∉ inner) :
    FieldStatement f (declaration ++ gap ++ ('[' :: inner ++ [']']))

/-- One equals sign, with so many words in front of it and one word behind it. -/
def Marked (n : Nat) (text : List Char) : Prop :=
  ∃ front back, text = front ++ '=' :: back ∧ '=' ∉ front ∧ '=' ∉ back ∧
    (words front).length = n ∧ (words back).length = 1

/-- The signs of a statement stand where the grammar of a field has them. -/
inductive TidyField : List Char → Prop
  /-- There is one equals sign, behind the third word, and no bracket. -/
  | plain {declaration : List Char} (h : Marked 3 declaration) (hplain : '[' ∉ declaration) :
    TidyField declaration
  /-- Behind that there are options, closed by a bracket that ends the statement. -/
  | options {declaration inner : List Char} (h : Marked 3 declaration)
      (hplain : '[' ∉ declaration) (hinner : ']' ∉ inner) :
    TidyField (declaration ++ ('[' :: inner ++ [']']))

/-! ## From the signs to the grammar -/

/-- The equals sign divides the words. -/
theorem Marked.exists_spaced {n : Nat} {text : List Char} {row : List (List Char)}
    (h : Marked n text) (hrow : Spaced IsSpacing row text) :
    ∃ front back, text = front ++ '=' :: back ∧
      Spaced (fun c => isBlank c = true) (row.take n) front ∧
      Spaced (fun c => isBlank c = true) (row.drop n) back := by
  obtain ⟨front, back, rfl, hfront, hback, hn, -⟩ := h
  have hwords : words front ++ words back = row := by
    rw [← statementWords_eq_iff.mpr hrow, statementWords, Text.replace_append,
      Text.replace_cons_self, Text.replace_of_not_mem hfront, Text.replace_of_not_mem hback,
      words_append_cons (by decide)]
  refine ⟨front, back, rfl, ?_, ?_⟩
  · rw [← hwords, List.take_left' hn]
    exact spaced_words front
  · rw [← hwords, List.drop_left' hn]
    exact spaced_words back

/-- A row of one word is that word between white space. -/
theorem exists_of_spaced_singleton {w text : List Char}
    (h : Spaced (fun c => isBlank c = true) [w] text) :
    ∃ g₁ g₂, text = g₁ ++ (w ++ g₂) ∧ AllBlank g₁ ∧ AllBlank g₂ := by
  obtain ⟨g₁, g₂, rfl, h₁, -, -, -, hrest⟩ := h.exists_first
  exact ⟨g₁, g₂, rfl, h₁, hrest.eq_spaces⟩

/-- A marked text of a field's words is the declaration of the field, up to white space around
it. -/
theorem Marked.exists_fieldText {f : FieldDeclaration} {number declaration : List Char}
    (h : Marked 3 declaration) (hnumber : Text.Spells f.id number)
    (hwords : Spaced IsSpacing
      [f.label.keyword.toList, f.type.toList, f.name.toList, number] declaration) :
    ∃ g text gap, declaration = g ++ (text ++ gap) ∧ AllBlank g ∧ AllBlank gap ∧
      FieldText AllBlank f text := by
  obtain ⟨front, back, rfl, hfront, hback⟩ := h.exists_spaced hwords
  obtain ⟨g₄, gap, rfl, h₄, hgap⟩ := exists_of_spaced_singleton hback
  obtain ⟨g, rest₁, rfl, hg, -, -, hends₁, hrest₁⟩ := hfront.exists_first
  obtain ⟨g₁, rest₂, rfl, h₁, hne₂, hsolid₂, hends₂, hrest₂⟩ := hrest₁.exists_first
  obtain ⟨g₂, g₃, rfl, h₂, hne₃, hsolid₃, -, hrest₃⟩ := hrest₂.exists_first
  have htext := FieldText.mk (G := AllBlank) (f := f) h₁ (Spaced.gap_ne_nil hne₂ hsolid₂ hends₁)
    h₂ (Spaced.gap_ne_nil hne₃ hsolid₃ hends₂) hrest₃.eq_spaces h₄ hnumber .none
  exact ⟨g, _, gap, by simp, hg, hgap, htext⟩

theorem Marked.exists_valueText {v : Int × String} {number text : List Char}
    (h : Marked 1 text) (hnumber : Text.Spells v.1 number)
    (hwords : Spaced IsSpacing [v.2.toList, number] text) :
    ∃ g value gap, text = g ++ (value ++ gap) ∧ AllBlank g ∧ AllBlank gap ∧
      ValueText AllBlank v value := by
  obtain ⟨front, back, rfl, hfront, hback⟩ := h.exists_spaced hwords
  obtain ⟨g, g₁, rfl, hg, h₁⟩ := exists_of_spaced_singleton hfront
  obtain ⟨g₂, gap, rfl, h₂, hgap⟩ := exists_of_spaced_singleton hback
  exact ⟨g, _, gap, by simp, hg, hgap, .mk h₁ h₂ hnumber⟩

/-! ## From the grammar to the signs -/

theorem IsToken.not_mem_equals {w : List Char} (h : IsToken w) : '=' ∉ w :=
  h.not_mem (by decide) (by decide) (by decide)

theorem not_mem_equals_of_allBlank {g : List Char} (hg : AllBlank g) : '=' ∉ g :=
  hg.not_mem (by decide)

/-- One word with white space around it. -/
theorem words_allBlank_isToken_allBlank {g w h : List Char} (hg : AllBlank g) (hw : IsToken w)
    (hh : AllBlank h) : words (g ++ (w ++ h)) = [w] := by
  rw [words_allBlank_append hg, words_append_allBlank hh, words_of_isWord hw.isWord]

/-- A declaration without options is marked, whatever white space follows it. -/
theorem FieldText.marked {f : FieldDeclaration} (hf : f.Proper) {text gap : List Char}
    (h : FieldText AllBlank f text) (hplain : '[' ∉ text) (hgap : AllBlank gap) :
    Marked 3 (text ++ gap) := by
  obtain @⟨g₁, g₂, g₃, g₄, number, options, h₁, hne₁, h₂, hne₂, h₃, h₄, hnumber, hoptions⟩ := h
  cases hoptions with
  | list => simp at hplain
  | none =>
    have hl := isToken_keyword f.label
    have ht := isToken_of_isIdentifier hf.type
    have hn := isToken_of_isIdentifier hf.name
    have hd := isToken_of_spells hnumber
    refine ⟨f.label.keyword.toList ++ (g₁ ++ (f.type.toList ++ (g₂ ++ (f.name.toList ++ g₃)))),
      g₄ ++ (number ++ gap), by simp, ?_, ?_, ?_, ?_⟩
    · simp [hl.not_mem_equals, ht.not_mem_equals, hn.not_mem_equals,
        not_mem_equals_of_allBlank h₁, not_mem_equals_of_allBlank h₂,
        not_mem_equals_of_allBlank h₃]
    · simp [hd.not_mem_equals, not_mem_equals_of_allBlank h₄, not_mem_equals_of_allBlank hgap]
    · rw [words_isWord_append hl.isWord h₁ hne₁, words_isWord_append ht.isWord h₂ hne₂,
        words_append_allBlank h₃, words_of_isWord hn.isWord]
      rfl
    · rw [words_allBlank_isToken_allBlank h₄ hd hgap]
      rfl

theorem ValueText.marked {v : Int × String} (hv : ProperValue v) {text : List Char}
    (h : ValueText AllBlank v text) : Marked 1 text := by
  obtain @⟨g₁, g₂, number, h₁, h₂, hnumber⟩ := h
  have hs := isToken_of_isIdentifier hv.symbol
  have hd := isToken_of_spells hnumber
  refine ⟨v.2.toList ++ g₁, g₂ ++ number, by simp, ?_, ?_, ?_, ?_⟩
  · simp [hs.not_mem_equals, not_mem_equals_of_allBlank h₁]
  · simp [hd.not_mem_equals, not_mem_equals_of_allBlank h₂]
  · rw [words_append_allBlank h₁, words_of_isWord hs.isWord]
    rfl
  · rw [words_allBlank_append h₂, words_of_isWord hd.isWord]
    rfl

/-! ## Statements of the grammar -/

/-- What is read as a field is a statement of the grammar exactly if its signs stand in their
places. -/
theorem LooseField.fieldStatement_iff {f : FieldDeclaration} (hf : f.Proper)
    {statement : List Char} (h : LooseField f statement) (htrimmed : IsTrimmed statement) :
    FieldStatement f statement ↔ TidyField statement := by
  constructor
  · intro hstatement
    cases hstatement with
    | plain htext hplain =>
      have hmarked := htext.marked hf hplain .nil
      rw [List.append_nil] at hmarked
      exact .plain hmarked hplain
    | options htext hplain hgap hinner =>
      refine .options (htext.marked hf hplain hgap) ?_ hinner
      rw [List.mem_append, not_or]
      exact ⟨hplain, hgap.not_mem (by decide)⟩
  · intro htidy
    obtain @⟨declaration, number, tail, hwords, hnumber, htail, -, -⟩ := h
    have hplain : '[' ∉ declaration :=
      not_mem_of_spaced hwords (hf.isToken hnumber) (by decide) (by decide) (by decide) (by decide)
    -- the bracket that the reader cuts at is the one that the options begin with
    have hcut : Text.upTo '[' (declaration ++ tail) = declaration := by
      rcases htail with rfl | ⟨more, rfl⟩
      · rw [List.append_nil, Text.upTo_of_not_mem hplain]
      · exact Text.upTo_append_cons hplain more
    generalize hstatement : declaration ++ tail = statement at htidy hcut htrimmed
    cases htidy with
    | plain hmarked hplain' =>
      rw [Text.upTo_of_not_mem hplain'] at hcut
      subst hcut
      obtain ⟨g, text, gap, rfl, hg, hgap, htext⟩ := hmarked.exists_fieldText hnumber hwords
      obtain rfl := htrimmed.front_eq_nil hg
      rw [List.nil_append] at htrimmed hplain' ⊢
      obtain rfl := htrimmed.back_eq_nil hgap
      rw [List.append_nil] at hplain' ⊢
      exact .plain htext hplain'
    | @options declaration' inner hmarked hplain' hinner =>
      rw [List.cons_append, Text.upTo_append_cons hplain'] at hcut
      subst hcut
      obtain ⟨g, text, gap, rfl, hg, hgap, htext⟩ := hmarked.exists_fieldText hnumber hwords
      rw [List.append_assoc g] at htrimmed
      obtain rfl := htrimmed.front_eq_nil hg
      rw [List.nil_append] at hplain' ⊢
      exact .options htext (fun hmem => hplain' (List.mem_append_left _ hmem)) hgap hinner

/-- What is read as an enum value is a text of the grammar exactly if its sign stands in its
place. -/
theorem LooseValue.valueText_iff {v : Int × String} (hv : ProperValue v) {statement : List Char}
    (h : LooseValue v statement) (htrimmed : IsTrimmed statement) :
    ValueText AllBlank v statement ↔ Marked 1 statement := by
  constructor
  · exact fun htext => htext.marked hv
  · intro hmarked
    obtain ⟨number, hnumber, hwords⟩ := h
    obtain ⟨g, text, gap, rfl, hg, hgap, htext⟩ := hmarked.exists_valueText hnumber hwords
    obtain rfl := htrimmed.front_eq_nil hg
    rw [List.nil_append] at htrimmed
    obtain rfl := htrimmed.back_eq_nil hgap
    rw [List.append_nil]
    exact htext

theorem isTrimmed_of_mem_statements {body statement : List Char}
    (h : statement ∈ statements body) : IsTrimmed statement := by
  obtain ⟨hmem, hne⟩ := List.mem_filter.mp h
  obtain ⟨part, -, rfl⟩ := List.mem_map.mp hmem
  exact isTrimmed_trim (of_decide_eq_true hne)

/-! ## Blocks -/

/-- A row of statements is read as the fields of proper declarations. -/
theorem forall₂_readField_iff {fields : List Field} {rows : List (List Char)} :
    List.Forall₂ (fun f row => readField row = .ok f) fields rows ↔
      ∃ declared : List FieldDeclaration, fields = declared.map FieldDeclaration.field ∧
        List.Forall₂ (fun f row => f.Proper ∧ LooseField f row) declared rows := by
  constructor
  · intro h
    induction h with
    | nil => exact ⟨[], rfl, .nil⟩
    | cons hrow _ ih =>
      obtain ⟨f, rfl, hf⟩ := readField_eq_ok_iff.mp hrow
      obtain ⟨declared, rfl, hdeclared⟩ := ih
      exact ⟨f :: declared, rfl, .cons hf hdeclared⟩
  · rintro ⟨declared, rfl, h⟩
    refine List.forall₂_map_left_iff.mpr (h.imp fun f row hf => ?_)
    exact readField_eq_ok_iff.mpr ⟨f, rfl, hf⟩

/-- The bodies that are read as a message with these fields. -/
theorem readBlock_eq_message_iff {name body : List Char} {d : MessageDescriptor} :
    readBlock .message name body = .message d ↔
      ∃ fields : List FieldDeclaration,
        d = .ofFields (String.ofList name) (fields.map FieldDeclaration.field) ∧
        List.Forall₂ (fun f row => f.Proper ∧ LooseField f row) fields (statements body) ∧
        (fields.map FieldDeclaration.id).Nodup ∧ (fields.map FieldDeclaration.name).Nodup := by
  have hids : ∀ fields : List FieldDeclaration, (fields.map FieldDeclaration.field).map Field.id =
      fields.map FieldDeclaration.id := fun fields => List.map_map
  have hnames : ∀ fields : List FieldDeclaration,
      (fields.map FieldDeclaration.field).map Field.name = fields.map FieldDeclaration.name :=
    fun fields => List.map_map
  constructor
  · intro h
    unfold readBlock at h
    cases hread : readFields [] (statements body) with
    | error fault =>
      simp only [hread] at h
      cases h
    | ok read =>
      simp only [hread] at h
      cases h
      obtain ⟨hrows, hreadIds, hreadNames⟩ := readFields_nil_eq_ok_iff.mp hread
      obtain ⟨fields, rfl, hfields⟩ := forall₂_readField_iff.mp hrows
      rw [hids] at hreadIds
      rw [hnames] at hreadNames
      exact ⟨fields, rfl, hfields, hreadIds, hreadNames⟩
  · rintro ⟨fields, rfl, hfields, hdIds, hdNames⟩
    have hread : readFields [] (statements body) = .ok (fields.map FieldDeclaration.field) :=
      readFields_nil_eq_ok_iff.mpr ⟨forall₂_readField_iff.mpr ⟨fields, rfl, hfields⟩,
        by rwa [hids], by rwa [hnames]⟩
    simp only [readBlock, hread]

/-- The bodies that are read as an enum with these values. -/
theorem readBlock_eq_enumeration_iff {name body : List Char} {e : EnumDescriptor} :
    readBlock .enumeration name body = .enumeration e ↔
      ∃ values, e = .ofValues (String.ofList name) values ∧
        List.Forall₂ (fun v row => ProperValue v ∧ LooseValue v row) values (statements body) ∧
        (values.map Prod.snd).Nodup := by
  simp only [← readValue_eq_ok_iff, readBlock]
  constructor
  · intro h
    cases hread : readValues [] (statements body) with
    | error fault =>
      simp only [hread] at h
      cases h
    | ok values =>
      simp only [hread] at h
      cases h
      exact ⟨values, rfl, readValues_nil_eq_ok_iff.mp hread⟩
  · rintro ⟨values, rfl, hvalues⟩
    simp only [readValues_nil_eq_ok_iff.mpr hvalues]

/-- What stands in a row that is related to another one is related to something in it. -/
theorem exists_of_mem_of_forall₂ {α β : Type} {R : α → β → Prop} {as : List α} {bs : List β}
    (h : List.Forall₂ R as bs) {b : β} (hb : b ∈ bs) : ∃ a, R a b := by
  induction h with
  | nil => cases hb
  | @cons a b' _ _ hab _ ih =>
    rcases List.mem_cons.mp hb with rfl | hb
    · exact ⟨a, hab⟩
    · exact ih hb

/-- A body with a statement that is not read makes a malformed block. -/
theorem exists_fault_of_not_looseField {name body statement : List Char}
    (hmem : statement ∈ statements body)
    (h : ∀ f : FieldDeclaration, f.Proper → ¬ LooseField f statement) :
    ∃ fault, readBlock .message name body = .malformed name fault := by
  cases hread : readFields [] (statements body) with
  | error fault => exact ⟨fault, by simp only [readBlock, hread]⟩
  | ok fields =>
    obtain ⟨declared, -, hrows⟩ :=
      forall₂_readField_iff.mp (readFields_nil_eq_ok_iff.mp hread).1
    obtain ⟨f, hf, hloose⟩ := exists_of_mem_of_forall₂ hrows hmem
    exact absurd hloose (h f hf)

theorem exists_fault_of_not_looseValue {name body statement : List Char}
    (hmem : statement ∈ statements body)
    (h : ∀ v, ProperValue v → ¬ LooseValue v statement) :
    ∃ fault, readBlock .enumeration name body = .malformed name fault := by
  cases hread : readValues [] (statements body) with
  | error fault => exact ⟨fault, by simp only [readBlock, hread]⟩
  | ok values =>
    obtain ⟨v, hrow⟩ := exists_of_mem_of_forall₂ (readValues_nil_eq_ok_iff.mp hread).1 hmem
    obtain ⟨hv, hloose⟩ := readValue_eq_ok_iff.mp hrow
    exact absurd hloose (h v hv)

/-- A malformed block of a text is reported. -/
theorem mem_errors_of_mem_blocks {source header : List Char} {fault : BlockFault}
    (h : .malformed header fault ∈ blocks (stripComments source)) :
    ⟨String.ofList header, fault⟩ ∈ (compile source).errors :=
  List.mem_filterMap.mpr ⟨_, h, rfl⟩

/-- What a compiled block reads as stands in the text. -/
theorem exists_blockIn_of_mem_blocks {text : List Char} {b : Block} (h : b ∈ blocks text)
    (hb : b.malformed? = none) :
    ∃ k name body behind, BlockIn k name body behind text ∧ isIdentifier name = true ∧
      readBlock k name body = b := by
  obtain ⟨front, back, hsplit⟩ := List.append_of_mem h
  obtain ⟨k, name, body, behind, hin, hname, hread, -⟩ := exists_blockIn hsplit hb
  exact ⟨k, name, body, behind, hin, hname, hread⟩

/-- The statements of a compiled message. -/
theorem exists_statements_of_mem_messages {source : List Char} {d : MessageDescriptor}
    (h : d ∈ (compile source).messages) :
    ∃ m body behind, BlockIn .message m.name.toList body behind (stripComments source) ∧
      m.Proper ∧ (Declaration.message m).block = .message d ∧
      List.Forall₂ (fun f st => LooseField f st ∧ (FieldStatement f st ↔ TidyField st))
        m.fields (statements body) := by
  obtain ⟨k, name, body, behind, hin, hname, hread⟩ :=
    exists_blockIn_of_mem_blocks (mem_blocks_of_mem_messages h) rfl
  obtain ⟨rfl, -⟩ := eq_of_message?_readBlock (congrArg Block.message? hread)
  obtain ⟨fields, rfl, hrows, hids, hnames⟩ := readBlock_eq_message_iff.mp hread
  have hproper := ((List.forall₂_and_left _ _).mp (hrows.imp fun f st h => ⟨h.1, h⟩)).1
  have htrimmed : List.Forall₂ (fun st f => IsTrimmed st ∧ f.Proper ∧ LooseField f st)
      (statements body) fields :=
    (List.forall₂_and_left _ _).mpr ⟨fun st hst => isTrimmed_of_mem_statements hst, hrows.flip⟩
  refine ⟨⟨String.ofList name, fields⟩, body, behind, ?_, ⟨?_, hproper, hids, hnames⟩, rfl, ?_⟩
  · rwa [String.toList_ofList]
  · rwa [String.toList_ofList]
  · exact htrimmed.flip.imp fun f st ⟨hst, hf, hloose⟩ =>
      ⟨hloose, hloose.fieldStatement_iff hf hst⟩

/-- The statements of a compiled enum. -/
theorem exists_statements_of_mem_enums {source : List Char} {e : EnumDescriptor}
    (h : e ∈ (compile source).enums) :
    ∃ m body behind, BlockIn .enumeration m.name.toList body behind (stripComments source) ∧
      m.Proper ∧ (Declaration.enumeration m).block = .enumeration e ∧
      List.Forall₂ (fun v st => LooseValue v st ∧ (ValueText AllBlank v st ↔ Marked 1 st))
        m.values (statements body) := by
  obtain ⟨k, name, body, behind, hin, hname, hread⟩ :=
    exists_blockIn_of_mem_blocks (mem_blocks_of_mem_enums h) rfl
  obtain ⟨rfl, -⟩ := eq_of_enum?_readBlock (congrArg Block.enum? hread)
  obtain ⟨values, rfl, hrows, hsymbols⟩ := readBlock_eq_enumeration_iff.mp hread
  have hproper := ((List.forall₂_and_left _ _).mp (hrows.imp fun v st h => ⟨h.1, h⟩)).1
  have htrimmed : List.Forall₂ (fun st v => IsTrimmed st ∧ ProperValue v ∧ LooseValue v st)
      (statements body) values :=
    (List.forall₂_and_left _ _).mpr ⟨fun st hst => isTrimmed_of_mem_statements hst, hrows.flip⟩
  refine ⟨⟨String.ofList name, values⟩, body, behind, ?_, ⟨?_, hproper, hsymbols⟩, rfl, ?_⟩
  · rwa [String.toList_ofList]
  · rwa [String.toList_ofList]
  · exact htrimmed.flip.imp fun v st ⟨hst, hv, hloose⟩ =>
      ⟨hloose, hloose.valueText_iff hv hst⟩

/-- **The statements of what compiles.**  Each statement of a compiled message is a loose text of
its field, and each statement of a compiled enum one of its value; it is a statement of the grammar
exactly if its signs stand in their places.  A statement that is no loose text makes its block
malformed, and the block is reported. -/
theorem compile_statements (source : List Char) :
    (∀ d ∈ (compile source).messages, ∃ m body behind,
      BlockIn .message m.name.toList body behind (stripComments source) ∧
      m.Proper ∧ (Declaration.message m).block = .message d ∧
      List.Forall₂ (fun f st => LooseField f st ∧ (FieldStatement f st ↔ TidyField st))
        m.fields (statements body)) ∧
    (∀ e ∈ (compile source).enums, ∃ m body behind,
      BlockIn .enumeration m.name.toList body behind (stripComments source) ∧
      m.Proper ∧ (Declaration.enumeration m).block = .enumeration e ∧
      List.Forall₂ (fun v st => LooseValue v st ∧ (ValueText AllBlank v st ↔ Marked 1 st))
        m.values (statements body)) ∧
    (∀ name body, (∃ st ∈ statements body, ∀ f : FieldDeclaration, f.Proper → ¬ LooseField f st) →
      ∃ fault, readBlock .message name body = .malformed name fault ∧
        (readBlock .message name body ∈ blocks (stripComments source) →
          ⟨String.ofList name, fault⟩ ∈ (compile source).errors)) ∧
    (∀ name body, (∃ st ∈ statements body, ∀ v, ProperValue v → ¬ LooseValue v st) →
      ∃ fault, readBlock .enumeration name body = .malformed name fault ∧
        (readBlock .enumeration name body ∈ blocks (stripComments source) →
          ⟨String.ofList name, fault⟩ ∈ (compile source).errors)) := by
  refine ⟨fun d hd => exists_statements_of_mem_messages hd,
    fun e he => exists_statements_of_mem_enums he, ?_, ?_⟩
  · rintro name body ⟨st, hst, hloose⟩
    obtain ⟨fault, hfault⟩ := exists_fault_of_not_looseField hst hloose
    exact ⟨fault, hfault, fun hmem => mem_errors_of_mem_blocks (hfault ▸ hmem)⟩
  · rintro name body ⟨st, hst, hloose⟩
    obtain ⟨fault, hfault⟩ := exists_fault_of_not_looseValue hst hloose
    exact ⟨fault, hfault, fun hmem => mem_errors_of_mem_blocks (hfault ▸ hmem)⟩

/-- A text whose only field has no equals sign. -/
def unmarkedSource : List Char := "message M { required string to 1; }".toList

/-- The statement of that text. -/
def unmarkedStatement : List Char := "required string to 1".toList

theorem compile_unmarkedSource :
    compile unmarkedSource = ⟨[], [⟨"M", [⟨1, "to", .string, .required⟩]⟩], []⟩ := by
  -- the kernel gets the characters and not the literal, which it would have to decode
  unfold unmarkedSource
  rw [String.toList_ofList]
  decide +kernel

theorem FieldText.equals_mem {f : FieldDeclaration} {text : List Char}
    (h : FieldText AllBlank f text) : '=' ∈ text := by
  cases h
  simp

theorem FieldStatement.equals_mem {f : FieldDeclaration} {statement : List Char}
    (h : FieldStatement f statement) : '=' ∈ statement := by
  cases h with
  | plain h => exact h.equals_mem
  | options h => simp [h.equals_mem]

/-- The text compiles without a fault, though its statement is not one of the grammar. -/
theorem unmarked_accepted :
    compile unmarkedSource = ⟨[], [⟨"M", [⟨1, "to", .string, .required⟩]⟩], []⟩ ∧
    BlockIn .message "M".toList " required string to 1; ".toList [] (stripComments unmarkedSource) ∧
    statements " required string to 1; ".toList = [unmarkedStatement] ∧
    ∀ f : FieldDeclaration, ¬ FieldStatement f unmarkedStatement := by
  refine ⟨compile_unmarkedSource, ?_, ?_, fun f h => ?_⟩
  · have hin := @BlockIn.mk .message "M".toList " required string to 1; ".toList [] []
      " M ".toList (by decide) (balanced_of_not_mem (by decide) (by decide))
    have htext : stripComments unmarkedSource = [] ++ (Keyword.message.word ++ (" M ".toList ++
        '\x7b' :: (" required string to 1; ".toList ++ '\x7d' :: []))) := by
      unfold unmarkedSource
      rw [String.toList_ofList, String.toList_ofList, String.toList_ofList]
      decide
    rw [htext]
    exact hin
  · unfold unmarkedStatement
    rw [String.toList_ofList, String.toList_ofList]
    decide
  · have hnone : '=' ∉ unmarkedStatement := by decide
    exact hnone h.equals_mem

/-- A text with options, an enum and a message that does not compile. -/
def tidySource : List Char :=
  ("message Ping \x7b required string to = 1; optional int32 n=2 [default = 3]; \x7d " ++
    "enum Mode \x7b OFF = 0; \x7d message Bare \x7b required string = 1; \x7d").toList

/-- The message of that text. -/
def tidyPing : MessageDescriptor :=
  ⟨"Ping", [⟨1, "to", .string, .required⟩, ⟨2, "n", .int32, .optional⟩]⟩

/-- The body of the message that does not compile. -/
def bareBody : List Char := " required string = 1; ".toList

theorem compile_tidySource : compile tidySource = ⟨[⟨"Mode", [(0, "OFF")]⟩], [tidyPing],
    [⟨"Bare", .notAField "required string = 1".toList⟩]⟩ := by
  unfold tidySource
  rw [String.toList_append, String.toList_ofList, String.toList_ofList]
  decide +kernel

theorem compile_statements_tidySource :
    (∃ m body, (Declaration.message m).block = .message tidyPing ∧
      List.Forall₂ (fun f st => LooseField f st ∧ (FieldStatement f st ↔ TidyField st))
        m.fields (statements body)) ∧
    (∃ m body, (Declaration.enumeration m).block = .enumeration ⟨"Mode", [(0, "OFF")]⟩ ∧
      List.Forall₂ (fun v st => LooseValue v st ∧ (ValueText AllBlank v st ↔ Marked 1 st))
        m.values (statements body)) ∧
    (∃ fault, readBlock .message "Bare".toList bareBody = .malformed "Bare".toList fault) := by
  obtain ⟨hmessages, henums, hmalformed, -⟩ := compile_statements tidySource
  have hping : tidyPing ∈ (compile tidySource).messages := by
    rw [compile_tidySource]
    exact List.mem_singleton_self _
  have hmode : ⟨"Mode", [(0, "OFF")]⟩ ∈ (compile tidySource).enums := by
    rw [compile_tidySource]
    exact List.mem_singleton_self _
  have hbare : ∃ st ∈ statements bareBody,
      ∀ f : FieldDeclaration, f.Proper → ¬ LooseField f st := by
    have hmem : "required string = 1".toList ∈ statements bareBody := by
      unfold bareBody
      rw [String.toList_ofList, String.toList_ofList]
      decide
    refine ⟨"required string = 1".toList, hmem, fun f hf hloose => ?_⟩
    have hread := readField_eq_ok_iff.mpr ⟨f, rfl, hf, hloose⟩
    have hfault : readField "required string = 1".toList =
        .error (.notAField "required string = 1".toList) := by
      rw [String.toList_ofList]
      decide
    rw [hfault] at hread
    cases hread
  obtain ⟨m, body, -, -, -, hblock, hrows⟩ := hmessages tidyPing hping
  obtain ⟨e, valueBody, -, -, -, henum, hvalues⟩ := henums _ hmode
  obtain ⟨fault, hfault, -⟩ := hmalformed "Bare".toList bareBody hbare
  exact ⟨⟨m, body, hblock, hrows⟩, ⟨e, valueBody, henum, hvalues⟩, ⟨fault, hfault⟩⟩

end LiteChat.Schema
