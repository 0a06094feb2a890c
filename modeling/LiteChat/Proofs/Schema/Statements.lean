import Mathlib.Data.List.Forall2
import Mathlib.Data.List.Nodup
import LiteChat.Proofs.Schema.Layout

/-!
# When a statement is read

A statement is taken apart before it is read: what begins with a bracket is cut off, and an
equals sign counts as white space.  So what is read as a field is any text of its four words
with white space and equals signs around them, and anything behind a bracket (`LooseField`,
`readField_eq_ok_iff`); an enum value is read from any such text of its two words (`LooseValue`,
`readValue_eq_ok_iff`).  A row of statements is read one by one, as long as they keep ids and
names apart (`readFields_eq_ok_iff`, `readValues_eq_ok_iff`).  What else is known of fields and
values is read off these.
-/

namespace LiteChat.Schema

open Unicode

/-! ## The words of a statement -/

/-- The words of a statement that declares a field. -/
structure FieldWords (label type name number : List Char) (f : Field) : Prop where
  /-- The first word is the keyword of the label. -/
  label_eq : Label.ofKeyword? (String.ofList label) = some f.label
  /-- The second word is an identifier, -/
  isIdentifier_type : isIdentifier type = true
  /-- and so is the third. -/
  isIdentifier_name : isIdentifier name = true
  /-- The last word is a number of 32 bits, -/
  number_eq : Text.unsigned? fieldIdBound number = some f.id
  /-- and not zero. -/
  id_pos : 0 < f.id
  /-- The field has the name -/
  name_eq : f.name = String.ofList name
  /-- and the type of the words. -/
  type_eq : f.type = .ofToken (String.ofList type)

theorem readField_eq_ok_iff_words {statement : List Char} {f : Field} :
    readField statement = .ok f ↔
      ('\x7b' ∉ statement ∧ '\x7d' ∉ statement) ∧ ∃ label type name number,
        statementWords (Text.upTo '[' statement) = [label, type, name, number] ∧
        FieldWords label type name number f := by
  constructor
  · intro h
    -- all ways out of the reading but one are faults
    unfold readField at h
    split at h
    · cases h
    · rename_i hbraces
      dsimp only at h
      split at h
      · rename_i label type name number hwords
        split at h
        · cases h
        · rename_i l hlabel
          split at h
          · cases h
          · rename_i htype
            split at h
            · cases h
            · rename_i hname
              split at h
              · cases h
              · rename_i n hn
                obtain ⟨hn, hpos⟩ := Option.filter_eq_some_iff.mp hn
                cases h
                simp only [Bool.not_eq_true', Bool.not_eq_false] at htype hname
                exact ⟨not_or.mp hbraces, label, type, name, number, hwords,
                  ⟨hlabel, htype, hname, hn, of_decide_eq_true hpos, rfl, rfl⟩⟩
      · cases h
  · rintro ⟨hbraces, label, type, name, number, hwords, h⟩
    obtain ⟨id, fieldName, fieldType, l⟩ := f
    obtain ⟨hlabel, htype, hname, hnumber, hpos, rfl, rfl⟩ := h
    have hfilter : (some id).filter (decide <| 0 < ·) = some id := by
      simpa using hpos
    simp only [readField, if_neg (not_or.mpr hbraces), hwords, hlabel, htype, hname, hnumber,
      hfilter, Bool.not_true, Bool.false_eq_true, if_false]

theorem readValue_eq_ok_iff_words {statement : List Char} {v : Int × String} :
    readValue statement = .ok v ↔
      ∃ symbol number, statementWords statement = [symbol, number] ∧
        isIdentifier symbol = true ∧
        Text.signed? (-enumNumberBound) enumNumberBound number = some v.1 ∧
        v.2 = String.ofList symbol := by
  constructor
  · intro h
    unfold readValue at h
    split at h
    · rename_i symbol number hwords
      split at h
      · cases h
      · rename_i hsymbol
        split at h
        · cases h
        · rename_i n hn
          cases h
          simp only [Bool.not_eq_true', Bool.not_eq_false] at hsymbol
          exact ⟨symbol, number, hwords, hsymbol, hn, rfl⟩
    · cases h
  · obtain ⟨n, s⟩ := v
    rintro ⟨symbol, number, hwords, hsymbol, hnumber, rfl⟩
    simp only [readValue, hwords, hsymbol, hnumber, Bool.not_true, Bool.false_eq_true, if_false]

/-! ## Words between white space and equals signs -/

/-- What keeps the words of a statement apart. -/
def IsSpacing (c : Char) : Prop := isBlank c = true ∨ c = '='

instance (c : Char) : Decidable (IsSpacing c) := inferInstanceAs (Decidable (_ ∨ _))

theorem isBlank_replaced_iff (c : Char) :
    isBlank (if c = '=' then ' ' else c) = true ↔ IsSpacing c := by
  by_cases hc : c = '='
  · have hspace : isBlank ' ' = true := by decide
    simp [IsSpacing, hc, hspace]
  · simp [IsSpacing, hc]

theorem replace_equals_of_solid {w : List Char} (h : ∀ c ∈ w, ¬ IsSpacing c) :
    Text.replace '=' ' ' w = w :=
  Text.replace_of_not_mem (fun hmem => h '=' hmem (Or.inr rfl)) ' '

theorem spaced_of_replaced {row : List (List Char)} {text : List Char}
    (h : Spaced (fun c => isBlank c = true) row (Text.replace '=' ' ' text)) :
    Spaced IsSpacing row text := by
  generalize hreplaced : Text.replace '=' ' ' text = replaced at h
  induction h generalizing text with
  | nil =>
    rw [List.map_eq_nil_iff.mp hreplaced]
    exact .nil
  | space hc _ ih =>
    obtain ⟨d, rest, rfl, rfl, hrest⟩ := List.map_eq_cons_iff.mp hreplaced
    exact .space ((isBlank_replaced_iff d).mp hc) (ih hrest)
  | @word w _ rest hne hsolid hends _ ih =>
    obtain ⟨w', rest', rfl, hw, hrest⟩ := List.map_eq_append_iff.mp hreplaced
    have hsolid' : ∀ c ∈ w', ¬ IsSpacing c := fun c hc hspacing =>
      hsolid _ (hw ▸ List.mem_map_of_mem hc) ((isBlank_replaced_iff c).mpr hspacing)
    have hsame : w = w' := hw.symm.trans (replace_equals_of_solid hsolid')
    subst hsame
    refine .word hne hsolid' (fun c hc => (isBlank_replaced_iff c).mp (hends _ ?_)) (ih hrest)
    rw [← hrest, List.head?_map, hc]
    rfl

theorem replaced_of_spaced {row : List (List Char)} {text : List Char}
    (h : Spaced IsSpacing row text) :
    Spaced (fun c => isBlank c = true) row (Text.replace '=' ' ' text) := by
  induction h with
  | nil => exact .nil
  | @space c _ _ hc _ ih => exact .space ((isBlank_replaced_iff c).mpr hc) ih
  | @word w _ rest hne hsolid hends _ ih =>
    rw [Text.replace_append, replace_equals_of_solid hsolid]
    refine .word hne (fun c hc hblank => hsolid c hc (Or.inl hblank)) (fun c hc => ?_) ih
    rw [Text.replace, List.head?_map] at hc
    obtain ⟨d, hd, rfl⟩ := Option.map_eq_some_iff.mp hc
    exact (isBlank_replaced_iff d).mpr (hends d hd)

/-- The words of a statement are the row that it is a text of. -/
theorem statementWords_eq_iff {row : List (List Char)} {text : List Char} :
    statementWords text = row ↔ Spaced IsSpacing row text := by
  rw [statementWords, words_eq_iff]
  exact ⟨spaced_of_replaced, replaced_of_spaced⟩

/-! ## What is read as a field or a value -/

/-- The field that is declared. -/
def FieldDeclaration.field (f : FieldDeclaration) : Field :=
  ⟨f.id, f.name, .ofToken f.type, f.label⟩

/-- The texts that are read as a field. -/
inductive LooseField (f : FieldDeclaration) : List Char → Prop
  /-- The words with white space and equals signs around them, and anything but braces from a
  bracket on. -/
  | mk {declaration number tail : List Char}
      (hwords : Spaced IsSpacing
        [f.label.keyword.toList, f.type.toList, f.name.toList, number] declaration)
      (hnumber : Text.Spells f.id number) (htail : tail = [] ∨ ∃ more, tail = '[' :: more)
      (hopen : '\x7b' ∉ tail) (hclose : '\x7d' ∉ tail) :
    LooseField f (declaration ++ tail)

/-- The texts that are read as an enum value: the words with white space and equals signs around
them. -/
def LooseValue (v : Int × String) (text : List Char) : Prop :=
  ∃ number, Text.Spells v.1 number ∧ Spaced IsSpacing [v.2.toList, number] text

theorem isSpacing_of_allBlank {g : List Char} (hg : AllBlank g) : ∀ c ∈ g, IsSpacing c :=
  fun c hc => Or.inl (hg c hc)

/-- An equals sign keeps words apart, with or without white space around it. -/
theorem isSpacing_equals {g h : List Char} (hg : AllBlank g) (hh : AllBlank h) :
    ∀ c ∈ g ++ '=' :: h, IsSpacing c := by
  intro c hc
  rcases List.mem_append.mp hc with hc | hc
  · exact Or.inl (hg c hc)
  · rcases List.mem_cons.mp hc with hc | hc
    · exact Or.inr hc
    · exact Or.inl (hh c hc)

theorem IsToken.solid {w : List Char} (h : IsToken w) : ∀ c ∈ w, ¬ IsSpacing c := by
  rintro c hc (hblank | rfl)
  · rw [h.isWord.solid c hc] at hblank
    cases hblank
  · exact h.not_mem (by decide) (by decide) (by decide) hc

/-- A sign that is in no token and keeps none apart is in no text of tokens. -/
theorem not_mem_of_spaced {row : List (List Char)} {text : List Char}
    (h : Spaced IsSpacing row text) (hrow : ∀ w ∈ row, IsToken w) {c : Char}
    (hident : isIdentChar c = false) (hplus : c ≠ '+') (hminus : c ≠ '-')
    (hspacing : ¬ IsSpacing c) : c ∉ text := by
  induction h with
  | nil => exact List.not_mem_nil
  | space hd _ ih =>
    refine List.not_mem_cons_of_ne_of_not_mem ?_ (ih hrow)
    rintro rfl
    exact hspacing hd
  | word _ _ _ _ ih =>
    obtain ⟨hw, hrest⟩ := List.forall_mem_cons.mp hrow
    rw [List.mem_append, not_or]
    exact ⟨hw.not_mem hident hplus hminus, ih hrest⟩

theorem FieldDeclaration.Proper.isToken {f : FieldDeclaration} (hf : f.Proper)
    {number : List Char} (hnumber : Text.Spells f.id number) :
    ∀ w ∈ [f.label.keyword.toList, f.type.toList, f.name.toList, number], IsToken w := by
  simp only [List.forall_mem_cons, List.not_mem_nil, false_implies, implies_true, and_true]
  exact ⟨isToken_keyword f.label, isToken_of_isIdentifier hf.type,
    isToken_of_isIdentifier hf.name, isToken_of_spells hnumber⟩

/-- The words of a declaration are those of its field. -/
theorem FieldDeclaration.Proper.fieldWords {f : FieldDeclaration} (hf : f.Proper)
    {number : List Char} (hnumber : Text.Spells f.id number) :
    FieldWords f.label.keyword.toList f.type.toList f.name.toList number f.field where
  label_eq := by rw [String.ofList_toList, Label.ofKeyword?_keyword]; rfl
  isIdentifier_type := hf.type
  isIdentifier_name := hf.name
  number_eq := Text.unsigned?_of_spells hnumber hf.id_pos hf.id_lt
  id_pos := hf.id_pos
  name_eq := String.ofList_toList.symm
  type_eq := by rw [String.ofList_toList]; rfl

/-- A text is read as a field exactly if it is one of the texts of its declaration. -/
theorem readField_eq_ok_iff {statement : List Char} {field : Field} :
    readField statement = .ok field ↔
      ∃ f : FieldDeclaration, f.field = field ∧ f.Proper ∧ LooseField f statement := by
  rw [readField_eq_ok_iff_words]
  constructor
  · rintro ⟨⟨hopen, hclose⟩, label, type, name, number, hwords, h⟩
    obtain ⟨hspells, hlt⟩ := Text.spells_of_unsigned? h.number_eq
    obtain ⟨tail, he, htail⟩ := Text.exists_upTo_append (c := '[') statement
    have hlabel : field.label.keyword = String.ofList label := by
      simpa using List.find?_some h.label_eq
    have hlabel' : field.label.keyword.toList = label := by rw [hlabel, String.toList_ofList]
    refine ⟨⟨field.label, String.ofList type, field.name, field.id⟩, ?_, ?_, ?_⟩
    · rw [FieldDeclaration.field, ← h.type_eq]
    · refine ⟨?_, ?_, h.id_pos, hlt⟩
      · rw [String.toList_ofList]
        exact h.isIdentifier_type
      · rw [h.name_eq, String.toList_ofList]
        exact h.isIdentifier_name
    · rw [he] at hopen hclose ⊢
      refine .mk ?_ hspells htail (fun hmem => hopen (List.mem_append_right _ hmem))
        fun hmem => hclose (List.mem_append_right _ hmem)
      rw [String.toList_ofList, h.name_eq, String.toList_ofList, hlabel']
      exact statementWords_eq_iff.mp hwords
  · rintro ⟨f, rfl, hf, @⟨declaration, number, tail, hwords, hnumber, htail, hopen, hclose⟩⟩
    have hplain : ∀ {c : Char}, isIdentChar c = false → c ≠ '+' → c ≠ '-' → ¬ IsSpacing c →
        c ∉ declaration := not_mem_of_spaced hwords (hf.isToken hnumber)
    have hbracket : '[' ∉ declaration :=
      hplain (by decide) (by decide) (by decide) (by decide)
    have hcut : Text.upTo '[' (declaration ++ tail) = declaration := by
      rcases htail with rfl | ⟨more, rfl⟩
      · rw [List.append_nil, Text.upTo_of_not_mem hbracket]
      · exact Text.upTo_append_cons hbracket more
    refine ⟨?_, _, _, _, _, ?_, hf.fieldWords hnumber⟩
    · simp only [List.mem_append, not_or]
      exact ⟨⟨hplain (by decide) (by decide) (by decide) (by decide), hopen⟩,
        hplain (by decide) (by decide) (by decide) (by decide), hclose⟩
    · rw [hcut]
      exact statementWords_eq_iff.mpr hwords

/-- A text is read as an enum value exactly if it is one of the texts of the value. -/
theorem readValue_eq_ok_iff {statement : List Char} {v : Int × String} :
    readValue statement = .ok v ↔ ProperValue v ∧ LooseValue v statement := by
  constructor
  · intro h
    obtain ⟨symbol, number, hwords, hsymbol, hnumber, hname⟩ := readValue_eq_ok_iff_words.mp h
    obtain ⟨hspells, hle, hlt⟩ := Text.spells_of_signed? hnumber
    have hsymbol' : v.2.toList = symbol := by rw [hname, String.toList_ofList]
    refine ⟨⟨by rw [hsymbol']; exact hsymbol, hle, hlt⟩, number, hspells, ?_⟩
    rw [hsymbol']
    exact statementWords_eq_iff.mp hwords
  · rintro ⟨hv, number, hnumber, hwords⟩
    exact readValue_eq_ok_iff_words.mpr ⟨_, number, statementWords_eq_iff.mpr hwords, hv.symbol,
      Text.signed?_of_spells hnumber hv.le_number hv.number_lt, String.ofList_toList.symm⟩

/-! ## Rows of statements -/

/-- A key of its own is none of the keys in front of it. -/
theorem not_mem_of_nodup_map {α κ : Type} {key : α → κ} {seen rest : List α} {a : α}
    (h : ((seen ++ a :: rest).map key).Nodup) : key a ∉ seen.map key := by
  rw [List.map_append] at h
  exact fun hm => (List.nodup_append.mp h).2.2 _ hm _ (List.mem_cons_self ..) rfl

/-- A key that is none of those in front of it keeps the keys apart. -/
theorem nodup_map_snoc {α κ : Type} {key : α → κ} {seen : List α} {a : α}
    (h : (seen.map key).Nodup) (ha : key a ∉ seen.map key) : ((seen ++ [a]).map key).Nodup := by
  rw [List.map_append]
  exact List.nodup_append.mpr ⟨h, List.nodup_singleton _, fun k hk l hl hkl =>
    ha (List.mem_singleton.mp hl ▸ hkl ▸ hk)⟩

theorem readFields_eq_ok_iff {seen fields : List Field} {rows : List (List Char)}
    (hids : (seen.map Field.id).Nodup) (hnames : (seen.map Field.name).Nodup) :
    readFields seen rows = .ok fields ↔
      ∃ read, fields = seen ++ read ∧
        List.Forall₂ (fun f row => readField row = .ok f) read rows ∧
        (fields.map Field.id).Nodup ∧ (fields.map Field.name).Nodup := by
  induction rows generalizing seen with
  | nil =>
    rw [readFields]
    constructor
    · rintro ⟨⟩
      exact ⟨[], (List.append_nil _).symm, .nil, hids, hnames⟩
    · rintro ⟨read, rfl, hread, -, -⟩
      cases hread
      rw [List.append_nil]
  | cons row rest ih =>
    constructor
    · intro h
      unfold readFields at h
      split at h
      · cases h
      · rename_i f hf
        split at h
        · cases h
        · rename_i hid
          split at h
          · cases h
          · rename_i hname
            obtain ⟨read, rfl, hread, hkeep⟩ :=
              (ih (nodup_map_snoc hids hid) (nodup_map_snoc hnames hname)).mp h
            exact ⟨f :: read, (List.append_cons ..).symm, .cons hf hread, hkeep⟩
    · rintro ⟨read, rfl, hread, hallIds, hallNames⟩
      obtain _ | @⟨f, _, read, _, hf, hread⟩ := hread
      have hid := not_mem_of_nodup_map hallIds
      have hname := not_mem_of_nodup_map hallNames
      rw [readFields, hf]
      simp only [if_neg hid, if_neg hname]
      exact (ih (nodup_map_snoc hids hid) (nodup_map_snoc hnames hname)).mpr
        ⟨read, List.append_cons .., hread, hallIds, hallNames⟩

theorem readFields_nil_eq_ok_iff {fields : List Field} {rows : List (List Char)} :
    readFields [] rows = .ok fields ↔
      List.Forall₂ (fun f row => readField row = .ok f) fields rows ∧
        (fields.map Field.id).Nodup ∧ (fields.map Field.name).Nodup := by
  simp [@readFields_eq_ok_iff [] _ _ List.nodup_nil List.nodup_nil]

theorem readValues_eq_ok_iff {seen values : List (Int × String)} {rows : List (List Char)}
    (hsymbols : (seen.map Prod.snd).Nodup) :
    readValues seen rows = .ok values ↔
      ∃ read, values = seen ++ read ∧
        List.Forall₂ (fun v row => readValue row = .ok v) read rows ∧
        (values.map Prod.snd).Nodup := by
  induction rows generalizing seen with
  | nil =>
    rw [readValues]
    constructor
    · rintro ⟨⟩
      exact ⟨[], (List.append_nil _).symm, .nil, hsymbols⟩
    · rintro ⟨read, rfl, hread, -⟩
      cases hread
      rw [List.append_nil]
  | cons row rest ih =>
    constructor
    · intro h
      unfold readValues at h
      split at h
      · cases h
      · rename_i v hv
        split at h
        · cases h
        · rename_i hsymbol
          obtain ⟨read, rfl, hread, hkeep⟩ := (ih (nodup_map_snoc hsymbols hsymbol)).mp h
          exact ⟨v :: read, (List.append_cons ..).symm, .cons hv hread, hkeep⟩
    · rintro ⟨read, rfl, hread, hall⟩
      obtain _ | @⟨v, _, read, _, hv, hread⟩ := hread
      have hsymbol := not_mem_of_nodup_map hall
      rw [readValues, hv]
      simp only [if_neg hsymbol]
      exact (ih (nodup_map_snoc hsymbols hsymbol)).mpr ⟨read, List.append_cons .., hread, hall⟩

theorem readValues_nil_eq_ok_iff {values : List (Int × String)} {rows : List (List Char)} :
    readValues [] rows = .ok values ↔
      List.Forall₂ (fun v row => readValue row = .ok v) values rows ∧
        (values.map Prod.snd).Nodup := by
  simp [@readValues_eq_ok_iff [] _ _ List.nodup_nil]

end LiteChat.Schema
