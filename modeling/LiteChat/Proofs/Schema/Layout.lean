import LiteChat.Proofs.Schema.Comments
import LiteChat.Proofs.Schema.Scanning
import LiteChat.Proofs.Text.Numeral

/-!
# The layouts of a schema

A list of declarations can be laid out as a schema text in many ways.  The tokens stand in
their order; between two of them stands a gap, of white space and closed comments, which may
be empty where a sign keeps the tokens apart and may not be between two words
(`SchemaText`).  The spelling of numbers and the options behind a field's id are free too.

The relation is stated for any kind of gap.  A text with comments in its gaps leaves, when
its comments are taken out, a text of the same declarations with white space in its gaps
(`SchemaText.strips`), so the reading of declarations can be told without comments.
-/

namespace LiteChat.Schema

open Unicode

/-! ## Declarations -/

/-- A field as it is declared. -/
structure FieldDeclaration where
  /-- The label. -/
  label : Label
  /-- The word for the type. -/
  type : String
  /-- The name. -/
  name : String
  /-- The id. -/
  id : Nat
  deriving DecidableEq, Repr

/-- A message as it is declared. -/
structure MessageDeclaration where
  /-- The name. -/
  name : String
  /-- The fields in the order of the text. -/
  fields : List FieldDeclaration
  deriving DecidableEq, Repr

/-- An enum as it is declared. -/
structure EnumDeclaration where
  /-- The name. -/
  name : String
  /-- The numbers and symbols in the order of the text. -/
  values : List (Int × String)
  deriving DecidableEq, Repr

/-- A declaration of a schema text. -/
inductive Declaration where
  /-- A message. -/
  | message (declaration : MessageDeclaration)
  /-- An enum. -/
  | enumeration (declaration : EnumDeclaration)
  deriving DecidableEq, Repr

/-- What makes a field declaration proper by itself. -/
structure FieldDeclaration.Proper (f : FieldDeclaration) : Prop where
  /-- The type is an identifier. -/
  type : isIdentifier f.type.toList = true
  /-- The name is an identifier. -/
  name : isIdentifier f.name.toList = true
  /-- The id is positive. -/
  id_pos : 0 < f.id
  /-- The id has 32 bits. -/
  id_lt : f.id < 4294967296

/-- What makes a message declaration proper. -/
structure MessageDeclaration.Proper (d : MessageDeclaration) : Prop where
  /-- The name is an identifier. -/
  name : isIdentifier d.name.toList = true
  /-- Each field is proper. -/
  field : ∀ f ∈ d.fields, f.Proper
  /-- No two fields have one id. -/
  ids_differ : (d.fields.map FieldDeclaration.id).Nodup
  /-- No two fields have one name. -/
  names_differ : (d.fields.map FieldDeclaration.name).Nodup

/-- What makes an enum value proper by itself. -/
structure ProperValue (v : Int × String) : Prop where
  /-- The symbol is an identifier. -/
  symbol : isIdentifier v.2.toList = true
  /-- The number is not below the signed numbers of 32 bits. -/
  le_number : -2147483648 ≤ v.1
  /-- Nor is it above them. -/
  number_lt : v.1 < 2147483648

/-- What makes an enum declaration proper. -/
structure EnumDeclaration.Proper (d : EnumDeclaration) : Prop where
  /-- The name is an identifier. -/
  name : isIdentifier d.name.toList = true
  /-- Each value is proper. -/
  value : ∀ v ∈ d.values, ProperValue v
  /-- No two values have one symbol. -/
  symbols_differ : (d.values.map Prod.snd).Nodup

/-- What makes a declaration proper. -/
def Declaration.Proper : Declaration → Prop
  | .message d => d.Proper
  | .enumeration d => d.Proper

/-! ## Texts -/

/-- White space and closed comments. -/
inductive Gap : List Char → Prop
  /-- No gap at all. -/
  | nil : Gap []
  /-- A white-space character. -/
  | blank {c : Char} {rest : List Char} (hc : isBlank c = true) (hrest : Gap rest) :
    Gap (c :: rest)
  /-- A comment. -/
  | comment {text left rest : List Char} (h : ClosedComment text left) (hrest : Gap rest) :
    Gap (text ++ rest)

section
variable (G : List Char → Prop)

/-- What may stand behind the id of a field: nothing, or options in brackets. -/
inductive OptionsText : List Char → Prop
  /-- Nothing. -/
  | none : OptionsText []
  /-- Options, in which no statement or body ends and no comment opens. -/
  | list {gap inner : List Char} (hgap : G gap)
      (hinner : ∀ c ∈ inner, c ≠ ';' ∧ c ≠ '\x7b' ∧ c ≠ '\x7d') (hcomments : Uncommented inner) :
    OptionsText (gap ++ ('[' :: inner ++ [']']))

/-- The texts `label type name = id` of a field. -/
inductive FieldText (f : FieldDeclaration) : List Char → Prop
  /-- The words with gaps, which may be empty around the equals sign only. -/
  | mk {g₁ g₂ g₃ g₄ number options : List Char} (h₁ : G g₁) (hne₁ : g₁ ≠ []) (h₂ : G g₂)
      (hne₂ : g₂ ≠ []) (h₃ : G g₃) (h₄ : G g₄) (hnumber : Text.Spells f.id number)
      (hoptions : OptionsText G options) :
    FieldText f (f.label.keyword.toList ++ (g₁ ++ (f.type.toList ++ (g₂ ++
      (f.name.toList ++ (g₃ ++ ('=' :: g₄ ++ (number ++ options))))))))

/-- The texts `SYMBOL = number` of an enum value. -/
inductive ValueText (v : Int × String) : List Char → Prop
  /-- The words with gaps, which may be empty. -/
  | mk {g₁ g₂ number : List Char} (h₁ : G g₁) (h₂ : G g₂) (hnumber : Text.Spells v.1 number) :
    ValueText v (v.2.toList ++ (g₁ ++ ('=' :: g₂ ++ number)))

/-- The texts of a row of statements, one for each element of a list.  Semicolons separate
them; the last statement may have one as well. -/
inductive BodyText {α : Type} (R : α → List Char → Prop) : List α → List Char → Prop
  /-- No statement. -/
  | done {gap : List Char} (h : G gap) : BodyText R [] gap
  /-- A last statement without a semicolon. -/
  | last {a : α} {g₁ text g₂ : List Char} (h₁ : G g₁) (htext : R a text) (h₂ : G g₂) :
    BodyText R [a] (g₁ ++ text ++ g₂)
  /-- A statement with a semicolon. -/
  | next {a : α} {as : List α} {g₁ text g₂ rest : List Char} (h₁ : G g₁) (htext : R a text)
      (h₂ : G g₂) (hrest : BodyText R as rest) :
    BodyText R (a :: as) (g₁ ++ text ++ g₂ ++ ';' :: rest)

/-- The texts of a block with a keyword, a name and a body. -/
inductive BlockText (k : Keyword) (name : List Char) (Body : List Char → Prop) :
    List Char → Prop
  /-- The keyword and the name are words; the braces need no gap. -/
  | mk {g₁ g₂ body : List Char} (h₁ : G g₁) (hne₁ : g₁ ≠ []) (h₂ : G g₂) (hbody : Body body) :
    BlockText k name Body (k.word ++ (g₁ ++ (name ++ (g₂ ++ ('\x7b' :: body ++ ['\x7d'])))))

/-- The texts of a declaration. -/
def DeclarationText : Declaration → List Char → Prop
  | .message d => BlockText G .message d.name.toList (BodyText G (FieldText G) d.fields)
  | .enumeration d => BlockText G .enumeration d.name.toList (BodyText G (ValueText G) d.values)

/-- The texts of a list of declarations. -/
inductive SchemaText : List Declaration → List Char → Prop
  /-- No declaration. -/
  | done {gap : List Char} (h : G gap) : SchemaText [] gap
  /-- A declaration in front of others. -/
  | next {d : Declaration} {ds : List Declaration} {gap text rest : List Char} (h : G gap)
      (htext : DeclarationText G d text) (hrest : SchemaText ds rest) :
    SchemaText (d :: ds) (gap ++ (text ++ rest))

end

/-! ## Tokens -/

/-- The words and numbers of a schema text. -/
structure IsToken (word : List Char) : Prop where
  /-- There is something in it. -/
  ne_nil : word ≠ []
  /-- It has identifier characters and signs only. -/
  chars : ∀ c ∈ word, isIdentChar c = true ∨ c = '+' ∨ c = '-'

theorem isToken_of_isIdentifier {word : List Char} (h : isIdentifier word = true) :
    IsToken word where
  ne_nil := ne_nil_of_isIdentifier h
  chars _ hc := Or.inl (isIdentChar_of_mem_identifier h hc)

theorem isToken_keyword (l : Label) : IsToken l.keyword.toList :=
  isToken_of_isIdentifier (by cases l <;> decide)

theorem isToken_of_spells {n : Int} {number : List Char} (h : Text.Spells n number) :
    IsToken number where
  ne_nil := h.ne_nil
  chars c hc := by
    rcases h.digit_or_sign hc with hdigit | hsign
    · left
      simp [isIdentChar, Char.isAlphanum, hdigit]
    · exact Or.inr hsign

namespace IsToken

variable {word : List Char}

theorem not_mem (h : IsToken word) {d : Char} (hident : isIdentChar d = false) (hplus : d ≠ '+')
    (hminus : d ≠ '-') : d ∉ word := by
  intro hd
  rcases h.chars d hd with hc | hc | hc
  · rw [hident] at hc
    cases hc
  · exact hplus hc
  · exact hminus hc

theorem isWord (h : IsToken word) : IsWord word where
  ne_nil := h.ne_nil
  solid c hc := by
    rcases h.chars c hc with hident | rfl | rfl
    · exact isBlank_eq_false_of_isIdentChar hident
    · decide
    · decide

theorem strips (h : IsToken word) : Strips word word :=
  .of_no_slash (h.not_mem (by decide) (by decide) (by decide))

end IsToken

/-! ## Taking the comments out -/

theorem isBlank_ne_slash {c : Char} (h : isBlank c = true) : c ≠ '/' := by
  rintro rfl
  revert h
  decide

/-- A gap leaves white space, and at least some if there was something in it. -/
theorem Gap.strips {gap : List Char} (h : Gap gap) :
    ∃ left, Strips gap left ∧ AllBlank left ∧ (gap ≠ [] → left ≠ []) := by
  induction h with
  | nil => exact ⟨[], fun rest => rfl, .nil, fun h => h⟩
  | @blank c rest hc _ ih =>
    obtain ⟨left, hstrips, hblank, -⟩ := ih
    exact ⟨c :: left, hstrips.cons (isBlank_ne_slash hc), .cons hc hblank,
      fun _ => List.cons_ne_nil _ _⟩
  | @comment text left rest h _ ih =>
    obtain ⟨more, hstrips, hblank, -⟩ := ih
    refine ⟨left ++ more, h.strips.append hstrips, ?_, fun _ => ?_⟩
    · cases h with
      | line => exact .cons (by decide) hblank
      | block => exact .cons (by decide) hblank
    · cases h <;> exact List.cons_ne_nil _ _

/-- A text leaves one of the same kind with white space for gaps. -/
def StripsTo (Text Left : List Char → Prop) : Prop :=
  ∀ text, Text text → ∃ left, Strips text left ∧ Left left

theorem OptionsText.strips : StripsTo (OptionsText Gap) (OptionsText AllBlank) := by
  intro text h
  cases h with
  | none => exact ⟨[], fun rest => rfl, .none⟩
  | @list gap inner hgap hinner hcomments =>
    obtain ⟨left, hstrips, hblank, -⟩ := hgap.strips
    refine ⟨left ++ ('[' :: inner ++ [']']), hstrips.append fun rest => ?_,
      .list hblank hinner hcomments⟩
    rw [List.cons_append, List.cons_append, stripFrom_code_cons_of_ne (by decide),
      List.append_assoc, List.singleton_append,
      stripFrom_uncommented hcomments (by decide) (by decide),
      stripFrom_code_cons_of_ne (by decide)]
    simp

theorem FieldText.strips {f : FieldDeclaration} (hf : f.Proper) :
    StripsTo (FieldText Gap f) (FieldText AllBlank f) := by
  intro text h
  obtain @⟨g₁, g₂, g₃, g₄, number, options, h₁, hne₁, h₂, hne₂, h₃, h₄, hnumber, hoptions⟩ := h
  obtain ⟨b₁, hs₁, hb₁, hn₁⟩ := h₁.strips
  obtain ⟨b₂, hs₂, hb₂, hn₂⟩ := h₂.strips
  obtain ⟨b₃, hs₃, hb₃, -⟩ := h₃.strips
  obtain ⟨b₄, hs₄, hb₄, -⟩ := h₄.strips
  obtain ⟨left, hsleft, hleft⟩ := hoptions.strips
  refine ⟨_, ?_, .mk hb₁ (hn₁ hne₁) hb₂ (hn₂ hne₂) hb₃ hb₄ hnumber hleft⟩
  have hequals : Strips ('=' :: g₄) ('=' :: b₄) := hs₄.cons (by decide)
  exact (isToken_keyword f.label).strips.append <| hs₁.append <|
    (isToken_of_isIdentifier hf.type).strips.append <| hs₂.append <|
    (isToken_of_isIdentifier hf.name).strips.append <| hs₃.append <| hequals.append <|
    (isToken_of_spells hnumber).strips.append hsleft

theorem ValueText.strips {v : Int × String} (hv : ProperValue v) :
    StripsTo (ValueText Gap v) (ValueText AllBlank v) := by
  intro text h
  obtain @⟨g₁, g₂, number, h₁, h₂, hnumber⟩ := h
  obtain ⟨b₁, hs₁, hb₁, -⟩ := h₁.strips
  obtain ⟨b₂, hs₂, hb₂, -⟩ := h₂.strips
  refine ⟨_, ?_, .mk hb₁ hb₂ hnumber⟩
  have hequals : Strips ('=' :: g₂) ('=' :: b₂) := hs₂.cons (by decide)
  exact (isToken_of_isIdentifier hv.symbol).strips.append <| hs₁.append <| hequals.append <|
    (isToken_of_spells hnumber).strips

theorem BodyText.strips {α : Type} {R S : α → List Char → Prop} {as : List α}
    (hR : ∀ a ∈ as, StripsTo (R a) (S a)) :
    StripsTo (BodyText Gap R as) (BodyText AllBlank S as) := by
  intro text h
  induction h with
  | done h =>
    obtain ⟨left, hstrips, hblank, -⟩ := h.strips
    exact ⟨left, hstrips, .done hblank⟩
  | last h₁ htext h₂ =>
    obtain ⟨b₁, hs₁, hb₁, -⟩ := h₁.strips
    obtain ⟨b₂, hs₂, hb₂, -⟩ := h₂.strips
    obtain ⟨left, hstrips, hleft⟩ := hR _ (List.mem_cons_self ..) _ htext
    exact ⟨_, (hs₁.append hstrips).append hs₂, .last hb₁ hleft hb₂⟩
  | next h₁ htext h₂ hrest ih =>
    obtain ⟨b₁, hs₁, hb₁, -⟩ := h₁.strips
    obtain ⟨b₂, hs₂, hb₂, -⟩ := h₂.strips
    obtain ⟨left, hstrips, hleft⟩ := hR _ (List.mem_cons_self ..) _ htext
    obtain ⟨more, hsmore, hmore⟩ := ih fun a ha => hR a (List.mem_cons_of_mem _ ha)
    have hsemicolon : Strips (';' :: _) (';' :: more) := hsmore.cons (by decide)
    exact ⟨_, ((hs₁.append hstrips).append hs₂).append hsemicolon, .next hb₁ hleft hb₂ hmore⟩

theorem BlockText.strips {k : Keyword} {name : List Char} (hname : isIdentifier name = true)
    {Body Left : List Char → Prop} (hbody : StripsTo Body Left) :
    StripsTo (BlockText Gap k name Body) (BlockText AllBlank k name Left) := by
  intro text h
  obtain @⟨g₁, g₂, body, h₁, hne₁, h₂, htext⟩ := h
  obtain ⟨b₁, hs₁, hb₁, hn₁⟩ := h₁.strips
  obtain ⟨b₂, hs₂, hb₂, -⟩ := h₂.strips
  obtain ⟨left, hstrips, hleft⟩ := hbody body htext
  refine ⟨_, ?_, .mk hb₁ (hn₁ hne₁) hb₂ hleft⟩
  have hbraces : Strips ('\x7b' :: body ++ ['\x7d']) ('\x7b' :: left ++ ['\x7d']) :=
    (hstrips.cons (by decide)).append (.of_no_slash (by decide))
  exact (isToken_of_isIdentifier (isIdentifier_word k)).strips.append <| hs₁.append <|
    (isToken_of_isIdentifier hname).strips.append <| hs₂.append hbraces

theorem DeclarationText.strips {d : Declaration} (hd : d.Proper) :
    StripsTo (DeclarationText Gap d) (DeclarationText AllBlank d) := by
  cases d with
  | message d =>
    exact BlockText.strips hd.name (BodyText.strips fun f hf => FieldText.strips (hd.field f hf))
  | enumeration d =>
    exact BlockText.strips hd.name (BodyText.strips fun v hv => ValueText.strips (hd.value v hv))

/-- Without its comments a text is a layout of the same declarations. -/
theorem SchemaText.strips {ds : List Declaration} (hds : ∀ d ∈ ds, d.Proper) :
    StripsTo (SchemaText Gap ds) (SchemaText AllBlank ds) := by
  intro text h
  induction h with
  | done h =>
    obtain ⟨left, hstrips, hblank, -⟩ := h.strips
    exact ⟨left, hstrips, .done hblank⟩
  | next h htext hrest ih =>
    obtain ⟨b, hs, hb, -⟩ := h.strips
    obtain ⟨left, hstrips, hleft⟩ :=
      DeclarationText.strips (hds _ (List.mem_cons_self ..)) _ htext
    obtain ⟨more, hsmore, hmore⟩ := ih fun d hd => hds d (List.mem_cons_of_mem _ hd)
    exact ⟨_, hs.append (hstrips.append hsmore), .next hb hleft hmore⟩

end LiteChat.Schema
