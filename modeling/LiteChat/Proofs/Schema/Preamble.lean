import Mathlib.Data.List.Basic
import LiteChat.Proofs.Schema.Comments
import LiteChat.Proofs.Schema.Scanning

/-!
# What stands in front of a block

Whatever text without braces stands in front of a well-formed block, the block should be
read.  A keyword in that text gets the block's brace for its own, and then everything hangs
on its header: it runs up to that brace, so it holds the keyword of the block, and if that
is seen the reading goes on behind the stray keyword and comes to the block.  But a header
is searched for white-space separated words, while keywords are read as identifiers: in
`message a;message B` the second keyword is no word of its own.

So the block is read exactly if the text ends in white space, or holds no keyword, or the
block's own name happens to be a keyword (`declares_iff`); otherwise its body is skipped and
nothing at all is declared.
-/

namespace LiteChat.Schema

open Unicode

/-! ## The identifiers of a text -/

/-- The identifiers of a text, as the reader of blocks meets them: digits in front of one
are no part of it. -/
def identifiers (text : List Char) : List (List Char) :=
  match text with
  | [] => []
  | c :: rest =>
    if isIdentStart c then (c :: (spanWord rest).1) :: identifiers (spanWord rest).2
    else identifiers rest
termination_by text.length
decreasing_by
  · exact Nat.lt_succ_of_le (length_spanWord_le rest)
  · exact Nat.lt_succ_self _

/-- Whether the reader of blocks meets a keyword in a text. -/
def MeetsKeyword (text : List Char) : Prop := ∃ k : Keyword, k.word ∈ identifiers text

theorem identifiers_nil : identifiers [] = [] := by rw [identifiers]

theorem identifiers_cons {c : Char} (h : isIdentStart c = false) (rest : List Char) :
    identifiers (c :: rest) = identifiers rest := by
  rw [identifiers, if_neg (by simp [h])]

theorem identifiers_word_append {word rest : List Char} (hword : isIdentifier word = true)
    (hrest : EndsWord rest) : identifiers (word ++ rest) = word :: identifiers rest := by
  cases word with
  | nil => cases hword
  | cons c word =>
    obtain ⟨hc, hword⟩ := isIdentifier_cons_iff.mp hword
    rw [List.cons_append, identifiers, if_pos hc, spanWord_append hword hrest]

theorem identifiers_append_cons {c : Char} (hc : isIdentChar c = false) (front rest : List Char) :
    identifiers (front ++ c :: rest) = identifiers front ++ identifiers rest := by
  induction front using wordInduction with
  | nil =>
    rw [identifiers_nil]
    exact identifiers_cons (isIdentStart_eq_false hc) rest
  | skip d front hd ih => rw [List.cons_append, identifiers_cons hd, identifiers_cons hd, ih]
  | word w front hw hfront ih =>
    rw [List.append_assoc, identifiers_word_append hw (hfront.append (endsWord_cons hc rest)), ih,
      identifiers_word_append hw hfront]
    rfl

/-- A word between white space that is an identifier is met. -/
theorem mem_identifiers_of_mem_words {text w : List Char} (hw : w ∈ words text)
    (hident : isIdentifier w = true) : w ∈ identifiers text := by
  have hsolid : ∀ front, (∀ c ∈ front, isBlank c = false) → w ∈ words front →
      w ∈ identifiers front := by
    intro front hfront hw
    cases front with
    | nil => cases hw
    | cons c front =>
      have hself := identifiers_word_append hident endsWord_nil
      rw [List.append_nil, identifiers_nil] at hself
      rw [words_of_isWord ⟨List.cons_ne_nil c front, hfront⟩, List.mem_singleton] at hw
      rw [← hw, hself]
      exact List.mem_singleton_self w
  induction text using blankInduction with
  | solid text h => exact hsolid text h hw
  | blank front c rest hfront hc ih =>
    rw [words_append_cons hc] at hw
    rw [identifiers_append_cons (isIdentChar_eq_false_of_isBlank hc)]
    exact List.mem_append.mpr ((List.mem_append.mp hw).imp (hsolid front hfront) ih)

/-! ## The preamble -/

/-- A text in front of a block: no brace and no comment opens in it, and it does not end in
the midst of a word. -/
structure IsPreamble (text : List Char) : Prop where
  /-- No brace opens in it. -/
  unbraced : '\x7b' ∉ text
  /-- No comment opens in it. -/
  uncommented : Uncommented text
  /-- The last character cannot be part of an identifier. -/
  ends : ∀ c, text.getLast? = some c → isIdentChar c = false

/-- A text that ends in white space. -/
def EndsBlank (text : List Char) : Prop := ∃ c, text.getLast? = some c ∧ isBlank c = true

namespace IsPreamble

variable {front rest : List Char}

theorem of_append (h : IsPreamble (front ++ rest)) : IsPreamble rest where
  unbraced hm := h.unbraced (List.mem_append_right _ hm)
  uncommented t ht := h.uncommented t (ht.trans (List.suffix_append front rest))
  ends c hc := h.ends c (by rw [List.getLast?_append, hc]; rfl)

theorem tail {c : Char} (h : IsPreamble (c :: rest)) : IsPreamble rest :=
  IsPreamble.of_append (show IsPreamble ([c] ++ rest) from h)

/-- Behind a word of a preamble there is more of it. -/
theorem ne_nil_of_append (h : IsPreamble (front ++ rest)) (hfront : isIdentifier front = true) :
    rest ≠ [] := by
  rintro rfl
  rw [List.append_nil] at h
  have hne := ne_nil_of_isIdentifier hfront
  have hlast := h.ends (front.getLast hne) (List.getLast?_eq_some_getLast hne)
  rw [isIdentChar_of_mem_identifier hfront (List.getLast_mem hne)] at hlast
  cases hlast

end IsPreamble

theorem EndsBlank.of_append {front rest : List Char} (h : EndsBlank (front ++ rest))
    (hne : rest ≠ []) : EndsBlank rest := by
  obtain ⟨c, hc, hblank⟩ := h
  rw [List.getLast?_append, List.getLast?_eq_some_getLast hne, Option.some_or] at hc
  exact ⟨c, by rw [List.getLast?_eq_some_getLast hne, hc], hblank⟩

theorem EndsBlank.tail {c : Char} {rest : List Char} (h : EndsBlank (c :: rest))
    (hne : rest ≠ []) : EndsBlank rest :=
  EndsBlank.of_append (show EndsBlank ([c] ++ rest) from h) hne

theorem EndsWord.append_of_ne_nil {text : List Char} (h : EndsWord text) (hne : text ≠ [])
    (more : List Char) : EndsWord (text ++ more) := by
  obtain ⟨c, rest, rfl⟩ := List.exists_cons_of_ne_nil hne
  exact endsWord_cons (h c rest rfl) _

/-! ## The block -/

/-- A text that is one block: it begins with a keyword, and declares one thing without a
fault. -/
structure IsBlockText (text : List Char) : Prop where
  /-- A keyword stands at the front. -/
  begins : ∃ (k : Keyword) (c : Char) (rest : List Char),
    text = k.word ++ c :: rest ∧ isIdentChar c = false
  /-- No fault is reported. -/
  clean : (compile text).errors = []
  /-- There is one declaration. -/
  single : (compile text).messages.length + (compile text).enums.length = 1

/-- The names that are declared. -/
def Compiled.names (c : Compiled) : List String :=
  c.messages.map MessageDescriptor.name ++ c.enums.map EnumDescriptor.name

/-- The parts of a well-formed block without comments, behind its keyword: `header` and
`body` are cut at the first brace, `inner` and `behind` at the one that closes it. -/
structure BlockParts (keyword : Keyword) (after header body inner behind : List Char) :
    Prop where
  /-- The keyword is a word of its own. -/
  ends : EndsWord after
  /-- The header ends at the first brace. -/
  cut : Text.cut? '\x7b' after = some (header, body)
  /-- The header is a name. -/
  name : isIdentifier (trim header) = true
  /-- The brace is closed. -/
  close : closing? 0 body = some (inner, behind)
  /-- The body is well formed. -/
  sound : (readBlock keyword (trim header) inner).malformed? = none
  /-- No further block follows. -/
  last : blocks behind = []

theorem length_ofBlocks (bs : List Block) :
    bs.length = (Compiled.ofBlocks bs).messages.length + (Compiled.ofBlocks bs).enums.length +
      (Compiled.ofBlocks bs).errors.length := by
  induction bs with
  | nil => rfl
  | cons b bs ih =>
    cases b <;>
      simp only [Compiled.ofBlocks, List.filterMap_cons, Block.message?, Block.enum?,
        Block.malformed?, List.length_cons] at ih ⊢ <;> omega

theorem endsWord_stripFrom_line (rest : List Char) : EndsWord (stripFrom .line rest) := by
  induction rest with
  | nil => exact endsWord_nil
  | cons c rest ih =>
    rw [stripFrom_line_cons]
    split
    · rename_i hc
      exact endsWord_cons (hc ▸ by decide) _
    · exact ih

theorem endsWord_stripFrom_block (afterStar : Bool) (rest : List Char) :
    EndsWord (stripFrom (.block afterStar) rest) := by
  induction rest generalizing afterStar with
  | nil => exact endsWord_cons (by decide) []
  | cons c rest ih =>
    rw [stripFrom_block_cons]
    split
    · exact endsWord_cons (by decide) _
    · exact ih _

/-- What stands behind a word may turn out to be a comment; that does not make the word
longer. -/
theorem endsWord_stripFrom_code {c : Char} (hc : isIdentChar c = false) (rest : List Char) :
    EndsWord (stripFrom .code (c :: rest)) := by
  by_cases h : OpensComment (c :: rest)
  · obtain ⟨d, after, he, rfl | rfl⟩ := h <;> cases he
    · rw [stripFrom_lineOpener]
      exact endsWord_stripFrom_line after
    · rw [stripFrom_blockOpener]
      exact endsWord_stripFrom_block false after
  · rw [stripFrom_code_cons h]
    exact endsWord_cons hc _

theorem exists_blockParts {text : List Char} (h : IsBlockText text) :
    ∃ k after header body inner behind, stripComments text = k.word ++ after ∧
      BlockParts k after header body inner behind := by
  obtain ⟨k, c, rest, rfl, hc⟩ := h.begins
  have hslash : '/' ∉ k.word := by cases k <;> decide
  have hstrip : stripComments (k.word ++ c :: rest) = k.word ++ stripFrom .code (c :: rest) :=
    Strips.of_no_slash hslash _
  have hafter := endsWord_stripFrom_code hc rest
  generalize stripFrom .code (c :: rest) = after at hstrip hafter
  have hclean : ∀ b ∈ blocks (k.word ++ after), b.malformed? = none := by
    have hnil := h.clean
    rw [compile, hstrip] at hnil
    exact List.filterMap_eq_nil_iff.mp hnil
  have hone : (blocks (k.word ++ after)).length = 1 := by
    have hlength := length_ofBlocks (blocks (k.word ++ after))
    rw [← hstrip] at hlength ⊢
    have hsingle := h.single
    have hnil := h.clean
    rw [compile] at hsingle hnil
    rw [hlength, hnil, hsingle]
    rfl
  rw [blocks_keyword_append k hafter, blocksAfter] at hclean hone
  -- all ways to read a block but one begin with a fault
  cases hcut : Text.cut? '\x7b' after with
  | none =>
    rw [hcut] at hclean
    cases hclean _ (List.mem_singleton_self _)
  | some parts =>
    obtain ⟨header, body⟩ := parts
    rw [hcut] at hclean hone
    cases hclose : closing? 0 body with
    | none =>
      simp only [hclose] at hclean
      split at hclean
      · cases hclean _ (List.mem_singleton_self _)
      · cases hclean _ (List.mem_cons_self ..)
    | some parts =>
      obtain ⟨inner, behind⟩ := parts
      simp only [hclose] at hclean hone
      cases hname : isIdentifier (trim header) with
      | false =>
        rw [hname] at hclean
        cases hclean _ (List.mem_cons_self ..)
      | true =>
        rw [hname] at hclean hone
        refine ⟨k, after, header, body, inner, behind, hstrip, hafter, hcut, hname, hclose,
          hclean _ (List.mem_cons_self ..), ?_⟩
        exact List.length_eq_zero_iff.mp (Nat.succ.inj hone)

/-! ## A stray keyword in front of the block -/

section Stray

variable {k : Keyword} {after header body inner behind front : List Char}

theorem BlockParts.blocks_eq (hb : BlockParts k after header body inner behind) :
    blocks (k.word ++ after) = [readBlock k (trim header) inner] := by
  rw [(Scan.block hb.ends hb.cut hb.name hb.close).blocks_eq, hb.last]
  rfl

/-- The name of a block is a word of its own, whatever its keyword has become. -/
theorem BlockParts.words_append_header (hb : BlockParts k after header body inner behind)
    (front : List Char) : words (front ++ header) = words front ++ [trim header] := by
  obtain ⟨g, h, hg, hh, hheader⟩ := exists_padded header
  have hafter : after = header ++ '\x7b' :: body := Text.eq_of_cut?_eq_some hb.cut
  cases g with
  | nil =>
    -- a name right behind the keyword would be part of the same word
    exfalso
    obtain ⟨c, name, hname⟩ := List.exists_cons_of_ne_nil (ne_nil_of_isIdentifier hb.name)
    rw [hname] at hheader
    have hc := hb.ends c (name ++ h ++ '\x7b' :: body) (by rw [hafter, hheader]; simp)
    rw [isIdentChar_of_mem_identifier hb.name (hname ▸ List.mem_cons_self ..)] at hc
    cases hc
  | cons c g =>
    calc words (front ++ header) = words (front ++ c :: (g ++ (trim header ++ h))) := by
          conv_lhs => rw [hheader]
          simp
      _ = words front ++ [trim header] := by
          rw [words_append_cons hg.head, words_allBlank_append hg.tail,
            words_append_allBlank hh, words_of_isWord (isWord_of_isIdentifier hb.name)]

/-- The header of a stray keyword runs through the block's keyword and name. -/
def strayHeader (k : Keyword) (header front : List Char) : List Char :=
  trim (front ++ (k.word ++ header))

theorem BlockParts.words_strayHeader (hb : BlockParts k after header body inner behind)
    (front : List Char) :
    words (strayHeader k header front) = words (front ++ k.word) ++ [trim header] := by
  rw [strayHeader, words_trim, ← List.append_assoc, hb.words_append_header]

theorem BlockParts.not_isIdentifier_strayHeader
    (hb : BlockParts k after header body inner behind) (front : List Char) :
    isIdentifier (strayHeader k header front) = false := by
  cases h : isIdentifier (strayHeader k header front) with
  | false => rfl
  | true =>
    -- an identifier is one word, and here are two
    exfalso
    have hone := hb.words_strayHeader front
    rw [words_of_isWord (isWord_of_isIdentifier h)] at hone
    obtain ⟨c, word, hword⟩ := List.exists_cons_of_ne_nil
      (ne_nil_of_isIdentifier (isIdentifier_word k))
    have hc : c ∈ front ++ k.word := by simp [hword]
    have hsolid : isBlank c = false :=
      (isWord_of_isIdentifier (isIdentifier_word k)).solid c (hword ▸ List.mem_cons_self ..)
    have hne := words_ne_nil_of_mem hc hsolid
    cases hwords : words (front ++ k.word) with
    | nil => exact hne hwords
    | cons w ws =>
      rw [hwords] at hone
      simp at hone

/-- A stray keyword reports a fault.  If its header is seen to hold a keyword, the reading
goes on behind the stray one, and else behind the block. -/
theorem BlockParts.scan_stray (hb : BlockParts k after header body inner behind)
    (hbrace : '\x7b' ∉ front) (hends : EndsWord front) (hne : front ≠ []) (stray : Keyword) :
    Scan (stray.word ++ (front ++ (k.word ++ after)))
      [.malformed (strayHeader k header front) (.invalidName stray)]
      (if holdsKeyword (strayHeader k header front) then front ++ (k.word ++ after)
        else behind) := by
  have hword : '\x7b' ∉ k.word := by cases k <;> decide
  have hcut : Text.cut? '\x7b' (front ++ (k.word ++ after)) =
      some (front ++ (k.word ++ header), body) := by
    rw [Text.cut?_append hbrace, Text.cut?_append hword, hb.cut]
    rfl
  have hends' := hends.append_of_ne_nil hne (k.word ++ after)
  have hname := hb.not_isIdentifier_strayHeader front
  cases hholds : holdsKeyword (strayHeader k header front) with
  | true => exact .nameless hends' hcut hname (Or.inr hholds)
  | false => exact .misnamed hends' hcut hname hb.close hholds

end Stray

/-! ## Whether the block is read -/

theorem holdsKeyword_iff {header : List Char} :
    holdsKeyword header = true ↔ ∃ k : Keyword, k.word ∈ words header := by
  rw [holdsKeyword, List.any_eq_true]
  constructor
  · rintro ⟨w, hw, hsome⟩
    obtain ⟨k, hk⟩ := Option.isSome_iff_exists.mp hsome
    exact ⟨k, eq_word_of_ofWord? hk ▸ hw⟩
  · rintro ⟨k, hk⟩
    exact ⟨k.word, hk, by rw [ofWord?_word]; rfl⟩

theorem meetsKeyword_cons {c : Char} (hc : isIdentStart c = false) {rest : List Char} :
    MeetsKeyword (c :: rest) ↔ MeetsKeyword rest := by
  rw [MeetsKeyword, MeetsKeyword, identifiers_cons hc]

theorem meetsKeyword_append {word rest : List Char} (hword : isIdentifier word = true)
    (hrest : EndsWord rest) :
    MeetsKeyword (word ++ rest) ↔ (∃ k : Keyword, word = k.word) ∨ MeetsKeyword rest := by
  simp only [MeetsKeyword, identifiers_word_append hword hrest, List.mem_cons, exists_or,
    eq_comm (b := word)]

theorem EndsBlank.append {rest : List Char} (h : EndsBlank rest) (front : List Char) :
    EndsBlank (front ++ rest) := by
  obtain ⟨c, hc, hblank⟩ := h
  exact ⟨c, by rw [List.getLast?_append, hc]; rfl, hblank⟩

section Reading

variable {k : Keyword} {after header body inner behind : List Char}

/-- The block's name is a keyword itself. -/
def KeywordNamed (header : List Char) : Prop := ∃ k : Keyword, trim header = k.word

theorem BlockParts.holdsKeyword_of_named (hb : BlockParts k after header body inner behind)
    (hname : KeywordNamed header) (front : List Char) :
    holdsKeyword (strayHeader k header front) = true := by
  obtain ⟨k', hk'⟩ := hname
  rw [holdsKeyword_iff, hb.words_strayHeader]
  exact ⟨k', List.mem_append_right _ (hk' ▸ List.mem_singleton_self _)⟩

theorem BlockParts.holdsKeyword_of_endsBlank (hb : BlockParts k after header body inner behind)
    {front : List Char} (hfront : EndsBlank front) :
    holdsKeyword (strayHeader k header front) = true := by
  obtain ⟨c, hc, hblank⟩ := hfront
  obtain ⟨start, rfl⟩ := List.getLast?_eq_some_iff.mp hc
  rw [holdsKeyword_iff, hb.words_strayHeader, List.append_assoc, List.singleton_append,
    words_append_cons hblank, words_of_isWord (isWord_of_isIdentifier (isIdentifier_word k))]
  exact ⟨k, by simp⟩

/-- A keyword that is seen in the header of a stray one stands in the preamble, unless the
block's own keyword or its name is seen. -/
theorem BlockParts.meetsKeyword_of_holdsKeyword
    (hb : BlockParts k after header body inner behind) {front : List Char}
    (hfront : IsPreamble front) (hne : front ≠ []) (hblank : ¬ EndsBlank front)
    (hname : ¬ KeywordNamed header)
    (hholds : holdsKeyword (strayHeader k header front) = true) : MeetsKeyword front := by
  obtain ⟨found, hfound⟩ := holdsKeyword_iff.mp hholds
  rw [hb.words_strayHeader, List.mem_append, List.mem_singleton] at hfound
  have hfound := hfound.resolve_right fun he => hname ⟨found, he.symm⟩
  obtain ⟨start, last, rfl, hlast, hends, hwords⟩ := exists_last_word front
  have hlast_ne : last ≠ [] := by
    rintro rfl
    rw [List.append_nil] at hblank hne
    exact hblank ⟨_, List.getLast?_eq_some_getLast hne,
      hends _ (List.getLast?_eq_some_getLast hne)⟩
  -- the last word of the preamble takes the block's keyword in and is no keyword then
  have hchar : isIdentChar (last.getLast hlast_ne) = false :=
    hfront.of_append.ends _ (List.getLast?_eq_some_getLast hlast_ne)
  have hglued : IsWord (last ++ k.word) := by
    refine ⟨List.append_ne_nil_of_left_ne_nil hlast_ne _, fun c hc => ?_⟩
    rcases List.mem_append.mp hc with hc | hc
    · exact hlast c hc
    · exact (isWord_of_isIdentifier (isIdentifier_word k)).solid c hc
  rw [List.append_assoc, hwords, words_of_isWord hglued, List.mem_append,
    List.mem_singleton] at hfound
  rcases hfound with hfound | hfound
  · refine ⟨found, mem_identifiers_of_mem_words ?_ (isIdentifier_word found)⟩
    rw [hwords]
    exact List.mem_append_left _ hfound
  · have hmem : last.getLast hlast_ne ∈ found.word :=
      hfound ▸ List.mem_append_left _ (List.getLast_mem hlast_ne)
    rw [isIdentChar_of_mem_identifier (isIdentifier_word found) hmem] at hchar
    cases hchar

/-- Only faults are reported. -/
def OnlyFaults (found : List Block) : Prop :=
  ∀ b ∈ found, ∃ header fault, b = .malformed header fault

theorem OnlyFaults.cons {found : List Block} (h : OnlyFaults found) (header : List Char)
    (fault : BlockFault) : OnlyFaults (.malformed header fault :: found) := by
  intro b hb
  rcases List.mem_cons.mp hb with rfl | hb
  · exact ⟨header, fault, rfl⟩
  · exact h b hb

/-- Behind a preamble that lets it through, the block is read. -/
theorem BlockParts.blocks_preamble (hb : BlockParts k after header body inner behind)
    {preamble : List Char} (hp : IsPreamble preamble)
    (hthrough : EndsBlank preamble ∨ ¬ MeetsKeyword preamble ∨ KeywordNamed header) :
    ∃ faults, OnlyFaults faults ∧
      blocks (preamble ++ (k.word ++ after)) =
        faults ++ [readBlock k (trim header) inner] := by
  induction preamble using wordInduction with
  | nil => exact ⟨[], fun b hb => absurd hb List.not_mem_nil, hb.blocks_eq⟩
  | skip c rest hc ih =>
    rw [List.cons_append, blocks_cons_of_not_isIdentStart hc]
    refine ih hp.tail ?_
    by_cases hne : rest = []
    · subst hne
      refine Or.inr (Or.inl ?_)
      rintro ⟨k', hk'⟩
      rw [identifiers_nil] at hk'
      cases hk'
    · exact hthrough.imp (EndsBlank.tail · hne)
        (Or.imp_left (mt (meetsKeyword_cons hc).mpr))
  | word w rest hw hrest ih =>
    have hne := hp.ne_nil_of_append hw
    have hthrough' : EndsBlank rest ∨ ¬ MeetsKeyword rest ∨ KeywordNamed header :=
      hthrough.imp (EndsBlank.of_append · hne)
        (Or.imp_left fun hmeets h => hmeets ((meetsKeyword_append hw hrest).mpr (Or.inr h)))
    obtain ⟨faults, hfaults, hread⟩ := ih hp.of_append hthrough'
    rw [List.append_assoc]
    cases hk : Keyword.ofWord? w with
    | none =>
      refine ⟨faults, hfaults, ?_⟩
      rw [blocks_word_append hw (hrest.append_of_ne_nil hne _), hk]
      exact hread
    | some stray =>
      obtain rfl := eq_word_of_ofWord? hk
      have hholds : holdsKeyword (strayHeader k header rest) = true := by
        rcases hthrough with hblank | hmeets | hname
        · exact hb.holdsKeyword_of_endsBlank (hblank.of_append hne)
        · exact absurd ((meetsKeyword_append hw hrest).mpr (Or.inl ⟨stray, rfl⟩)) hmeets
        · exact hb.holdsKeyword_of_named hname rest
      have hscan := hb.scan_stray hp.of_append.unbraced hrest hne stray
      rw [hholds] at hscan
      exact ⟨_, hfaults.cons _ _, by rw [hscan.blocks_eq, if_pos rfl, hread]; rfl⟩

/-- Behind any other preamble it is skipped. -/
theorem BlockParts.blocks_swallowed (hb : BlockParts k after header body inner behind)
    {preamble : List Char} (hp : IsPreamble preamble) (hblank : ¬ EndsBlank preamble)
    (hmeets : MeetsKeyword preamble) (hname : ¬ KeywordNamed header) :
    OnlyFaults (blocks (preamble ++ (k.word ++ after))) := by
  induction preamble using wordInduction with
  | nil =>
    obtain ⟨k', hk'⟩ := hmeets
    rw [identifiers_nil] at hk'
    cases hk'
  | skip c rest hc ih =>
    rw [List.cons_append, blocks_cons_of_not_isIdentStart hc]
    exact ih hp.tail (fun h => hblank (h.append [c]))
      ((meetsKeyword_cons hc).mp hmeets)
  | word w rest hw hrest ih =>
    have hne := hp.ne_nil_of_append hw
    have hblank' : ¬ EndsBlank rest := fun h => hblank (h.append w)
    rw [List.append_assoc]
    cases hk : Keyword.ofWord? w with
    | none =>
      rw [blocks_word_append hw (hrest.append_of_ne_nil hne _), hk]
      refine ih hp.of_append hblank' (((meetsKeyword_append hw hrest).mp hmeets).resolve_left ?_)
      rintro ⟨k', rfl⟩
      rw [ofWord?_word] at hk
      cases hk
    | some stray =>
      obtain rfl := eq_word_of_ofWord? hk
      have hscan := hb.scan_stray hp.of_append.unbraced hrest hne stray
      rw [hscan.blocks_eq]
      refine OnlyFaults.cons ?_ _ _
      cases hholds : holdsKeyword (strayHeader k header rest) with
      | true =>
        rw [if_pos rfl]
        exact ih hp.of_append hblank'
          (hb.meetsKeyword_of_holdsKeyword hp.of_append hne hblank' hname hholds)
      | false =>
        rw [if_neg Bool.false_ne_true, hb.last]
        exact fun b hb => absurd hb List.not_mem_nil

end Reading

/-! ## What is declared -/

theorem OnlyFaults.ofBlocks_append {faults : List Block} (h : OnlyFaults faults)
    (found : List Block) :
    (Compiled.ofBlocks (faults ++ found)).messages = (Compiled.ofBlocks found).messages ∧
      (Compiled.ofBlocks (faults ++ found)).enums = (Compiled.ofBlocks found).enums := by
  have hmessages : faults.filterMap Block.message? = [] := by
    refine List.filterMap_eq_nil_iff.mpr fun b hb => ?_
    obtain ⟨header, fault, rfl⟩ := h b hb
    rfl
  have henums : faults.filterMap Block.enum? = [] := by
    refine List.filterMap_eq_nil_iff.mpr fun b hb => ?_
    obtain ⟨header, fault, rfl⟩ := h b hb
    rfl
  simp [Compiled.ofBlocks, hmessages, henums]

/-- A block that is well formed declares its own name. -/
theorem names_readBlock {k : Keyword} {name body : List Char}
    (h : (readBlock k name body).malformed? = none) :
    (Compiled.ofBlocks [readBlock k name body]).names = [String.ofList name] := by
  cases k with
  | message =>
    cases hread : readFields [] (statements body) with
    | ok fields =>
      simp only [readBlock, hread]
      rfl
    | error fault =>
      simp only [readBlock, hread] at h
      cases h
  | enumeration =>
    cases hread : readValues [] (statements body) with
    | ok values =>
      simp only [readBlock, hread]
      rfl
    | error fault =>
      simp only [readBlock, hread] at h
      cases h

/-- Which text in front of a block lets it be read.  If the text holds a keyword and runs
into the block without white space, the block is skipped, unless its name is a keyword. -/
theorem declares_iff {preamble text : List Char} (hp : IsPreamble preamble)
    (ht : IsBlockText text) :
    ((compile (preamble ++ text)).messages = (compile text).messages ∧
        (compile (preamble ++ text)).enums = (compile text).enums) ↔
      EndsBlank preamble ∨ ¬ MeetsKeyword preamble ∨
        ∃ name ∈ (compile text).names, ∃ k : Keyword, name.toList = k.word := by
  obtain ⟨k, after, header, body, inner, behind, hstrip, hb⟩ := exists_blockParts ht
  have hjoin : stripComments (preamble ++ text) = preamble ++ (k.word ++ after) := by
    obtain ⟨k', c, rest, rfl, -⟩ := ht.begins
    rw [← hstrip]
    cases k' <;> exact stripFrom_uncommented hp.uncommented (by decide) (by decide) _
  have hcompile : compile text = .ofBlocks [readBlock k (trim header) inner] := by
    rw [compile, hstrip, hb.blocks_eq]
  have hnames : (∃ name ∈ (compile text).names, ∃ k : Keyword, name.toList = k.word) ↔
      KeywordNamed header := by
    rw [hcompile, names_readBlock hb.sound]
    simp [KeywordNamed]
  rw [hnames]
  constructor
  · rintro ⟨hmessages, henums⟩
    by_contra hnot
    obtain ⟨hblank, hmeets, hname⟩ := by simpa only [not_or, not_not] using hnot
    have hfaults := hb.blocks_swallowed hp hblank hmeets hname
    have hlost := hfaults.ofBlocks_append []
    rw [List.append_nil, ← hjoin] at hlost
    have hsingle := ht.single
    rw [← hmessages, ← henums, compile, hlost.1, hlost.2] at hsingle
    cases hsingle
  · intro hthrough
    obtain ⟨faults, hfaults, hread⟩ := hb.blocks_preamble hp hthrough
    rw [hcompile, compile, hjoin, hread]
    exact hfaults.ofBlocks_append _

/-- A block on one line. -/
def pingText : List Char := "message Ping \x7b required string to = 1; \x7d".toList

theorem compile_pingText :
    compile pingText = ⟨[], [⟨"Ping", [⟨1, "to", .string, .required⟩]⟩], []⟩ := by
  -- the characters are what is compiled, so that the literal is not decoded in between
  unfold pingText
  rw [String.toList_ofList]
  decide +kernel

theorem isBlockText_pingText : IsBlockText pingText where
  begins := by
    unfold pingText
    rw [String.toList_ofList]
    exact ⟨.message, ' ', _, rfl, by decide⟩
  clean := by rw [compile_pingText]
  single := by rw [compile_pingText]; rfl

/-- A stray keyword, and a header without a body, on lines of their own. -/
def strayLines : List Char := "import message;\nenum 9 of message\n".toList

theorem isPreamble_strayLines : IsPreamble strayLines where
  unbraced := by decide
  uncommented := uncommented_of_no_slash (by decide)
  ends c hc := by
    cases hc
    decide

theorem declares_iff_strayLines :
    IsPreamble strayLines ∧ IsBlockText pingText ∧ MeetsKeyword strayLines ∧
      (compile (strayLines ++ pingText)).messages = (compile pingText).messages ∧
      (compile (strayLines ++ pingText)).enums = (compile pingText).enums :=
  ⟨isPreamble_strayLines, isBlockText_pingText, ⟨.message, by decide +kernel⟩,
    (declares_iff isPreamble_strayLines isBlockText_pingText).mpr
      (Or.inl ⟨'\n', by decide, by decide⟩)⟩

/-- Without the line break the stray keyword's header is taken for a name that is none, and
the block for its body. -/
theorem swallowed_behind_semicolon :
    IsPreamble "message a;".toList ∧ IsBlockText pingText ∧
      (compile pingText).messages = [⟨"Ping", [⟨1, "to", .string, .required⟩]⟩] ∧
      compile ("message a;".toList ++ pingText) =
        ⟨[], [], [⟨"a;message Ping", .invalidName .message⟩]⟩ := by
  refine ⟨⟨by decide, uncommented_of_no_slash (by decide), fun c hc => ?_⟩, isBlockText_pingText,
    by rw [compile_pingText], ?_⟩
  · cases hc
    decide
  · unfold pingText
    rw [String.toList_ofList, String.toList_ofList]
    decide +kernel

end LiteChat.Schema
