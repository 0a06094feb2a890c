import LiteChat.Schema.Block
import LiteChat.Proofs.Text.Splitting
import LiteChat.Proofs.Unicode.Words

/-!
# The reading of blocks, step by step

A schema text without comments is read from its front.  One step (`Scan`) takes a character
or a word and goes on behind it, or takes a keyword and does one of five things, each of
which reports one block; where it goes on is a shorter text.  The blocks of a text are those
of its first step and those of the text that this step leaves (`Scan.blocks_eq`), and every
text but the empty one has a first step (`exists_scan`), so that what each step keeps holds
of the whole reading (`scanInduction`).  A block that is well formed stands in the text with its
name and its body, and the blocks that are read later stand behind it (`exists_blockIn`).
-/

namespace LiteChat.Schema

open Unicode

/-! ## Identifier characters -/

theorem isIdentChar_of_isIdentStart {c : Char} (h : isIdentStart c = true) :
    isIdentChar c = true := by
  simp only [isIdentStart, isIdentChar, Char.isAlphanum, Bool.or_eq_true] at h ⊢
  exact h.imp_left Or.inl

theorem isIdentStart_eq_false {c : Char} (h : isIdentChar c = false) : isIdentStart c = false := by
  cases hstart : isIdentStart c with
  | false => rfl
  | true =>
    rw [isIdentChar_of_isIdentStart hstart] at h
    cases h

/-- The characters of identifiers by their numbers: capital letters, small letters, digits and
the underscore. -/
theorem toNat_of_isIdentChar {c : Char} (h : isIdentChar c = true) :
    (65 ≤ c.toNat ∧ c.toNat ≤ 90) ∨ (97 ≤ c.toNat ∧ c.toNat ≤ 122) ∨
      (48 ≤ c.toNat ∧ c.toNat ≤ 57) ∨ c.toNat = 95 := by
  rcases Bool.or_eq_true_iff.mp h with h | h
  · rcases Bool.or_eq_true_iff.mp h with h | h
    · rcases Bool.or_eq_true_iff.mp h with h | h
      · exact Or.inl (of_decide_eq_true h)
      · obtain ⟨h1, h2⟩ := Bool.and_eq_true_iff.mp h
        exact Or.inr (Or.inl ⟨of_decide_eq_true h1, of_decide_eq_true h2⟩)
    · obtain ⟨h1, h2⟩ := Bool.and_eq_true_iff.mp h
      exact Or.inr (Or.inr (Or.inl ⟨of_decide_eq_true h1, of_decide_eq_true h2⟩))
  · rw [of_decide_eq_true h]
    exact Or.inr (Or.inr (Or.inr rfl))

theorem isBlank_eq_false_of_isIdentChar {c : Char} (h : isIdentChar c = true) :
    isBlank c = false := by
  have hbounds := toNat_of_isIdentChar h
  simp only [isBlank, blankRanges, List.any_cons, List.any_nil, Bool.or_false,
    Bool.or_eq_false_iff, Bool.and_eq_false_iff, decide_eq_false_iff_not]
  omega

theorem isIdentChar_eq_false_of_isBlank {c : Char} (h : isBlank c = true) :
    isIdentChar c = false := by
  cases hc : isIdentChar c with
  | false => rfl
  | true =>
    rw [isBlank_eq_false_of_isIdentChar hc] at h
    cases h

/-- A text at whose front no word can go on. -/
def EndsWord (text : List Char) : Prop := ∀ c rest, text = c :: rest → isIdentChar c = false

theorem endsWord_nil : EndsWord [] := fun _ _ h => nomatch h

theorem endsWord_cons {c : Char} (h : isIdentChar c = false) (rest : List Char) :
    EndsWord (c :: rest) := by
  intro d after he
  cases he
  exact h

theorem EndsWord.append {text more : List Char} (h : EndsWord text) (hmore : EndsWord more) :
    EndsWord (text ++ more) := by
  cases text with
  | nil => exact hmore
  | cons c rest => exact endsWord_cons (h c rest rfl) _

theorem spanWord_append {word rest : List Char} (hword : ∀ c ∈ word, isIdentChar c = true)
    (hrest : EndsWord rest) : spanWord (word ++ rest) = (word, rest) := by
  induction word with
  | nil =>
    cases rest with
    | nil => rfl
    | cons c rest =>
      have hc := hrest c rest rfl
      simp [spanWord, hc]
  | cons c word ih =>
    have hc := hword c (List.mem_cons_self ..)
    rw [List.cons_append, spanWord, if_pos hc, ih fun d hd => hword d (List.mem_cons_of_mem c hd)]

theorem spanWord_spec (text : List Char) :
    ∃ word rest, spanWord text = (word, rest) ∧ text = word ++ rest ∧
      (∀ c ∈ word, isIdentChar c = true) ∧ EndsWord rest := by
  induction text with
  | nil => exact ⟨[], [], rfl, rfl, by simp, endsWord_nil⟩
  | cons c text ih =>
    obtain ⟨word, rest, hspan, htext, hword, hrest⟩ := ih
    unfold spanWord
    split
    · rename_i hc
      refine ⟨c :: word, rest, by rw [hspan], by rw [htext]; rfl, ?_, hrest⟩
      intro d hd
      rcases List.mem_cons.mp hd with rfl | hd
      · exact hc
      · exact hword d hd
    · rename_i hc
      exact ⟨[], c :: text, rfl, rfl, by simp, endsWord_cons (eq_false_of_ne_true hc) text⟩

theorem isIdentifier_cons_iff {c : Char} {rest : List Char} :
    isIdentifier (c :: rest) = true ↔
      isIdentStart c = true ∧ ∀ d ∈ rest, isIdentChar d = true := by
  simp [isIdentifier]

theorem isIdentChar_of_mem_identifier {word : List Char} (h : isIdentifier word = true) {c : Char}
    (hc : c ∈ word) : isIdentChar c = true := by
  cases word with
  | nil => cases hc
  | cons d rest =>
    obtain ⟨hd, hrest⟩ := isIdentifier_cons_iff.mp h
    rcases List.mem_cons.mp hc with rfl | hc
    · exact isIdentChar_of_isIdentStart hd
    · exact hrest c hc

theorem ne_nil_of_isIdentifier {word : List Char} (h : isIdentifier word = true) : word ≠ [] := by
  rintro rfl
  cases h

theorem length_lt_of_isIdentifier {word : List Char} (h : isIdentifier word = true)
    (rest : List Char) : rest.length < (word ++ rest).length := by
  have hpos := List.length_pos_iff.mpr (ne_nil_of_isIdentifier h)
  rw [List.length_append]
  omega

theorem isWord_of_isIdentifier {word : List Char} (h : isIdentifier word = true) :
    IsWord word where
  ne_nil := ne_nil_of_isIdentifier h
  solid _ hc := isBlank_eq_false_of_isIdentChar (isIdentChar_of_mem_identifier h hc)

theorem isIdentifier_word (k : Keyword) : isIdentifier k.word = true := by
  cases k <;> decide

theorem ofWord?_word (k : Keyword) : Keyword.ofWord? k.word = some k := by
  cases k <;> decide

theorem eq_word_of_ofWord? {word : List Char} {k : Keyword} (h : Keyword.ofWord? word = some k) :
    word = k.word := by
  unfold Keyword.ofWord? at h
  split at h
  · rename_i he
    cases h
    exact he
  · split at h
    · rename_i he
      cases h
      exact he
    · cases h

/-- A text begins with a character that begins no word, or with a word. -/
theorem exists_word (text : List Char) (h : text ≠ []) :
    (∃ c rest, text = c :: rest ∧ isIdentStart c = false) ∨
      ∃ word rest, text = word ++ rest ∧ isIdentifier word = true ∧ EndsWord rest := by
  obtain ⟨c, rest, rfl⟩ := List.exists_cons_of_ne_nil h
  cases hc : isIdentStart c with
  | false => exact Or.inl ⟨c, rest, rfl, hc⟩
  | true =>
    obtain ⟨word, after, -, rfl, hword, hafter⟩ := spanWord_spec rest
    exact Or.inr ⟨c :: word, after, rfl, isIdentifier_cons_iff.mpr ⟨hc, hword⟩, hafter⟩

/-- What holds of the empty text, and of a text as soon as it holds of what stands behind its
first word, or its first character if that begins no word, holds of every text. -/
theorem wordInduction {motive : List Char → Prop} (nil : motive [])
    (skip : ∀ c rest, isIdentStart c = false → motive rest → motive (c :: rest))
    (word : ∀ word rest, isIdentifier word = true → EndsWord rest → motive rest →
      motive (word ++ rest))
    (text : List Char) : motive text := by
  by_cases h : text = []
  · rw [h]
    exact nil
  rcases exists_word text h with ⟨c, rest, htext, hc⟩ | ⟨w, rest, htext, hw, hrest⟩
  · have hlt : rest.length < text.length := htext ▸ Nat.lt_succ_self _
    rw [htext]
    exact skip c rest hc (wordInduction nil skip word rest)
  · have hlt : rest.length < text.length := htext ▸ length_lt_of_isIdentifier hw rest
    rw [htext]
    exact word w rest hw hrest (wordInduction nil skip word rest)
termination_by text.length

/-! ## One step -/

/-- The blocks of a text from a keyword on; `after` follows the keyword. -/
def blocksAfter (keyword : Keyword) (after : List Char) : List Block :=
  match Text.cut? '\x7b' after with
  | none => [.malformed (trim after) (.withoutBody keyword)]
  | some (header, body) =>
    match closing? 0 body with
    | none =>
      if isIdentifier (trim header) then [.malformed (trim header) .unbalanced]
      else .malformed (trim header) (.invalidName keyword) :: blocks after
    | some (inner, behind) =>
      if isIdentifier (trim header) then readBlock keyword (trim header) inner :: blocks behind
      else
        .malformed (trim header) (.invalidName keyword) ::
          blocks (if holdsKeyword (trim header) then after else behind)

theorem blocks_cons_of_not_isIdentStart {c : Char} (h : isIdentStart c = false)
    (rest : List Char) : blocks (c :: rest) = blocks rest := by
  rw [blocks, if_neg (by simp [h])]

theorem blocks_word_append {word rest : List Char} (hword : isIdentifier word = true)
    (hrest : EndsWord rest) :
    blocks (word ++ rest) =
      match Keyword.ofWord? word with
      | none => blocks rest
      | some keyword => blocksAfter keyword rest := by
  cases word with
  | nil => cases hword
  | cons c word =>
    obtain ⟨hc, hword⟩ := isIdentifier_cons_iff.mp hword
    rw [List.cons_append, blocks, if_pos hc]
    split
    rename_i word' after hspan
    rw [spanWord_append hword hrest] at hspan
    cases hspan
    cases Keyword.ofWord? (c :: word) with
    | none => rfl
    | some keyword =>
      dsimp only [blocksAfter]
      split
      · rename_i hcut
        rw [hcut]
      · rename_i header body hcut
        rw [hcut]
        dsimp only
        split <;> rename_i hclose <;> rw [hclose]

theorem blocks_keyword_append (keyword : Keyword) {after : List Char} (hafter : EndsWord after) :
    blocks (keyword.word ++ after) = blocksAfter keyword after := by
  rw [blocks_word_append (isIdentifier_word keyword) hafter, ofWord?_word]

/-- One step of the reading: the text, the blocks that the step reports, and the text at
which the reading goes on. -/
inductive Scan : List Char → List Block → List Char → Prop
  /-- A character that begins no word. -/
  | skip {c : Char} {rest : List Char} (hc : isIdentStart c = false) : Scan (c :: rest) [] rest
  /-- A word that is no keyword. -/
  | word {word rest : List Char} (hword : isIdentifier word = true)
      (hkeyword : Keyword.ofWord? word = none) (hrest : EndsWord rest) :
    Scan (word ++ rest) [] rest
  /-- A keyword that no brace follows ends the reading. -/
  | withoutBody {keyword : Keyword} {after : List Char} (hafter : EndsWord after)
      (hcut : Text.cut? '\x7b' after = none) :
    Scan (keyword.word ++ after) [.malformed (trim after) (.withoutBody keyword)] []
  /-- So does a brace, behind a proper name, that is never closed. -/
  | unbalanced {keyword : Keyword} {after header body : List Char} (hafter : EndsWord after)
      (hcut : Text.cut? '\x7b' after = some (header, body))
      (hname : isIdentifier (trim header) = true) (hclose : closing? 0 body = none) :
    Scan (keyword.word ++ after) [.malformed (trim header) .unbalanced] []
  /-- Behind no proper name a brace that is never closed, or that belongs to a further
  keyword in front of it, is left to be read. -/
  | nameless {keyword : Keyword} {after header body : List Char} (hafter : EndsWord after)
      (hcut : Text.cut? '\x7b' after = some (header, body))
      (hname : isIdentifier (trim header) = false)
      (hleave : closing? 0 body = none ∨ holdsKeyword (trim header) = true) :
    Scan (keyword.word ++ after) [.malformed (trim header) (.invalidName keyword)] after
  /-- Any other brace behind no proper name is skipped with its body. -/
  | misnamed {keyword : Keyword} {after header body inner behind : List Char}
      (hafter : EndsWord after) (hcut : Text.cut? '\x7b' after = some (header, body))
      (hname : isIdentifier (trim header) = false)
      (hclose : closing? 0 body = some (inner, behind))
      (hholds : holdsKeyword (trim header) = false) :
    Scan (keyword.word ++ after) [.malformed (trim header) (.invalidName keyword)] behind
  /-- A block with a proper name and a closed body. -/
  | block {keyword : Keyword} {after header body inner behind : List Char}
      (hafter : EndsWord after) (hcut : Text.cut? '\x7b' after = some (header, body))
      (hname : isIdentifier (trim header) = true)
      (hclose : closing? 0 body = some (inner, behind)) :
    Scan (keyword.word ++ after) [readBlock keyword (trim header) inner] behind

theorem blocks_nil : blocks [] = [] := by rw [blocks]

/-- The blocks of a text are those of its first step and those of the text behind it. -/
theorem Scan.blocks_eq {text rest : List Char} {found : List Block} (h : Scan text found rest) :
    blocks text = found ++ blocks rest := by
  cases h with
  | skip hc => exact blocks_cons_of_not_isIdentStart hc _
  | word hword hkeyword hrest =>
    rw [blocks_word_append hword hrest, hkeyword]
    rfl
  | withoutBody hafter hcut =>
    rw [blocks_keyword_append _ hafter, blocksAfter, hcut, blocks_nil]
    rfl
  | unbalanced hafter hcut hname hclose =>
    simp only [blocks_keyword_append _ hafter, blocksAfter, hcut, hclose, hname, if_true,
      blocks_nil, List.append_nil]
  | @nameless keyword after header body hafter hcut hname hleave =>
    simp only [blocks_keyword_append _ hafter, blocksAfter, hcut, hname]
    rcases hleave with hclose | hholds
    · rw [hclose]
      rfl
    · cases closing? 0 body with
      | none => rfl
      | some parts => simp [hholds]
  | misnamed hafter hcut hname hclose hholds =>
    simp [blocks_keyword_append _ hafter, blocksAfter, hcut, hclose, hname, hholds]
  | block hafter hcut hname hclose =>
    simp [blocks_keyword_append _ hafter, blocksAfter, hcut, hclose, hname]

/-- A text that is not empty has a first step, and the step leaves less to read. -/
theorem exists_scan {text : List Char} (h : text ≠ []) :
    ∃ found rest, Scan text found rest ∧ rest.length < text.length := by
  rcases exists_word text h with ⟨c, rest, rfl, hc⟩ | ⟨word, after, rfl, hword, hafter⟩
  · exact ⟨[], rest, .skip hc, Nat.lt_succ_self _⟩
  have hlt : after.length < (word ++ after).length := length_lt_of_isIdentifier hword after
  cases hk : Keyword.ofWord? word with
  | none => exact ⟨[], after, .word hword hk hafter, hlt⟩
  | some keyword =>
    obtain rfl : word = keyword.word := eq_word_of_ofWord? hk
    cases hcut : Text.cut? '\x7b' after with
    | none => exact ⟨_, [], .withoutBody hafter hcut, Nat.zero_lt_of_lt hlt⟩
    | some parts =>
      obtain ⟨header, body⟩ := parts
      have hbody := Text.length_lt_of_cut? hcut
      cases hclose : closing? 0 body with
      | none =>
        cases hname : isIdentifier (trim header) with
        | true => exact ⟨_, [], .unbalanced hafter hcut hname hclose, Nat.zero_lt_of_lt hlt⟩
        | false => exact ⟨_, after, .nameless hafter hcut hname (Or.inl hclose), hlt⟩
      | some parts =>
        obtain ⟨inner, behind⟩ := parts
        have hbehind := length_lt_of_closing? hclose
        cases hname : isIdentifier (trim header) with
        | true => exact ⟨_, behind, .block hafter hcut hname hclose, by omega⟩
        | false =>
          cases hholds : holdsKeyword (trim header) with
          | true => exact ⟨_, after, .nameless hafter hcut hname (Or.inr hholds), hlt⟩
          | false => exact ⟨_, behind, .misnamed hafter hcut hname hclose hholds, by omega⟩

/-- What holds of the empty text, and of a text as soon as it holds of the one that its
first step leaves, holds of every text. -/
theorem scanInduction {motive : List Char → Prop} (nil : motive [])
    (step : ∀ text found rest, Scan text found rest → motive rest → motive text)
    (text : List Char) : motive text := by
  by_cases h : text = []
  · rw [h]
    exact nil
  · obtain ⟨found, rest, hscan, hlt⟩ := exists_scan h
    exact step text found rest hscan (scanInduction nil step rest)
termination_by text.length

/-! ## Braces -/

/-- A text in which the braces that are opened are closed again, and no others. -/
inductive Balanced : List Char → Prop
  /-- The empty text. -/
  | nil : Balanced []
  /-- A character that is no brace. -/
  | plain {c : Char} {rest : List Char} (hopen : c ≠ '\x7b') (hclose : c ≠ '\x7d')
      (hrest : Balanced rest) : Balanced (c :: rest)
  /-- A pair of braces. -/
  | braces {inner rest : List Char} (hinner : Balanced inner) (hrest : Balanced rest) :
    Balanced ('\x7b' :: (inner ++ '\x7d' :: rest))

theorem closing?_plain {depth : Nat} {c : Char} (hopen : c ≠ '\x7b') (hclose : c ≠ '\x7d')
    (text : List Char) :
    closing? depth (c :: text) =
      (closing? depth text).map (Prod.map (c :: ·) id) := by
  rw [closing?.eq_def]
  simp only [if_neg hclose, if_neg hopen]
  rfl

theorem closing?_open (depth : Nat) (text : List Char) :
    closing? depth ('\x7b' :: text) =
      (closing? (depth + 1) text).map (Prod.map ('\x7b' :: ·) id) := by
  rw [closing?.eq_def]
  rfl

/-- Balanced text stays in front of the brace that closes. -/
theorem closing?_balanced_append {front : List Char} (h : Balanced front) (depth : Nat)
    (text : List Char) :
    closing? depth (front ++ text) =
      (closing? depth text).map (Prod.map (front ++ ·) id) := by
  induction h generalizing depth text with
  | nil =>
    rw [List.nil_append]
    cases closing? depth text <;> rfl
  | plain hopen hclose hrest ih =>
    rw [List.cons_append, closing?_plain hopen hclose, ih, Option.map_map]
    rfl
  | @braces inner rest hinner hrest ihinner ihrest =>
    have hback : closing? (depth + 1) ('\x7d' :: (rest ++ text)) =
        (closing? depth (rest ++ text)).map (Prod.map ('\x7d' :: ·) id) := by
      rw [closing?, if_pos rfl]
      rfl
    rw [List.cons_append, List.append_assoc, List.cons_append, closing?_open, ihinner, hback,
      ihrest, Option.map_map, Option.map_map, Option.map_map]
    congr 1
    funext parts
    simp [Prod.map]

theorem closing?_balanced {inner : List Char} (h : Balanced inner) (behind : List Char) :
    closing? 0 (inner ++ '\x7d' :: behind) = some (inner, behind) := by
  rw [closing?_balanced_append h, closing?, if_pos rfl]
  simp

theorem balanced_of_not_mem {text : List Char} (hopen : '\x7b' ∉ text) (hclose : '\x7d' ∉ text) :
    Balanced text := by
  induction text with
  | nil => exact .nil
  | cons c rest ih =>
    exact .plain (Ne.symm (List.ne_of_not_mem_cons hopen))
      (Ne.symm (List.ne_of_not_mem_cons hclose))
      (ih (List.not_mem_of_not_mem_cons hopen) (List.not_mem_of_not_mem_cons hclose))

theorem eq_of_closing?_eq_some {depth : Nat} {text inner behind : List Char}
    (h : closing? depth text = some (inner, behind)) : text = inner ++ '\x7d' :: behind := by
  induction text generalizing depth inner with
  | nil => cases h
  | cons c rest ih =>
    unfold closing? at h
    split at h
    · rename_i hc
      split at h
      · cases h
        rw [hc]
        rfl
      · obtain ⟨⟨b, a⟩, hb, he⟩ := Option.map_eq_some_iff.mp h
        cases he
        rw [ih hb]
        rfl
    · obtain ⟨⟨b, a⟩, hb, he⟩ := Option.map_eq_some_iff.mp h
      cases he
      rw [ih hb]
      rfl

/-- A text behind which some open braces are closed: balanced pieces, as many as there are
braces to close, and the last of them in front of the brace that closes the first. -/
inductive Closes : Nat → List Char → Prop
  /-- A balanced text in front of the last brace. -/
  | last {piece : List Char} (h : Balanced piece) : Closes 0 piece
  /-- A balanced text and a brace in front of the others. -/
  | next {depth : Nat} {piece rest : List Char} (h : Balanced piece) (hrest : Closes depth rest) :
    Closes (depth + 1) (piece ++ '\x7d' :: rest)

theorem Closes.plain {depth : Nat} {text : List Char} (h : Closes depth text) {c : Char}
    (hopen : c ≠ '\x7b') (hclose : c ≠ '\x7d') : Closes depth (c :: text) := by
  cases h with
  | last h => exact .last (.plain hopen hclose h)
  | next h hrest => exact .next (.plain hopen hclose h) hrest

theorem Closes.open {depth : Nat} {text : List Char} (h : Closes (depth + 1) text) :
    Closes depth ('\x7b' :: text) := by
  cases h with
  | @next _ inner rest h hrest =>
    cases hrest with
    | last hlast => exact .last (.braces h hlast)
    | @next _ piece after hpiece hafter =>
      have hjoin := Closes.next (.braces h hpiece) hafter
      simpa using hjoin

theorem closes_of_closing?_eq_some {depth : Nat} {text inner behind : List Char}
    (h : closing? depth text = some (inner, behind)) : Closes depth inner := by
  induction text generalizing depth inner with
  | nil => cases h
  | cons c rest ih =>
    unfold closing? at h
    split at h
    · rename_i hc
      subst hc
      split at h
      · cases h
        exact .last .nil
      · obtain ⟨⟨b, a⟩, hb, he⟩ := Option.map_eq_some_iff.mp h
        cases he
        exact .next .nil (ih hb)
    · rename_i hclose
      obtain ⟨⟨b, a⟩, hb, he⟩ := Option.map_eq_some_iff.mp h
      cases he
      split at hb
      · rename_i hopen
        exact hopen ▸ (ih hb).open
      · rename_i hopen
        exact (ih hb).plain hopen hclose

/-- The brace that is found is the one that matches. -/
theorem closing?_eq_some_iff {text inner behind : List Char} :
    closing? 0 text = some (inner, behind) ↔
      text = inner ++ '\x7d' :: behind ∧ Balanced inner := by
  constructor
  · intro h
    refine ⟨eq_of_closing?_eq_some h, ?_⟩
    cases closes_of_closing?_eq_some h with
    | last hinner => exact hinner
  · rintro ⟨rfl, hinner⟩
    exact closing?_balanced hinner behind

/-! ## Where blocks stand -/

theorem Scan.suffix {text rest : List Char} {found : List Block} (h : Scan text found rest) :
    rest <:+ text := by
  have hbehind : ∀ {keyword : Keyword} {after header body inner behind : List Char},
      Text.cut? '\x7b' after = some (header, body) → closing? 0 body = some (inner, behind) →
      behind <:+ keyword.word ++ after := by
    intro keyword after header body inner behind hcut hclose
    rw [Text.eq_of_cut?_eq_some hcut, eq_of_closing?_eq_some hclose]
    exact ⟨keyword.word ++ (header ++ '\x7b' :: inner ++ ['\x7d']), by simp⟩
  cases h with
  | skip => exact List.suffix_cons _ _
  | word => exact List.suffix_append _ _
  | withoutBody => exact List.nil_suffix
  | unbalanced => exact List.nil_suffix
  | nameless => exact List.suffix_append _ _
  | misnamed _ hcut _ hclose _ => exact hbehind hcut hclose
  | block _ hcut _ hclose => exact hbehind hcut hclose

/-- In a text there is a block with a keyword, a name and a body, and something behind it. -/
inductive BlockIn (k : Keyword) (name body behind : List Char) : List Char → Prop
  /-- The name stands between the keyword and the brace, which the next free one closes. -/
  | mk {before header : List Char} (hname : trim header = name) (hbody : Balanced body) :
    BlockIn k name body behind
      (before ++ (k.word ++ (header ++ '\x7b' :: (body ++ '\x7d' :: behind))))

theorem BlockIn.of_suffix {k : Keyword} {name body behind rest text : List Char}
    (h : BlockIn k name body behind rest) (hrest : rest <:+ text) :
    BlockIn k name body behind text := by
  obtain ⟨front, rfl⟩ := hrest
  cases h with
  | mk hname hbody =>
    rw [← List.append_assoc]
    exact .mk hname hbody

/-- Where a well-formed block is found, it stands in the text, and the later ones behind it. -/
theorem exists_blockIn {text : List Char} {front back : List Block} {b : Block}
    (h : blocks text = front ++ b :: back) (hb : b.malformed? = none) :
    ∃ k name body behind, BlockIn k name body behind text ∧ isIdentifier name = true ∧
      readBlock k name body = b ∧ blocks behind = back := by
  induction text using scanInduction generalizing front with
  | nil =>
    rw [blocks_nil] at h
    simp at h
  | step text found rest hscan ih =>
    have hlater : ∀ front', blocks rest = front' ++ b :: back →
        ∃ k name body behind, BlockIn k name body behind text ∧ isIdentifier name = true ∧
          readBlock k name body = b ∧ blocks behind = back := by
      intro front' hrest
      obtain ⟨k, name, body, behind, hin, hblock⟩ := ih hrest
      exact ⟨k, name, body, behind, hin.of_suffix hscan.suffix, hblock⟩
    rw [hscan.blocks_eq] at h
    cases hscan with
    | skip | word => exact hlater front h
    | withoutBody | unbalanced | nameless | misnamed =>
      rcases List.cons_eq_append_iff.mp h with ⟨-, hfirst⟩ | ⟨front', -, hrest⟩
      · cases hfirst
        cases hb
      · exact hlater front' hrest
    | @block k _ header _ inner _ _ hcut hname hclose =>
      rcases List.cons_eq_append_iff.mp h with ⟨-, hfirst⟩ | ⟨front', -, hrest⟩
      · obtain ⟨rfl, hinner⟩ := closing?_eq_some_iff.mp hclose
        cases hfirst
        rw [Text.eq_of_cut?_eq_some hcut]
        exact ⟨k, _, inner, rest, @BlockIn.mk k _ inner rest [] header rfl hinner, hname, rfl, rfl⟩
      · exact hlater front' hrest

/-- A well-formed block is read from a name and a body. -/
theorem exists_readBlock_of_mem_blocks {text : List Char} {b : Block} (h : b ∈ blocks text)
    (hb : b.malformed? = none) :
    ∃ k name body, isIdentifier name = true ∧ readBlock k name body = b := by
  obtain ⟨front, back, hsplit⟩ := List.append_of_mem h
  obtain ⟨k, name, body, -, -, hname, hread, -⟩ := exists_blockIn hsplit hb
  exact ⟨k, name, body, hname, hread⟩

end LiteChat.Schema
