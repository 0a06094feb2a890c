import LiteChat.Proofs.Schema.Comments
import LiteChat.Proofs.Schema.Scanning
import LiteChat.Proofs.Schema.WellFormed

/-!
# Schema texts one below the other

What a text declares, and what is reported of it, does not depend on the text below it,
unless the reading runs out of the text: through a block comment that is still open, a
brace that is not closed, or a keyword that no brace follows.  Without these a step of the
reading is the same step when more text follows (`Scan.join`), so that the blocks of the
joined text are those of the two texts one after another (`blocks_join`), and so are their
declarations and their faults (`compile_join`).
-/

namespace LiteChat.Schema

/-! ## Braces that are closed -/

/-- Every brace that is opened in a text is closed in it. -/
def BracesMatched (text : List Char) : Prop :=
  ∀ before after, text = before ++ '\x7b' :: after →
    ∃ inner behind, after = inner ++ '\x7d' :: behind ∧ Balanced inner

theorem BracesMatched.of_suffix {text rest : List Char} (h : BracesMatched text)
    (hrest : rest <:+ text) : BracesMatched rest := by
  obtain ⟨front, rfl⟩ := hrest
  rintro before after rfl
  exact h (front ++ before) after (List.append_assoc ..).symm

/-- Braces are matched as soon as each one that is opened is found to be closed. -/
theorem bracesMatched_iff {text : List Char} :
    BracesMatched text ↔
      ∀ rest ∈ text.tails, rest.head? = some '\x7b' → (closing? 0 rest.tail).isSome = true := by
  constructor
  · intro h rest hrest hhead
    obtain ⟨before, rfl⟩ := (List.mem_tails ..).mp hrest
    cases rest with
    | nil => cases hhead
    | cons c after =>
      cases hhead
      obtain ⟨inner, behind, rfl, hinner⟩ := h before after rfl
      rw [List.tail_cons, closing?_balanced hinner]
      rfl
  · rintro h before after rfl
    have hsome := h ('\x7b' :: after) ((List.mem_tails ..).mpr ⟨before, rfl⟩) rfl
    obtain ⟨⟨inner, behind⟩, hclose⟩ := Option.isSome_iff_exists.mp hsome
    obtain ⟨rfl, hinner⟩ := closing?_eq_some_iff.mp hclose
    exact ⟨inner, behind, rfl, hinner⟩

instance (text : List Char) : Decidable (BracesMatched text) :=
  decidable_of_iff _ bracesMatched_iff.symm

theorem closing?_append_of_eq_some {depth : Nat} {text inner behind : List Char}
    (h : closing? depth text = some (inner, behind)) (more : List Char) :
    closing? depth (text ++ more) = some (inner, behind ++ more) := by
  induction text generalizing depth inner with
  | nil => cases h
  | cons c rest ih =>
    rw [List.cons_append]
    unfold closing? at h ⊢
    split at h
    · rename_i hc
      rw [if_pos hc]
      split at h
      · cases h
        rfl
      · obtain ⟨⟨b, a⟩, hb, he⟩ := Option.map_eq_some_iff.mp h
        cases he
        simp [ih hb]
    · rename_i hc
      rw [if_neg hc]
      obtain ⟨⟨b, a⟩, hb, he⟩ := Option.map_eq_some_iff.mp h
      cases he
      simp only [ih hb]
      rfl

/-- The brace that ends a header is closed. -/
theorem BracesMatched.closing?_ne_none {after header body : List Char} (h : BracesMatched after)
    (hcut : Text.cut? '\x7b' after = some (header, body)) : closing? 0 body ≠ none := by
  obtain ⟨inner, behind, rfl, hinner⟩ := h header body (Text.eq_of_cut?_eq_some hcut)
  rw [closing?_balanced hinner]
  exact Option.some_ne_none _

/-! ## The step and the whole reading -/

/-- More text below, apart from the last word, changes a step in nothing but what is left
to read. -/
theorem Scan.join {text rest : List Char} {found : List Block} (h : Scan text found rest)
    (hbraces : BracesMatched text)
    (hbodies : ∀ header k, Block.malformed header (.withoutBody k) ∉ found) {c : Char}
    (hc : isIdentChar c = false) (below : List Char) :
    Scan (text ++ c :: below) found (rest ++ c :: below) := by
  have hends : ∀ {after : List Char}, EndsWord after → EndsWord (after ++ c :: below) :=
    fun hafter => hafter.append (endsWord_cons hc below)
  cases h with
  | skip hstart => exact .skip hstart
  | word hword hkeyword hrest =>
    rw [List.append_assoc]
    exact .word hword hkeyword (hends hrest)
  | withoutBody => exact absurd (List.mem_singleton_self _) (hbodies _ _)
  | unbalanced hafter hcut hname hclose =>
    exact absurd hclose ((hbraces.of_suffix (List.suffix_append _ _)).closing?_ne_none hcut)
  | nameless hafter hcut hname hleave =>
    have hclose := (hbraces.of_suffix (List.suffix_append _ _)).closing?_ne_none hcut
    rw [List.append_assoc]
    exact .nameless (hends hafter) (Text.cut?_append_of_eq_some hcut _) hname
      (Or.inr (hleave.resolve_left hclose))
  | misnamed hafter hcut hname hclose hholds =>
    rw [List.append_assoc]
    exact .misnamed (hends hafter) (Text.cut?_append_of_eq_some hcut _) hname
      (closing?_append_of_eq_some hclose _) hholds
  | block hafter hcut hname hclose =>
    rw [List.append_assoc]
    exact .block (hends hafter) (Text.cut?_append_of_eq_some hcut _) hname
      (closing?_append_of_eq_some hclose _)

/-- The blocks of a text and the text below it are those of the one and then those of the
other. -/
theorem blocks_join {text : List Char} (hbraces : BracesMatched text)
    (hbodies : ∀ header k, Block.malformed header (.withoutBody k) ∉ blocks text) {c : Char}
    (hc : isIdentChar c = false) (below : List Char) :
    blocks (text ++ c :: below) = blocks text ++ blocks below := by
  induction text using scanInduction with
  | nil =>
    rw [blocks_nil]
    exact blocks_cons_of_not_isIdentStart (isIdentStart_eq_false hc) below
  | step text found rest hscan ih =>
    rw [hscan.blocks_eq] at hbodies ⊢
    have hfound : ∀ header k, Block.malformed header (.withoutBody k) ∉ found :=
      fun header k hm => hbodies header k (List.mem_append_left _ hm)
    have hrest := ih (hbraces.of_suffix hscan.suffix) fun header k hm =>
      hbodies header k (List.mem_append_right _ hm)
    rw [(hscan.join hbraces hfound hc below).blocks_eq, hrest, List.append_assoc]

/-! ## What the texts declare -/

theorem ofBlocks_append (front rest : List Block) :
    Compiled.ofBlocks (front ++ rest) =
      ⟨(Compiled.ofBlocks front).enums ++ (Compiled.ofBlocks rest).enums,
        (Compiled.ofBlocks front).messages ++ (Compiled.ofBlocks rest).messages,
        (Compiled.ofBlocks front).errors ++ (Compiled.ofBlocks rest).errors⟩ := by
  simp [Compiled.ofBlocks]

/-- A text whose comments and braces are closed, and in which no keyword lacks a body, is
compiled as if the text below it were not there, and so is the text below. -/
theorem compile_join {text : List Char} (hcomments : CommentsClosed text)
    (hbraces : BracesMatched (stripComments text))
    (hbodies : ∀ e ∈ (compile text).errors, ∀ k, e.fault ≠ .withoutBody k)
    (below : List Char) :
    compile (text ++ '\n' :: below) =
      ⟨(compile text).enums ++ (compile below).enums,
        (compile text).messages ++ (compile below).messages,
        (compile text).errors ++ (compile below).errors⟩ := by
  have hblocks : ∀ header k,
      Block.malformed header (.withoutBody k) ∉ blocks (stripComments text) := by
    intro header k hm
    exact hbodies ⟨String.ofList header, .withoutBody k⟩
      (List.mem_filterMap.mpr ⟨_, hm, rfl⟩) k rfl
  have hstrip : stripComments (text ++ '\n' :: below) =
      stripComments text ++ '\n' :: stripComments below := stripFrom_lineBreak hcomments below
  rw [compile, hstrip, blocks_join hbraces hblocks (by decide), ofBlocks_append]
  rfl

/-- A text with a block that has no proper name, a stray word and an open line comment. -/
def untidySource : List Char :=
  "message 9 \x7b enum \x7b\x7d \x7d optional // message".toList

theorem commentsClosed_untidySource : CommentsClosed untidySource := by
  have hfront : '/' ∉ "message 9 \x7b enum \x7b\x7d \x7d optional ".toList := by
    rw [String.toList_ofList]
    decide
  have hbody : '\n' ∉ " message".toList := by decide
  have htext : untidySource = "message 9 \x7b enum \x7b\x7d \x7d optional ".toList ++
      '/' :: '/' :: " message".toList := by
    unfold untidySource
    rw [String.toList_ofList, String.toList_ofList, String.toList_ofList]
    rfl
  rw [htext]
  exact .append_left hfront (.lastLine hbody)

theorem compile_join_untidySource :
    compile (untidySource ++ '\n' :: noteSource) =
      ⟨(compile untidySource).enums ++ (compile noteSource).enums,
        (compile untidySource).messages ++ (compile noteSource).messages,
        (compile untidySource).errors ++ (compile noteSource).errors⟩ ∧
    (compile untidySource).errors = [⟨"9", .invalidName .message⟩] := by
  have herrors : (compile untidySource).errors = [⟨"9", .invalidName .message⟩] := by
    unfold untidySource
    rw [String.toList_ofList]
    decide +kernel
  refine ⟨compile_join commentsClosed_untidySource (by decide +kernel) ?_ noteSource, herrors⟩
  intro e he k
  rw [herrors] at he
  rw [List.mem_singleton.mp he]
  exact BlockFault.noConfusion

end LiteChat.Schema
