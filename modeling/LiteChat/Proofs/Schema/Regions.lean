import LiteChat.Proofs.Schema.Comments
import LiteChat.Schema.Block

/-!
# The regions of a text

A text is code with comments in it.  It is read region by region: code up to the next opener,
a line comment up to its line break, a block comment up to the first closer behind its opener
(`Leaves`).  A comment that is not closed is the last region of its text.  What the regions
leave is what the reader of comments leaves (`leaves_iff`).

No comment opens in what is left.  A slash of the code is left only if neither a slash nor a
star stands behind it, and what comes to stand behind it is either the same character as
before or the front of a comment, whose slash would have made an opener already
(`OpensComment.of_leaves`).  So there is nothing to take out a second time (`uncomments`).
-/

namespace LiteChat.Schema

/-- A part of a text. -/
inductive Region where
  /-- Outside comments. -/
  | code
  /-- A line comment, behind its opener. -/
  | line
  /-- A block comment, behind its opener. -/
  | block
  deriving DecidableEq, Repr

/-- What opens a region. -/
def Region.opener : Region → List Char
  | .code => []
  | .line => ['/', '/']
  | .block => ['/', '*']

/-- Where the reader of comments stands at the front of a region. -/
def Region.mode : Region → Mode
  | .code => .code
  | .line => .line
  | .block => .block false

/-- A text that begins in one region and ends in another, and what its comments leave of it. -/
inductive Leaves : Region → List Char → List Char → Region → Prop
  /-- The text ends. -/
  | done : Leaves .code [] [] .code
  /-- A character of the code is left. -/
  | plain {c : Char} {rest left : List Char} {e : Region} (h : ¬ OpensComment (c :: rest))
      (hrest : Leaves .code rest left e) : Leaves .code (c :: rest) (c :: left) e
  /-- Two slashes open a line comment. -/
  | openLine {rest left : List Char} {e : Region} (hrest : Leaves .line rest left e) :
    Leaves .code ('/' :: '/' :: rest) left e
  /-- A slash and a star open a block comment. -/
  | openBlock {rest left : List Char} {e : Region} (hrest : Leaves .block rest left e) :
    Leaves .code ('/' :: '*' :: rest) left e
  /-- The line break ends a line comment, and is left. -/
  | closeLine {body rest left : List Char} {e : Region} (h : '\n' ∉ body)
      (hrest : Leaves .code rest left e) :
    Leaves .line (body ++ '\n' :: rest) ('\n' :: left) e
  /-- A line comment runs to the end. -/
  | lastLine {body : List Char} (h : '\n' ∉ body) : Leaves .line body [] .line
  /-- The first closer ends a block comment, and a space is left. -/
  | closeBlock {body rest left : List Char} {e : Region} (h : ¬ ['*', '/'] <:+: body)
      (hrest : Leaves .code rest left e) :
    Leaves .block (body ++ '*' :: '/' :: rest) (' ' :: left) e
  /-- A block comment runs to the end, and a space is left. -/
  | lastBlock {body : List Char} (h : ¬ ['*', '/'] <:+: body) : Leaves .block body [' '] .block

/-! ## The regions and the reader -/

theorem Leaves.eq {r e : Region} {text left : List Char} (h : Leaves r text left e) :
    left = stripFrom r.mode text := by
  induction h with
  | done => rfl
  | plain h hrest ih => rw [Region.mode, stripFrom_code_cons h, ih, Region.mode]
  | openLine hrest ih => rw [ih, Region.mode, Region.mode, stripFrom_lineOpener]
  | openBlock hrest ih => rw [ih, Region.mode, Region.mode, stripFrom_blockOpener]
  | closeLine h hrest ih => rw [Region.mode, stripFrom_line h, ih, Region.mode]
  | lastLine h => rw [Region.mode, stripFrom_line_last h]
  | closeBlock h hrest ih => rw [Region.mode, stripFrom_block h, ih, Region.mode]
  | lastBlock h => rw [Region.mode, stripFrom_block_last h]

/-- A text without a closer, or what stands around its first one. -/
theorem exists_first_closer (text : List Char) :
    ¬ ['*', '/'] <:+: text ∨
      ∃ body rest, text = body ++ '*' :: '/' :: rest ∧ ¬ ['*', '/'] <:+: body := by
  induction text with
  | nil => exact .inl (by simp)
  | cons c text ih =>
    by_cases hfront : c = '*' ∧ text.head? = some '/'
    · obtain ⟨rfl, hslash⟩ := hfront
      obtain ⟨rest, rfl⟩ := List.head?_eq_some_iff.mp hslash
      exact .inr ⟨[], rest, rfl, by simp⟩
    · rcases ih with hnone | ⟨body, rest, rfl, hbody⟩
      · exact .inl (closer_infix_cons_iff.not.mpr (not_or.mpr ⟨hfront, hnone⟩))
      · have hslash : body.head? = some '/' → (body ++ '*' :: '/' :: rest).head? = some '/' := by
          intro hhead
          obtain ⟨more, rfl⟩ := List.head?_eq_some_iff.mp hhead
          rfl
        have hstart : ¬ (c = '*' ∧ body.head? = some '/') := fun ⟨hc, hhead⟩ =>
          hfront ⟨hc, hslash hhead⟩
        exact .inr ⟨c :: body, rest, rfl,
          closer_infix_cons_iff.not.mpr (not_or.mpr ⟨hstart, hbody⟩)⟩

/-- Every text is read to its end. -/
theorem exists_leaves (r : Region) (text : List Char) : ∃ left e, Leaves r text left e := by
  induction hn : text.length using Nat.strong_induction_on generalizing r text with
  | _ n ih =>
    subst hn
    cases r with
    | code =>
      cases text with
      | nil => exact ⟨_, _, .done⟩
      | cons c rest =>
        by_cases hopen : OpensComment (c :: rest)
        · obtain ⟨d, after, he, hd⟩ := hopen
          have hshort : after.length < (c :: rest).length := by
            rw [he, List.length_cons, List.length_cons]
            omega
          rw [he]
          rcases hd with rfl | rfl
          · obtain ⟨left, e, h⟩ := ih after.length hshort .line after rfl
            exact ⟨left, e, .openLine h⟩
          · obtain ⟨left, e, h⟩ := ih after.length hshort .block after rfl
            exact ⟨left, e, .openBlock h⟩
        · obtain ⟨left, e, h⟩ := ih rest.length (Nat.lt_succ_self _) .code rest rfl
          exact ⟨c :: left, e, .plain hopen h⟩
    | line =>
      by_cases hbreak : '\n' ∈ text
      · obtain ⟨body, rest, rfl, hbody⟩ := List.eq_append_cons_of_mem hbreak
        have hshort : rest.length < (body ++ '\n' :: rest).length := by
          rw [List.length_append, List.length_cons]
          omega
        obtain ⟨left, e, h⟩ := ih rest.length hshort .code rest rfl
        exact ⟨_, _, .closeLine hbody h⟩
      · exact ⟨_, _, .lastLine hbreak⟩
    | block =>
      rcases exists_first_closer text with hnone | ⟨body, rest, rfl, hbody⟩
      · exact ⟨_, _, .lastBlock hnone⟩
      · have hshort : rest.length < (body ++ '*' :: '/' :: rest).length := by
          rw [List.length_append, List.length_cons, List.length_cons]
          omega
        obtain ⟨left, e, h⟩ := ih rest.length hshort .code rest rfl
        exact ⟨_, _, .closeBlock hbody h⟩

/-- What the regions of a text leave is the text without its comments. -/
theorem leaves_iff {text left : List Char} :
    (∃ e, Leaves .code text left e) ↔ left = stripComments text := by
  constructor
  · rintro ⟨e, h⟩
    exact h.eq
  · rintro rfl
    obtain ⟨left, e, h⟩ := exists_leaves .code text
    have hleft : left = stripComments text := h.eq
    exact ⟨e, hleft ▸ h⟩

/-- A text that does not end in a block comment has all its block comments closed. -/
theorem Leaves.commentsClosed {r e : Region} {text left : List Char} (h : Leaves r text left e)
    (he : e ≠ .block) : CommentsClosed (r.opener ++ text) := by
  induction h with
  | done => exact .nil
  | plain h hrest ih => exact .plain h (ih he)
  | openLine hrest ih | openBlock hrest ih => exact ih he
  | closeLine h hrest ih => simpa [Region.opener] using CommentsClosed.comment (.line h) (ih he)
  | lastLine h => exact .lastLine h
  | closeBlock h hrest ih => simpa [Region.opener] using CommentsClosed.comment (.block h) (ih he)
  | lastBlock h => exact absurd rfl he

/-! ## What is left -/

theorem uncommented_nil : Uncommented [] := by
  rintro rest hrest ⟨d, after, rfl, -⟩
  cases List.suffix_nil.mp hrest

theorem uncommented_cons_iff {c : Char} {text : List Char} :
    Uncommented (c :: text) ↔ ¬ OpensComment (c :: text) ∧ Uncommented text := by
  constructor
  · intro h
    exact ⟨h _ List.suffix_rfl, fun rest hrest => h rest (hrest.trans (List.suffix_cons c text))⟩
  · rintro ⟨hfront, htext⟩ rest hrest
    rcases List.suffix_cons_iff.mp hrest with rfl | hrest
    · exact hfront
    · exact htext rest hrest

theorem uncommented_iff {text : List Char} :
    Uncommented text ↔ ¬ ['/', '/'] <:+: text ∧ ¬ ['/', '*'] <:+: text := by
  constructor
  · intro h
    constructor <;> rintro ⟨front, rest, rfl⟩
    · exact h ('/' :: '/' :: rest) ⟨front, by simp⟩ ⟨'/', rest, rfl, .inl rfl⟩
    · exact h ('/' :: '*' :: rest) ⟨front, by simp⟩ ⟨'*', rest, rfl, .inr rfl⟩
  · rintro ⟨hline, hblock⟩ rest hrest ⟨d, after, rfl, rfl | rfl⟩
    · exact hline (List.IsInfix.trans ⟨[], after, rfl⟩ hrest.isInfix)
    · exact hblock (List.IsInfix.trans ⟨[], after, rfl⟩ hrest.isInfix)

/-- Comments that are taken out behind a character make no opener with it: the opener was there
before. -/
theorem OpensComment.of_leaves {c : Char} {rest left : List Char} {e : Region}
    (hrest : Leaves .code rest left e) (h : OpensComment (c :: left)) :
    OpensComment (c :: rest) := by
  cases hrest with
  | done => exact h
  | plain => exact opensComment_cons_cons_iff.mpr (opensComment_cons_cons_iff.mp h)
  | openLine | openBlock =>
    obtain ⟨d, after, he, -⟩ := h
    exact opensComment_cons_cons_iff.mpr ⟨(List.cons.inj he).1, .inl rfl⟩

theorem Leaves.uncommented {r e : Region} {text left : List Char} (h : Leaves r text left e) :
    Uncommented left := by
  induction h with
  | done | lastLine => exact uncommented_nil
  | plain h hrest ih =>
    exact uncommented_cons_iff.mpr ⟨fun hopen => h (.of_leaves hrest hopen), ih⟩
  | openLine hrest ih | openBlock hrest ih => exact ih
  | closeLine h hrest ih | closeBlock h hrest ih =>
    exact uncommented_cons_iff.mpr ⟨not_opensComment_of_ne (by decide) _, ih⟩
  | lastBlock h =>
    exact uncommented_cons_iff.mpr ⟨not_opensComment_of_ne (by decide) _, uncommented_nil⟩

theorem uncommented_stripComments (text : List Char) : Uncommented (stripComments text) := by
  obtain ⟨e, h⟩ := leaves_iff.mpr (rfl : stripComments text = stripComments text)
  exact h.uncommented

/-- A text in which no comment opens is left as it is. -/
theorem stripComments_of_uncommented {text : List Char} (h : Uncommented text) :
    stripComments text = text := by
  induction text with
  | nil => rfl
  | cons c text ih =>
    obtain ⟨hfront, htext⟩ := uncommented_cons_iff.mp h
    rw [stripComments, stripFrom_code_cons hfront]
    exact congrArg (c :: ·) (ih htext)

theorem stripComments_stripComments (text : List Char) :
    stripComments (stripComments text) = stripComments text :=
  stripComments_of_uncommented (uncommented_stripComments text)

/-- What taking the comments out of a text comes to. -/
structure Uncomments (text : List Char) : Prop where
  /-- The regions of the text leave one text, which is the text without its comments. -/
  regions : ∀ left, (∃ e, Leaves .code text left e) ↔ left = stripComments text
  /-- Nothing in it opens a comment. -/
  no_opener : ¬ ['/', '/'] <:+: stripComments text ∧ ¬ ['/', '*'] <:+: stripComments text
  /-- Taking comments out of it again changes nothing. -/
  again : stripComments (stripComments text) = stripComments text
  /-- A text without openers is left as it is. -/
  plain : ¬ ['/', '/'] <:+: text → ¬ ['/', '*'] <:+: text → stripComments text = text
  /-- It declares what the text declares. -/
  declares : compile (stripComments text) = compile text
  /-- If the text does not end in a block comment, the text on the lines below it is read for
  itself. -/
  below : ∀ left e, Leaves .code text left e → e ≠ .block → ∀ rest,
    stripComments (text ++ '\n' :: rest) = stripComments text ++ '\n' :: stripComments rest

/-- **Comments are taken out region by region, and no new ones arise.** -/
theorem uncomments (text : List Char) : Uncomments text where
  regions _ := leaves_iff
  no_opener := uncommented_iff.mp (uncommented_stripComments text)
  again := stripComments_stripComments text
  plain hline hblock := stripComments_of_uncommented (uncommented_iff.mpr ⟨hline, hblock⟩)
  declares := by rw [compile, compile, stripComments_stripComments]
  below _ _ h he rest := stripFrom_lineBreak (h.commentsClosed he) rest

/-- The slashes around a comment do not meet, and the last line is a comment. -/
example : stripComments "/ /**// a\n//*".toList = "/  / a\n".toList := by decide

end LiteChat.Schema
