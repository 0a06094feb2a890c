import Mathlib.Data.List.Infix
import LiteChat.Schema.Comment

/-!
# Texts and what their comments leave of them

The reader of comments goes through a text character by character.  Here the same is said
of whole pieces: a closed comment leaves a line break or a space (`ClosedComment`), text in
which no comment opens is left as it is (`Uncommented`), and a piece that leaves something
does so whatever stands behind it (`Strips`).  A text whose block comments are all closed
may end in a line comment or in a lone slash; a line break behind it puts an end to both,
so that such a text and the text on the lines below it do not meet
(`stripFrom_lineBreak`).
-/

namespace LiteChat.Schema

/-- Whether a comment opens at the front of a text. -/
def OpensComment (text : List Char) : Prop :=
  ∃ d rest, text = '/' :: d :: rest ∧ (d = '/' ∨ d = '*')

/-- A text in which no comment opens. -/
def Uncommented (text : List Char) : Prop := ∀ rest, rest <:+ text → ¬ OpensComment rest

/-- A comment that is closed, and what it leaves. -/
inductive ClosedComment : List Char → List Char → Prop
  /-- A line comment with the line break that ends it. -/
  | line {body : List Char} (h : '\n' ∉ body) :
    ClosedComment ('/' :: '/' :: body ++ ['\n']) ['\n']
  /-- A block comment, closed where it can be closed for the first time. -/
  | block {body : List Char} (h : ¬ ['*', '/'] <:+: body) :
    ClosedComment ('/' :: '*' :: body ++ ['*', '/']) [' ']

/-- A text whose block comments are all closed; its last line may end in a comment. -/
inductive CommentsClosed : List Char → Prop
  /-- The empty text. -/
  | nil : CommentsClosed []
  /-- A character that is no part of a comment. -/
  | plain {c : Char} {rest : List Char} (h : ¬ OpensComment (c :: rest))
      (hrest : CommentsClosed rest) : CommentsClosed (c :: rest)
  /-- A closed comment. -/
  | comment {text left rest : List Char} (h : ClosedComment text left)
      (hrest : CommentsClosed rest) : CommentsClosed (text ++ rest)
  /-- A line comment on the last line. -/
  | lastLine {body : List Char} (h : '\n' ∉ body) : CommentsClosed ('/' :: '/' :: body)

/-- Reading a text leaves another one, whatever follows. -/
def Strips (text left : List Char) : Prop :=
  ∀ rest, stripFrom .code (text ++ rest) = left ++ stripFrom .code rest

/-! ## Text outside comments -/

theorem opensComment_cons_cons_iff {c d : Char} {rest : List Char} :
    OpensComment (c :: d :: rest) ↔ c = '/' ∧ (d = '/' ∨ d = '*') := by
  constructor
  · rintro ⟨e, after, he, hopen⟩
    cases he
    exact ⟨rfl, hopen⟩
  · rintro ⟨rfl, hopen⟩
    exact ⟨d, rest, rfl, hopen⟩

theorem not_opensComment_of_ne {c : Char} (hc : c ≠ '/') (rest : List Char) :
    ¬ OpensComment (c :: rest) := by
  rintro ⟨d, after, he, -⟩
  exact hc (List.cons.inj he).1

/-- A character that is no part of an opener makes none out of the text in front of it. -/
theorem OpensComment.of_append {text : List Char} {d : Char} {rest : List Char}
    (hslash : d ≠ '/') (hstar : d ≠ '*') (h : OpensComment (text ++ d :: rest)) :
    OpensComment text := by
  match text with
  | [] => exact absurd h (not_opensComment_of_ne hslash rest)
  | [c] => exact absurd (opensComment_cons_cons_iff.mp h).2 (by simp [hslash, hstar])
  | c :: e :: text => exact opensComment_cons_cons_iff.mpr (opensComment_cons_cons_iff.mp h)

theorem stripFrom_code_cons {c : Char} {rest : List Char} (h : ¬ OpensComment (c :: rest)) :
    stripFrom .code (c :: rest) = c :: stripFrom .code rest := by
  rw [stripFrom]
  · rintro after rfl rfl
    exact h ⟨_, after, rfl, Or.inl rfl⟩
  · rintro after rfl rfl
    exact h ⟨_, after, rfl, Or.inr rfl⟩

theorem stripFrom_code_cons_of_ne {c : Char} (hc : c ≠ '/') (rest : List Char) :
    stripFrom .code (c :: rest) = c :: stripFrom .code rest :=
  stripFrom_code_cons (not_opensComment_of_ne hc rest)

/-- Text in which no comment opens is left as it is, unless the character behind it makes
an opener of its last slash. -/
theorem stripFrom_uncommented {text : List Char} (h : Uncommented text) {d : Char}
    (hslash : d ≠ '/') (hstar : d ≠ '*') (rest : List Char) :
    stripFrom .code (text ++ d :: rest) = text ++ stripFrom .code (d :: rest) := by
  induction text with
  | nil => rfl
  | cons c text ih =>
    have hopen : ¬ OpensComment (c :: (text ++ d :: rest)) := fun hopen =>
      h _ (List.suffix_refl _) (.of_append hslash hstar hopen)
    have htext : Uncommented text := fun t ht => h t (ht.trans (List.suffix_cons c text))
    rw [List.cons_append, stripFrom_code_cons hopen, ih htext]
    rfl

namespace Strips

variable {text left more moreLeft : List Char}

theorem append (h : Strips text left) (hmore : Strips more moreLeft) :
    Strips (text ++ more) (left ++ moreLeft) := by
  intro rest
  rw [List.append_assoc, h, hmore, List.append_assoc]

theorem cons (h : Strips text left) {c : Char} (hc : c ≠ '/') :
    Strips (c :: text) (c :: left) := by
  intro rest
  rw [List.cons_append, stripFrom_code_cons_of_ne hc, h]
  rfl

theorem of_no_slash (h : '/' ∉ text) : Strips text text := by
  induction text with
  | nil => exact fun rest => rfl
  | cons c text ih =>
    have hc := Ne.symm (List.ne_of_not_mem_cons h)
    exact (ih (List.not_mem_of_not_mem_cons h)).cons hc

/-- What is left of a whole text. -/
theorem stripComments_eq (h : Strips text left) : stripComments text = left := by
  have hnil : stripFrom .code (text ++ []) = left ++ [] := h []
  rwa [List.append_nil, List.append_nil] at hnil

end Strips

theorem CommentsClosed.append_left {front rest : List Char} (h : '/' ∉ front)
    (hrest : CommentsClosed rest) : CommentsClosed (front ++ rest) := by
  induction front with
  | nil => exact hrest
  | cons c front ih =>
    have hc := Ne.symm (List.ne_of_not_mem_cons h)
    exact .plain (not_opensComment_of_ne hc _) (ih (List.not_mem_of_not_mem_cons h))

theorem uncommented_of_no_slash {text : List Char} (h : '/' ∉ text) : Uncommented text := by
  rintro rest hrest ⟨d, after, rfl, -⟩
  exact h (hrest.subset (List.mem_cons_self ..))

/-! ## Comments -/

theorem stripFrom_line_append {body : List Char} (h : '\n' ∉ body) (rest : List Char) :
    stripFrom .line (body ++ rest) = stripFrom .line rest := by
  induction body with
  | nil => rfl
  | cons c body ih =>
    have hc := Ne.symm (List.ne_of_not_mem_cons h)
    rw [List.cons_append, stripFrom_line_cons, if_neg hc, ih (List.not_mem_of_not_mem_cons h)]

theorem stripFrom_line {body : List Char} (h : '\n' ∉ body) (rest : List Char) :
    stripFrom .line (body ++ '\n' :: rest) = '\n' :: stripFrom .code rest := by
  rw [stripFrom_line_append h, stripFrom_line_cons, if_pos rfl]

theorem stripFrom_line_last {body : List Char} (h : '\n' ∉ body) : stripFrom .line body = [] := by
  have hlast : stripFrom .line (body ++ []) = [] := stripFrom_line_append h []
  rwa [List.append_nil] at hlast

theorem closer_infix_cons_iff {c : Char} {body : List Char} :
    ['*', '/'] <:+: c :: body ↔ (c = '*' ∧ body.head? = some '/') ∨ ['*', '/'] <:+: body := by
  rw [List.infix_cons_iff]
  refine or_congr_left ⟨?_, ?_⟩
  · rintro ⟨more, h⟩
    cases h
    exact ⟨rfl, rfl⟩
  · rintro ⟨rfl, hslash⟩
    obtain ⟨more, rfl⟩ := List.head?_eq_some_iff.mp hslash
    exact ⟨more, rfl⟩

/-- Text without a closer is read over to its end. -/
theorem exists_stripFrom_block {body : List Char} (h : ¬ ['*', '/'] <:+: body) {afterStar : Bool}
    (hfirst : afterStar = true → body.head? ≠ some '/') :
    ∃ atStar, ∀ rest,
      stripFrom (.block afterStar) (body ++ rest) = stripFrom (.block atStar) rest := by
  induction body generalizing afterStar with
  | nil => exact ⟨afterStar, fun rest => rfl⟩
  | cons c body ih =>
    have hopen : ¬ (afterStar = true ∧ c = '/') := fun ⟨hs, hc⟩ => hfirst hs (by rw [hc]; rfl)
    obtain ⟨hfront, hbody⟩ := not_or.mp (closer_infix_cons_iff.not.mp h)
    -- a slash behind the star just read would make a closer with it
    have hnext : decide (c = '*') = true → body.head? ≠ some '/' := fun hstar hslash =>
      hfront ⟨of_decide_eq_true hstar, hslash⟩
    obtain ⟨atStar, hread⟩ := ih hbody hnext
    refine ⟨atStar, fun rest => ?_⟩
    rw [List.cons_append, stripFrom_block_cons, if_neg hopen, hread]

theorem stripFrom_block {body : List Char} (h : ¬ ['*', '/'] <:+: body) (rest : List Char) :
    stripFrom (.block false) (body ++ '*' :: '/' :: rest) = ' ' :: stripFrom .code rest := by
  obtain ⟨atStar, hread⟩ :=
    exists_stripFrom_block h fun hfalse => absurd hfalse Bool.false_ne_true
  -- the star is read, and the slash behind it closes
  rw [hread, stripFrom_block_cons, if_neg (by simp), stripFrom_block_cons, if_pos (by simp)]

theorem stripFrom_block_last {body : List Char} (h : ¬ ['*', '/'] <:+: body) :
    stripFrom (.block false) body = [' '] := by
  obtain ⟨atStar, hread⟩ :=
    exists_stripFrom_block h fun hfalse => absurd hfalse Bool.false_ne_true
  have hlast := hread []
  rwa [List.append_nil, stripFrom_block_nil] at hlast

theorem ClosedComment.strips {text left : List Char} (h : ClosedComment text left) :
    Strips text left := by
  intro rest
  cases h with
  | line h =>
    rw [List.append_assoc]
    exact stripFrom_line h rest
  | block h =>
    rw [List.append_assoc]
    exact stripFrom_block h rest

/-- A line break behind a text whose block comments are closed keeps it apart from the
text below. -/
theorem stripFrom_lineBreak {text : List Char} (h : CommentsClosed text) (below : List Char) :
    stripFrom .code (text ++ '\n' :: below) =
      stripFrom .code text ++ '\n' :: stripFrom .code below := by
  have hbreak : stripFrom .code ('\n' :: below) = '\n' :: stripFrom .code below :=
    stripFrom_code_cons_of_ne (by decide) below
  induction h with
  | nil => exact hbreak
  | @plain c rest h hrest ih =>
    have hopen : ¬ OpensComment (c :: (rest ++ '\n' :: below)) := fun hopen =>
      h (.of_append (by decide) (by decide) hopen)
    rw [List.cons_append, stripFrom_code_cons hopen, stripFrom_code_cons h, ih]
    rfl
  | comment h hrest ih => rw [List.append_assoc, h.strips, h.strips, ih, List.append_assoc]
  | lastLine h =>
    rw [List.cons_append, List.cons_append, stripFrom_lineOpener, stripFrom_lineOpener,
      stripFrom_line h, stripFrom_line_last h]
    rfl

end LiteChat.Schema
