/-!
# Comments in schema text

A line comment runs from `//` to the end of its line and leaves the line break; a
block comment runs from `/*` to the first `*/` after it and leaves one space, so
that the words around it stay apart.  A comment that is not closed runs to the end
of the text.

The reader is one pass with a `Mode`: outside comments, in a line comment, or in a
block comment, where it remembers whether the last character was a star.  The star
of the opener does not count, so `/*/` opens a comment and does not close it.
-/

namespace LiteChat.Schema

/-- Where a reader of schema text stands. -/
inductive Mode where
  /-- Outside any comment. -/
  | code
  /-- In a line comment. -/
  | line
  /-- In a block comment, just after a star or not. -/
  | block (afterStar : Bool)
  deriving DecidableEq, Repr

/-- The text that is left of a text read from a mode on. -/
def stripFrom : Mode → List Char → List Char
  | .code, [] => []
  | .code, '/' :: '/' :: rest => stripFrom .line rest
  | .code, '/' :: '*' :: rest => stripFrom (.block false) rest
  | .code, c :: rest => c :: stripFrom .code rest
  | .line, [] => []
  | .line, c :: rest => if c = '\n' then c :: stripFrom .code rest else stripFrom .line rest
  | .block _, [] => [' ']
  | .block afterStar, c :: rest =>
    if afterStar ∧ c = '/' then ' ' :: stripFrom .code rest
    else stripFrom (.block (decide (c = '*'))) rest

theorem stripFrom_lineOpener (rest : List Char) :
    stripFrom .code ('/' :: '/' :: rest) = stripFrom .line rest := rfl

theorem stripFrom_blockOpener (rest : List Char) :
    stripFrom .code ('/' :: '*' :: rest) = stripFrom (.block false) rest := rfl

theorem stripFrom_line_cons (c : Char) (rest : List Char) :
    stripFrom .line (c :: rest) =
      if c = '\n' then c :: stripFrom .code rest else stripFrom .line rest := rfl

theorem stripFrom_block_nil (afterStar : Bool) : stripFrom (.block afterStar) [] = [' '] := rfl

theorem stripFrom_block_cons (afterStar : Bool) (c : Char) (rest : List Char) :
    stripFrom (.block afterStar) (c :: rest) =
      if afterStar ∧ c = '/' then ' ' :: stripFrom .code rest
      else stripFrom (.block (decide (c = '*'))) rest := rfl

/-- A text without its comments. -/
def stripComments (text : List Char) : List Char := stripFrom .code text

example : stripComments "a/*b*/c//d\ne".toList = "a c\ne".toList := by decide
example : stripComments "a/*/b".toList = "a ".toList := by decide
example : stripComments "a/**/b/ /c".toList = "a b/ /c".toList := by decide

end LiteChat.Schema
