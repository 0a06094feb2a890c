/-!
# White space

The characters with the white-space property, and the three ways in which schema
text uses them: trimming a text, splitting it into words, and telling whether
anything else is in it.
-/

namespace LiteChat.Unicode

/-- The ranges of white-space characters. -/
def blankRanges : List (Nat × Nat) :=
  [(0x9, 0xD), (0x20, 0x20), (0x85, 0x85), (0xA0, 0xA0), (0x1680, 0x1680), (0x2000, 0x200A),
   (0x2028, 0x2029), (0x202F, 0x202F), (0x205F, 0x205F), (0x3000, 0x3000)]

/-- Whether a character is white space. -/
def isBlank (c : Char) : Bool :=
  blankRanges.any fun r => decide (r.1 ≤ c.toNat) && decide (c.toNat ≤ r.2)

/-- A text without white space at its front. -/
def trimLeft : List Char → List Char
  | [] => []
  | c :: rest => if isBlank c then trimLeft rest else c :: rest

/-- A text without white space at its end. -/
def trimRight : List Char → List Char
  | [] => []
  | c :: rest =>
    match trimRight rest with
    | [] => if isBlank c then [] else [c]
    | d :: rest => c :: d :: rest

/-- A text without white space at either end. -/
def trim (text : List Char) : List Char := trimRight (trimLeft text)

/-- The words of a text: its longest stretches without white space. -/
def words : List Char → List (List Char)
  | [] => []
  | [c] => if isBlank c then [] else [[c]]
  | c :: d :: rest =>
    if isBlank c then words (d :: rest)
    else if isBlank d then [c] :: words (d :: rest)
    else (words (d :: rest)).modifyHead (c :: ·)

theorem trimLeft_cons_eq (c : Char) (rest : List Char) :
    trimLeft (c :: rest) = if isBlank c then trimLeft rest else c :: rest := rfl

/-- A character stays at the end of a text unless it is white space with nothing behind it. -/
theorem trimRight_cons_eq (c : Char) (rest : List Char) :
    trimRight (c :: rest) =
      match trimRight rest with
      | [] => if isBlank c then [] else [c]
      | d :: rest => c :: d :: rest := rfl

theorem words_singleton (c : Char) : words [c] = if isBlank c then [] else [[c]] := rfl

theorem words_cons_cons (c d : Char) (rest : List Char) :
    words (c :: d :: rest) =
      if isBlank c then words (d :: rest)
      else if isBlank d then [c] :: words (d :: rest)
      else (words (d :: rest)).modifyHead (c :: ·) := rfl

theorem isBlank_of_isWhitespace {c : Char} (h : c.isWhitespace = true) : isBlank c = true := by
  simp only [Char.isWhitespace, Bool.or_eq_true, decide_eq_true_eq] at h
  rcases h with ((h | h) | h) | h <;> subst h <;> decide

example : words " a\tb  c ".toList = [['a'], ['b'], ['c']] := by decide
example : (blankRanges.map fun r => r.2 + 1 - r.1).sum = 25 := by decide

end LiteChat.Unicode
