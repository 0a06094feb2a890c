/-!
# Taking texts apart

A text is a list of characters.  This module cuts a text at one character: at its
first occurrence (`cut?`), before it (`upTo`), or at every one (`splitOn`).  Nothing
but the character itself is lost, which is what the lemmas say.
-/

namespace LiteChat.Text

/-- What stands before and after the first occurrence of a character. -/
def cut? (c : Char) : List Char → Option (List Char × List Char)
  | [] => none
  | d :: rest =>
    if d = c then some ([], rest)
    else (cut? c rest).map fun (before, after) => (d :: before, after)

/-- What stands before the first occurrence of a character, the whole text when it
does not occur. -/
def upTo (c : Char) : List Char → List Char
  | [] => []
  | d :: rest => if d = c then [] else d :: upTo c rest

/-- The parts of a text between the occurrences of a character. -/
def splitOn (c : Char) : List Char → List (List Char)
  | [] => [[]]
  | d :: rest =>
    if d = c then [] :: splitOn c rest
    else (splitOn c rest).modifyHead (d :: ·)

/-- A text with every occurrence of one character replaced by another. -/
def replace (c d : Char) (text : List Char) : List Char :=
  text.map fun x => if x = c then d else x

theorem cut?_cons (c d : Char) (rest : List Char) :
    cut? c (d :: rest) =
      if d = c then some ([], rest)
      else (cut? c rest).map fun (before, after) => (d :: before, after) := rfl

theorem upTo_cons (c d : Char) (rest : List Char) :
    upTo c (d :: rest) = if d = c then [] else d :: upTo c rest := rfl

theorem splitOn_cons (c d : Char) (rest : List Char) :
    splitOn c (d :: rest) =
      if d = c then [] :: splitOn c rest
      else (splitOn c rest).modifyHead (d :: ·) := rfl

theorem eq_of_cut?_eq_some {c : Char} {text before after : List Char}
    (h : cut? c text = some (before, after)) : text = before ++ c :: after := by
  induction text generalizing before with
  | nil => cases h
  | cons d rest ih =>
    rw [cut?_cons] at h
    split at h
    · rename_i hd
      cases h
      rw [hd]
      rfl
    · obtain ⟨⟨b, a⟩, hb, he⟩ := Option.map_eq_some_iff.mp h
      cases he
      rw [ih hb]
      rfl

theorem length_lt_of_cut? {c : Char} {text before after : List Char}
    (h : cut? c text = some (before, after)) : after.length < text.length := by
  rw [eq_of_cut?_eq_some h]
  simp only [List.length_append, List.length_cons]
  omega

theorem splitOn_ne_nil (c : Char) (text : List Char) : splitOn c text ≠ [] := by
  cases text with
  | nil => exact List.cons_ne_nil [] []
  | cons d rest =>
    rw [splitOn_cons]
    split
    · simp
    · cases h : splitOn c rest with
      | nil => exact absurd h (splitOn_ne_nil c rest)
      | cons w ws => simp

end LiteChat.Text
