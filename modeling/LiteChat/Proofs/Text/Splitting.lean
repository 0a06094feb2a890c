import LiteChat.Text.Split

/-!
# What a cut leaves whole

A text is cut at a character wherever that character stands and nowhere else.  So a part
that is free of the character comes out of a cut, or of a row of cuts, as it was put in,
whatever follows it (`cut?_append_cons`, `upTo_append_cons`, `splitOn_append_cons`), and
text that is added behind a cut does not move it (`cut?_append_of_eq_some`).
-/

namespace LiteChat.Text

variable {c : Char}

theorem cut?_append_of_eq_some {text before after : List Char}
    (h : cut? c text = some (before, after)) (more : List Char) :
    cut? c (text ++ more) = some (before, after ++ more) := by
  induction text generalizing before with
  | nil => cases h
  | cons d rest ih =>
    rw [cut?_cons] at h
    rw [List.cons_append, cut?_cons]
    split at h
    · rename_i hd
      cases h
      rw [if_pos hd]
    · rename_i hd
      obtain ⟨⟨b, a⟩, hb, he⟩ := Option.map_eq_some_iff.mp h
      cases he
      rw [if_neg hd, ih hb]
      rfl

/-- Text free of the character stays in front of the cut. -/
theorem cut?_append {front : List Char} (h : c ∉ front) (text : List Char) :
    cut? c (front ++ text) = (cut? c text).map fun (before, after) => (front ++ before, after) := by
  induction front with
  | nil => simp
  | cons d rest ih =>
    have hd := List.ne_of_not_mem_cons h
    have hrest := List.not_mem_of_not_mem_cons h
    rw [List.cons_append, cut?_cons, if_neg (Ne.symm hd), ih hrest, Option.map_map]
    rfl

theorem cut?_append_cons {before : List Char} (h : c ∉ before) (after : List Char) :
    cut? c (before ++ c :: after) = some (before, after) := by
  simp [cut?_append h, cut?_cons]

theorem upTo_append_cons {before : List Char} (h : c ∉ before) (after : List Char) :
    upTo c (before ++ c :: after) = before := by
  induction before with
  | nil => exact if_pos rfl
  | cons d rest ih =>
    have hd := List.ne_of_not_mem_cons h
    have hrest := List.not_mem_of_not_mem_cons h
    rw [List.cons_append, upTo_cons, if_neg (Ne.symm hd), ih hrest]

theorem upTo_of_not_mem {text : List Char} (h : c ∉ text) : upTo c text = text := by
  induction text with
  | nil => rfl
  | cons d rest ih =>
    have hd := List.ne_of_not_mem_cons h
    have hrest := List.not_mem_of_not_mem_cons h
    rw [upTo_cons, if_neg (Ne.symm hd), ih hrest]

theorem exists_upTo_append (text : List Char) :
    ∃ rest, text = upTo c text ++ rest ∧ (rest = [] ∨ ∃ more, rest = c :: more) := by
  induction text with
  | nil => exact ⟨[], rfl, Or.inl rfl⟩
  | cons d rest ih =>
    rw [upTo_cons]
    split
    · rename_i hd
      exact ⟨d :: rest, rfl, Or.inr ⟨rest, by rw [hd]⟩⟩
    · obtain ⟨more, he, hmore⟩ := ih
      exact ⟨more, congrArg (d :: ·) he, hmore⟩

theorem splitOn_of_not_mem {text : List Char} (h : c ∉ text) : splitOn c text = [text] := by
  induction text with
  | nil => rfl
  | cons d rest ih =>
    have hd := List.ne_of_not_mem_cons h
    have hrest := List.not_mem_of_not_mem_cons h
    rw [splitOn_cons, if_neg (Ne.symm hd), ih hrest]
    rfl

theorem splitOn_append_cons {part : List Char} (h : c ∉ part) (rest : List Char) :
    splitOn c (part ++ c :: rest) = part :: splitOn c rest := by
  induction part with
  | nil => exact if_pos rfl
  | cons d part ih =>
    have hd := List.ne_of_not_mem_cons h
    have hpart := List.not_mem_of_not_mem_cons h
    rw [List.cons_append, splitOn_cons, if_neg (Ne.symm hd), ih hpart]
    rfl

theorem replace_append (d : Char) (text more : List Char) :
    replace c d (text ++ more) = replace c d text ++ replace c d more :=
  List.map_append

theorem replace_cons_self (d : Char) (rest : List Char) :
    replace c d (c :: rest) = d :: replace c d rest := by
  simp [replace]

theorem replace_of_not_mem {text : List Char} (h : c ∉ text) (d : Char) :
    replace c d text = text := by
  have hkeep : ∀ x ∈ text, (if x = c then d else x) = x := by
    intro x hx
    exact if_neg fun he : x = c => h (he ▸ hx)
  rw [replace, List.map_congr_left hkeep, List.map_id']

end LiteChat.Text
