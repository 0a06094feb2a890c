import LiteChat.Unicode.Blank

/-!
# Trimming and words, seen from the white space

White space comes apart from what it surrounds.  Trimming a text that begins and ends with
something else gives that text back, whatever white space was put around it
(`trim_padded`), and takes nothing from its words (`words_trim`).  A white-space character
separates the words in front of it from those behind it (`words_append_cons`); from that
one equation the words of a text are read off piece by piece.  The other way round, a text
has a row of words exactly if it is made of them and of white space that keeps them apart
(`words_eq_iff`).
-/

namespace LiteChat.Unicode

/-- A text, possibly empty, of white space only. -/
def AllBlank (text : List Char) : Prop := ∀ c ∈ text, isBlank c = true

/-- A text without white space that is not empty. -/
structure IsWord (text : List Char) : Prop where
  /-- It has a character. -/
  ne_nil : text ≠ []
  /-- None of its characters is white space. -/
  solid : ∀ c ∈ text, isBlank c = false

/-- A text that neither begins nor ends with white space, and is not empty. -/
structure IsTrimmed (text : List Char) : Prop where
  /-- The first character is no white space. -/
  first : ∃ c rest, text = c :: rest ∧ isBlank c = false
  /-- The last character is no white space. -/
  last : ∃ front c, text = front ++ [c] ∧ isBlank c = false

namespace AllBlank

variable {g h : List Char}

theorem nil : AllBlank [] := fun _ hc => absurd hc List.not_mem_nil

theorem cons {c : Char} (hc : isBlank c = true) (hg : AllBlank g) : AllBlank (c :: g) := by
  intro d hd
  rcases List.mem_cons.mp hd with rfl | hd
  · exact hc
  · exact hg d hd

theorem append (hg : AllBlank g) (hh : AllBlank h) : AllBlank (g ++ h) := by
  intro c hc
  rcases List.mem_append.mp hc with hc | hc
  · exact hg c hc
  · exact hh c hc

theorem head {c : Char} (hg : AllBlank (c :: g)) : isBlank c = true := hg c (List.mem_cons_self ..)

theorem tail {c : Char} (hg : AllBlank (c :: g)) : AllBlank g := fun d hd =>
  hg d (List.mem_cons_of_mem c hd)

theorem not_mem (hg : AllBlank g) {c : Char} (hc : isBlank c = false) : c ∉ g := by
  intro hm
  rw [hg c hm] at hc
  cases hc

end AllBlank

theorem IsWord.isTrimmed {w : List Char} (h : IsWord w) : IsTrimmed w where
  first := by
    obtain ⟨c, rest, rfl⟩ := List.exists_cons_of_ne_nil h.ne_nil
    exact ⟨c, rest, rfl, h.solid c (List.mem_cons_self ..)⟩
  last := by
    have hlast := List.dropLast_concat_getLast h.ne_nil
    exact ⟨_, _, hlast.symm, h.solid _ (List.getLast_mem h.ne_nil)⟩

theorem IsTrimmed.append {front rest : List Char} (hfront : IsTrimmed front)
    (hrest : IsTrimmed rest) (middle : List Char) : IsTrimmed (front ++ (middle ++ rest)) where
  first := by
    obtain ⟨c, more, rfl, hc⟩ := hfront.first
    exact ⟨c, _, List.cons_append, hc⟩
  last := by
    obtain ⟨more, c, rfl, hc⟩ := hrest.last
    exact ⟨front ++ (middle ++ more), c, by simp, hc⟩

theorem IsTrimmed.ne_nil {text : List Char} (h : IsTrimmed text) : text ≠ [] := by
  obtain ⟨c, rest, rfl, -⟩ := h.first
  exact List.cons_ne_nil c rest

/-- No white space stands in front of a trimmed text. -/
theorem IsTrimmed.front_eq_nil {g rest : List Char} (h : IsTrimmed (g ++ rest)) (hg : AllBlank g) :
    g = [] := by
  obtain ⟨c, more, he, hc⟩ := h.first
  cases g with
  | nil => rfl
  | cons d g =>
    cases he
    rw [hg.head] at hc
    cases hc

/-- Nor does any stand behind it. -/
theorem IsTrimmed.back_eq_nil {front g : List Char} (h : IsTrimmed (front ++ g))
    (hg : AllBlank g) : g = [] := by
  obtain ⟨more, c, he, hc⟩ := h.last
  have hlast : (front ++ g).getLast? = some c := by rw [he, List.getLast?_concat]
  rw [List.getLast?_append] at hlast
  cases hd : g.getLast? with
  | none => exact List.getLast?_eq_none_iff.mp hd
  | some d =>
    rw [hd] at hlast
    cases hlast
    rw [hg c (List.mem_of_getLast? hd)] at hc
    cases hc

/-! ## Trimming -/

theorem trimLeft_append {g : List Char} (hg : AllBlank g) (text : List Char) :
    trimLeft (g ++ text) = trimLeft text := by
  induction g with
  | nil => rfl
  | cons c rest ih => rw [List.cons_append, trimLeft_cons_eq, if_pos hg.head, ih hg.tail]

theorem trimLeft_cons {c : Char} (hc : isBlank c = false) (rest : List Char) :
    trimLeft (c :: rest) = c :: rest := by
  rw [trimLeft_cons_eq, if_neg (by simp [hc])]

theorem trimRight_of_allBlank {g : List Char} (hg : AllBlank g) : trimRight g = [] := by
  induction g with
  | nil => rfl
  | cons c rest ih =>
    rw [trimRight_cons_eq, ih hg.tail]
    exact if_pos hg.head

theorem trimRight_append {g : List Char} (hg : AllBlank g) {c : Char} (hc : isBlank c = false)
    (front : List Char) : trimRight (front ++ c :: g) = front ++ [c] := by
  induction front with
  | nil =>
    rw [List.nil_append, trimRight_cons_eq, trimRight_of_allBlank hg]
    exact if_neg (by simp [hc])
  | cons d rest ih =>
    rw [List.cons_append, trimRight_cons_eq, ih]
    cases rest <;> rfl

theorem trim_of_allBlank {g : List Char} (hg : AllBlank g) : trim g = [] := by
  have hleft := trimLeft_append hg []
  rw [List.append_nil] at hleft
  rw [trim, hleft]
  rfl

/-- White space around a text is all that trimming takes away. -/
theorem trim_padded {g h text : List Char} (hg : AllBlank g) (hh : AllBlank h)
    (ht : IsTrimmed text) : trim (g ++ text ++ h) = text := by
  obtain ⟨c, rest, hcons, hc⟩ := ht.first
  obtain ⟨front, d, hsnoc, hd⟩ := ht.last
  have hleft : trimLeft (text ++ h) = text ++ h := by
    rw [hcons, List.cons_append, trimLeft_cons hc]
  rw [trim, List.append_assoc, trimLeft_append hg, hleft, hsnoc, List.append_assoc]
  exact trimRight_append hh hd front

/-- Every text is what trimming leaves of it, between white space. -/
theorem exists_padded (text : List Char) :
    ∃ g h, AllBlank g ∧ AllBlank h ∧ text = g ++ trim text ++ h := by
  have left : ∀ text, ∃ g, AllBlank g ∧ text = g ++ trimLeft text := by
    intro text
    induction text with
    | nil => exact ⟨[], .nil, rfl⟩
    | cons c rest ih =>
      rw [trimLeft_cons_eq]
      split
      · rename_i hc
        obtain ⟨g, hg, he⟩ := ih
        exact ⟨c :: g, .cons hc hg, congrArg (c :: ·) he⟩
      · exact ⟨[], .nil, rfl⟩
  have right : ∀ text, ∃ h, AllBlank h ∧ text = trimRight text ++ h := by
    intro text
    induction text with
    | nil => exact ⟨[], .nil, rfl⟩
    | cons c rest ih =>
      obtain ⟨h, hh, he⟩ := ih
      rw [trimRight_cons_eq]
      split
      · rename_i hnil
        rw [hnil] at he
        split
        · rename_i hc
          exact ⟨c :: rest, .cons hc (he ▸ hh), rfl⟩
        · exact ⟨h, hh, congrArg (c :: ·) he⟩
      · rename_i d ds hcons
        rw [hcons] at he
        exact ⟨h, hh, congrArg (c :: ·) he⟩
  obtain ⟨g, hg, hleft⟩ := left text
  obtain ⟨h, hh, hright⟩ := right (trimLeft text)
  exact ⟨g, h, hg, hh, by rw [trim, List.append_assoc, ← hright, ← hleft]⟩

theorem trimRight_cons {c : Char} (hc : isBlank c = false) (rest : List Char) :
    trimRight (c :: rest) = c :: trimRight rest := by
  rw [trimRight_cons_eq]
  cases trimRight rest with
  | nil => exact if_neg (by simp [hc])
  | cons d more => rfl

theorem exists_last_trimRight (text : List Char) :
    trimRight text = [] ∨ ∃ front c, trimRight text = front ++ [c] ∧ isBlank c = false := by
  induction text with
  | nil => exact Or.inl rfl
  | cons c rest ih =>
    rw [trimRight_cons_eq]
    rcases ih with hnil | ⟨front, d, hlast, hd⟩
    · rw [hnil]
      by_cases hc : isBlank c = true
      · exact Or.inl (if_pos hc)
      · exact Or.inr ⟨[], c, if_neg hc, eq_false_of_ne_true hc⟩
    · refine Or.inr ⟨c :: front, d, ?_, hd⟩
      rw [hlast]
      cases front <;> rfl

theorem exists_first_trimLeft (text : List Char) :
    trimLeft text = [] ∨ ∃ c rest, trimLeft text = c :: rest ∧ isBlank c = false := by
  induction text with
  | nil => exact Or.inl rfl
  | cons c rest ih =>
    rw [trimLeft_cons_eq]
    by_cases hc : isBlank c = true
    · rw [if_pos hc]
      exact ih
    · exact Or.inr ⟨c, rest, if_neg hc, eq_false_of_ne_true hc⟩

/-- What trimming leaves is trimmed, if it leaves anything. -/
theorem isTrimmed_trim {text : List Char} (h : trim text ≠ []) : IsTrimmed (trim text) where
  first := by
    rcases exists_first_trimLeft text with hnil | ⟨c, rest, hfirst, hc⟩
    · rw [trim, hnil] at h
      exact absurd rfl h
    · exact ⟨c, _, by rw [trim, hfirst, trimRight_cons hc], hc⟩
  last := (exists_last_trimRight (trimLeft text)).resolve_left h

/-! ## Words -/

theorem words_cons_of_isBlank {c : Char} (hc : isBlank c = true) (rest : List Char) :
    words (c :: rest) = words rest := by
  cases rest with
  | nil => rw [words_singleton, if_pos hc]; rfl
  | cons d rest => rw [words_cons_cons, if_pos hc]

theorem words_cons_ne_nil {c : Char} (hc : isBlank c = false) (rest : List Char) :
    words (c :: rest) ≠ [] := by
  induction rest generalizing c with
  | nil => simp [words_singleton, hc]
  | cons d rest ih =>
    rw [words_cons_cons, if_neg (by simp [hc])]
    split
    · simp
    · rename_i hd
      have hrest := ih (eq_false_of_ne_true hd)
      simpa using hrest

/-- A white-space character keeps the words on its two sides apart. -/
theorem words_append_cons {c : Char} (hc : isBlank c = true) (front rest : List Char) :
    words (front ++ c :: rest) = words front ++ words rest := by
  induction front with
  | nil => exact words_cons_of_isBlank hc rest
  | cons d front ih =>
    by_cases hd : isBlank d = true
    · rw [List.cons_append, words_cons_of_isBlank hd, words_cons_of_isBlank hd, ih]
    · cases front with
      | nil => simp [words_singleton, words_cons_cons, hd, hc, words_cons_of_isBlank hc]
      | cons e front =>
        rw [List.cons_append] at ih
        rw [List.cons_append, List.cons_append, words_cons_cons, if_neg hd, words_cons_cons,
          if_neg hd, ih]
        split
        · rfl
        · rename_i he
          -- the character joins the first word behind it, which stands in front of the space
          obtain ⟨w, ws, hw⟩ := List.exists_cons_of_ne_nil
            (words_cons_ne_nil (eq_false_of_ne_true he) front)
          rw [hw]
          rfl

theorem words_of_allBlank {g : List Char} (hg : AllBlank g) : words g = [] := by
  induction g with
  | nil => rfl
  | cons c rest ih => rw [words_cons_of_isBlank hg.head, ih hg.tail]

theorem words_append_allBlank {g : List Char} (hg : AllBlank g) (front : List Char) :
    words (front ++ g) = words front := by
  cases g with
  | nil => rw [List.append_nil]
  | cons c g =>
    rw [words_append_cons hg.head, words_of_allBlank hg.tail, List.append_nil]

theorem words_allBlank_append {g : List Char} (hg : AllBlank g) (rest : List Char) :
    words (g ++ rest) = words rest := by
  induction g with
  | nil => rfl
  | cons c g ih => rw [List.cons_append, words_cons_of_isBlank hg.head, ih hg.tail]

theorem words_of_isWord {w : List Char} (hw : IsWord w) : words w = [w] := by
  obtain ⟨hne, hsolid⟩ := hw
  induction w with
  | nil => exact absurd rfl hne
  | cons c rest ih =>
    have hc := hsolid c (List.mem_cons_self ..)
    cases rest with
    | nil => simp [words_singleton, hc]
    | cons d rest =>
      have hrest : ∀ x ∈ d :: rest, isBlank x = false := fun x hx =>
        hsolid x (List.mem_cons_of_mem c hx)
      have hd := hrest d (List.mem_cons_self ..)
      rw [words_cons_cons, if_neg (by simp [hc]), if_neg (by simp [hd]),
        ih (List.cons_ne_nil d rest) hrest]
      rfl

/-- A word that white space follows is the first word of the text. -/
theorem words_isWord_append {w g : List Char} (hw : IsWord w) (hg : AllBlank g) (hne : g ≠ [])
    (rest : List Char) : words (w ++ (g ++ rest)) = w :: words rest := by
  obtain ⟨c, g, rfl⟩ := List.exists_cons_of_ne_nil hne
  rw [List.cons_append, words_append_cons hg.head, words_of_isWord hw,
    words_allBlank_append hg.tail]
  rfl

theorem words_ne_nil_of_mem {text : List Char} {c : Char} (hc : c ∈ text)
    (hsolid : isBlank c = false) : words text ≠ [] := by
  induction text with
  | nil => cases hc
  | cons d rest ih =>
    cases hd : isBlank d with
    | false => exact words_cons_ne_nil hd rest
    | true =>
      rw [words_cons_of_isBlank hd]
      rcases List.mem_cons.mp hc with rfl | hc
      · rw [hd] at hsolid
        cases hsolid
      · exact ih hc

theorem words_trim (text : List Char) : words (trim text) = words text := by
  obtain ⟨g, h, hg, hh, he⟩ := exists_padded text
  calc words (trim text) = words (g ++ (trim text ++ h)) := by
        rw [words_allBlank_append hg, words_append_allBlank hh]
    _ = words text := by rw [← List.append_assoc, ← he]

/-- What holds of text without white space, and of a text as soon as it holds of what
stands behind its first white-space character, holds of every text. -/
theorem blankInduction {motive : List Char → Prop}
    (solid : ∀ text, (∀ c ∈ text, isBlank c = false) → motive text)
    (blank : ∀ front c rest, (∀ d ∈ front, isBlank d = false) → isBlank c = true →
      motive rest → motive (front ++ c :: rest))
    (text : List Char) : motive text := by
  have key : ∀ front rest, (∀ d ∈ front, isBlank d = false) → motive (front ++ rest) := by
    intro front rest
    induction rest generalizing front with
    | nil =>
      intro hfront
      rw [List.append_nil]
      exact solid front hfront
    | cons c rest ih =>
      intro hfront
      cases hc : isBlank c with
      | true => exact blank front c rest hfront hc (ih [] fun d hd => absurd hd List.not_mem_nil)
      | false =>
        rw [List.append_cons]
        refine ih (front ++ [c]) fun d hd => ?_
        rcases List.mem_append.mp hd with hd | hd
        · exact hfront d hd
        · rw [List.mem_singleton.mp hd]
          exact hc
  exact key [] text fun d hd => absurd hd List.not_mem_nil

/-- The last word of a text may go on in the text behind it; what stands in front of it ends
in white space, so its words stay what they are. -/
theorem exists_last_word (text : List Char) :
    ∃ front last, text = front ++ last ∧ (∀ c ∈ last, isBlank c = false) ∧
      (∀ c, front.getLast? = some c → isBlank c = true) ∧
      ∀ more, words (front ++ more) = words front ++ words more := by
  induction text using blankInduction with
  | solid text h =>
    refine ⟨[], text, rfl, h, fun c hc => ?_, fun more => rfl⟩
    cases hc
  | blank start c rest _ hc ih =>
    obtain ⟨front, last, rfl, hlast, hends, hwords⟩ := ih
    refine ⟨start ++ c :: front, last, by simp, hlast, fun d hd => ?_, fun more => ?_⟩
    · rw [List.getLast?_append, List.getLast?_cons, Option.some_or] at hd
      cases hfront : front.getLast? with
      | none =>
        rw [hfront] at hd
        cases hd
        exact hc
      | some e =>
        rw [hfront] at hd
        cases hd
        exact hends e hfront
    · rw [List.append_assoc, List.cons_append, words_append_cons hc, words_append_cons hc, hwords,
        List.append_assoc]

/-! ## Texts of words -/

/-- The texts of a row of words: separators stand between any two of them, and may stand in
front of the first and behind the last. -/
inductive Spaced (S : Char → Prop) : List (List Char) → List Char → Prop
  /-- Nothing is left. -/
  | nil : Spaced S [] []
  /-- A separator. -/
  | space {c : Char} {row : List (List Char)} {rest : List Char} (hc : S c)
      (h : Spaced S row rest) : Spaced S row (c :: rest)
  /-- A word, which ends with the text or at a separator. -/
  | word {w : List Char} {row : List (List Char)} {rest : List Char} (hne : w ≠ [])
      (hsolid : ∀ c ∈ w, ¬ S c) (hends : ∀ c, rest.head? = some c → S c)
      (h : Spaced S row rest) : Spaced S (w :: row) (w ++ rest)

theorem spaced_words (text : List Char) :
    Spaced (fun c => isBlank c = true) (words text) text := by
  induction text with
  | nil => exact .nil
  | cons c rest ih =>
    by_cases hc : isBlank c = true
    · rw [words_cons_of_isBlank hc]
      exact .space hc ih
    cases rest with
    | nil =>
      have hword : words [c] = [[c]] := by simp [words_singleton, hc]
      rw [hword]
      exact .word (List.cons_ne_nil _ _) (by simpa using hc) (by simp) .nil
    | cons d rest =>
      rw [words_cons_cons, if_neg hc]
      by_cases hd : isBlank d = true
      · rw [if_pos hd]
        exact .word (w := [c]) (List.cons_ne_nil _ _) (by simpa using hc) (by simpa using hd) ih
      · rw [if_neg hd]
        -- the character joins the word that the rest of the text begins with
        generalize hrow : words (d :: rest) = row at ih
        generalize htext : d :: rest = text at ih
        cases ih with
        | nil => cases htext
        | space hblank =>
          cases htext
          exact absurd hblank hd
        | @word w row rest' hne hsolid hends h =>
          rw [← List.cons_append]
          refine .word (List.cons_ne_nil _ _) (fun e he => ?_) hends h
          rcases List.mem_cons.mp he with rfl | he
          · exact hc
          · exact hsolid e he

theorem Spaced.words_eq {row : List (List Char)} {text : List Char}
    (h : Spaced (fun c => isBlank c = true) row text) : words text = row := by
  induction h with
  | nil => rfl
  | space hc _ ih => rw [words_cons_of_isBlank hc, ih]
  | @word w row rest hne hsolid hends _ ih =>
    have hw : words w = [w] := words_of_isWord ⟨hne, fun c hc => eq_false_of_ne_true (hsolid c hc)⟩
    cases rest with
    | nil =>
      rw [List.append_nil, hw, ← ih]
      rfl
    | cons c rest =>
      have hc := hends c rfl
      rw [words_append_cons hc, hw, ← words_cons_of_isBlank hc, ih]
      rfl

/-- The words of a text are the row that it is a text of. -/
theorem words_eq_iff {row : List (List Char)} {text : List Char} :
    words text = row ↔ Spaced (fun c => isBlank c = true) row text :=
  ⟨fun h => h ▸ spaced_words text, Spaced.words_eq⟩

namespace Spaced

variable {S : Char → Prop} {row : List (List Char)} {text : List Char}

theorem spaces {gap : List Char} (hgap : ∀ c ∈ gap, S c) (h : Spaced S row text) :
    Spaced S row (gap ++ text) := by
  induction gap with
  | nil => exact h
  | cons c gap ih =>
    obtain ⟨hc, hgap⟩ := List.forall_mem_cons.mp hgap
    exact .space hc (ih hgap)

/-- A word in front of others, with separators behind it. -/
theorem word_spaces {w gap : List Char} (hne : w ≠ []) (hsolid : ∀ c ∈ w, ¬ S c)
    (hgap : ∀ c ∈ gap, S c) (hgapne : gap ≠ []) (h : Spaced S row text) :
    Spaced S (w :: row) (w ++ (gap ++ text)) := by
  obtain ⟨c, gap, rfl⟩ := List.exists_cons_of_ne_nil hgapne
  refine .word hne hsolid (fun d hd => ?_) (h.spaces hgap)
  cases hd
  exact hgap c (List.mem_cons_self ..)

/-- The last word. -/
theorem last_word {w gap : List Char} (hne : w ≠ []) (hsolid : ∀ c ∈ w, ¬ S c)
    (hgap : ∀ c ∈ gap, S c) : Spaced S [w] (w ++ gap) := by
  refine .word hne hsolid (fun c hc => hgap c (List.mem_of_mem_head? hc)) ?_
  simpa using Spaced.nil.spaces hgap

/-- Without words there are separators only. -/
theorem eq_spaces (h : Spaced S [] text) : ∀ c ∈ text, S c := by
  generalize hrow : ([] : List (List Char)) = row at h
  induction h with
  | nil => simp
  | space hc _ ih => simpa [hc] using ih hrow
  | word => cases hrow

/-- The first word, with the separators around it. -/
theorem exists_first {w : List Char} (h : Spaced S (w :: row) text) :
    ∃ gap rest, text = gap ++ (w ++ rest) ∧ (∀ c ∈ gap, S c) ∧ w ≠ [] ∧ (∀ c ∈ w, ¬ S c) ∧
      (∀ c, rest.head? = some c → S c) ∧ Spaced S row rest := by
  generalize hrow : w :: row = whole at h
  induction h with
  | nil => cases hrow
  | @space c _ _ hc _ ih =>
    obtain ⟨gap, rest, rfl, hgap, hrest⟩ := ih hrow
    exact ⟨c :: gap, rest, rfl, by simpa [hc] using hgap, hrest⟩
  | word hne hsolid hends h =>
    cases hrow
    exact ⟨[], _, rfl, by simp, hne, hsolid, hends, h⟩

/-- Separators stand between two words. -/
theorem gap_ne_nil {w gap rest : List Char} (hne : w ≠ []) (hsolid : ∀ c ∈ w, ¬ S c)
    (hends : ∀ c, (gap ++ (w ++ rest)).head? = some c → S c) : gap ≠ [] := by
  rintro rfl
  obtain ⟨c, w, rfl⟩ := List.exists_cons_of_ne_nil hne
  exact hsolid c (List.mem_cons_self ..) (hends c rfl)

end Spaced

end LiteChat.Unicode
