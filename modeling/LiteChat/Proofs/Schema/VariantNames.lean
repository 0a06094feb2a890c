import Mathlib.Data.Nat.Find
import LiteChat.Proofs.Text.Octets
import LiteChat.Schema.Casing

/-!
# What is taken out of a variant name

A word is taken out of a text wherever it stands there, from the left: the text is parted into
pieces and occurrences, of which each is the first one behind the one before (`Parted`), and
the pieces are left (`Parted.removeFrom_eq`).  Upper and lower case of the letters `a` to `z`
are one.

The occurrences can be looked up by octets in a copy of the text in lower case, and the text
itself be cut at the offsets that are found in the copy (`turn`).  The case of a letter between
`a` and `z` does not change the number of its octets, so the offsets are the same in the text
and in its copy, whatever characters there are besides.  An offset lies between two characters,
because the octets of the word begin where a character begins.  So no turn cuts a character in
two, every turn leaves less to be read, and the turns come to an end with the pieces
(`Parted.removal`).
-/

namespace LiteChat.Schema

open Text (octets offset? cutAt?)

/-- A text with the letters from `A` to `Z` in lower case. -/
def lowered (text : List Char) : List Char := text.map Char.toLower

/-- A word stands in a text, between two others; the case of letters does not matter. -/
structure Occurrence (word text before found after : List Char) : Prop where
  /-- What the text consists of. -/
  text_eq : text = before ++ found ++ after
  /-- What is found is the word. -/
  same : lowered found = lowered word

/-- No occurrence of a word in a text begins in a piece at its front. -/
def ClearOf (word piece text : List Char) : Prop :=
  ∀ before found after, Occurrence word text before found after → piece.length ≤ before.length

/-- A text parted at a word: pairs of a piece and the occurrence behind it, and the last piece. -/
inductive Parted (word : List Char) :
    List Char → List (List Char × List Char) → List Char → Prop
  /-- The word does not occur. -/
  | last {text : List Char}
      (h : ∀ before found after, ¬ Occurrence word text before found after) :
    Parted word text [] text
  /-- The first occurrence ends a piece, and what is behind it is parted in turn. -/
  | next {piece found rest last : List Char} {cuts : List (List Char × List Char)}
      (hfound : lowered found = lowered word) (hfirst : ClearOf word piece (piece ++ found ++ rest))
      (hrest : Parted word rest cuts last) :
    Parted word (piece ++ found ++ rest) ((piece, found) :: cuts) last

/-- How a turn of the removal by offsets ends. -/
inductive Turn where
  /-- Nothing is found. -/
  | finished
  /-- What stands before and behind the occurrence that is found. -/
  | cut (before after : List Char)
  /-- An offset lies inside a character. -/
  | torn
  deriving DecidableEq, Repr

/-- A turn of the removal: the word is looked up in the copy in lower case, and the text is cut
at the offsets of its front and its end. -/
def turn (word text : List Char) : Turn :=
  match offset? (octets (lowered word)) (octets (lowered text)) with
  | none => .finished
  | some n =>
    match cutAt? n text, cutAt? (n + (octets (lowered word)).length) text with
    | some (before, _), some (_, after) => .cut before after
    | _, _ => .torn

/-- The removal from what is already put out and what is still to be read comes to an end, and to
a result. -/
inductive Removal (word : List Char) : List Char → List Char → List Char → Prop
  /-- Nothing is found in the rest, which is put out. -/
  | finished {out rest : List Char} (h : turn word rest = .finished) :
    Removal word out rest (out ++ rest)
  /-- What stands before the occurrence is put out, and the removal goes on behind it. -/
  | cut {out rest before after result : List Char} (h : turn word rest = .cut before after)
      (hafter : Removal word (out ++ before) after result) : Removal word out rest result

variable {word : List Char}

/-! ## Case and octets -/

/-- A letter from `A` to `Z` is one octet long, and so is its lower case. -/
theorem utf8Size_toLower (c : Char) : c.toLower.utf8Size = c.utf8Size := by
  by_cases h : 'A'.val ≤ c.val ∧ c.val ≤ 'Z'.val
  · have hval : c.toLower.val = c.val + ('a'.val - 'A'.val) := congrArg Char.val (dif_pos h)
    have hz : c.val.toNat ≤ 90 := UInt32.le_iff_toNat_le.mp h.2
    have hupper : c.val ≤ 127 := UInt32.le_iff_toNat_le.mpr (hz.trans (by decide))
    have hlower : c.toLower.val ≤ 127 := by
      rw [hval, UInt32.le_iff_toNat_le, UInt32.toNat_add]
      have hshift : ('a'.val - 'A'.val).toNat = 32 := by decide
      have hbound : (127 : UInt32).toNat = 127 := by decide
      omega
    rw [Char.utf8Size_eq_one_iff.mpr hupper, Char.utf8Size_eq_one_iff.mpr hlower]
  · have hsame : c.toLower = c := dif_neg h
    rw [hsame]

theorem length_octets_lowered (text : List Char) :
    (octets (lowered text)).length = (octets text).length := by
  induction text with
  | nil => rfl
  | cons c rest ih =>
    rw [lowered, List.map_cons, Text.length_octets_cons, Text.length_octets_cons,
      utf8Size_toLower]
    exact congrArg (c.utf8Size + ·) ih

theorem lowered_append (text more : List Char) :
    lowered (text ++ more) = lowered text ++ lowered more :=
  List.map_append

theorem length_of_same {found : List Char} (h : lowered found = lowered word) :
    found.length = word.length := by
  simpa [lowered] using congrArg List.length h

/-! ## Occurrences -/

/-- What is found in the copy in lower case is found in the text. -/
theorem exists_occurrence_of_lowered {text front behind : List Char}
    (h : lowered text = front ++ lowered word ++ behind) :
    ∃ before found after, Occurrence word text before found after ∧ lowered before = front := by
  obtain ⟨start, after, rfl, hstart, -⟩ := List.map_eq_append_iff.mp h
  obtain ⟨before, found, rfl, hbefore, hfound⟩ := List.map_eq_append_iff.mp hstart
  exact ⟨before, found, after, ⟨rfl, hfound⟩, hbefore⟩

/-- Where the octets of the word are found, the word occurs. -/
theorem exists_occurrence_of_octets (hword : word ≠ []) {text : List Char} {n : Nat}
    (h : octets (lowered word) <+: (octets (lowered text)).drop n) :
    ∃ before found after,
      Occurrence word text before found after ∧ (octets before).length = n := by
  have hlowered : lowered word ≠ [] := by simpa [lowered] using hword
  obtain ⟨front, behind, htext, hfront⟩ := Text.exists_of_octets_prefix_drop hlowered h
  obtain ⟨before, found, after, hoccurs, rfl⟩ := exists_occurrence_of_lowered htext
  exact ⟨before, found, after, hoccurs, by rw [← hfront, length_octets_lowered]⟩

theorem Occurrence.before_prefix {text before found after : List Char}
    (h : Occurrence word text before found after) : before <+: text := by
  rw [h.text_eq, List.append_assoc]
  exact List.prefix_append _ _

theorem Occurrence.octets_prefix {text before found after : List Char}
    (h : Occurrence word text before found after) :
    octets (lowered word) <+: (octets (lowered text)).drop (octets before).length := by
  rw [h.text_eq, lowered_append, lowered_append, h.same, List.append_assoc, Text.octets_append,
    ← length_octets_lowered before, List.drop_left, Text.octets_append]
  exact List.prefix_append _ _

/-- A word that occurs in a text has a first occurrence. -/
theorem exists_first_occurrence {text before found after : List Char}
    (h : Occurrence word text before found after) :
    ∃ piece found rest, Occurrence word text piece found rest ∧ ClearOf word piece text := by
  classical
  have hstarts : ∃ n before found after,
      Occurrence word text before found after ∧ before.length = n := ⟨_, _, _, _, h, rfl⟩
  obtain ⟨piece, found, rest, hoccurs, hlength⟩ := Nat.find_spec hstarts
  refine ⟨piece, found, rest, hoccurs, fun before found' after hother => ?_⟩
  rw [hlength]
  exact Nat.find_min' hstarts ⟨before, found', after, hother, rfl⟩

/-- Every text can be parted at a word. -/
theorem exists_parted (hword : word ≠ []) (text : List Char) :
    ∃ cuts last, Parted word text cuts last := by
  induction hn : text.length using Nat.strong_induction_on generalizing text with
  | _ n ih =>
    subst hn
    by_cases hoccurs : ∃ before found after, Occurrence word text before found after
    · obtain ⟨before, found, after, h⟩ := hoccurs
      obtain ⟨piece, found, rest, ⟨rfl, hfound⟩, hfirst⟩ := exists_first_occurrence h
      have hpos := List.length_pos_iff.mpr hword
      have hlength := length_of_same hfound
      have hshort : rest.length < (piece ++ found ++ rest).length := by
        rw [List.length_append, List.length_append]
        omega
      obtain ⟨cuts, last, hrest⟩ := ih rest.length hshort rest rfl
      exact ⟨_, _, .next hfound hfirst hrest⟩
    · exact ⟨[], text, .last fun before found after h => hoccurs ⟨before, found, after, h⟩⟩

/-- Nothing is lost when a text is parted. -/
theorem Parted.text_eq {text last : List Char} {cuts : List (List Char × List Char)}
    (h : Parted word text cuts last) :
    text = cuts.flatMap (fun cut => cut.1 ++ cut.2) ++ last := by
  induction h with
  | last h => rfl
  | next hfound hfirst hrest ih => rw [List.flatMap_cons, List.append_assoc (_ ++ _), ← ih]

/-! ## Removal character by character -/

theorem beginsWith_iff {text : List Char} :
    beginsWith word text = true ↔
      ∃ found after, text = found ++ after ∧ lowered found = lowered word := by
  induction word generalizing text with
  | nil => exact ⟨fun _ => ⟨[], text, rfl, rfl⟩, fun _ => rfl⟩
  | cons c word ih =>
    cases text with
    | nil =>
      constructor
      · intro h
        cases h
      · rintro ⟨found, after, htext, hfound⟩
        obtain ⟨rfl, -⟩ := List.append_eq_nil_iff.mp htext.symm
        cases hfound
    | cons d text =>
      rw [beginsWith_cons_cons, Bool.and_eq_true, decide_eq_true_eq, ih]
      constructor
      · rintro ⟨hc, found, after, rfl, hfound⟩
        exact ⟨d :: found, after, rfl, List.cons_eq_cons.mpr ⟨hc.symm, hfound⟩⟩
      · rintro ⟨found, after, htext, hfound⟩
        cases found with
        | nil => cases hfound
        | cons e found =>
          cases htext
          obtain ⟨hd, hrest⟩ := List.cons.inj hfound
          exact ⟨hd.symm, found, after, rfl, hrest⟩

theorem removeFrom_skip (skip : Nat) (text : List Char) :
    removeFrom word skip text = removeFrom word 0 (text.drop skip) := by
  induction text generalizing skip with
  | nil => rw [List.drop_nil, removeFrom_nil, removeFrom_nil]
  | cons c rest ih =>
    cases skip with
    | zero => rfl
    | succ skip =>
      rw [removeFrom_succ_cons, List.drop_succ_cons]
      exact ih skip

theorem removeFrom_found (hword : word ≠ []) {found : List Char}
    (hfound : lowered found = lowered word) (rest : List Char) :
    removeFrom word 0 (found ++ rest) = removeFrom word 0 rest := by
  have hlength := length_of_same hfound
  have hbegins : beginsWith word (found ++ rest) = true :=
    beginsWith_iff.mpr ⟨found, rest, rfl, hfound⟩
  cases found with
  | nil => exact absurd (List.length_eq_zero_iff.mp hlength.symm) hword
  | cons c found =>
    have hskip : word.length - 1 = found.length := by
      rw [← hlength]
      rfl
    rw [List.cons_append] at hbegins ⊢
    rw [removeFrom_zero_cons, if_pos hbegins, removeFrom_skip, hskip, List.drop_left]

theorem removeFrom_piece {piece rest : List Char} (h : ClearOf word piece (piece ++ rest)) :
    removeFrom word 0 (piece ++ rest) = piece ++ removeFrom word 0 rest := by
  induction piece with
  | nil => rfl
  | cons c piece ih =>
    have hbegins : ¬ beginsWith word (c :: (piece ++ rest)) = true := by
      intro hbegins
      obtain ⟨found, after, htext, hfound⟩ := beginsWith_iff.mp hbegins
      exact absurd (h [] found after ⟨htext, hfound⟩) (Nat.not_succ_le_zero _)
    have hpiece : ClearOf word piece (piece ++ rest) := fun before found after hoccurs =>
      Nat.le_of_succ_le_succ (h (c :: before) found after
        ⟨congrArg (c :: ·) hoccurs.text_eq, hoccurs.same⟩)
    rw [List.cons_append, removeFrom_zero_cons, if_neg hbegins, ih hpiece]
    rfl

/-- The pieces are left. -/
theorem Parted.removeFrom_eq (hword : word ≠ []) {text last : List Char}
    {cuts : List (List Char × List Char)} (h : Parted word text cuts last) :
    removeFrom word 0 text = cuts.flatMap Prod.fst ++ last := by
  induction h with
  | @last text h =>
    have hclear : ClearOf word text (text ++ []) := by
      intro before found after hoccurs
      rw [List.append_nil] at hoccurs
      exact absurd hoccurs (h before found after)
    have hremove := removeFrom_piece hclear
    rwa [List.append_nil, removeFrom_nil, List.append_nil] at hremove
  | next hfound hfirst hrest ih =>
    rw [List.append_assoc] at hfirst ⊢
    rw [removeFrom_piece hfirst, removeFrom_found hword hfound, ih, List.flatMap_cons,
      List.append_assoc]

/-! ## Removal by offsets -/

theorem turn_of_not_occurrence (hword : word ≠ []) {text : List Char}
    (h : ∀ before found after, ¬ Occurrence word text before found after) :
    turn word text = .finished := by
  have hnone : offset? (octets (lowered word)) (octets (lowered text)) = none := by
    rw [Text.offset?_eq_none_iff]
    rintro ⟨front, behind, htext⟩
    have hprefix : octets (lowered word) <+: (octets (lowered text)).drop front.length := by
      rw [← htext, List.append_assoc, List.drop_left]
      exact List.prefix_append _ _
    obtain ⟨before, found, after, hoccurs, -⟩ := exists_occurrence_of_octets hword hprefix
    exact h before found after hoccurs
  rw [turn, hnone]

/-- A turn finds the first occurrence, and cuts the text around it. -/
theorem turn_of_first (hword : word ≠ []) {piece found rest : List Char}
    (hfound : lowered found = lowered word)
    (hfirst : ClearOf word piece (piece ++ found ++ rest)) :
    turn word (piece ++ found ++ rest) = .cut piece rest := by
  have hoccurs : Occurrence word (piece ++ found ++ rest) piece found rest := ⟨rfl, hfound⟩
  have hoffset : offset? (octets (lowered word)) (octets (lowered (piece ++ found ++ rest))) =
      some (octets piece).length := by
    refine Text.offset?_eq_some_iff.mpr ⟨?_, hoccurs.octets_prefix, fun m hm hprefix => ?_⟩
    · rw [length_octets_lowered, List.append_assoc]
      exact Text.length_octets_le_of_prefix (List.prefix_append _ _)
    · -- an earlier offset is that of an occurrence, and the piece would not reach up to it
      obtain ⟨before, found', after, hother, rfl⟩ := exists_occurrence_of_octets hword hprefix
      have hpiece : piece <+: before :=
        List.prefix_of_prefix_length_le hoccurs.before_prefix hother.before_prefix
          (hfirst before found' after hother)
      exact absurd hm (Nat.not_lt.mpr (Text.length_octets_le_of_prefix hpiece))
  have hend : (octets piece).length + (octets (lowered word)).length =
      (octets (piece ++ found)).length := by
    rw [Text.octets_append, List.length_append, ← hfound, length_octets_lowered]
  have hfront : cutAt? (octets piece).length (piece ++ found ++ rest) =
      some (piece, found ++ rest) :=
    Text.cutAt?_eq_some_iff.mpr ⟨List.append_assoc .., rfl⟩
  have hbehind : cutAt? (octets (piece ++ found)).length (piece ++ found ++ rest) =
      some (piece ++ found, rest) :=
    Text.cutAt?_eq_some_iff.mpr ⟨rfl, rfl⟩
  simp only [turn, hoffset, hend, hfront, hbehind]

/-- The removal by offsets comes to an end, and puts out the pieces. -/
theorem Parted.removal (hword : word ≠ []) {text last : List Char}
    {cuts : List (List Char × List Char)} (h : Parted word text cuts last) (out : List Char) :
    Removal word out text (out ++ (cuts.flatMap Prod.fst ++ last)) := by
  induction h generalizing out with
  | last h => exact .finished (turn_of_not_occurrence hword h)
  | @next piece found rest last cuts hfound hfirst hrest ih =>
    have hafter := ih (out ++ piece)
    rw [List.append_assoc out, ← List.append_assoc piece] at hafter
    rw [List.flatMap_cons]
    exact .cut (turn_of_first hword hfound hfirst) hafter

/-- The removal by offsets has one result. -/
theorem Removal.unique {out rest result result' : List Char} (h : Removal word out rest result)
    (h' : Removal word out rest result') : result = result' := by
  induction h with
  | finished h =>
    cases h' with
    | finished => rfl
    | cut hcut =>
      rw [h] at hcut
      cases hcut
  | cut h hafter ih =>
    cases h' with
    | finished hfinished =>
      rw [h] at hfinished
      cases hfinished
    | cut hcut hafter' =>
      rw [h] at hcut
      cases hcut
      exact ih hafter'

/-! ## Variant names -/

/-- How the full name of a symbol is parted at a word, and what the variant name makes of it. -/
structure NameParts (symbol strip : List Char) (cuts : List (List Char × List Char))
    (last : List Char) : Prop where
  /-- The pieces and the occurrences between them are the full name. -/
  full_eq : fullName symbol = cuts.flatMap (fun cut => cut.1 ++ cut.2) ++ last
  /-- An occurrence is the word but for the case of letters, and the first one behind the one
  before; there is none in the last piece. -/
  parted : Parted strip (fullName symbol) cuts last
  /-- The removal by offsets comes to an end, cuts no character in two, and puts out the pieces. -/
  removal_iff : ∀ result,
    Removal strip [] (fullName symbol) result ↔ result = cuts.flatMap Prod.fst ++ last
  /-- The pieces make the variant name, unless they are all empty. -/
  name_eq : pascalCase symbol strip =
    if cuts.flatMap Prod.fst ++ last = [] then fullName symbol else cuts.flatMap Prod.fst ++ last

/-- **A variant name is what is left of the full name between the occurrences of a word.** -/
theorem exists_nameParts {strip : List Char} (hstrip : strip ≠ []) (symbol : List Char) :
    ∃ cuts last, NameParts symbol strip cuts last := by
  obtain ⟨cuts, last, h⟩ := exists_parted hstrip (fullName symbol)
  refine ⟨cuts, last, h.text_eq, h, fun result => ⟨fun hresult => ?_, ?_⟩, ?_⟩
  · exact hresult.unique (h.removal hstrip [])
  · rintro rfl
    exact h.removal hstrip []
  · simp only [pascalCase, if_neg hstrip, h.removeFrom_eq hstrip]
    split
    · rename_i hnil
      rw [if_pos hnil]
    · rename_i hne
      rw [if_neg hne]

/-- A symbol with a letter whose lower case is two characters, of which one is two octets long. -/
def dottedSymbol : List Char := "PAİRED_TYPING_TYPE_ON".toList

theorem exists_nameParts_dottedSymbol :
    "typingtype".toList ≠ [] ∧ fullName dottedSymbol = "Pai\u0307redTypingTypeOn".toList ∧
      pascalCase dottedSymbol "typingtype".toList = "Pai\u0307redOn".toList ∧
      ∃ cuts last, NameParts dottedSymbol "typingtype".toList cuts last :=
  ⟨by decide, by decide +kernel, by decide +kernel, exists_nameParts (by decide) dottedSymbol⟩

end LiteChat.Schema
