import Mathlib.Data.List.Infix

/-!
# Texts by octets

In UTF-8 a character is one to four octets long, and its first octet cannot be mistaken for
one of the others.  So a text can be looked up by octets: wherever its octets stand in those of
another text, it stands there itself, between two characters (`exists_of_octets_prefix_drop`).
An offset in octets that lies between two characters cuts a text in two, and one that lies
inside a character does not (`cutAt?_eq_some_iff`).
-/

namespace LiteChat.Text

/-- The octets of a text. -/
def octets (text : List Char) : List UInt8 := text.flatMap String.utf8EncodeChar

/-- A text cut at an offset in octets, unless the offset lies inside a character or behind the
end. -/
def cutAt? : Nat → List Char → Option (List Char × List Char)
  | 0, text => some ([], text)
  | _ + 1, [] => none
  | n + 1, c :: rest =>
    if c.utf8Size ≤ n + 1 then
      (cutAt? (n + 1 - c.utf8Size) rest).map fun (before, after) => (c :: before, after)
    else none

/-- The offset at which octets first stand in others. -/
def offset? (word text : List UInt8) : Option Nat := text.tails.findIdx? word.isPrefixOf

theorem octets_cons (c : Char) (text : List Char) :
    octets (c :: text) = String.utf8EncodeChar c ++ octets text :=
  List.flatMap_cons

theorem octets_append (text more : List Char) :
    octets (text ++ more) = octets text ++ octets more :=
  List.flatMap_append

theorem length_octets_cons (c : Char) (text : List Char) :
    (octets (c :: text)).length = c.utf8Size + (octets text).length := by
  rw [octets_cons, List.length_append, String.length_utf8EncodeChar]

theorem octets_ne_nil {text : List Char} (h : text ≠ []) : octets text ≠ [] := by
  obtain ⟨c, rest, rfl⟩ := List.exists_cons_of_ne_nil h
  rw [octets_cons]
  exact List.append_ne_nil_of_left_ne_nil String.utf8EncodeChar_ne_nil _

theorem length_octets_le_of_prefix {front text : List Char} (h : front <+: text) :
    (octets front).length ≤ (octets text).length := by
  obtain ⟨rest, rfl⟩ := h
  rw [octets_append, List.length_append]
  exact Nat.le_add_right _ _

/-! ## Cuts -/

theorem cutAt?_append (before after : List Char) :
    cutAt? (octets before).length (before ++ after) = some (before, after) := by
  induction before with
  | nil => cases after <;> rfl
  | cons c before ih =>
    have hpos := c.utf8Size_pos
    obtain ⟨n, hn⟩ : ∃ n, (octets (c :: before)).length = n + 1 :=
      Nat.exists_eq_add_one_of_ne_zero (by rw [length_octets_cons]; omega)
    have hlength := length_octets_cons c before
    have hrest : n + 1 - c.utf8Size = (octets before).length := by omega
    rw [hn, List.cons_append, cutAt?, if_pos (by omega), hrest, ih]
    rfl

/-- A text can be cut between two characters only. -/
theorem cutAt?_eq_some_iff {n : Nat} {text before after : List Char} :
    cutAt? n text = some (before, after) ↔
      text = before ++ after ∧ (octets before).length = n := by
  constructor
  · intro h
    induction text generalizing n before with
    | nil =>
      cases n with
      | zero =>
        cases h
        exact ⟨rfl, rfl⟩
      | succ n => cases h
    | cons c rest ih =>
      cases n with
      | zero =>
        cases h
        exact ⟨rfl, rfl⟩
      | succ n =>
        rw [cutAt?] at h
        split at h
        · rename_i hle
          obtain ⟨⟨b, a⟩, hb, he⟩ := Option.map_eq_some_iff.mp h
          cases he
          obtain ⟨rfl, hlength⟩ := ih hb
          refine ⟨rfl, ?_⟩
          rw [length_octets_cons]
          omega
        · cases h
  · rintro ⟨rfl, rfl⟩
    exact cutAt?_append before after

/-! ## Looking up -/

theorem offset?_eq_some_iff {word text : List UInt8} {n : Nat} :
    offset? word text = some n ↔
      n ≤ text.length ∧ word <+: text.drop n ∧ ∀ m < n, ¬ word <+: text.drop m := by
  rw [offset?, List.findIdx?_eq_some_iff_getElem]
  simp only [List.getElem_tails, List.length_tails, List.isPrefixOf_iff_prefix, exists_prop]
  rw [Nat.lt_succ_iff]

theorem offset?_eq_none_iff {word text : List UInt8} :
    offset? word text = none ↔ ¬ word <:+: text := by
  rw [offset?, List.findIdx?_eq_none_iff, List.infix_iff_prefix_suffix]
  simp only [List.mem_tails, Bool.eq_false_iff, ne_eq, List.isPrefixOf_iff_prefix, not_exists,
    not_and']

theorem utf8EncodeChar_append_inj {c d : Char} {text more : List UInt8}
    (h : String.utf8EncodeChar c ++ text = String.utf8EncodeChar d ++ more) :
    c = d ∧ text = more := by
  have hbytes := congrArg List.toByteArray h
  rw [List.toByteArray_append, List.toByteArray_append] at hbytes
  have hc := ByteArray.utf8DecodeChar?_utf8EncodeChar_append (b := text.toByteArray) (c := c)
  rw [hbytes, ByteArray.utf8DecodeChar?_utf8EncodeChar_append] at hc
  cases Option.some.inj hc
  exact ⟨rfl, List.append_cancel_left h⟩

/-- A text whose octets begin another one begins it. -/
theorem prefix_of_octets_prefix {word text : List Char} (h : octets word <+: octets text) :
    word <+: text := by
  induction word generalizing text with
  | nil => exact List.nil_prefix
  | cons c word ih =>
    cases text with
    | nil => exact absurd (List.prefix_nil.mp h) (octets_ne_nil (List.cons_ne_nil c word))
    | cons d text =>
      obtain ⟨more, hmore⟩ := h
      rw [octets_cons, octets_cons, List.append_assoc] at hmore
      obtain ⟨rfl, hrest⟩ := utf8EncodeChar_append_inj hmore
      exact (List.prefix_cons_inj c).mpr (ih ⟨more, hrest⟩)

/-- The first octet of a character is none of the later ones, so a text does not stand inside a
character. -/
theorem eq_zero_of_octets_prefix_drop {word rest : List Char} (hword : word ≠ []) {c : Char}
    {n : Nat} (hn : n < c.utf8Size) (h : octets word <+: (octets (c :: rest)).drop n) :
    n = 0 := by
  obtain ⟨d, more, rfl⟩ := List.exists_cons_of_ne_nil hword
  have hfirst : 0 < (String.utf8EncodeChar d).length := by
    rw [String.length_utf8EncodeChar]
    exact d.utf8Size_pos
  have hinside : n < (String.utf8EncodeChar c).length := by rwa [String.length_utf8EncodeChar]
  have hsame : (String.utf8EncodeChar d)[0] = (String.utf8EncodeChar c)[n] := by
    rw [octets_cons, octets_cons, List.drop_append_of_le_length hinside.le] at h
    have hstart := ((List.prefix_append _ _).trans h).getElem hfirst
    have hlength : 0 < ((String.utf8EncodeChar c).drop n).length := by
      rw [List.length_drop]
      exact Nat.sub_pos_of_lt hinside
    rwa [List.getElem_append_left hlength, List.getElem_drop] at hstart
  exact UInt8.isUTF8FirstByte_getElem_utf8EncodeChar.mp
    (hsame ▸ UInt8.isUTF8FirstByte_getElem_zero_utf8EncodeChar)

/-- Where the octets of a text stand in those of another one, it stands there itself, between two
characters. -/
theorem exists_of_octets_prefix_drop {word text : List Char} (hword : word ≠ []) {n : Nat}
    (h : octets word <+: (octets text).drop n) :
    ∃ before after, text = before ++ word ++ after ∧ (octets before).length = n := by
  induction text generalizing n with
  | nil =>
    have hnil : octets word <+: [] := by simpa [octets] using h
    exact absurd (List.prefix_nil.mp hnil) (octets_ne_nil hword)
  | cons c rest ih =>
    by_cases hn : n < c.utf8Size
    · obtain rfl := eq_zero_of_octets_prefix_drop hword hn h
      obtain ⟨after, hafter⟩ := prefix_of_octets_prefix h
      exact ⟨[], after, hafter.symm, rfl⟩
    · have hlength : (String.utf8EncodeChar c).length ≤ n := by
        rw [String.length_utf8EncodeChar]
        exact Nat.not_lt.mp hn
      rw [octets_cons, List.drop_append, List.drop_of_length_le hlength, List.nil_append,
        String.length_utf8EncodeChar] at h
      obtain ⟨before, after, rfl, hbefore⟩ := ih h
      refine ⟨c :: before, after, rfl, ?_⟩
      rw [length_octets_cons]
      omega

end LiteChat.Text
