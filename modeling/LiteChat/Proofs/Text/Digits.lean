import Mathlib.Logic.Basic
import LiteChat.Json.Tree
import LiteChat.Proofs.Text.Numeral

/-!
# What is read as an integer

A text is read as an integer if it is an optional sign and one or more decimal digits, and the
integer lies in the range that is asked for (`signed?_eq_some_iff`).  An unsigned integer may have a
plus sign only (`unsigned?_eq_some_iff`).  The digits have the value that they have in a JSON
number, so what is read are the spellings of the integer (`isInteger_iff_spells`).
-/

namespace LiteChat.Text

/-- One or more decimal digits. -/
def IsDigits (digits : List Char) : Prop := digits ≠ [] ∧ ∀ c ∈ digits, c.isDigit = true

/-- A text is an optional sign and one or more decimal digits, and stands for an integer.  A minus
sign may not be allowed. -/
inductive IsInteger (minusAllowed : Bool) : List Char → Int → Prop
  | plain {digits : List Char} (h : IsDigits digits) :
    IsInteger minusAllowed digits (Json.digitsValue digits)
  | plus {digits : List Char} (h : IsDigits digits) :
    IsInteger minusAllowed ('+' :: digits) (Json.digitsValue digits)
  | minus {digits : List Char} (h : IsDigits digits) (hallowed : minusAllowed = true) :
    IsInteger minusAllowed ('-' :: digits) (-(Json.digitsValue digits : Int))

theorem digit?_eq (c : Char) :
    digit? c = if c.isDigit = true then some (c.toNat - '0'.toNat) else none := by
  have hiff : ('0' ≤ c ∧ c ≤ '9') ↔ c.isDigit = true := Char.isDigit_iff_toNat.symm
  simp only [digit?, hiff]

theorem digitsFrom?_eq_some_iff {value n : Nat} {text : List Char} :
    digitsFrom? value text = some n ↔ (∀ c ∈ text, c.isDigit = true) ∧
      text.foldl (fun n c => 10 * n + (c.toNat - '0'.toNat)) value = n := by
  induction text generalizing value with
  | nil => simp [digitsFrom?]
  | cons c rest ih =>
    rw [digitsFrom?_cons, digit?_eq, List.forall_mem_cons]
    by_cases hc : c.isDigit = true
    · rw [if_pos hc, and_iff_right hc]
      exact ih
    · simp [hc]

/-- What is read as a natural number is digits, and they have its value. -/
theorem nat?_eq_some_iff {text : List Char} {n : Nat} :
    nat? text = some n ↔ IsDigits text ∧ Json.digitsValue text = n := by
  cases text with
  | nil => simp [nat?, IsDigits]
  | cons c rest =>
    rw [nat?, digitsFrom?_eq_some_iff, IsDigits, and_iff_right (List.cons_ne_nil c rest)]
    rfl

theorem map_nat?_eq_some_iff {text : List Char} {f : Int → Int} {i : Int} :
    (do let n ← nat? text; pure (n : Int) : Option Int).map f = some i ↔
      IsDigits text ∧ f (Json.digitsValue text) = i := by
  simp [Option.bind_eq_some_iff, nat?_eq_some_iff, and_assoc]

/-- A text that begins with a sign is no digits. -/
theorem not_isDigits_cons {c : Char} (hc : c.isDigit = false) (rest : List Char) :
    ¬ IsDigits (c :: rest) := by
  intro h
  have hdigit := h.2 c List.mem_cons_self
  rw [hc] at hdigit
  cases hdigit

theorem isInteger_plus_iff {minusAllowed : Bool} {rest : List Char} {i : Int} :
    IsInteger minusAllowed ('+' :: rest) i ↔ IsDigits rest ∧ (Json.digitsValue rest : Int) = i := by
  constructor
  · intro h
    cases h with
    | plain h => exact absurd h (not_isDigits_cons rfl rest)
    | plus h => exact ⟨h, rfl⟩
  · rintro ⟨h, rfl⟩
    exact .plus h

theorem isInteger_minus_iff {minusAllowed : Bool} {rest : List Char} {i : Int} :
    IsInteger minusAllowed ('-' :: rest) i ↔
      minusAllowed = true ∧ IsDigits rest ∧ -(Json.digitsValue rest : Int) = i := by
  constructor
  · intro h
    cases h with
    | plain h => exact absurd h (not_isDigits_cons rfl rest)
    | minus h hallowed => exact ⟨hallowed, h, rfl⟩
  · rintro ⟨hallowed, h, rfl⟩
    exact .minus h hallowed

theorem isInteger_iff_of_no_sign {minusAllowed : Bool} {text : List Char} {i : Int}
    (hplus : ∀ rest, text ≠ '+' :: rest) (hminus : ∀ rest, text ≠ '-' :: rest) :
    IsInteger minusAllowed text i ↔ IsDigits text ∧ (Json.digitsValue text : Int) = i := by
  constructor
  · intro h
    cases h with
    | plain h => exact ⟨h, rfl⟩
    | plus h => exact absurd rfl (hplus _)
    | minus h => exact absurd rfl (hminus _)
  · rintro ⟨h, rfl⟩
    exact .plain h

theorem signed?_eq_some_iff {least bound i : Int} {text : List Char} :
    signed? least bound text = some i ↔ IsInteger true text i ∧ least ≤ i ∧ i < bound := by
  unfold signed?
  rw [Option.filter_eq_some_iff, decide_eq_true_eq]
  refine and_congr_left fun _ => ?_
  split
  · rw [map_nat?_eq_some_iff, isInteger_plus_iff]
  · rw [map_nat?_eq_some_iff, isInteger_minus_iff, and_iff_right rfl]
  · rename_i hplus hminus
    rw [map_nat?_eq_some_iff, isInteger_iff_of_no_sign hplus hminus]

theorem unsigned?_eq_some_iff {bound n : Nat} {text : List Char} :
    unsigned? bound text = some n ↔ IsInteger false text n ∧ n < bound := by
  unfold unsigned?
  rw [Option.filter_eq_some_iff, decide_eq_true_eq, nat?_eq_some_iff]
  refine and_congr_left fun _ => ?_
  split
  · rw [isInteger_plus_iff, Int.ofNat_inj]
  · rename_i hplus
    by_cases hminus : ∃ rest, text = '-' :: rest
    · obtain ⟨rest, rfl⟩ := hminus
      rw [isInteger_minus_iff]
      exact iff_of_false (fun h => not_isDigits_cons rfl rest h.1) (by simp)
    · rw [isInteger_iff_of_no_sign hplus fun rest h => hminus ⟨rest, h⟩, Int.ofNat_inj]

/-- The texts that stand for an integer are its spellings: to have its value, the digits have to be
those of the integer, but for zeros in front. -/
theorem isInteger_iff_spells {text : List Char} {i : Int} :
    IsInteger true text i ↔ Spells i text := by
  -- either is what is read in a range of one integer
  have hrange : i ≤ i ∧ i < i + 1 := by omega
  constructor
  · intro h
    have hread : signed? i (i + 1) text = some i := signed?_eq_some_iff.mpr ⟨h, hrange⟩
    exact (spells_of_signed? hread).1
  · intro h
    have hread : signed? i (i + 1) text = some i := signed?_of_spells h hrange.1 hrange.2
    exact (signed?_eq_some_iff.mp hread).1

end LiteChat.Text
