import Mathlib.Data.Nat.Basic
import LiteChat.Text.Integer

/-!
# The spellings of an integer

An integer may be spelled with zeros in front of its decimal digits, and with a sign in
front of those (`Spells`).  Whatever the spelling, it is read as the integer, provided the
integer lies in the range that is asked for (`unsigned?_of_spells`, `signed?_of_spells`);
the spelling that is printed is one of them (`spells_ofNat`, `spells_ofInt`).  Nothing else
is read as an integer (`spells_of_unsigned?`, `spells_of_signed?`).
-/

namespace LiteChat.Text

/-- The digits of a natural number, with zeros in front. -/
def padded (zeros n : Nat) : List Char := List.replicate zeros '0' ++ ofNat n

/-- The texts that spell an integer in decimal. -/
inductive Spells : Int → List Char → Prop
  /-- Digits alone. -/
  | plain (zeros n : Nat) : Spells n (padded zeros n)
  /-- Digits after a plus sign. -/
  | plus (zeros n : Nat) : Spells n ('+' :: padded zeros n)
  /-- Digits after a minus sign. -/
  | minus (zeros n : Nat) : Spells (-n) ('-' :: padded zeros n)

/-! ## Digits -/

theorem digit?_digitChar {d : Nat} (h : d < 10) : digit? d.digitChar = some d := by
  have key : ∀ d : Fin 10, digit? (Nat.digitChar d) = some d.val := by decide
  exact key ⟨d, h⟩

theorem digitsFrom?_append (value : Nat) (front rest : List Char) :
    digitsFrom? value (front ++ rest) = (digitsFrom? value front).bind (digitsFrom? · rest) := by
  induction front generalizing value with
  | nil => rfl
  | cons c front ih =>
    rw [List.cons_append, digitsFrom?_cons, digitsFrom?_cons]
    cases digit? c with
    | none => rfl
    | some d => exact ih _

theorem digitsFrom?_ofNat (n : Nat) : digitsFrom? 0 (ofNat n) = some n := by
  induction n using Nat.strong_induction_on with
  | _ n ih =>
    rcases Nat.lt_or_ge n 10 with hn | hn
    · rw [ofNat, Nat.toDigits_of_lt_base hn, digitsFrom?_cons, digit?_digitChar hn]
      exact congrArg some (Nat.zero_add n)
    · have hq : n / 10 < n := Nat.div_lt_self (by omega) (by omega)
      have hsplit : ofNat n = ofNat (n / 10) ++ [(n % 10).digitChar] :=
        Nat.toDigits_of_base_le (by omega) hn
      rw [hsplit, digitsFrom?_append, ih _ hq, Option.bind_some, digitsFrom?_cons,
        digit?_digitChar (Nat.mod_lt _ (by omega))]
      exact congrArg some (Nat.div_add_mod n 10)

theorem digitsFrom?_padded (zeros n : Nat) : digitsFrom? 0 (padded zeros n) = some n := by
  induction zeros with
  | zero => exact digitsFrom?_ofNat n
  | succ zeros ih =>
    have hzero : digit? '0' = some 0 := by decide
    rw [padded, List.replicate_succ, List.cons_append, digitsFrom?_cons, hzero]
    exact ih

theorem isDigit_of_mem_padded {zeros n : Nat} {c : Char} (h : c ∈ padded zeros n) :
    c.isDigit = true := by
  rcases List.mem_append.mp h with h | h
  · rw [List.eq_of_mem_replicate h]
    decide
  · exact Nat.isDigit_of_mem_toDigits (by omega) (by omega) h

theorem exists_padded_eq_cons (zeros n : Nat) :
    ∃ c rest, padded zeros n = c :: rest ∧ c.isDigit = true := by
  have hne : padded zeros n ≠ [] :=
    List.append_ne_nil_of_right_ne_nil _ Nat.toDigits_ne_nil
  obtain ⟨c, rest, he⟩ := List.exists_cons_of_ne_nil hne
  exact ⟨c, rest, he, isDigit_of_mem_padded (he ▸ List.mem_cons_self ..)⟩

theorem nat?_padded (zeros n : Nat) : nat? (padded zeros n) = some n := by
  obtain ⟨c, rest, he, -⟩ := exists_padded_eq_cons zeros n
  rw [he, nat?, ← he, digitsFrom?_padded]

/-! ## Integers -/

theorem unsigned?_padded (bound zeros n : Nat) :
    unsigned? bound (padded zeros n) = (some n).filter (decide <| · < bound) := by
  obtain ⟨c, rest, he, hc⟩ := exists_padded_eq_cons zeros n
  have hread := nat?_padded zeros n
  rw [he] at hread ⊢
  unfold unsigned?
  split
  · rename_i hplus
    cases hplus
    cases hc
  · exact congrArg (Option.filter (decide <| · < bound)) hread

/-- A spelling of a positive number below the bound is read as the number. -/
theorem unsigned?_of_spells {bound n : Nat} {text : List Char} (h : Spells n text)
    (hpos : 0 < n) (hn : n < bound) : unsigned? bound text = some n := by
  have hfilter : (some n).filter (decide <| · < bound) = some n := by simp [hn]
  generalize hi : (n : Int) = i at h
  cases h with
  | plain zeros m =>
    cases Int.ofNat_inj.mp hi
    rw [unsigned?_padded, hfilter]
  | plus zeros m =>
    cases Int.ofNat_inj.mp hi
    simp only [unsigned?]
    rw [nat?_padded, hfilter]
  | minus zeros m => omega

theorem signed?_padded (least bound : Int) (zeros n : Nat) :
    signed? least bound (padded zeros n) =
      (some (n : Int)).filter fun i => decide (least ≤ i ∧ i < bound) := by
  obtain ⟨c, rest, he, hc⟩ := exists_padded_eq_cons zeros n
  have hread := nat?_padded zeros n
  rw [he] at hread ⊢
  unfold signed?
  split
  · rename_i hplus
    cases hplus
    cases hc
  · rename_i hminus
    cases hminus
    cases hc
  · rw [hread]
    rfl

/-- A spelling of an integer in the range is read as the integer. -/
theorem signed?_of_spells {least bound n : Int} {text : List Char} (h : Spells n text)
    (hleast : least ≤ n) (hbound : n < bound) : signed? least bound text = some n := by
  have hfilter : (some n).filter (fun i => decide (least ≤ i ∧ i < bound)) = some n := by
    simp [hleast, hbound]
  cases h with
  | plain zeros m => rw [signed?_padded, hfilter]
  | plus zeros m =>
    simp only [signed?]
    rw [nat?_padded]
    exact hfilter
  | minus zeros m =>
    simp only [signed?]
    rw [nat?_padded]
    exact hfilter

theorem spells_ofNat (n : Nat) : Spells n (ofNat n) := Spells.plain 0 n

theorem spells_ofInt (n : Int) : Spells n (ofInt n) := by
  unfold ofInt
  split
  · have hn : n = -(n.natAbs : Int) := by omega
    have hspell := Spells.minus 0 n.natAbs
    rwa [← hn] at hspell
  · have hn : n = (n.natAbs : Int) := by omega
    have hspell := Spells.plain 0 n.natAbs
    rwa [← hn] at hspell

theorem Spells.ne_nil {n : Int} {text : List Char} (h : Spells n text) : text ≠ [] := by
  cases h with
  | plain zeros m =>
    obtain ⟨c, rest, he, -⟩ := exists_padded_eq_cons zeros m
    simp [he]
  | plus => exact List.cons_ne_nil _ _
  | minus => exact List.cons_ne_nil _ _

/-- A spelling has digits and signs only. -/
theorem Spells.digit_or_sign {n : Int} {text : List Char} (h : Spells n text) {c : Char}
    (hc : c ∈ text) : c.isDigit = true ∨ c = '+' ∨ c = '-' := by
  cases h with
  | plain => exact Or.inl (isDigit_of_mem_padded hc)
  | plus =>
    rcases List.mem_cons.mp hc with rfl | hc
    · exact Or.inr (Or.inl rfl)
    · exact Or.inl (isDigit_of_mem_padded hc)
  | minus =>
    rcases List.mem_cons.mp hc with rfl | hc
    · exact Or.inr (Or.inr rfl)
    · exact Or.inl (isDigit_of_mem_padded hc)

/-! ## From the integer back to its spelling -/

theorem eq_digitChar_of_digit? {c : Char} {d : Nat} (h : digit? c = some d) :
    d < 10 ∧ c = d.digitChar := by
  unfold digit? at h
  split at h
  · rename_i hc
    cases h
    have hlow : '0'.toNat ≤ c.toNat := hc.1
    have hhigh : c.toNat ≤ '9'.toNat := hc.2
    have hzero : '0'.toNat = 48 := rfl
    have hnine : '9'.toNat = 57 := rfl
    have hchar : ∀ n : Fin 10, Char.ofNat (48 + n.val) = Nat.digitChar n.val := by decide
    refine ⟨by omega, ?_⟩
    have hc' := hchar ⟨c.toNat - '0'.toNat, by omega⟩
    have hsum : 48 + (c.toNat - '0'.toNat) = c.toNat := by omega
    simp only [hsum, Char.ofNat_toNat] at hc'
    exact hc'
  · cases h

/-- One more digit behind a padded number. -/
theorem exists_padded_snoc (zeros m : Nat) {d : Nat} (hd : d < 10) :
    ∃ more, padded zeros m ++ [d.digitChar] = padded more (10 * m + d) := by
  by_cases hm : m = 0
  · subst hm
    refine ⟨zeros + 1, ?_⟩
    have hzero : ofNat 0 = ['0'] := rfl
    have hdigit : ofNat d = [d.digitChar] := Nat.toDigits_of_lt_base hd
    simp only [padded, hzero, Nat.mul_zero, Nat.zero_add, hdigit, List.replicate_succ']
  · refine ⟨zeros, ?_⟩
    have hsplit : ofNat (10 * m + d) = ofNat m ++ [d.digitChar] := by
      have hdiv : (10 * m + d) / 10 = m := by omega
      have hmod : (10 * m + d) % 10 = d := by omega
      have hdigits := Nat.toDigits_of_base_le (b := 10) (n := 10 * m + d) (by omega) (by omega)
      rwa [hdiv, hmod] at hdigits
    rw [padded, padded, hsplit, List.append_assoc]

/-- Digits that are read behind a padded number go on with it. -/
theorem exists_padded_append {text : List Char} {m n : Nat} (h : digitsFrom? m text = some n)
    (zeros : Nat) : ∃ more, padded zeros m ++ text = padded more n := by
  induction text generalizing m zeros with
  | nil =>
    cases h
    exact ⟨zeros, List.append_nil _⟩
  | cons c rest ih =>
    rw [digitsFrom?] at h
    cases hc : digit? c with
    | none => simp [hc] at h
    | some d =>
      obtain ⟨hd, rfl⟩ := eq_digitChar_of_digit? hc
      simp only [hc] at h
      obtain ⟨more, hmore⟩ := exists_padded_snoc zeros m hd
      obtain ⟨last, hlast⟩ := ih h more
      exact ⟨last, by rw [List.append_cons, hmore, hlast]⟩

theorem exists_padded_of_nat? {text : List Char} {n : Nat} (h : nat? text = some n) :
    ∃ zeros, text = padded zeros n := by
  cases text with
  | nil => cases h
  | cons c rest =>
    rw [nat?, digitsFrom?] at h
    cases hc : digit? c with
    | none => simp [hc] at h
    | some d =>
      obtain ⟨hd, rfl⟩ := eq_digitChar_of_digit? hc
      simp only [hc, Nat.mul_zero, Nat.zero_add] at h
      have hfirst : padded 0 d = [d.digitChar] := Nat.toDigits_of_lt_base hd
      obtain ⟨zeros, hzeros⟩ := exists_padded_append h 0
      exact ⟨zeros, by rw [← hzeros, hfirst]; rfl⟩

/-- What is read as an unsigned integer spells it, and the integer is below the bound. -/
theorem spells_of_unsigned? {bound n : Nat} {text : List Char}
    (h : unsigned? bound text = some n) : Spells n text ∧ n < bound := by
  unfold unsigned? at h
  obtain ⟨hread, hlt⟩ := Option.filter_eq_some_iff.mp h
  refine ⟨?_, of_decide_eq_true hlt⟩
  split at hread
  · obtain ⟨zeros, rfl⟩ := exists_padded_of_nat? hread
    exact .plus zeros n
  · obtain ⟨zeros, rfl⟩ := exists_padded_of_nat? hread
    exact .plain zeros n

/-- What is read as a signed integer spells it, and the integer lies in the range. -/
theorem spells_of_signed? {least bound n : Int} {text : List Char}
    (h : signed? least bound text = some n) : Spells n text ∧ least ≤ n ∧ n < bound := by
  unfold signed? at h
  obtain ⟨hread, hrange⟩ := Option.filter_eq_some_iff.mp h
  refine ⟨?_, of_decide_eq_true hrange⟩
  split at hread
  all_goals
    obtain ⟨i, hi, rfl⟩ := Option.map_eq_some_iff.mp hread
    obtain ⟨m, hm, hcast⟩ := Option.bind_eq_some_iff.mp hi
    obtain rfl : (m : Int) = i := Option.some.inj hcast
    obtain ⟨zeros, rfl⟩ := exists_padded_of_nat? hm
  · exact .plus zeros m
  · exact .minus zeros m
  · exact .plain zeros m

end LiteChat.Text
