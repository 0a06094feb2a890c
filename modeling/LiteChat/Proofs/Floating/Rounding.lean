import Mathlib.Algebra.Order.Field.Power
import Mathlib.Data.Rat.Cast.Order
import Mathlib.Tactic.FieldSimp
import Mathlib.Tactic.Linarith
import Mathlib.Tactic.Ring
import LiteChat.Floating.Format

/-!
# Rounding what needs no rounding

The magnitude pattern of a number `m · 2^q` is found by counting up from the least one, so
a pattern and its parts determine one another (`Format.encode_parts`,
`Format.parts_encode`).  A ratio that a pattern stores exactly is rounded to that pattern
(`Format.round_eq_of_value`), and every number with few enough digits and an exponent in
range has a pattern that stores it (`Format.exists_value_eq`).
-/

namespace LiteChat.Floating

/-! ## Ratios -/

theorem scale_snd_pos {den : Nat} (hden : 0 < den) (num : Nat) (q : Int) :
    0 < (scale num den q).2 :=
  Nat.mul_pos hden (Nat.pow_pos two_pos)

theorem scale_value (num den : Nat) (q : Int) :
    ((scale num den q).1 : ℚ) / (scale num den q).2 = num / den * 2 ^ q := by
  rcases le_total 0 q with hq | hq
  · obtain ⟨k, rfl⟩ := Int.eq_ofNat_of_zero_le hq
    simp [scale, div_mul_eq_mul_div]
  · obtain ⟨k, rfl⟩ := Int.exists_eq_neg_ofNat hq
    simp [scale, div_eq_mul_inv, mul_assoc, mul_comm]

/-- The ratio lies between two neighbouring powers of two. -/
theorem binaryExponent_bounds {num den : Nat} (hnum : 0 < num) (hden : 0 < den) :
    (2 : ℚ) ^ binaryExponent num den ≤ num / den ∧
      (num : ℚ) / den < 2 ^ (binaryExponent num den + 1) := by
  have hdenQ : (0 : ℚ) < den := by exact_mod_cast hden
  have two_ne : (2 : ℚ) ≠ 0 := two_ne_zero
  have hnumLog : (2 : ℚ) ^ (num.log2 : Int) ≤ num ∧ (num : ℚ) < 2 ^ ((num.log2 : Int) + 1) := by
    rw [← Nat.cast_succ, zpow_natCast, zpow_natCast]
    exact ⟨by exact_mod_cast Nat.log2_self_le hnum.ne', by exact_mod_cast Nat.lt_log2_self⟩
  have hdenLog : (2 : ℚ) ^ (den.log2 : Int) ≤ den ∧ (den : ℚ) < 2 ^ ((den.log2 : Int) + 1) := by
    rw [← Nat.cast_succ, zpow_natCast, zpow_natCast]
    exact ⟨by exact_mod_cast Nat.log2_self_le hden.ne', by exact_mod_cast Nat.lt_log2_self⟩
  -- the difference of the logarithms is right or too large by one
  have hlow : (2 : ℚ) ^ ((num.log2 : Int) - den.log2 - 1) ≤ num / den := by
    rw [le_div_iff₀ hdenQ]
    calc (2 : ℚ) ^ ((num.log2 : Int) - den.log2 - 1) * den
        ≤ 2 ^ ((num.log2 : Int) - den.log2 - 1) * 2 ^ ((den.log2 : Int) + 1) := by
          gcongr
          exact hdenLog.2.le
      _ = 2 ^ (num.log2 : Int) := by
          rw [← zpow_add₀ two_ne]
          congr 1
          ring
      _ ≤ num := hnumLog.1
  have hhigh : (num : ℚ) / den < 2 ^ ((num.log2 : Int) - den.log2 + 1) := by
    rw [div_lt_iff₀ hdenQ]
    calc (num : ℚ) < 2 ^ ((num.log2 : Int) + 1) := hnumLog.2
      _ = 2 ^ ((num.log2 : Int) - den.log2 + 1) * 2 ^ (den.log2 : Int) := by
          rw [← zpow_add₀ two_ne]
          congr 1
          ring
      _ ≤ 2 ^ ((num.log2 : Int) - den.log2 + 1) * den := by
          gcongr
          exact hdenLog.1
  set e : Int := (num.log2 : Int) - den.log2 with he
  have hd := scale_snd_pos hden num (-e)
  have hless : (scale num den (-e)).1 < (scale num den (-e)).2 ↔ (num : ℚ) / den < 2 ^ e := by
    have hval := scale_value num den (-e)
    have hdQ : (0 : ℚ) < (scale num den (-e)).2 := by exact_mod_cast hd
    rw [← Nat.cast_lt (α := ℚ), ← div_lt_one₀ hdQ, hval, zpow_neg, ← div_eq_mul_inv,
      div_lt_one₀ (zpow_pos two_pos e)]
  have hcases : binaryExponent num den =
      if (scale num den (-e)).1 < (scale num den (-e)).2 then e - 1 else e := rfl
  rw [hcases]
  split
  · rename_i h
    exact ⟨hlow, by rw [sub_add_cancel]; exact hless.mp h⟩
  · rename_i h
    exact ⟨not_lt.mp (mt hless.mpr h), hhigh⟩

/-- A quotient that is a natural number is rounded to it. -/
theorem roundQuotient_mul {den : Nat} (hden : 0 < den) (m : Nat) :
    roundQuotient (m * den) den = m := by
  simp [roundQuotient, Nat.mul_div_cancel m hden, hden]

theorem roundQuotient_le (num den : Nat) : roundQuotient num den ≤ num / den + 1 := by
  unfold roundQuotient
  dsimp only
  split
  · exact Nat.le_succ _
  · split
    · exact le_rfl
    · split
      · exact Nat.le_succ _
      · exact le_rfl

namespace Format

variable (f : Format)

/-! ## Patterns and their parts -/

/-- The number that a magnitude pattern stores. -/
def value (magnitude : Nat) : ℚ := (f.parts magnitude).1 * 2 ^ (f.parts magnitude).2

/-- The integer and the exponent as a pattern stores them: the exponent is the least one,
or the integer has all the digits there is room for. -/
structure Canonical (m : Nat) (q : Int) : Prop where
  lt : m < 2 ^ (f.fractionBits + 1)
  least_le : f.leastExponent ≤ q
  full : 2 ^ f.fractionBits ≤ m ∨ q = f.leastExponent

/-- The pattern of an integer and an exponent. -/
def encode (m : Nat) (q : Int) : Nat := (q - f.leastExponent).toNat * 2 ^ f.fractionBits + m

variable {f} {m : Nat} {q : Int}

theorem canonical_parts (magnitude : Nat) :
    f.Canonical (f.parts magnitude).1 (f.parts magnitude).2 := by
  have hfraction : magnitude % 2 ^ f.fractionBits < 2 ^ f.fractionBits :=
    Nat.mod_lt _ (Nat.two_pow_pos _)
  unfold parts
  simp only [Nat.pow_eq]
  split
  · exact ⟨by rw [pow_succ]; omega, le_rfl, Or.inr rfl⟩
  · exact ⟨by rw [pow_succ]; omega, by omega, Or.inl (by omega)⟩

theorem encode_parts (magnitude : Nat) :
    f.encode (f.parts magnitude).1 (f.parts magnitude).2 = magnitude := by
  have hdivmod := Nat.div_add_mod magnitude (2 ^ f.fractionBits)
  unfold parts encode
  simp only [Nat.pow_eq]
  split
  · rename_i hzero
    rw [hzero] at hdivmod
    simpa using hdivmod
  · rename_i hfield
    obtain ⟨k, hk⟩ := Nat.exists_eq_succ_of_ne_zero hfield
    rw [hk] at hdivmod ⊢
    have hk' : (f.leastExponent + ((k.succ - 1 : Nat) : Int) - f.leastExponent).toNat = k := by
      omega
    rw [hk']
    calc k * 2 ^ f.fractionBits + (magnitude % 2 ^ f.fractionBits + 2 ^ f.fractionBits)
        = 2 ^ f.fractionBits * k.succ + magnitude % 2 ^ f.fractionBits := by
          rw [Nat.succ_eq_add_one]
          ring
      _ = magnitude := hdivmod

theorem parts_encode (h : f.Canonical m q) : f.parts (f.encode m q) = (m, q) := by
  obtain ⟨k, hk⟩ := Int.eq_ofNat_of_zero_le (sub_nonneg.mpr h.least_le)
  have hq : q = f.leastExponent + k := by omega
  have hlt := h.lt
  rw [pow_succ] at hlt
  have hpos : 0 < 2 ^ f.fractionBits := Nat.two_pow_pos _
  unfold parts encode
  simp only [Nat.pow_eq, hk, Int.toNat_natCast]
  rcases lt_or_ge m (2 ^ f.fractionBits) with hm | hm
  · -- too few digits, so the exponent is the least one
    have hk0 : k = 0 := by
      rcases h.full with hfull | hleast
      · exact absurd hm hfull.not_gt
      · omega
    subst hk0
    rw [Nat.zero_mul, Nat.zero_add, Nat.div_eq_of_lt hm, if_pos rfl, Nat.mod_eq_of_lt hm, hq]
    simp
  · obtain ⟨r, rfl⟩ := Nat.exists_eq_add_of_le hm
    have hr : r < 2 ^ f.fractionBits := by omega
    have hsum : k * 2 ^ f.fractionBits + (2 ^ f.fractionBits + r) =
        r + 2 ^ f.fractionBits * (k + 1) := by ring
    rw [hsum, Nat.add_mul_div_left _ _ hpos, Nat.div_eq_of_lt hr, Nat.add_mul_mod_self_left,
      Nat.mod_eq_of_lt hr, if_neg (by omega), hq]
    simp [Nat.add_comm]

theorem value_encode (h : f.Canonical m q) : f.value (f.encode m q) = m * 2 ^ q := by
  rw [value, parts_encode h]

/-- A number with few enough digits, at an exponent in range, has a pattern, and one that
needs no greater exponent. -/
theorem exists_canonical (hm : m < 2 ^ (f.fractionBits + 1)) (hq : f.leastExponent ≤ q) :
    ∃ m' q', f.Canonical m' q' ∧ q' ≤ q ∧ (m' : ℚ) * 2 ^ q' = m * 2 ^ q := by
  obtain ⟨k, hk⟩ := Int.eq_ofNat_of_zero_le (sub_nonneg.mpr hq)
  induction k generalizing m q with
  | zero => exact ⟨m, q, ⟨hm, hq, Or.inr (by omega)⟩, le_rfl, rfl⟩
  | succ k ih =>
    rcases lt_or_ge m (2 ^ f.fractionBits) with hshort | hfull
    · -- there is room for one more digit
      have hdouble : 2 * m < 2 ^ (f.fractionBits + 1) := by rw [pow_succ]; omega
      obtain ⟨m', q', hcanonical, hle, hvalue⟩ :=
        @ih (2 * m) (q - 1) hdouble (by omega) (by omega)
      refine ⟨m', q', hcanonical, by omega, hvalue.trans ?_⟩
      rw [zpow_sub_one₀ two_ne_zero]
      push_cast
      field_simp
    · exact ⟨m, q, ⟨hm, hq, Or.inl hfull⟩, le_rfl, rfl⟩

/-! ## Rounding -/

/-- The exponent at which a ratio is rounded is that of the pattern that stores it. -/
theorem exponent_eq_of_canonical (h : f.Canonical m q) {num den : Nat}
    (hnum : 0 < num) (hden : 0 < den) (hvalue : (num : ℚ) / den = m * 2 ^ q) :
    max f.leastExponent (binaryExponent num den - f.fractionBits) = q := by
  obtain ⟨hlow, hhigh⟩ := binaryExponent_bounds hnum hden
  rw [hvalue] at hlow hhigh
  have hpow : (0 : ℚ) < 2 ^ q := zpow_pos two_pos q
  have hone : (1 : ℚ) < 2 := one_lt_two
  have hlt : binaryExponent num den < f.fractionBits + 1 + q := by
    refine (zpow_lt_zpow_iff_right₀ hone).mp (hlow.trans_lt ?_)
    rw [zpow_add₀ two_ne_zero]
    refine mul_lt_mul_of_pos_right ?_ hpow
    exact_mod_cast h.lt
  rcases h.full with hfull | hleast
  · have hge : f.fractionBits + q < binaryExponent num den + 1 := by
      refine (zpow_lt_zpow_iff_right₀ hone).mp (lt_of_le_of_lt ?_ hhigh)
      rw [zpow_add₀ two_ne_zero]
      refine mul_le_mul_of_nonneg_right ?_ hpow.le
      exact_mod_cast hfull
    have hexponent : binaryExponent num den = f.fractionBits + q := by omega
    rw [hexponent, add_sub_cancel_left]
    exact max_eq_right h.least_le
  · rw [hleast] at hlt ⊢
    exact max_eq_left (by omega)

/-- A ratio that a pattern stores exactly is rounded to that pattern. -/
theorem round_eq_of_value {magnitude : Nat} (hfinite : magnitude < f.infinity) {num den : Nat}
    (hden : 0 < den) (hvalue : (num : ℚ) / den = f.value magnitude) :
    f.round num den = magnitude := by
  have hcanonical := f.canonical_parts magnitude
  have hencode := f.encode_parts magnitude
  rw [value] at hvalue
  generalize f.parts magnitude = parts at hcanonical hencode hvalue
  obtain ⟨m, q⟩ := parts
  dsimp only at hcanonical hencode hvalue
  have hpow : (2 : ℚ) ^ q ≠ 0 := zpow_ne_zero q two_ne_zero
  unfold round
  split
  · rename_i hzero
    -- nothing but the least pattern stores zero
    rw [hzero, Nat.cast_zero, zero_div] at hvalue
    have hm : m = 0 := by
      rcases mul_eq_zero.mp hvalue.symm with hm | hm
      · exact_mod_cast hm
      · exact absurd hm hpow
    subst hm
    rcases hcanonical.full with hfull | hleast
    · exact absurd hfull (Nat.two_pow_pos _).not_ge
    · rw [hleast, encode, sub_self] at hencode
      simpa using hencode
  · rename_i hnum
    have hexponent := exponent_eq_of_canonical hcanonical (Nat.pos_of_ne_zero hnum) hden hvalue
    dsimp only
    rw [hexponent]
    have hquotient := scale_value num den (-q)
    rw [hvalue, mul_assoc, ← zpow_add₀ two_ne_zero, add_neg_cancel, zpow_zero, mul_one] at hquotient
    have hpos := scale_snd_pos hden num (-q)
    have hproduct : (scale num den (-q)).1 = m * (scale num den (-q)).2 := by
      have hposQ : ((scale num den (-q)).2 : ℚ) ≠ 0 := by exact_mod_cast hpos.ne'
      rw [div_eq_iff hposQ] at hquotient
      exact_mod_cast hquotient
    rw [hproduct, roundQuotient_mul hpos, Nat.pow_eq]
    rw [encode] at hencode
    rw [hencode]
    exact min_eq_right hfinite.le

theorem roundScaled_eq_of_value {magnitude : Nat} (hfinite : magnitude < f.infinity)
    (hvalue : (m : ℚ) * 2 ^ q = f.value magnitude) : f.roundScaled m q = magnitude := by
  have hscale := scale_value m 1 q
  rw [Nat.cast_one, div_one, hvalue] at hscale
  exact round_eq_of_value hfinite (scale_snd_pos one_pos m q) hscale

/-- A ratio well below the infinite is not rounded to infinity. -/
theorem round_lt_infinity {num den : Nat} (hden : 0 < den) {e : Int}
    (hratio : (num : ℚ) / den < 2 ^ e) (hleast : f.leastExponent + f.fractionBits < e)
    (hroom : (e - f.fractionBits - f.leastExponent).toNat + 2 < 2 ^ f.exponentBits) :
    f.round num den < f.infinity := by
  have hpos : 0 < 2 ^ f.fractionBits := Nat.two_pow_pos _
  have hinfinity : f.infinity = (2 ^ f.exponentBits - 1) * 2 ^ f.fractionBits := rfl
  unfold round
  split
  · rw [hinfinity]
    exact Nat.mul_pos (by omega) hpos
  · rename_i hnum
    dsimp only
    set q : Int := max f.leastExponent (binaryExponent num den - f.fractionBits) with hq
    obtain ⟨hlow, hhigh⟩ := binaryExponent_bounds (Nat.pos_of_ne_zero hnum) hden
    have hexponent : binaryExponent num den < e :=
      (zpow_lt_zpow_iff_right₀ one_lt_two).mp (hlow.trans_lt hratio)
    have hqlt : q + f.fractionBits < e := by omega
    -- the quotient has at most one digit more than the fraction
    have hquotient : (scale num den (-q)).1 < 2 ^ (f.fractionBits + 1) * (scale num den (-q)).2 := by
      have hdQ : (0 : ℚ) < (scale num den (-q)).2 := by
        exact_mod_cast scale_snd_pos hden num (-q)
      have hlt : ((scale num den (-q)).1 : ℚ) / (scale num den (-q)).2 <
          2 ^ (f.fractionBits + 1) := by
        calc ((scale num den (-q)).1 : ℚ) / (scale num den (-q)).2
            = num / den * 2 ^ (-q) := scale_value num den (-q)
          _ < 2 ^ (binaryExponent num den + 1) * 2 ^ (-q) :=
              mul_lt_mul_of_pos_right hhigh (zpow_pos two_pos _)
          _ = 2 ^ (binaryExponent num den + 1 + -q) := (zpow_add₀ two_ne_zero _ _).symm
          _ ≤ 2 ^ ((f.fractionBits + 1 : Nat) : Int) :=
              zpow_le_zpow_right₀ one_le_two (by push_cast; omega)
          _ = 2 ^ (f.fractionBits + 1) := zpow_natCast _ _
      rw [div_lt_iff₀ hdQ] at hlt
      exact_mod_cast hlt
    have hrounded : roundQuotient (scale num den (-q)).1 (scale num den (-q)).2 ≤
        2 ^ (f.fractionBits + 1) :=
      (roundQuotient_le _ _).trans (Nat.succ_le_of_lt
        (Nat.div_lt_of_lt_mul (by rwa [Nat.mul_comm] at hquotient)))
    refine lt_of_le_of_lt (min_le_right _ _) ?_
    rw [hinfinity, Nat.pow_eq]
    calc (q - f.leastExponent).toNat * 2 ^ f.fractionBits +
          roundQuotient (scale num den (-q)).1 (scale num den (-q)).2
        ≤ (q - f.leastExponent).toNat * 2 ^ f.fractionBits + 2 ^ (f.fractionBits + 1) := by
          gcongr
      _ = ((q - f.leastExponent).toNat + 2) * 2 ^ f.fractionBits := by ring
      _ < (2 ^ f.exponentBits - 1) * 2 ^ f.fractionBits :=
          Nat.mul_lt_mul_of_pos_right (by omega) hpos

end Format

end LiteChat.Floating
