import LiteChat.Floating.Double
import LiteChat.Proofs.Floating.Rounding

/-!
# Between the precisions

Every finite single precision number is a double precision number as well, so it is kept
as it is by going to double precision and back (`Single.narrow_widen`).  The integers of
64 bits are far from the greatest double (`Double.isFinite_ofInt`).
-/

namespace LiteChat.Floating

/-! ## Signs -/

namespace Format

variable {f : Format} {magnitude : Nat}

theorem infinity_lt_signWeight (f : Format) : f.infinity < f.signWeight := by
  have hpos : 0 < 2 ^ f.fractionBits := Nat.two_pow_pos _
  have hexponent : 0 < 2 ^ f.exponentBits := Nat.two_pow_pos _
  have hweight : f.signWeight = 2 ^ f.exponentBits * 2 ^ f.fractionBits := by
    rw [signWeight, Nat.pow_eq, pow_add, Nat.mul_comm]
  rw [hweight]
  exact Nat.mul_lt_mul_of_pos_right (Nat.sub_lt hexponent one_pos) hpos

theorem pattern_lt (h : magnitude < f.signWeight) (negative : Bool) :
    f.pattern negative magnitude < 2 * f.signWeight := by
  unfold pattern
  split <;> omega

theorem isNegative_pattern (h : magnitude < f.signWeight) (negative : Bool) :
    f.isNegative (f.pattern negative magnitude) = negative := by
  cases negative <;> simp [isNegative, pattern, h]

theorem magnitude_pattern (h : magnitude < f.signWeight) (negative : Bool) :
    f.magnitude (f.pattern negative magnitude) = magnitude := by
  cases negative <;> simp [Format.magnitude, pattern, Nat.mod_eq_of_lt h]

/-- A pattern is put together from its sign and its magnitude. -/
theorem pattern_magnitude {n : Nat} (h : n < 2 * f.signWeight) :
    f.pattern (f.isNegative n) (f.magnitude n) = n := by
  unfold pattern isNegative Format.magnitude
  rcases lt_or_ge n f.signWeight with hlt | hge
  · simp [hlt.not_ge, Nat.mod_eq_of_lt hlt]
  · obtain ⟨k, rfl⟩ := Nat.exists_eq_add_of_le hge
    have hk : k < f.signWeight := by omega
    simp [Nat.mod_eq_of_lt hk]

end Format

/-! ## Doubles -/

namespace Double

variable {magnitude : Nat} {negative : Bool}

theorem toNat_bits_ofMagnitude (h : magnitude < Format.binary64.signWeight) :
    (ofMagnitude negative magnitude).bits.toNat = Format.binary64.pattern negative magnitude :=
  Nat.mod_eq_of_lt (Format.pattern_lt h negative)

theorem magnitude_ofMagnitude (h : magnitude < Format.binary64.signWeight) :
    (ofMagnitude negative magnitude).magnitude = magnitude := by
  rw [Double.magnitude, toNat_bits_ofMagnitude h, Format.magnitude_pattern h]

theorem isNegative_ofMagnitude (h : magnitude < Format.binary64.signWeight) :
    (ofMagnitude negative magnitude).isNegative = negative := by
  rw [isNegative, toNat_bits_ofMagnitude h, Format.isNegative_pattern h]

theorem isFinite_ofMagnitude (h : magnitude < Format.binary64.infinity) :
    (ofMagnitude negative magnitude).isFinite = true := by
  rw [isFinite, magnitude_ofMagnitude (h.trans Format.binary64.infinity_lt_signWeight)]
  exact decide_eq_true h

/-- The integers of 64 bits are finite numbers. -/
theorem isFinite_ofInt {n : Int} (h : n.natAbs < 2 ^ 64) : (ofInt n).isFinite = true := by
  refine isFinite_ofMagnitude ?_
  have hratio : ((n.natAbs : Nat) : ℚ) / ((1 : Nat) : ℚ) < 2 ^ (64 : Int) := by
    rw [Nat.cast_one, div_one]
    exact_mod_cast h
  exact Format.round_lt_infinity one_pos hratio (by decide) (by decide)

end Double

/-! ## Singles -/

namespace Single

/-- A finite number of single precision has a pattern in double precision. -/
theorem exists_double_value {magnitude : Nat} (h : magnitude < Format.binary32.infinity) :
    ∃ wide < Format.binary64.infinity,
      Format.binary64.value wide = Format.binary32.value magnitude := by
  have hparts := Format.binary32.canonical_parts magnitude
  have hencode := Format.binary32.encode_parts magnitude
  rw [Format.value]
  generalize Format.binary32.parts magnitude = parts at hparts hencode
  obtain ⟨m, q⟩ := parts
  dsimp only at hparts hencode ⊢
  have hm : m < 2 ^ 24 := hparts.lt
  have hleast : (-149 : Int) ≤ q := hparts.least_le
  -- the exponent of a finite number is well within the range of the doubles
  have hq : q < 106 := by
    have hfield : (q + 149).toNat * 2 ^ 23 + m = magnitude := hencode
    have hbound : magnitude < 255 * 2 ^ 23 := h
    omega
  obtain ⟨m', q', hcanonical, hle, hvalue⟩ := Format.exists_canonical
    (hm.trans (by decide) : m < 2 ^ (Format.binary64.fractionBits + 1))
    (show Format.binary64.leastExponent ≤ q from (by decide : (-1074 : Int) ≤ -149).trans hleast)
  refine ⟨Format.binary64.encode m' q', ?_, (Format.value_encode hcanonical).trans hvalue⟩
  have hm' : m' < 2 ^ 53 := hcanonical.lt
  change (q' + 1074).toNat * 2 ^ 52 + m' < 2047 * 2 ^ 52
  omega

section Widen
variable {x : Single}

/-- The magnitude of a finite number in double precision. -/
theorem exists_widen (h : x.isFinite = true) :
    ∃ wide < Format.binary64.infinity,
      Format.binary64.value wide = Format.binary32.value x.magnitude ∧
        x.widen = Double.ofMagnitude x.isNegative wide := by
  obtain ⟨wide, hwide, hvalue⟩ := exists_double_value (of_decide_eq_true h)
  refine ⟨wide, hwide, hvalue, ?_⟩
  rw [widen, if_pos h]
  exact congrArg _ (Format.roundScaled_eq_of_value hwide hvalue.symm)

theorem isFinite_widen (h : x.isFinite = true) : x.widen.isFinite = true := by
  obtain ⟨wide, hwide, -, hx⟩ := exists_widen h
  rw [hx]
  exact Double.isFinite_ofMagnitude hwide

/-- What is no finite number is none in double precision either. -/
theorem isFinite_widen_of_not (h : x.isFinite = false) : x.widen.isFinite = false := by
  have hinfinity : Format.binary64.infinity = 2047 * 2 ^ 52 := by decide
  have hweight : Format.binary64.signWeight = 2047 * 2 ^ 52 + 2 ^ 52 := by decide
  obtain ⟨payload, hpayload, hx⟩ : ∃ payload < 2 ^ 52,
      x.widen = Double.ofMagnitude x.isNegative (Format.binary64.infinity + payload) := by
    have hlt : x.magnitude < 2 ^ 31 := Nat.mod_lt _ (by decide)
    have hshift : (x.magnitude - 255 * 2 ^ 23) * 2 ^ 29 < 2 ^ 52 := by omega
    have hwiden : (x.magnitude - Format.binary32.infinity) * Nat.pow 2 extraFraction =
        (x.magnitude - 255 * 2 ^ 23) * 2 ^ 29 := rfl
    rw [widen, if_neg (by simp [h]), hwiden]
    dsimp only
    split
    · exact ⟨0, by decide, rfl⟩
    · exact ⟨_, Nat.or_lt_two_pow hshift (by decide), rfl⟩
  rw [hx, Double.isFinite, Double.magnitude_ofMagnitude (by omega)]
  exact decide_eq_false (by omega)

theorem ofMagnitude_magnitude (x : Single) : ofMagnitude x.isNegative x.magnitude = x := by
  have hlt : x.bits.toNat < 2 * Format.binary32.signWeight := x.bits.toNat_lt
  rw [ofMagnitude, isNegative, Single.magnitude, Format.pattern_magnitude hlt, UInt32.ofNat_toNat]

/-- A finite number is kept as it is by going to double precision and back. -/
theorem narrow_widen (h : x.isFinite = true) : x.widen.narrow = x := by
  obtain ⟨wide, hwide, hvalue, hx⟩ := exists_widen h
  have hweight := hwide.trans Format.binary64.infinity_lt_signWeight
  rw [hx, Double.narrow, if_pos (Double.isFinite_ofMagnitude hwide),
    Double.magnitude_ofMagnitude hweight, Double.isNegative_ofMagnitude hweight]
  have hround : Format.binary32.roundScaled (Format.binary64.parts wide).1
      (Format.binary64.parts wide).2 = x.magnitude :=
    Format.roundScaled_eq_of_value (of_decide_eq_true h) hvalue
  dsimp only
  rw [hround, ofMagnitude_magnitude]

end Widen

end Single

end LiteChat.Floating
