import LiteChat.Lite.Encode
import LiteChat.Proofs.Floating.Precision
import LiteChat.Proofs.Lite.Reading

/-!
# Scalars there and back

A scalar is written as an element that is read as the same scalar, as far as it can be
written at all: JSON has no infinities (`scalar?_encodeValue`), and what has no form in it is
written as null (`isFinite_of_isNull_encodeValue`).  Octets come back from either of the two
ways in which they are written (`bytes?_encodeBytes`).
-/

namespace LiteChat

/-- Whether a value is not a floating-point number without a place in JSON. -/
def Value.isFinite : Value → Bool
  | .double x => x.isFinite
  | .float x => x.isFinite
  | _ => true

namespace Lite

/-! ## Octets -/

theorem toList_loop (octets : ByteArray) (i : Nat) (acc : List UInt8) :
    ByteArray.toList.loop octets i acc = acc.reverse ++ octets.data.toList.drop i := by
  induction hn : octets.size - i generalizing i acc with
  | zero =>
    have hdrop : octets.data.toList.drop i = [] :=
      List.drop_eq_nil_of_le (by rw [Array.length_toList]; exact Nat.le_of_sub_eq_zero hn)
    rw [ByteArray.toList.loop, if_neg (by omega), hdrop, List.append_nil]
  | succ n ih =>
    have hi : i < octets.size := by omega
    have hlist : i < octets.data.toList.length := by rwa [Array.length_toList]
    rw [ByteArray.toList.loop, if_pos hi, ih (i + 1) _ (by omega),
      List.drop_eq_getElem_cons hlist, List.reverse_cons, List.append_assoc]
    have hget : octets.get! i = octets.data.toList[i] := by
      rw [Array.getElem_toList]
      exact getElem!_pos octets.data i hi
    rw [hget, List.singleton_append]

theorem toList_eq (octets : ByteArray) : octets.toList = octets.data.toList :=
  toList_loop octets 0 []

theorem octet?_toNat (o : UInt8) : octet? (.int o.toNat) = some o := by
  have ho := o.toNat_lt
  have hint : Json.uint64? (.int o.toNat) = some o.toNat := by
    rw [Json.uint64?, if_pos ⟨Int.natCast_nonneg _, by unfold Json.uint64Bound; omega⟩]
    rfl
  rw [octet?, hint, Option.bind_some, if_pos ho, UInt8.ofNat_toNat]

theorem mapM_octet? (octets : List UInt8) :
    (octets.map fun o => Json.int o.toNat).mapM octet? = some octets := by
  induction octets with
  | nil => rfl
  | cons o rest ih => simp [octet?_toNat, ih]

/-- Octets are read as they were, be they written as text or as numbers. -/
theorem bytes?_encodeBytes (octets : ByteArray) : bytes? (encodeBytes octets) = some octets := by
  unfold encodeBytes
  split
  · rename_i text htext
    unfold String.fromUTF8? at htext
    split at htext
    · cases htext
      rfl
    · cases htext
  · rw [bytes?, mapM_octet?, toList_eq]
    rfl

/-! ## Numbers -/

theorem int64?_int32 (n : Int32) : Json.int64? (.int n.toInt) = some n.toInt := by
  have hlow := n.le_toInt
  have hhigh := n.toInt_lt
  rw [Json.int64?, if_pos]
  unfold Json.leastInt64 Json.int64Bound
  omega

theorem int32?_toInt (n : Int32) : int32? n.toInt = some n := by
  have hlow := n.le_toInt
  have hhigh := n.toInt_lt
  rw [int32?, if_pos (by omega), Int32.ofInt_toInt]

theorem wideSigned?_int64 (n : Int64) : wideSigned? (.int n.toInt) = some n.toInt := by
  have hlow := n.le_toInt
  have hhigh := n.toInt_lt
  rw [wideSigned?, Json.int64?, if_pos]
  · unfold Json.leastInt64 Json.int64Bound
    omega
  · intro s h
    cases h

theorem int64?_toInt (n : Int64) : int64? n.toInt = some n := by
  have hlow := n.le_toInt
  have hhigh := n.toInt_lt
  rw [int64?, if_pos (by omega), Int64.ofInt_toInt]

theorem uint64?_natCast {n : Nat} (h : n < 2 ^ 64) : Json.uint64? (.int n) = some n := by
  rw [Json.uint64?, if_pos ⟨Int.natCast_nonneg _, by unfold Json.uint64Bound; omega⟩]
  rfl

theorem uint32?_toNat (n : UInt32) : uint32? n.toNat = some n := by
  rw [uint32?, if_pos n.toNat_lt, UInt32.ofNat_toNat]

theorem wideUnsigned?_uint64 (n : UInt64) : wideUnsigned? (.int n.toNat) = some n.toNat := by
  rw [wideUnsigned?, uint64?_natCast n.toNat_lt]
  intro s h
  cases h

theorem uint64?_toNat (n : UInt64) : uint64? n.toNat = some n := by
  rw [uint64?, if_pos n.toNat_lt, UInt64.ofNat_toNat]

theorem enumNumber?_toInt (n : Int32) : enumNumber? (.int n.toInt) = some (.enumeration n) := by
  rw [enumNumber?, int64?_int32, Option.bind_some, int32?_toInt]
  rfl

/-- An element that is read as an enum number is how the number is written. -/
theorem encodeValue_of_enumNumber? {e : Json} {v : Value} (h : enumNumber? e = some v) :
    encodeValue v = e := by
  obtain ⟨n, hn, rfl⟩ := Option.map_eq_some_iff.mp h
  obtain ⟨k, hk, hk32⟩ := Option.bind_eq_some_iff.mp hn
  cases e with
  | int j =>
    simp only [Json.int64?] at hk
    split at hk
    · cases hk
      unfold int32? at hk32
      split at hk32
      · rename_i hrange
        cases hk32
        rw [encodeValue_enumeration, Int32.toInt_ofInt_of_le (by omega) (by omega)]
      · cases hk32
    · cases hk
  | _ => cases hk

theorem double?_ofDouble {x : Floating.Double} (h : x.isFinite = true) :
    (Json.ofDouble x).double? = some x := by
  rw [Json.ofDouble, if_pos h]
  rfl

/-! ## Scalars -/

variable {v : Value}

/-- What can be written is not null. -/
theorem isNull_encodeValue (h : v.isFinite = true) : (encodeValue v).isNull = false := by
  cases v with
  | bytes octets =>
    rw [encodeValue_bytes, encodeBytes]
    split <;> rfl
  | double x =>
    have hx : x.isFinite = true := h
    rw [encodeValue_double, Json.ofDouble, if_pos hx]
    rfl
  | float x =>
    rw [encodeValue_float, Json.ofDouble, if_pos (Floating.Single.isFinite_widen h)]
    rfl
  | message m =>
    cases m
    rfl
  | _ => rfl

/-- What is not written as null is finite. -/
theorem isFinite_of_isNull_encodeValue (h : (encodeValue v).isNull = false) :
    v.isFinite = true := by
  cases v with
  | double x =>
    rw [encodeValue_double, Json.ofDouble] at h
    split at h
    · assumption
    · cases h
  | float x =>
    rw [encodeValue_float, Json.ofDouble] at h
    split at h
    · rename_i hwiden
      by_contra hx
      rw [Floating.Single.isFinite_widen_of_not (Bool.not_eq_true _ ▸ hx)] at hwiden
      cases hwiden
    · cases h
  | _ => rfl

/-- **A scalar is read as it was written.** -/
theorem scalar?_encodeValue {t : FieldType} (hfits : v.fits t = true) (hfinite : v.isFinite = true)
    (ht : ∀ target, t ≠ .reference target) : scalar? t (encodeValue v) = some v := by
  cases v with
  | string s =>
    cases of_decide_eq_true hfits
    rfl
  | bytes octets =>
    cases of_decide_eq_true hfits
    rw [encodeValue_bytes, scalar?, bytes?_encodeBytes]
    rfl
  | bool b =>
    cases of_decide_eq_true hfits
    rfl
  | double x =>
    cases of_decide_eq_true hfits
    rw [encodeValue_double, scalar?, double?_ofDouble hfinite]
    rfl
  | float x =>
    cases of_decide_eq_true hfits
    rw [encodeValue_float, scalar?, double?_ofDouble (Floating.Single.isFinite_widen hfinite),
      Option.map_some, Floating.Single.narrow_widen hfinite]
  | int32 n =>
    cases t <;> cases hfits <;> simp [encodeValue_int32, scalar?, int64?_int32, int32?_toInt]
  | int64 n =>
    cases t <;> cases hfits <;> simp [encodeValue_int64, scalar?, wideSigned?_int64, int64?_toInt]
  | uint32 n =>
    have hn : n.toNat < 2 ^ 64 := n.toNat_lt.trans (by decide)
    cases t <;> cases hfits <;>
      simp [encodeValue_uint32, scalar?, uint64?_natCast hn, uint32?_toNat]
  | uint64 n =>
    cases t <;> cases hfits <;>
      simp [encodeValue_uint64, scalar?, wideUnsigned?_uint64, uint64?_toNat]
  | enumeration n =>
    cases t with
    | reference target => exact absurd rfl (ht target)
    | _ => cases hfits
  | message m => exact absurd (of_decide_eq_true hfits) (ht _)

end Lite

end LiteChat
