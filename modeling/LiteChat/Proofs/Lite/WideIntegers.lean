import LiteChat.Proofs.Lite.Faults
import LiteChat.Proofs.Lite.Fields
import LiteChat.Proofs.Lite.Placement
import LiteChat.Proofs.Message.Reflection
import LiteChat.Proofs.Text.Digits

/-!
# Integers of 64 bits

A number in JSON is often read as a floating-point number, which has no room for 64 bits.  So an
integer of a field of 64 bits may be given as a number or as its decimal digits in a string, and
`Denotes` says which elements denote an integer of a type.  Reading takes exactly these elements
(`readValue_eq_ok_iff_denotes`), and the value that it stores is the integer (`Stores`): every
reader gives the integer or nothing at all, and it is written as the same number again.

The same is then said of a whole array that is read as a message and written again
(`decode_wide`).
-/

namespace LiteChat

/-! ## Integers of a type -/

namespace FieldType

/-- The types of 64-bit integers. -/
def IsWide (t : FieldType) : Prop := t.isUnsigned64 = true ∨ t.isSigned64 = true

/-- The integers that a type of 64 bits has. -/
def HasInteger (t : FieldType) (n : Int) : Prop :=
  (t.isUnsigned64 = true ∧ 0 ≤ n ∧ n ≤ 2 ^ 64 - 1) ∨
    (t.isSigned64 = true ∧ -2 ^ 63 ≤ n ∧ n ≤ 2 ^ 63 - 1)

variable {t : FieldType} {n : Int}

theorem isSigned64_of_isUnsigned64 (ht : t.isUnsigned64 = true) : t.isSigned64 = false := by
  cases t <;> first | rfl | cases ht

theorem hasInteger_unsigned_iff (ht : t.isUnsigned64 = true) :
    t.HasInteger n ↔ 0 ≤ n ∧ n ≤ 2 ^ 64 - 1 := by
  simp [HasInteger, ht, isSigned64_of_isUnsigned64 ht]

theorem hasInteger_signed_iff (ht : t.isSigned64 = true) :
    t.HasInteger n ↔ -2 ^ 63 ≤ n ∧ n ≤ 2 ^ 63 - 1 := by
  have hnot : t.isUnsigned64 = false := by
    by_contra h
    rw [isSigned64_of_isUnsigned64 (Bool.not_eq_false _ ▸ h)] at ht
    cases ht
  simp [HasInteger, ht, hnot]

end FieldType

/-- An element denotes an integer of a type: it is the number, or a string of its digits, which may
have a minus sign if the type is signed. -/
inductive Denotes (t : FieldType) : Json → Int → Prop
  | number {n : Int} (h : t.HasInteger n) : Denotes t (.int n) n
  | text {s : String} {n : Int} (hs : Text.IsInteger t.isSigned64 s.toList n)
    (h : t.HasInteger n) : Denotes t (.string s) n

theorem denotes_int_iff {t : FieldType} {i n : Int} :
    Denotes t (.int i) n ↔ i = n ∧ t.HasInteger n := by
  constructor
  · intro h
    cases h with
    | number h => exact ⟨rfl, h⟩
  · rintro ⟨rfl, h⟩
    exact .number h

theorem denotes_string_iff {t : FieldType} {s : String} {n : Int} :
    Denotes t (.string s) n ↔ Text.IsInteger t.isSigned64 s.toList n ∧ t.HasInteger n := by
  constructor
  · intro h
    cases h with
    | text hs h => exact ⟨hs, h⟩
  · rintro ⟨hs, h⟩
    exact .text hs h

theorem Denotes.hasInteger {t : FieldType} {e : Json} {n : Int} (h : Denotes t e n) :
    t.HasInteger n := by
  cases h <;> assumption

/-- A value is that of an integer of a type. -/
inductive Stores (t : FieldType) : Int → Value → Prop
  | unsigned (ht : t.isUnsigned64 = true) (k : UInt64) : Stores t k.toNat (.uint64 k)
  | signed (ht : t.isSigned64 = true) (k : Int64) : Stores t k.toInt (.int64 k)

/-- An integer as an answer of 64 unsigned bits. -/
def asUnsigned? (n : Int) : Option Nat := if 0 ≤ n then some n.toNat else none

/-- An integer as an answer of 64 signed bits. -/
def asSigned? (n : Int) : Option Int := if n ≤ 2 ^ 63 - 1 then some n else none

namespace Stores

variable {t : FieldType} {n : Int} {v : Value}

theorem int?_eq (h : Stores t n v) : v.int? = some n := by
  cases h <;> rfl

theorem uint64?_eq (h : Stores t n v) : v.uint64? = asUnsigned? n := by
  rw [Value.uint64?, h.int?_eq, asUnsigned?]
  by_cases hn : 0 ≤ n
  · simp [hn]
  · simp [hn, Option.filter]

theorem int64?_eq (h : Stores t n v) : v.int64? = asSigned? n := by
  rw [Value.int64?, h.int?_eq, asSigned?]
  have hbound : n < Json.int64Bound ↔ n ≤ 2 ^ 63 - 1 := by
    unfold Json.int64Bound
    omega
  by_cases hn : n ≤ 2 ^ 63 - 1
  · rw [if_pos hn, Option.filter_some, if_pos (decide_eq_true (hbound.mpr hn))]
  · rw [if_neg hn, Option.filter_some, if_neg (by simpa using mt hbound.mp hn)]

theorem encodeValue_eq (h : Stores t n v) : Lite.encodeValue v = .int n := by
  cases h <;> rw [Lite.encodeValue]

end Stores

namespace Lite

/-! ## One element -/

section Element
variable {t : FieldType} {e : Json} {n : Int} {v : Value}

theorem uint64?_eq_some_iff {n : Nat} {k : UInt64} : uint64? n = some k ↔ k.toNat = n := by
  unfold uint64?
  have hk := k.toNat_lt
  split
  · rename_i hn
    rw [Option.some.injEq, ← UInt64.toNat_inj, UInt64.toNat_ofNat', Nat.mod_eq_of_lt hn, eq_comm]
  · simp only [reduceCtorEq, false_iff]
    omega

theorem int64?_eq_some_iff {k : Int64} : int64? n = some k ↔ k.toInt = n := by
  constructor
  · intro h
    unfold int64? at h
    split at h
    · rename_i hn
      cases h
      exact Int64.toInt_ofInt_of_le (by omega) (by omega)
    · cases h
  · rintro rfl
    exact int64?_toInt k

theorem wideUnsigned?_eq_some_iff (ht : t.isUnsigned64 = true) {n : Nat} :
    wideUnsigned? e = some n ↔ Denotes t e n := by
  have hhas : t.HasInteger n ↔ n < 18446744073709551616 := by
    rw [FieldType.hasInteger_unsigned_iff ht]
    omega
  cases e with
  | string s =>
    show Text.unsigned? 18446744073709551616 s.toList = some n ↔ _
    rw [Text.unsigned?_eq_some_iff, denotes_string_iff, hhas,
      FieldType.isSigned64_of_isUnsigned64 ht]
  | int i =>
    show (if 0 ≤ i ∧ i < Json.uint64Bound then some i.toNat else none) = some n ↔ _
    rw [denotes_int_iff, Json.uint64Bound, Option.ite_none_right_eq_some, Option.some.injEq]
    constructor
    · rintro ⟨hi, rfl⟩
      rw [hhas]
      omega
    · rintro ⟨rfl, hn⟩
      rw [hhas] at hn
      omega
  | _ => exact iff_of_false nofun nofun

theorem wideSigned?_eq_some_iff (ht : t.isSigned64 = true) :
    wideSigned? e = some n ↔ Denotes t e n := by
  have hhas : t.HasInteger n ↔ Json.leastInt64 ≤ n ∧ n < Json.int64Bound := by
    rw [FieldType.hasInteger_signed_iff ht, Json.leastInt64, Json.int64Bound]
    omega
  cases e with
  | string s =>
    show Text.signed? Json.leastInt64 Json.int64Bound s.toList = some n ↔ _
    rw [Text.signed?_eq_some_iff, denotes_string_iff, hhas, ht]
  | int i =>
    show (if Json.leastInt64 ≤ i ∧ i < Json.int64Bound then some i else none) = some n ↔ _
    rw [denotes_int_iff, hhas, Option.ite_none_right_eq_some, Option.some.injEq]
    constructor
    · rintro ⟨hi, rfl⟩
      exact ⟨rfl, hi⟩
    · rintro ⟨rfl, hn⟩
      exact ⟨hn, rfl⟩
  | _ => exact iff_of_false nofun nofun

theorem scalar?_unsigned (ht : t.isUnsigned64 = true) (e : Json) :
    scalar? t e = ((wideUnsigned? e).bind uint64?).map .uint64 := by
  cases t <;> first | rfl | cases ht

theorem scalar?_signed (ht : t.isSigned64 = true) (e : Json) :
    scalar? t e = ((wideSigned? e).bind int64?).map .int64 := by
  cases t <;> first | rfl | cases ht

/-- A value is read from an element exactly if it is that of an integer that the element denotes. -/
theorem scalar?_eq_some_iff_denotes (ht : t.IsWide) :
    scalar? t e = some v ↔ ∃ n, Denotes t e n ∧ Stores t n v := by
  rcases ht with ht | ht
  · rw [scalar?_unsigned ht, Option.map_eq_some_iff]
    constructor
    · rintro ⟨k, hk, rfl⟩
      obtain ⟨n, hn, hk⟩ := Option.bind_eq_some_iff.mp hk
      obtain rfl := uint64?_eq_some_iff.mp hk
      exact ⟨_, (wideUnsigned?_eq_some_iff ht).mp hn, .unsigned ht k⟩
    · rintro ⟨n, hn, hv⟩
      cases hv with
      | unsigned _ k =>
        exact ⟨k, Option.bind_eq_some_iff.mpr
          ⟨_, (wideUnsigned?_eq_some_iff ht).mpr hn, uint64?_toNat k⟩, rfl⟩
      | signed ht' k =>
        rw [FieldType.isSigned64_of_isUnsigned64 ht] at ht'
        cases ht'
  · rw [scalar?_signed ht, Option.map_eq_some_iff]
    constructor
    · rintro ⟨k, hk, rfl⟩
      obtain ⟨n, hn, hk⟩ := Option.bind_eq_some_iff.mp hk
      obtain rfl := int64?_eq_some_iff.mp hk
      exact ⟨_, (wideSigned?_eq_some_iff ht).mp hn, .signed ht k⟩
    · rintro ⟨n, hn, hv⟩
      cases hv with
      | unsigned ht' k =>
        rw [FieldType.isSigned64_of_isUnsigned64 ht'] at ht
        cases ht
      | signed _ k =>
        exact ⟨k, Option.bind_eq_some_iff.mpr
          ⟨_, (wideSigned?_eq_some_iff ht).mpr hn, int64?_toInt k⟩, rfl⟩

/-- An integer of a type is the value of something. -/
theorem exists_stores (ht : t.IsWide) (hn : t.HasInteger n) : ∃ v, Stores t n v := by
  rcases ht with ht | ht
  · obtain ⟨hzero, hmax⟩ := (FieldType.hasInteger_unsigned_iff ht).mp hn
    have hk : (UInt64.ofNat n.toNat).toNat = n.toNat :=
      UInt64.toNat_ofNat_of_lt' (show n.toNat < 2 ^ 64 by omega)
    have hstores := Stores.unsigned ht (UInt64.ofNat n.toNat)
    rw [hk, Int.toNat_of_nonneg hzero] at hstores
    exact ⟨_, hstores⟩
  · obtain ⟨hmin, hmax⟩ := (FieldType.hasInteger_signed_iff ht).mp hn
    have hk : (Int64.ofInt n).toInt = n := Int64.toInt_ofInt_of_le (by omega) (by omega)
    have hstores := Stores.signed ht (Int64.ofInt n)
    rw [hk] at hstores
    exact ⟨_, hstores⟩

end Element

/-! ## Reading a field -/

section Field
variable {s : Schema} {d : MessageDescriptor} {f : Field} {e : Json} {v : Value} {n : Int}

theorem not_reference_of_isWide (ht : f.type.IsWide) (target : String) :
    f.type ≠ .reference target := by
  intro h
  rw [h] at ht
  rcases ht with ht | ht <;> cases ht

theorem readValue_eq_ok_iff_denotes (ht : f.type.IsWide) :
    readValue s d f e = .ok v ↔ ∃ n, Denotes f.type e n ∧ Stores f.type n v := by
  rw [← scalar?_eq_some_iff_denotes ht, readValue_scalar (not_reference_of_isWide ht)]
  cases scalar? f.type e <;> simp [mismatch]

theorem exists_readValue_iff_denotes (ht : f.type.IsWide) :
    (∃ v, readValue s d f e = .ok v) ↔ ∃ n, Denotes f.type e n := by
  constructor
  · rintro ⟨v, hv⟩
    obtain ⟨n, hn, -⟩ := (readValue_eq_ok_iff_denotes ht).mp hv
    exact ⟨n, hn⟩
  · rintro ⟨n, hn⟩
    obtain ⟨v, hv⟩ := exists_stores ht hn.hasInteger
    exact ⟨v, (readValue_eq_ok_iff_denotes ht).mpr ⟨n, hn, hv⟩⟩

theorem readValue_eq_mismatch (ht : f.type.IsWide) (he : ¬ ∃ n, Denotes f.type e n) :
    readValue s d f e = .error (.typeMismatch d.name f.name f.type.token e.kind) := by
  cases hv : readValue s d f e with
  | ok v => exact absurd ((exists_readValue_iff_denotes ht).mp ⟨v, hv⟩) he
  | error fault =>
    rw [readValue_scalar (not_reference_of_isWide ht)] at hv
    split at hv
    · cases hv
    · exact hv.symm

/-- The first element of a field that denotes no integer: the one element of the field, or, in a
list, the first that is not null and denotes none. -/
inductive FirstAmiss (f : Field) : Json → Json → Prop
  | single {e : Json} (hl : f.label ≠ .repeated) (he : ¬ ∃ n, Denotes f.type e n) :
    FirstAmiss f e e
  | element {before after : List Json} {e : Json} (hl : f.label = .repeated)
    (hbefore : ∀ b ∈ before, b.isNull = false → ∃ n, Denotes f.type b n)
    (hnull : e.isNull = false) (he : ¬ ∃ n, Denotes f.type e n) :
    FirstAmiss f (.array (before ++ e :: after)) e

theorem readSlot_of_firstAmiss (ht : f.type.IsWide) {x : Json} (h : FirstAmiss f x e) :
    readSlot s d f x = .error (.typeMismatch d.name f.name f.type.token e.kind) := by
  cases h with
  | single hl he =>
    exact readSlot_eq_error_iff.mpr (Or.inr (Or.inr ⟨hl, readValue_eq_mismatch ht he⟩))
  | @element before after _ hl hbefore hnull he =>
    refine readSlot_eq_error_iff.mpr (Or.inl ⟨hl, _, rfl, readValues_eq_error_iff.mpr ?_⟩)
    exact ⟨before, e, after, rfl,
      fun b hb hb' => (exists_readValue_iff_denotes ht).mpr (hbefore b hb hb'), hnull,
      readValue_eq_mismatch ht he⟩

end Field

/-! ## Reading and writing a message -/

section Message
variable {s : Schema} {d : MessageDescriptor} {m : Message} {f : Field}

/-- The element of a singular field in the array of a message is its value, provided that JSON has
a form for the value. -/
theorem element?_encode (hd : d.WellFormed) (hm : m.Conforms d) (hf : f ∈ d.fields)
    (hl : f.label ≠ .repeated)
    (hnull : ∀ v, m.value? f.name = some v → (encodeValue v).isNull = false) :
    Json.element? f.id (encode m) = (m.value? f.name).map encodeValue := by
  obtain ⟨slot, hslot⟩ := hm.exists_slot hf
  have hvalue : m.value? f.name = slot.single? := by
    rw [Message.value?, entryNamed?_of_mem hd hm.fields_eq hslot, Option.bind_some]
  rw [encode_eq]
  show elementAt? 1 (items m) f.id = _
  cases slot with
  | unset =>
    rw [elementAt?_items_of_none hd hm hslot (by rw [encodeSlot]), hvalue]
    rfl
  | single v =>
    rw [elementAt?_items_of_single hd hm hslot, if_pos (hnull v hvalue), hvalue]
    rfl
  | repeated vs => exact absurd (Field.accept_repeated_eq_ok (hm.slots _ _ hslot)).1 hl

/-- The elements of a repeated field in the array of a message are its values, so far as JSON has a
form for them. -/
theorem present_element?_encode (hd : d.WellFormed) (hm : m.Conforms d) (hf : f ∈ d.fields)
    (hl : f.label = .repeated) :
    Json.present (Json.element? f.id (encode m)) =
      ((m.elements f.name).map encodeValue).filter fun e => !e.isNull := by
  obtain ⟨slot, hslot⟩ := hm.exists_slot hf
  obtain ⟨vs, rfl⟩ := (Field.repeated_iff_of_accept (hm.slots f slot hslot)).mp hl
  have hvalues : m.elements f.name = vs := by
    rw [Message.elements, entryNamed?_of_mem hd hm.fields_eq hslot]
    rfl
  rw [encode_eq, hvalues]
  show Json.present (elementAt? 1 (items m) f.id) = _
  rcases elementAt?_items_of_repeated hd hm hslot with he | ⟨rfl, he⟩
  · rw [he]
    rfl
  · rw [he]
    rfl

/-- **A singular field of 64 bits** of a message that was read from an array and is written again. -/
theorem exists_single_of_readMessage (hs : s.WellFormed) (hd : d.WellFormed) (hf : f ∈ d.fields)
    (ht : f.type.IsWide) (hl : f.label ≠ .repeated) {framing : Framing} {items : List Json}
    (h : readMessage s d framing items = .ok m) :
    ∃ n?, Option.Rel (Denotes f.type) (elementAt? framing.firstId items f.id) n? ∧
      m.uint64? f.name = n?.bind asUnsigned? ∧ m.int64? f.name = n?.bind asSigned? ∧
      Json.element? f.id (encode m) = n?.map .int := by
  have hvalue := (readFrom_of_readMessage hs hd h).value f hf hl
  have hencode := element?_encode hd (conforms_of_readMessage hs hd h) hf hl
  rw [Message.uint64?, Message.int64?]
  generalize elementAt? framing.firstId items f.id = element at hvalue ⊢
  generalize m.value? f.name = value at hvalue hencode ⊢
  cases hvalue with
  | none => exact ⟨none, .none, rfl, rfl, hencode nofun⟩
  | some hv =>
    obtain ⟨n, hn, hstores⟩ := (readValue_eq_ok_iff_denotes ht).mp hv
    refine ⟨some n, .some hn, hstores.uint64?_eq, hstores.int64?_eq, ?_⟩
    rw [hencode fun v hv => by cases hv; rw [hstores.encodeValue_eq]; rfl]
    exact congrArg some hstores.encodeValue_eq

/-- **A repeated field of 64 bits** of such a message. -/
theorem exists_repeated_of_readMessage (hs : s.WellFormed) (hd : d.WellFormed) (hf : f ∈ d.fields)
    (ht : f.type.IsWide) (hl : f.label = .repeated) {framing : Framing} {items : List Json}
    (h : readMessage s d framing items = .ok m) :
    ∃ ns, List.Forall₂ (Denotes f.type)
        (Json.present (elementAt? framing.firstId items f.id)) ns ∧
      List.Forall₂ (Stores f.type) ns (m.elements f.name) ∧
      Json.present (Json.element? f.id (encode m)) = ns.map .int := by
  have helements := ((readFrom_of_readMessage hs hd h).elements f hf hl).2
  rw [present_element?_encode hd (conforms_of_readMessage hs hd h) hf hl]
  generalize Json.present (elementAt? framing.firstId items f.id) = es at helements ⊢
  generalize m.elements f.name = vs at helements ⊢
  induction helements with
  | nil => exact ⟨[], .nil, .nil, rfl⟩
  | cons hv _ ih =>
    obtain ⟨n, hn, hstores⟩ := (readValue_eq_ok_iff_denotes ht).mp hv
    obtain ⟨ns, hns, hall, hencode⟩ := ih
    refine ⟨n :: ns, .cons hn hns, .cons hstores hall, ?_⟩
    rw [List.map_cons, hstores.encodeValue_eq, List.filter_cons_of_pos rfl, hencode]
    rfl

end Message

/-- The integers of a field of 64 bits go through a message unchanged. -/
structure KeepsIntegers (s : Schema) (name : String) (d : MessageDescriptor) (f : Field) :
    Prop where
  /-- An element is accepted exactly if it denotes an integer of the type. -/
  accepts_iff : ∀ e, (∃ v, readValue s d f e = .ok v) ↔ ∃ n, Denotes f.type e n
  /-- The value that is stored is the integer. -/
  stores : ∀ e v, readValue s d f e = .ok v → ∃ n, Denotes f.type e n ∧ Stores f.type n v
  /-- Any other element is a mismatch. -/
  refuses : ∀ e, (¬ ∃ n, Denotes f.type e n) →
    readValue s d f e = .error (.typeMismatch d.name f.name f.type.token e.kind)
  /-- A reader gives the integer, or nothing if it has no room for it, and the integer is written
  as a number. -/
  answers : ∀ n v, Stores f.type n v →
    v.uint64? = asUnsigned? n ∧ v.int64? = asSigned? n ∧ encodeValue v = .int n
  /-- If the field is singular, the integer of its element is read by the name of the field and
  written at its id. -/
  single : f.label ≠ .repeated → ∀ framing items m,
    decode s name framing (.array items) = .ok m →
    ∃ n?, Option.Rel (Denotes f.type) (elementAt? framing.firstId items f.id) n? ∧
      m.uint64? f.name = n?.bind asUnsigned? ∧ m.int64? f.name = n?.bind asSigned? ∧
      Json.element? f.id (encode m) = n?.map .int
  /-- If it is repeated, so are the integers of its elements, but for the null ones. -/
  repeated : f.label = .repeated → ∀ framing items m,
    decode s name framing (.array items) = .ok m →
    ∃ ns, List.Forall₂ (Denotes f.type)
        (Json.present (elementAt? framing.firstId items f.id)) ns ∧
      List.Forall₂ (Stores f.type) ns (m.elements f.name) ∧
      Json.present (Json.element? f.id (encode m)) = ns.map .int
  /-- An array in which an element of the field denotes no integer is refused for it, unless
  something is wrong with a field of smaller id. -/
  mismatch : ∀ framing items x e, elementAt? framing.firstId items f.id = some x →
    FirstAmiss f x e →
    (∀ g ∈ d.fields, g.id < f.id →
      ∃ slot, readField s d framing.firstId items g = .ok slot) →
    decode s name framing (.array items) =
      .error (.typeMismatch d.name f.name f.type.token e.kind)

/-- **Integers of 64 bits are exact.**  Whatever the element, they are the same when they are read,
asked for and written. -/
theorem decode_wide {source : List Char} {name : String} {d : MessageDescriptor}
    (hd : (Schema.ofSource source).message? name = some d) {f : Field} (hf : f ∈ d.fields)
    (ht : f.type.isUnsigned64 = true ∨ f.type.isSigned64 = true) :
    KeepsIntegers (Schema.ofSource source) name d f := by
  have hs := Schema.wellFormed_ofSource source
  have hwf := hs.message name d hd
  refine ⟨fun e => exists_readValue_iff_denotes ht,
    fun e v => (readValue_eq_ok_iff_denotes ht).mp, fun e => readValue_eq_mismatch ht,
    fun n v h => ⟨h.uint64?_eq, h.int64?_eq, h.encodeValue_eq⟩, ?_, ?_, ?_⟩
  · intro hl framing items m hm
    rw [decode_eq_readMessage hd] at hm
    exact exists_single_of_readMessage hs hwf hf ht hl hm
  · intro hl framing items m hm
    rw [decode_eq_readMessage hd] at hm
    exact exists_repeated_of_readMessage hs hwf hf ht hl hm
  · intro framing items x e hx hamiss hleast
    rw [decode_eq_readMessage hd]
    refine (readMessage_eq_error_iff hs hwf).mpr (Or.inl ⟨f, hf, ?_, hleast⟩)
    exact readField_eq_error_iff.mpr ⟨x, hx, readSlot_of_firstAmiss ht hamiss⟩

/-- A schema with a time and with differences of times. -/
def spanSource : List Char :=
  "message Span \x7b required uint64 begin = 1; repeated sint64 offsets = 2; \x7d".toList

/-- The message type of that schema. -/
def spanType : MessageDescriptor where
  name := "Span"
  fields := [⟨1, "begin", .uint64, .required⟩, ⟨2, "offsets", .sint64, .repeated⟩]

theorem message?_spanSource : (Schema.ofSource spanSource).message? "Span" = some spanType := by
  have hcompile : Schema.compile spanSource = ⟨[], [spanType], []⟩ := by
    unfold spanSource
    rw [String.toList_ofList]
    decide +kernel
  rw [Schema.ofSource, hcompile]
  rfl

theorem decode_wide_span :
    KeepsIntegers (Schema.ofSource spanSource) "Span" spanType ⟨1, "begin", .uint64, .required⟩ ∧
      KeepsIntegers (Schema.ofSource spanSource) "Span" spanType
        ⟨2, "offsets", .sint64, .repeated⟩ :=
  ⟨decode_wide message?_spanSource (by decide) (Or.inl rfl),
    decode_wide message?_spanSource (by decide) (Or.inr rfl)⟩

end Lite

end LiteChat
