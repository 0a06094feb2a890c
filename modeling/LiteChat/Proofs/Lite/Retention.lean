import LiteChat.Proofs.Lite.Compatibility

/-!
# What is kept of an array that was read

A message that was read from an array is written again as another array.  `Keeps` compares the
two without the message between them: every element that was there for a field is there again,
a value as a value, a list with as many values as it had, a message with all that it held.

All is kept but single precision numbers that were too large (`decode_encode_retains`): such a
number is read as an infinity, for which JSON has no form, and written as null
(`overweight_not_kept`).
-/

namespace LiteChat

namespace Lite

open Message (Within SinglesFinite)

/-! ## The rules -/

mutual

/-- What is written for a value of a type stands for all that was there. -/
inductive KeepsValue (s : Schema) : FieldType → Json → Json → Prop where
  | scalar {t : FieldType} {e w : Json} (ht : ∀ target, t ≠ .reference target)
    (hw : w.isNull = false) : KeepsValue s t e w
  | enumeration {target : String} {enum : EnumDescriptor} {e w : Json}
    (hr : s.resolve? target = some (.enumeration enum)) (hw : w.isNull = false) :
    KeepsValue s (.reference target) e w
  | message {target : String} {nested : MessageDescriptor} {elements written : List Json}
    (hr : s.resolve? target = some (.message nested))
    (h : Keeps s nested Framing.plain.firstId elements written) :
    KeepsValue s (.reference target) (.array elements) (.array written)

/-- For each element of a list there is one written, and none of them is null; the null ones that
were there stood for nothing. -/
inductive KeepsValues (s : Schema) : FieldType → List Json → List Json → Prop where
  | nil {t : FieldType} : KeepsValues s t [] []
  | null {t : FieldType} {elements written : List Json} (h : KeepsValues s t elements written) :
    KeepsValues s t (.null :: elements) written
  | cons {t : FieldType} {e w : Json} {elements written : List Json} (he : e.isNull = false)
    (hw : KeepsValue s t e w) (h : KeepsValues s t elements written) :
    KeepsValues s t (e :: elements) (w :: written)

/-- What is written at the place of a field keeps the element that was there.  A list without
values need not be written. -/
inductive KeepsSlot (s : Schema) : Field → Json → Option Json → Prop where
  | single {f : Field} {e w : Json} (hl : f.label ≠ .repeated) (h : KeepsValue s f.type e w) :
    KeepsSlot s f e (some w)
  | repeated {f : Field} {elements written : List Json} (hl : f.label = .repeated)
    (h : KeepsValues s f.type elements written) :
    KeepsSlot s f (.array elements) (some (.array written))
  | dropped {f : Field} {elements : List Json} (hl : f.label = .repeated)
    (h : KeepsValues s f.type elements []) : KeepsSlot s f (.array elements) none

/-- An array keeps what another, whose first element has the id `first`, has for the fields of a
message type. -/
inductive Keeps (s : Schema) : MessageDescriptor → Nat → List Json → List Json → Prop where
  | intro {d : MessageDescriptor} {first : Nat} {elements written : List Json}
    (h : ∀ f ∈ d.fields, ∀ e, elementAt? first elements f.id = some e →
      KeepsSlot s f e (elementAt? 1 written f.id)) :
    Keeps s d first elements written

end

theorem KeepsValue.isNull_eq_false {s : Schema} {t : FieldType} {e w : Json}
    (h : KeepsValue s t e w) : w.isNull = false := by
  cases h with
  | scalar _ hw => exact hw
  | enumeration _ hw => exact hw
  | message => rfl

theorem keepsValue_message_iff {s : Schema} {target : String} {nested : MessageDescriptor}
    {elements written : List Json} (hr : s.resolve? target = some (.message nested)) :
    KeepsValue s (.reference target) (.array elements) (.array written) ↔
      Keeps s nested Framing.plain.firstId elements written := by
  constructor
  · intro h
    cases h with
    | scalar ht => exact absurd rfl (ht target)
    | enumeration hr' =>
      rw [hr] at hr'
      cases hr'
    | message hr' h =>
      rw [hr] at hr'
      cases hr'
      exact h
  · exact .message hr

theorem KeepsValues.of_null {s : Schema} {t : FieldType} {elements written : List Json}
    (h : KeepsValues s t (.null :: elements) written) : KeepsValues s t elements written := by
  cases h with
  | null h => exact h
  | cons he => cases he

theorem keepsSlot_single_iff {s : Schema} {f : Field} {e : Json} {w : Option Json}
    (hl : f.label ≠ .repeated) :
    KeepsSlot s f e w ↔ ∃ x, w = some x ∧ KeepsValue s f.type e x := by
  constructor
  · intro h
    cases h with
    | single _ h => exact ⟨_, rfl, h⟩
    | repeated hl' => exact absurd hl' hl
    | dropped hl' => exact absurd hl' hl
  · rintro ⟨x, rfl, h⟩
    exact .single hl h

/-! ## What is kept -/

/-- All levels are finite if the values at the top are, at every level. -/
theorem singlesFinite_iff {m : Message} :
    (∀ n, Within n m → SinglesFinite n) ↔
      ∀ f slot, (f, slot) ∈ m.entries → ∀ v ∈ slot.values, SinglesFiniteIn v := by
  refine ⟨fun h f slot hf v => singlesFiniteIn_of_mem h hf, fun h n hn => ?_⟩
  cases hn with
  | refl => exact fun f slot hf x hx => h f slot hf _ hx
  | step hf hinner hn => exact h _ _ hf _ hinner n hn

section Keeping
variable {s : Schema} {d : MessageDescriptor} {f : Field} {e : Json}

/-- What an element is read as is written such that it is kept exactly if the single precision
numbers in it are finite. -/
def KeptIfFinite (s : Schema) (d : MessageDescriptor) (f : Field) (e : Json) : Prop :=
  ∀ v, readValue s d f e = .ok v → (KeepsValue s f.type e (encodeValue v) ↔ SinglesFiniteIn v)

/-- The values of a list are kept exactly if each of them is. -/
theorem keepsValues_iff {elements : List Json} {vs : List Value}
    (h : readValues s d f elements = .ok vs) (hkept : ∀ x ∈ elements, KeptIfFinite s d f x) :
    KeepsValues s f.type elements (vs.map encodeValue) ↔ ∀ v ∈ vs, SinglesFiniteIn v := by
  induction elements generalizing vs with
  | nil =>
    rw [readValues] at h
    cases h
    exact iff_of_true .nil fun v hv => absurd hv List.not_mem_nil
  | cons e rest ih =>
    have hrest : ∀ {us}, readValues s d f rest = .ok us →
        (KeepsValues s f.type rest (us.map encodeValue) ↔ ∀ v ∈ us, SinglesFiniteIn v) :=
      fun hus => ih hus fun x hx => hkept x (List.mem_cons_of_mem _ hx)
    unfold readValues at h
    split at h
    · rename_i hnull
      cases e <;> cases hnull
      rw [← hrest h]
      exact ⟨.of_null, .null⟩
    · rename_i hnull
      split at h
      · cases h
      · rename_i v hv
        split at h
        · cases h
        · rename_i us hus
          cases h
          rw [List.forall_mem_cons, ← hrest hus, ← hkept e List.mem_cons_self v hv]
          constructor
          · intro hkeeps
            cases hkeeps with
            | null => exact absurd rfl hnull
            | cons _ hw hkeeps => exact ⟨hw, hkeeps⟩
          · rintro ⟨hw, hkeeps⟩
            exact .cons (Bool.not_eq_true _ ▸ hnull) hw hkeeps

/-- The slot that is read for a field is kept, wherever it is written, exactly if each of its
values is. -/
theorem keepsSlot_iff {m : Message} {slot : Slot Value} (hd : d.WellFormed) (hm : m.Conforms d)
    (hf : (f, slot) ∈ m.entries) (h : readSlot s d f e = .ok slot) (he : e.Proper)
    (hkept : ∀ x, sizeOf x ≤ sizeOf e → x.Proper → KeptIfFinite s d f x) :
    KeepsSlot s f e (elementAt? 1 (items m) f.id) ↔ ∀ v ∈ slot.values, SinglesFiniteIn v := by
  rcases readSlot_eq_ok_iff.mp h with ⟨hl, elements, vs, rfl, hvs, rfl⟩ | ⟨hl, v, hv, rfl⟩
  · rw [← readValues_eq] at hvs
    have hvalues := keepsValues_iff hvs fun x hx =>
      hkept x (Json.sizeOf_lt_of_mem hx).le (he.of_mem hx)
    change _ ↔ ∀ v ∈ vs, SinglesFiniteIn v
    rw [← hvalues]
    rcases elementAt?_items_of_repeated hd hm hf with hat | ⟨rfl, hat⟩
    · rw [hat]
      constructor
      · intro hkeeps
        cases hkeeps with
        | single hl' => exact absurd hl hl'
        | repeated _ hkeeps => exact hkeeps
      · exact .repeated hl
    · rw [hat]
      constructor
      · intro hkeeps
        cases hkeeps with
        | dropped _ hkeeps => exact hkeeps
      · exact .dropped hl
  · have hvalue := hkept e le_rfl he v hv
    have hone : (∀ w ∈ (Slot.single v).values, SinglesFiniteIn w) ↔ SinglesFiniteIn v :=
      List.forall_mem_singleton
    rw [hone, ← hvalue, elementAt?_items_of_single hd hm hf, keepsSlot_single_iff hl]
    constructor
    · rintro ⟨w, hw, hkeeps⟩
      split at hw
      · cases hw
        exact hkeeps
      · cases hw
    · intro hkeeps
      exact ⟨_, if_pos hkeeps.isNull_eq_false, hkeeps⟩

/-- The step of the induction: if the elements of an array are kept as far as they are finite, so is
the array. -/
theorem keeps_iff_of (hs : s.WellFormed) (hd : d.WellFormed) {framing : Framing}
    {elements : List Json} {m : Message} (h : readMessage s d framing elements = .ok m)
    (helements : ∀ x ∈ elements, x.Proper)
    (hkept : ∀ x, sizeOf x < sizeOf elements → x.Proper → ∀ g, KeptIfFinite s d g x) :
    Keeps s d framing.firstId elements (items m) ↔ ∀ n, Within n m → SinglesFinite n := by
  have hm := conforms_of_readMessage hs hd h
  obtain ⟨-, -, hread, -, -⟩ := (readMessage_eq_ok_iff hs hd).mp h
  -- a field without an element has no values
  have hfield : ∀ g slot, (g, slot) ∈ m.entries →
      ((∀ x, elementAt? framing.firstId elements g.id = some x →
          KeepsSlot s g x (elementAt? 1 (items m) g.id)) ↔
        ∀ v ∈ slot.values, SinglesFiniteIn v) := by
    intro g slot hg
    have hslot := hread g slot hg
    rw [readField] at hslot
    cases hx : elementAt? framing.firstId elements g.id with
    | none =>
      rw [hx] at hslot
      cases hslot
      simp [Field.values_blank]
    | some x =>
      rw [hx] at hslot
      have hmem := List.mem_of_getElem? (elementAt?_eq_some_iff.mp hx).2.1
      have hlt := List.sizeOf_lt_of_mem hmem
      rw [← keepsSlot_iff hd hm hg hslot (helements x hmem) fun y hy hproper =>
        hkept y (hy.trans_lt hlt) hproper g]
      simp
  rw [singlesFinite_iff]
  constructor
  · rintro ⟨hkeeps⟩ g slot hg
    exact (hfield g slot hg).mp (hkeeps g (hm.mem_fields hg))
  · intro hfinite
    refine .intro fun g hg => ?_
    obtain ⟨slot, hslot⟩ := hm.exists_slot hg
    exact (hfield g slot hslot).mpr (hfinite g slot hslot)

/-- A scalar has a form in JSON exactly if it is no single precision number that is infinite or
not a number. -/
theorem isNull_encodeValue_iff {t : FieldType} (he : e.Proper) {v : Value}
    (h : scalar? t e = some v) : (encodeValue v).isNull = false ↔ SinglesFiniteIn v := by
  constructor
  · intro hnull
    have hfinite := isFinite_of_isNull_encodeValue hnull
    cases v with
    | float x => exact hfinite
    | message m =>
      cases t <;> simp only [scalar?, Option.map_eq_some_iff, reduceCtorEq, and_false,
        exists_false] at h
    | _ => trivial
  · exact fun hv => isNull_encodeValue (isFinite_of_scalar? he h hv)

/-- Every proper element is kept exactly as far as it is finite. -/
theorem keptIfFinite_of_proper (hs : s.WellFormed) (he : e.Proper) : KeptIfFinite s d f e := by
  induction hn : sizeOf e using Nat.strong_induction_on generalizing d f e with
  | _ size ih =>
    intro v h
    rcases readValue_eq_ok_iff.mp h with ⟨target, enum, ht, hr, hnumber⟩ |
      ⟨target, nested, elements, m, ht, hr, rfl, hm, rfl⟩ | ⟨ht, hscalar⟩
    · obtain ⟨n, -, rfl⟩ := Option.map_eq_some_iff.mp hnumber
      rw [ht]
      exact iff_of_true (.enumeration hr rfl) trivial
    · -- the elements of a nested message are smaller than its array
      have hstep := keeps_iff_of hs (hs.message _ _ (name_of_resolve? hs hr).1) hm
        (fun x hx => he.of_mem hx) fun x hx hproper g =>
          ih (sizeOf x) (hn ▸ hx.trans (Json.sizeOf_items_lt elements)) hproper rfl
      rw [ht, encodeValue_message, encode_eq, keepsValue_message_iff hr]
      exact hstep
    · rw [← isNull_encodeValue_iff he hscalar]
      exact ⟨KeepsValue.isNull_eq_false, .scalar ht⟩

end Keeping

/-! ## Reading, writing and reading again -/

/-- **Nothing is lost but single precision numbers that were too large.**  What has been read as a
declared message from a proper array is written as an array that keeps every element of a field,
at every level, exactly if no single precision number in the message is infinite or not a number;
and then the same message is read from it again. -/
theorem decode_encode_retains {source : List Char} {name : String} {d : MessageDescriptor}
    (hd : (Schema.ofSource source).message? name = some d) {elements : List Json}
    (helements : (Json.array elements).Proper) {framing : Framing} {m : Message}
    (h : decode (Schema.ofSource source) name framing (.array elements) = .ok m) :
    ∃ written, encode m = .array written ∧
      (Keeps (Schema.ofSource source) d framing.firstId elements written ↔
        ∀ n, Within n m → SinglesFinite n) ∧
      ((∀ n, Within n m → SinglesFinite n) →
        decode (Schema.ofSource source) name .plain (encode m) = .ok m) := by
  have hs := Schema.wellFormed_ofSource source
  have hwf := hs.message name d hd
  have hproper : ∀ x ∈ elements, x.Proper := fun x hx => helements.of_mem hx
  rw [decode_eq_decodeAs hd, decodeAs] at h
  refine ⟨items m, encode_eq m, ?_, fun hfinite => ?_⟩
  · exact keeps_iff_of hs hwf h hproper fun x _ hx g => keptIfFinite_of_proper hs hx
  · have hextends : (Schema.ofSource source).Extends (Schema.ofSource source) :=
      fun name d hd => ⟨d, hd, fun f hf => hf⟩
    rw [decode_eq_decodeAs hd, encode_eq, decodeAs, ← h]
    exact readMessage_items_of_kept hs hs hwf hwf (fun f hf => hf) h hproper
      (fun x _ hx => kept_of_proper hs hs hextends hx) hfinite

/-! ### Weights -/

/-- A schema with a number of single precision. -/
def scaleSource : List Char := "message Scale \x7b required float weight = 1; \x7d".toList

/-- The message type of that schema. -/
def scaleType : MessageDescriptor := ⟨"Scale", [⟨1, "weight", .float, .required⟩]⟩

/-- A message with a weight. -/
def scale (x : Floating.Single) : Message where
  name := "Scale"
  entries := [(⟨1, "weight", .float, .required⟩, .single (.float x))]
  unknown := []

theorem message?_scaleSource : (Schema.ofSource scaleSource).message? "Scale" = some scaleType := by
  decide +kernel

theorem decode_scale (x : Floating.Double) :
    decode (Schema.ofSource scaleSource) "Scale" .plain (.array [.float x]) =
      .ok (scale x.narrow) := by
  have hs := Schema.wellFormed_ofSource scaleSource
  have hwf := hs.message _ _ message?_scaleSource
  rw [decode_eq_decodeAs message?_scaleSource, decodeAs]
  refine (readMessage_eq_ok_iff hs hwf).mpr ⟨rfl, rfl, fun f slot hf => ?_, rfl, rfl⟩
  cases List.mem_singleton.mp hf
  exact (readSlot_iff_holds hs).mpr (.single (by decide) (.scalar rfl))

theorem within_scale {x : Floating.Single} {n : Message} (h : Within n (scale x)) :
    n = scale x := by
  cases h with
  | refl => rfl
  | step hf hinner _ =>
    cases List.mem_singleton.mp hf
    cases List.mem_singleton.mp hinner

theorem singlesFinite_scale {x : Floating.Single} :
    (∀ n, Within n (scale x) → SinglesFinite n) ↔ x.isFinite = true := by
  constructor
  · intro h
    exact h _ (.refl _) _ _ (List.mem_singleton_self _) x (List.mem_singleton_self _)
  · intro h n hn f slot hf y hy
    rw [within_scale hn] at hf
    cases List.mem_singleton.mp hf
    cases List.mem_singleton.mp hy
    exact h

theorem proper_singleton {x : Floating.Double} (hx : x.isFinite = true) :
    (Json.array [.float x]).Proper := by
  refine .array fun e he => ?_
  rw [List.mem_singleton.mp he]
  exact .float hx

/-- A weight of one and a half is kept, and read again. -/
theorem decode_encode_retains_scale :
    ∃ written, encode (scale ⟨0x3fc00000⟩) = .array written ∧
      Keeps (Schema.ofSource scaleSource) scaleType 1 [.float ⟨0x3ff8000000000000⟩] written ∧
      decode (Schema.ofSource scaleSource) "Scale" .plain (encode (scale ⟨0x3fc00000⟩)) =
        .ok (scale ⟨0x3fc00000⟩) := by
  have hnarrow : (Floating.Double.mk 0x3ff8000000000000).narrow = ⟨0x3fc00000⟩ := by
    decide +kernel
  have hread := decode_scale ⟨0x3ff8000000000000⟩
  rw [hnarrow] at hread
  have hfinite := singlesFinite_scale.mpr
    (by decide +kernel : (Floating.Single.mk 0x3fc00000).isFinite = true)
  obtain ⟨written, hwritten, hkeeps, hagain⟩ :=
    decode_encode_retains message?_scaleSource (proper_singleton (by decide +kernel)) hread
  exact ⟨written, hwritten, hkeeps.mpr hfinite, hagain hfinite⟩

/-- The double nearest to 10³⁰⁰. -/
def overweight : Floating.Double := ⟨0x7e37e43c8800759c⟩

/-- A weight of 10³⁰⁰ is read as an infinity and written as null, from which the message cannot be
read again. -/
theorem overweight_not_kept :
    Floating.Double.ofDecimal? false 1 300 = some overweight ∧
      (Json.array [.float overweight]).Proper ∧
      decode (Schema.ofSource scaleSource) "Scale" .plain (.array [.float overweight]) =
        .ok (scale ⟨0x7f800000⟩) ∧
      encode (scale ⟨0x7f800000⟩) = .array [.null] ∧
      ¬ Keeps (Schema.ofSource scaleSource) scaleType 1 [.float overweight] [.null] ∧
      decode (Schema.ofSource scaleSource) "Scale" .plain (.array [.null]) =
        .error (.requiredMissing "Scale" "weight") := by
  have hnarrow : overweight.narrow = ⟨0x7f800000⟩ := by decide +kernel
  refine ⟨by decide +kernel, proper_singleton (by decide +kernel), hnarrow ▸ decode_scale _,
    ?_, ?_, ?_⟩
  · have hnull : encodeValue (.float ⟨0x7f800000⟩) = .null := by
      rw [encodeValue_float, Json.ofDouble, if_neg (by decide +kernel)]
    simp [encode_eq, items, scale, encodeEntries, encodeSlot, hnull, place, Message.extent,
      Slot.isOccupied]
  · rintro ⟨h⟩
    have hslot := h _ (List.mem_singleton_self _) (.float overweight) rfl
    obtain ⟨w, hw, -⟩ := (keepsSlot_single_iff (by decide)).mp hslot
    cases hw
  · have hs := Schema.wellFormed_ofSource scaleSource
    rw [decode_eq_decodeAs message?_scaleSource, decodeAs,
      readMessage_eq hs (hs.message _ _ message?_scaleSource)]
    rfl

end Lite

end LiteChat
