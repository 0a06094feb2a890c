import LiteChat.Proofs.Lite.Position
import LiteChat.Proofs.Sorting

/-!
# Where an error comes from

What cannot be read as a message has an element that cannot be read, or lacks a required
field.  This module leads an error back to its place: from the message to the field of least
id that fails (`readMessage_eq_error_iff`), from the field to its element
(`readField_eq_error_iff`), from the element to the first value in it that fails
(`readSlot_eq_error_iff`), and from the value to what is wrong with it
(`readValue_eq_error_iff`).
-/

namespace LiteChat.Lite

section Traversal
variable {α β ε : Type} {f : α → Except ε β}

/-- The error of a list is that of its first element that fails. -/
theorem mapM_eq_error_iff {l : List α} {fault : ε} :
    l.mapM f = .error fault ↔ ∃ before a after, l = before ++ a :: after ∧
      (∀ b ∈ before, ∃ c, f b = .ok c) ∧ f a = .error fault := by
  induction l with
  | nil =>
    constructor
    · intro h
      cases h
    · rintro ⟨before, a, after, h, -, -⟩
      simp at h
  | cons x rest ih =>
    rw [mapM_cons_eq]
    cases hx : f x with
    | error fault' =>
      constructor
      · intro h
        cases h
        exact ⟨[], x, rest, rfl, fun b hb => absurd hb List.not_mem_nil, hx⟩
      · rintro ⟨before, a, after, hl, hbefore, ha⟩
        cases before with
        | nil =>
          cases hl
          rw [hx] at ha
          cases ha
          rfl
        | cons b before =>
          cases hl
          obtain ⟨c, hc⟩ := hbefore x List.mem_cons_self
          rw [hx] at hc
          cases hc
    | ok c =>
      have hrest : (Except.bind (Except.ok c) fun b => (rest.mapM f).map (b :: ·)) = .error fault ↔
          rest.mapM f = .error fault := by
        cases rest.mapM f <;> simp [Except.bind, Except.map]
      rw [hrest, ih]
      constructor
      · rintro ⟨before, a, after, rfl, hbefore, ha⟩
        refine ⟨x :: before, a, after, rfl, fun b hb => ?_, ha⟩
        rcases List.mem_cons.mp hb with rfl | hb
        · exact ⟨c, hx⟩
        · exact hbefore b hb
      · rintro ⟨before, a, after, hl, hbefore, ha⟩
        cases before with
        | nil =>
          cases hl
          rw [hx] at ha
          cases ha
        | cons b before =>
          cases hl
          exact ⟨before, a, after, rfl, fun b hb => hbefore b (List.mem_cons_of_mem _ hb), ha⟩

end Traversal

variable {s : Schema} {d : MessageDescriptor} {f : Field} {fault : MessageError}

/-! ## Values -/

/-- The ways in which an element is no value of a field: its type is not declared, it is no
number of an enum, no message of a type, or no scalar. -/
theorem readValue_eq_error_iff {e : Json} : readValue s d f e = .error fault ↔
    (∃ target, f.type = .reference target ∧ s.resolve? target = none ∧
        fault = .unresolvedType target) ∨
      (∃ target enum, f.type = .reference target ∧
        s.resolve? target = some (.enumeration enum) ∧ enumNumber? e = none ∧
        fault = .typeMismatch d.name f.name target e.kind) ∨
      (∃ target nested, f.type = .reference target ∧
        s.resolve? target = some (.message nested) ∧
        decodeAs s nested .plain e = .error fault) ∨
      ((∀ target, f.type ≠ .reference target) ∧ scalar? f.type e = none ∧
        fault = .typeMismatch d.name f.name f.type.token e.kind) := by
  by_cases ht : ∃ target, f.type = .reference target
  · obtain ⟨target, ht⟩ := ht
    cases hr : s.resolve? target with
    | none => simp [readValue_unresolved ht hr, ht, hr, eq_comm]
    | some r =>
      cases r with
      | enumeration enum =>
        rw [readValue_enumeration ht hr]
        cases hn : enumNumber? e <;> simp [mismatch, ht, hr, eq_comm]
      | message nested =>
        rw [readValue_message ht hr]
        cases hm : decodeAs s nested .plain e <;> simp [Except.map, ht, hr, hm]
  · have ht : ∀ target, f.type ≠ .reference target := fun target h => ht ⟨target, h⟩
    rw [readValue_scalar ht]
    cases hv : scalar? f.type e <;> simp [mismatch, ht, eq_comm]

/-- The ways in which a JSON value is no message of a type: it is no array, or the array cannot
be read. -/
theorem decodeAs_eq_error_iff {framing : Framing} {e : Json} :
    decodeAs s d framing e = .error fault ↔
      (∃ items, e = .array items ∧ readMessage s d framing items = .error fault) ∨
        ((∀ items, e ≠ .array items) ∧
          fault = .typeMismatch d.name "<root>" "array" e.kind) := by
  cases e <;> simp [decodeAs, rootMismatch, eq_comm]

/-! ## Slots -/

/-- A list fails by the first of its elements that is not null and cannot be read. -/
theorem readValues_eq_error_iff {items : List Json} :
    readValues s d f items = .error fault ↔ ∃ before e after, items = before ++ e :: after ∧
      (∀ b ∈ before, b.isNull = false → ∃ v, readValue s d f b = .ok v) ∧ e.isNull = false ∧
        readValue s d f e = .error fault := by
  rw [readValues_eq, mapM_eq_error_iff]
  constructor
  · rintro ⟨kept, e, later, hfilter, hkept, he⟩
    obtain ⟨before, back, rfl, rfl, hback⟩ := List.filter_eq_append_iff.mp hfilter
    obtain ⟨nulls, after, rfl, hnulls, hnull, -⟩ := List.filter_eq_cons_iff.mp hback
    refine ⟨before ++ nulls, e, after, (List.append_assoc ..).symm, fun b hb hb' => ?_,
      by simpa using hnull, he⟩
    rcases List.mem_append.mp hb with hb | hb
    · exact hkept b (List.mem_filter.mpr ⟨hb, by simp [hb']⟩)
    · exact absurd (by simp [hb']) (hnulls b hb)
  · rintro ⟨before, e, after, rfl, hbefore, hnull, he⟩
    refine ⟨before.filter fun e => !e.isNull, e, after.filter fun e => !e.isNull, ?_, ?_, he⟩
    · rw [List.filter_append, List.filter_cons_of_pos (by simp [hnull])]
    · intro b hb
      obtain ⟨hb, hb'⟩ := List.mem_filter.mp hb
      exact hbefore b hb (by simpa using hb')

/-- A slot fails by its value or by the first of its values that fails, or because there is no
list where one is asked for. -/
theorem readSlot_eq_error_iff {e : Json} :
    readSlot s d f e = .error fault ↔
      (f.label = .repeated ∧ ∃ items, e = .array items ∧
          readValues s d f items = .error fault) ∨
        (f.label = .repeated ∧ (∀ items, e ≠ .array items) ∧
          fault = .typeMismatch d.name f.name "array" e.kind) ∨
        (f.label ≠ .repeated ∧ readValue s d f e = .error fault) := by
  by_cases hl : f.label = .repeated
  · by_cases he : ∃ items, e = .array items
    · obtain ⟨items, rfl⟩ := he
      rw [readSlot_repeated hl, ← readValues_eq]
      cases hvs : readValues s d f items <;> simp [Except.map, hl, hvs]
    · have he : ∀ items, e ≠ .array items := fun items h => he ⟨items, h⟩
      rw [readSlot_repeated_mismatch hl he, mismatch]
      simp [hl, he, eq_comm]
  · rw [readSlot_single hl]
    cases readValue s d f e <;> simp [Except.map, hl]

/-! ## Fields -/

section Fields
variable {first : Nat} {items : List Json}

/-- A field fails by the element at its place. -/
theorem readField_eq_error_iff :
    readField s d first items f = .error fault ↔
      ∃ e, elementAt? first items f.id = some e ∧ readSlot s d f e = .error fault := by
  rw [readField]
  cases elementAt? first items f.id <;> simp

/-- A field without an element does not fail. -/
theorem exists_readField_iff :
    (∃ slot, readField s d first items f = .ok slot) ↔
      ∀ e, elementAt? first items f.id = some e → ∃ slot, readSlot s d f e = .ok slot := by
  rw [readField]
  cases elementAt? first items f.id <;> simp

theorem readEntry_eq_error_iff :
    readEntry s d first items f = .error fault ↔ readField s d first items f = .error fault := by
  rw [readEntry]
  cases readField s d first items f <;> simp [Except.map]

theorem exists_readEntry_iff :
    (∃ p, readEntry s d first items f = .ok p) ↔
      ∃ slot, readField s d first items f = .ok slot := by
  rw [readEntry]
  cases readField s d first items f <;> simp [Except.map]

/-- Going through the fields ends at the one of least id that fails. -/
theorem mapM_readEntry_eq_error_iff (hd : d.WellFormed) :
    d.fields.mapM (readEntry s d first items) = .error fault ↔
      ∃ f ∈ d.fields, readField s d first items f = .error fault ∧
        ∀ g ∈ d.fields, g.id < f.id → ∃ slot, readField s d first items g = .ok slot := by
  rw [mapM_eq_error_iff]
  constructor
  · rintro ⟨before, f, after, hsplit, hbefore, hf⟩
    refine ⟨f, by simp [hsplit], readEntry_eq_error_iff.mp hf, fun g hg hlt => ?_⟩
    exact exists_readEntry_iff.mp
      (hbefore g ((Sorting.mem_before_iff hd.ids_increase hsplit).mpr ⟨hg, hlt⟩))
  · rintro ⟨f, hf, hfault, hleast⟩
    obtain ⟨before, after, hsplit⟩ := List.append_of_mem hf
    refine ⟨before, f, after, hsplit, fun g hg => ?_, readEntry_eq_error_iff.mpr hfault⟩
    obtain ⟨hg, hlt⟩ := (Sorting.mem_before_iff hd.ids_increase hsplit).mp hg
    exact exists_readEntry_iff.mpr (hleast g hg hlt)

/-- What is read for a required field is a value, unless there is no element. -/
theorem isUnset_iff_of_readField {slot : Slot Value} (hl : f.label = .required)
    (h : readField s d first items f = .ok slot) :
    slot.isUnset = true ↔ elementAt? first items f.id = none := by
  rw [readField] at h
  cases he : elementAt? first items f.id with
  | none =>
    rw [he, hl] at h
    cases h
    simp [Slot.blank, Slot.isUnset]
  | some e =>
    rw [he] at h
    rcases readSlot_eq_ok_iff.mp h with ⟨-, _, _, -, -, rfl⟩ | ⟨-, _, -, rfl⟩ <;>
      simp [Slot.isUnset]

/-! ## Messages -/

/-- A field is the one of least id that is required and has no element. -/
structure FirstLacking (d : MessageDescriptor) (first : Nat) (items : List Json) (f : Field) :
    Prop where
  mem : f ∈ d.fields
  required : f.label = .required
  absent : elementAt? first items f.id = none
  least : ∀ g ∈ d.fields, g.id < f.id → g.label = .required →
    elementAt? first items g.id ≠ none

/-- A message with a slot for each field lacks the first required field without an element. -/
theorem missing?_eq_some_iff (hd : d.WellFormed) {entries : List (Field × Slot Value)}
    (hentries : d.fields.mapM (readEntry s d first items) = .ok entries) {name : String}
    {unknown : List (Nat × Json)} :
    Message.missing? ⟨name, entries, unknown⟩ = some f ↔ FirstLacking d first items f := by
  obtain ⟨hfields, hread⟩ := mapM_readEntry_eq_ok_iff.mp hentries
  have hincrease : entries.Pairwise fun p q => p.1.id < q.1.id := by
    have h := hd.ids_increase
    rwa [← hfields, List.pairwise_map] at h
  have hlacks : ∀ g t, (g, t) ∈ entries →
      ((decide (g.label = .required) && t.isUnset) = true ↔
        g.label = .required ∧ elementAt? first items g.id = none) := by
    intro g t hg
    rw [Bool.and_eq_true, decide_eq_true_eq]
    exact and_congr_right fun hl => isUnset_iff_of_readField hl (hread g t hg)
  have hmem : ∀ g, g ∈ d.fields ↔ ∃ t, (g, t) ∈ entries := by
    intro g
    rw [← hfields]
    simp
  rw [Message.missing?, Option.map_eq_some_iff]
  constructor
  · rintro ⟨⟨g, t⟩, hfound, rfl⟩
    obtain ⟨hg, hp, hleast⟩ := (Sorting.find?_eq_some_iff_least hincrease).mp hfound
    obtain ⟨hl, habsent⟩ := (hlacks g t hg).mp hp
    refine ⟨(hmem g).mpr ⟨t, hg⟩, hl, habsent, fun k hk hlt hkl hkabsent => ?_⟩
    obtain ⟨u, hu⟩ := (hmem k).mp hk
    have hnot := hleast (k, u) hu hlt
    rw [(hlacks k u hu).mpr ⟨hkl, hkabsent⟩] at hnot
    cases hnot
  · rintro ⟨hf, hl, habsent, hleast⟩
    obtain ⟨t, ht⟩ := (hmem f).mp hf
    refine ⟨(f, t), (Sorting.find?_eq_some_iff_least hincrease).mpr
      ⟨ht, (hlacks f t ht).mpr ⟨hl, habsent⟩, ?_⟩, rfl⟩
    rintro ⟨g, u⟩ hg hlt
    rw [← Bool.not_eq_true]
    intro hp
    obtain ⟨hgl, hgabsent⟩ := (hlacks g u hg).mp hp
    exact hleast g ((hmem g).mpr ⟨u, hg⟩) hlt hgl hgabsent

theorem complete_eq_error_iff {m : Message} :
    complete m = .error fault ↔
      ∃ g, m.missing? = some g ∧ fault = .requiredMissing m.name g.name := by
  unfold complete Message.checkRequired
  cases m.missing? <;> simp [Except.map, eq_comm]

end Fields

/-- A message fails by the field of least id that fails.  Only if there is none does it fail for
lack of a required field, and then it is the one of least id that is named. -/
theorem readMessage_eq_error_iff (hs : s.WellFormed) (hd : d.WellFormed) {framing : Framing}
    {items : List Json} :
    readMessage s d framing items = .error fault ↔
      (∃ f ∈ d.fields, readField s d framing.firstId items f = .error fault ∧
          ∀ g ∈ d.fields, g.id < f.id →
            ∃ slot, readField s d framing.firstId items g = .ok slot) ∨
        (∀ g ∈ d.fields, ∃ slot, readField s d framing.firstId items g = .ok slot) ∧
          ∃ f, FirstLacking d framing.firstId items f ∧
            fault = .requiredMissing d.name f.name := by
  rw [readMessage_eq hs hd]
  cases hentries : d.fields.mapM (readEntry s d framing.firstId items) with
  | error fault' =>
    -- some field fails, so the message is not asked for its required fields
    have hfails := (mapM_readEntry_eq_error_iff hd).mp hentries
    constructor
    · intro h
      cases h
      exact Or.inl hfails
    · rintro (h | ⟨hread, -⟩)
      · rw [(mapM_readEntry_eq_error_iff hd).mpr h] at hentries
        cases hentries
        rfl
      · obtain ⟨f, hf, hfault, -⟩ := hfails
        obtain ⟨slot, hslot⟩ := hread f hf
        rw [hslot] at hfault
        cases hfault
  | ok entries =>
    have hread : ∀ g ∈ d.fields, ∃ slot, readField s d framing.firstId items g = .ok slot := by
      intro g hg
      obtain ⟨hfields, hslots⟩ := mapM_readEntry_eq_ok_iff.mp hentries
      obtain ⟨⟨g, slot⟩, hmem, rfl⟩ := List.mem_map.mp (hfields ▸ hg)
      exact ⟨slot, hslots g slot hmem⟩
    have hcomplete : complete ⟨d.name, entries, unknownFrom d framing.firstId items⟩ =
        .error fault ↔ ∃ f, FirstLacking d framing.firstId items f ∧
          fault = .requiredMissing d.name f.name := by
      simp only [complete_eq_error_iff, missing?_eq_some_iff hd hentries]
    refine hcomplete.trans ⟨fun h => Or.inr ⟨hread, h⟩, ?_⟩
    rintro (⟨f, hf, hfault, -⟩ | ⟨-, h⟩)
    · obtain ⟨slot, hslot⟩ := hread f hf
      rw [hslot] at hfault
      cases hfault
    · exact h

end LiteChat.Lite
