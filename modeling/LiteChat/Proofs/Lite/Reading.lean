import Mathlib.Data.List.Forall2
import LiteChat.Lite.Decode
import LiteChat.Proofs.Message.Conforms

/-!
# What an element is read as

An element is read by the type and the label of a field.  This module says, case by case,
what that comes to (`readValue_message`, `readSlot_repeated`, ...), and that an element is
only ever read as something that its field accepts (`accept_of_readSlot`), which is why no
write fails while a message is read.
-/

namespace LiteChat.Lite

/-! ## Going through a list until an error -/

section Traversal
variable {α β ε : Type} {f g : α → Except ε β}

theorem mapM_cons_eq (f : α → Except ε β) (a : α) (l : List α) :
    (a :: l).mapM f = (f a).bind fun b => (l.mapM f).map (b :: ·) := by
  rw [List.mapM_cons]
  cases f a with
  | error e => rfl
  | ok b => cases l.mapM f <;> rfl

theorem mapM_eq_ok_iff {l : List α} {bs : List β} :
    l.mapM f = .ok bs ↔ List.Forall₂ (fun a b => f a = .ok b) l bs := by
  induction l generalizing bs with
  | nil =>
    rw [List.mapM_nil, List.forall₂_nil_left_iff]
    constructor
    · intro h
      cases h
      rfl
    · rintro rfl
      rfl
  | cons a l ih =>
    rw [mapM_cons_eq, List.forall₂_cons_left_iff]
    cases hf : f a with
    | error e =>
      constructor
      · intro h
        cases h
      · rintro ⟨c, cs, hc, -, -⟩
        cases hc
    | ok b =>
      cases hl : l.mapM f with
      | error e =>
        constructor
        · intro h
          cases h
        · rintro ⟨c, cs, -, hcs, -⟩
          rw [ih.mpr hcs] at hl
          cases hl
      | ok cs =>
        constructor
        · intro h
          exact ⟨b, cs, rfl, ih.mp hl, (Except.ok.inj h).symm⟩
        · rintro ⟨c, cs', hc, hcs, rfl⟩
          rw [ih.mpr hcs] at hl
          cases hc
          cases hl
          rfl

theorem exists_of_mem_mapM {l : List α} {bs : List β} (h : l.mapM f = .ok bs) {b : β}
    (hb : b ∈ bs) : ∃ a ∈ l, f a = .ok b := by
  have hall := mapM_eq_ok_iff.mp h
  induction hall with
  | nil => cases hb
  | cons hab hrest ih =>
    rcases List.mem_cons.mp hb with rfl | hb
    · exact ⟨_, List.mem_cons_self .., hab⟩
    · obtain ⟨a, ha, hfa⟩ := ih (mapM_eq_ok_iff.mpr hrest) hb
      exact ⟨a, List.mem_cons_of_mem _ ha, hfa⟩

theorem mapM_eq_ok_map {l : List α} {h : α → β} (hf : ∀ a ∈ l, f a = .ok (h a)) :
    l.mapM f = .ok (l.map h) :=
  mapM_eq_ok_iff.mpr (List.forall₂_map_right_iff.mpr
    (List.forall₂_same.mpr hf))

theorem mapM_congr {l : List α} (h : ∀ a ∈ l, f a = g a) : l.mapM f = l.mapM g := by
  induction l with
  | nil => rfl
  | cons a l ih =>
    rw [mapM_cons_eq, mapM_cons_eq, h a (List.mem_cons_self ..),
      ih fun b hb => h b (List.mem_cons_of_mem _ hb)]

end Traversal

/-! ## Values fit their fields -/

section Fits
variable {s : Schema} {d nested : MessageDescriptor} {f : Field} {e : Json} {v : Value}

theorem fits_of_scalar? {t : FieldType} (h : scalar? t e = some v) : v.fits t = true := by
  cases t <;> simp only [scalar?, Option.map_eq_some_iff, reduceCtorEq] at h
  all_goals
    obtain ⟨_, -, rfl⟩ := h
    rfl

theorem readValue_message {target : String} (ht : f.type = .reference target)
    (hr : s.resolve? target = some (.message nested)) :
    readValue s d f e = (decodeAs s nested .plain e).map .message := by
  rw [readValue, ht]
  simp only [hr]
  cases e <;> simp only [decodeAs, readMessage, Except.map]
  split <;> rfl

theorem readValue_enumeration {target : String} {enum : EnumDescriptor}
    (ht : f.type = .reference target) (hr : s.resolve? target = some (.enumeration enum)) :
    readValue s d f e =
      match enumNumber? e with
      | some v => .ok v
      | none => mismatch d f target e := by
  cases hn : enumNumber? e <;> simp only [readValue, ht, hr, hn]

theorem readValue_unresolved {target : String} (ht : f.type = .reference target)
    (hr : s.resolve? target = none) : readValue s d f e = .error (.unresolvedType target) := by
  rw [readValue, ht]
  simp only [hr]

theorem readValue_scalar (ht : ∀ target, f.type ≠ .reference target) :
    readValue s d f e =
      match scalar? f.type e with
      | some v => .ok v
      | none => mismatch d f f.type.token e := by
  cases hf : f.type with
  | reference target => exact absurd hf (ht target)
  | _ => cases hs : scalar? _ e <;> simp only [readValue, hf, hs]

/-- The ways in which an element is read as a value: as the number of an enum, as a nested
message, or as a scalar. -/
theorem readValue_eq_ok_iff : readValue s d f e = .ok v ↔
    (∃ target enum, f.type = .reference target ∧
        s.resolve? target = some (.enumeration enum) ∧ enumNumber? e = some v) ∨
      (∃ target nested items m, f.type = .reference target ∧
        s.resolve? target = some (.message nested) ∧ e = .array items ∧
        readMessage s nested .plain items = .ok m ∧ v = .message m) ∨
      ((∀ target, f.type ≠ .reference target) ∧ scalar? f.type e = some v) := by
  by_cases ht : ∃ target, f.type = .reference target
  · obtain ⟨target, ht⟩ := ht
    cases hr : s.resolve? target with
    | none => simp [readValue_unresolved ht hr, ht, hr]
    | some r =>
      cases r with
      | enumeration enum =>
        rw [readValue_enumeration ht hr]
        cases hn : enumNumber? e <;> simp [mismatch, ht, hr]
      | message nested =>
        rw [readValue_message ht hr]
        cases e with
        | array items =>
          rw [decodeAs]
          cases hm : readMessage s nested .plain items <;>
            simp [Except.map, ht, hr, hm, eq_comm]
        | _ => simp [decodeAs, rootMismatch, Except.map, ht, hr]
  · have ht : ∀ target, f.type ≠ .reference target := fun target h => ht ⟨target, h⟩
    rw [readValue_scalar ht]
    cases hs : scalar? f.type e <;> simp [mismatch, ht]

/-- What is read as a message of a name is read as its declaration says. -/
theorem decode_eq_decodeAs {name : String} (hd : s.message? name = some d) (framing : Framing)
    (raw : Json) : decode s name framing raw = decodeAs s d framing raw := by
  simp only [decode, hd]

/-- Nothing is read as a message that is not declared. -/
theorem exists_of_decode {name : String} {framing : Framing} {raw : Json} {m : Message}
    (h : decode s name framing raw = .ok m) :
    ∃ d, s.message? name = some d ∧ decodeAs s d framing raw = .ok m := by
  unfold decode at h
  split at h
  · rename_i d hd
    exact ⟨d, hd, h⟩
  · cases h

theorem decode_eq_readMessage {name : String} (hd : s.message? name = some d) (framing : Framing)
    (items : List Json) : decode s name framing (.array items) = readMessage s d framing items :=
  decode_eq_decodeAs hd framing (.array items)

theorem name_of_setAll {m m' : Message} {slots : List (Nat × Slot Value)}
    (h : m.setAll slots = .ok m') : m'.name = m.name := by
  induction slots generalizing m with
  | nil =>
    cases h
    rfl
  | cons p rest ih =>
    unfold Message.setAll at h
    split at h
    · rename_i n hn
      obtain ⟨_, _, _, -, -, -, rfl⟩ := Message.set_eq_ok hn
      have hname := ih h
      exact hname
    · cases h

theorem name_of_keepUnknown {m m' : Message} {unknown : List (Nat × Json)}
    (h : keepUnknown m unknown = .ok m') : m'.name = m.name := by
  induction unknown generalizing m with
  | nil =>
    cases h
    rfl
  | cons p rest ih =>
    unfold keepUnknown at h
    split at h
    · rename_i n hn
      obtain ⟨-, -, rfl⟩ := Message.insertUnknown_eq_ok hn
      have hname := ih h
      exact hname
    · cases h

theorem name_of_decodeAs {framing : Framing} {m : Message}
    (h : decodeAs s d framing e = .ok m) : m.name = d.name := by
  cases e with
  | array items =>
    simp only [decodeAs, readMessage] at h
    split at h
    · cases h
    · unfold assemble at h
      split at h
      · cases h
      · rename_i m₁ h₁
        split at h
        · cases h
        · rename_i m₂ h₂
          split at h
          · cases h
          · cases h
            rw [name_of_keepUnknown h₂, name_of_setAll h₁, Message.new]
  | _ => cases h

theorem name_of_resolve? (hs : s.WellFormed) {target : String}
    (h : s.resolve? target = some (.message nested)) :
    s.message? target = some nested ∧ nested.name = target := by
  unfold Schema.resolve? at h
  split at h
  · rename_i d' hd'
    cases h
    exact ⟨hd', hs.name_eq _ _ hd'⟩
  · obtain ⟨_, -, h⟩ := Option.map_eq_some_iff.mp h
    cases h

theorem fits_of_readValue (hs : s.WellFormed) (h : readValue s d f e = .ok v) :
    v.fits f.type = true := by
  rcases readValue_eq_ok_iff.mp h with ⟨target, enum, ht, -, hn⟩ |
    ⟨target, nested, items, m, ht, hr, rfl, hm, rfl⟩ | ⟨-, hv⟩
  · obtain ⟨n, -, rfl⟩ := Option.map_eq_some_iff.mp hn
    rw [ht]
    rfl
  · have hname : m.name = nested.name := name_of_decodeAs (e := .array items) hm
    rw [ht, Value.fits, hname, (name_of_resolve? hs hr).2]
    exact decide_eq_true rfl
  · exact fits_of_scalar? hv

theorem readValues_eq (items : List Json) :
    readValues s d f items = (items.filter fun e => !e.isNull).mapM (readValue s d f) := by
  induction items with
  | nil =>
    rw [readValues]
    rfl
  | cons e rest ih =>
    rw [readValues]
    cases he : e.isNull with
    | true => simp [he, ih]
    | false =>
      rw [List.filter_cons_of_pos (by simp [he]), mapM_cons_eq, ← ih, if_neg (by simp)]
      cases readValue s d f e with
      | error fault => rfl
      | ok v => cases readValues s d f rest <;> rfl

theorem readSlot_repeated (hl : f.label = .repeated) (items : List Json) :
    readSlot s d f (.array items) =
      ((items.filter fun e => !e.isNull).mapM (readValue s d f)).map .repeated := by
  rw [readSlot, hl, ← readValues_eq]

theorem readSlot_repeated_mismatch (hl : f.label = .repeated)
    (he : ∀ items, e ≠ .array items) : readSlot s d f e = mismatch d f "array" e := by
  unfold readSlot
  rw [hl]
  cases e with
  | array items => exact absurd rfl (he items)
  | _ => rfl

theorem readSlot_single (hl : f.label ≠ .repeated) :
    readSlot s d f e = (readValue s d f e).map .single := by
  unfold readSlot
  cases hf : f.label with
  | repeated => exact absurd hf hl
  | _ => rfl

/-- The ways in which an element is read as a slot: an array as a list of values, or any
element as one value. -/
theorem readSlot_eq_ok_iff {slot : Slot Value} : readSlot s d f e = .ok slot ↔
    (f.label = .repeated ∧ ∃ items vs, e = .array items ∧
        (items.filter fun e => !e.isNull).mapM (readValue s d f) = .ok vs ∧
        slot = .repeated vs) ∨
      (f.label ≠ .repeated ∧ ∃ v, readValue s d f e = .ok v ∧ slot = .single v) := by
  by_cases hl : f.label = .repeated
  · cases e with
    | array items =>
      rw [readSlot_repeated hl]
      cases hvs : (items.filter fun e => !e.isNull).mapM (readValue s d f) <;>
        simp [Except.map, hl, hvs, eq_comm]
    | _ => simp [readSlot_repeated_mismatch hl, mismatch, hl]
  · rw [readSlot_single hl]
    cases hv : readValue s d f e <;> simp [Except.map, hl, eq_comm]

/-- An element is read as what its field accepts. -/
theorem accept_of_readSlot (hs : s.WellFormed) {slot : Slot Value}
    (h : readSlot s d f e = .ok slot) : f.accept slot = .ok slot := by
  rcases readSlot_eq_ok_iff.mp h with ⟨hl, items, vs, rfl, hvs, rfl⟩ | ⟨hl, v, hv, rfl⟩
  · refine Field.accept_repeated hl fun v hv => ?_
    obtain ⟨e, -, he⟩ := exists_of_mem_mapM hvs hv
    exact fits_of_readValue hs he
  · exact Field.accept_single hl (fits_of_readValue hs hv)

end Fits

end LiteChat.Lite
