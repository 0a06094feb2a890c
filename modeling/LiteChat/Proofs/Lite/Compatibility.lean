import LiteChat.Proofs.Json.Proper
import LiteChat.Proofs.Lite.Contents
import LiteChat.Proofs.Lite.RoundTrip

/-!
# Older and newer schemas

A newer schema keeps every message of an older one with all its fields and may declare
more (`Schema.Extends`).  A program with the older schema reads an array and writes the
message again; a program with the newer schema then reads what it would have read from
the array itself, or fails with the error it would have failed with
(`decode_encode_newer`).  What the older program understands it writes in its own way,
but the same value is read from it; what it does not understand it writes as it was.
-/

namespace LiteChat

/-- A schema declares every message of another, with all the fields that the other gives
it. -/
def Schema.Extends (s' s : Schema) : Prop :=
  ∀ name d, s.message? name = some d →
    ∃ d', s'.message? name = some d' ∧ ∀ f ∈ d.fields, f ∈ d'.fields

/-- No single precision number at one level of a message is infinite or not a number. -/
def Message.SinglesFinite (m : Message) : Prop :=
  ∀ f slot, (f, slot) ∈ m.entries → ∀ x, .float x ∈ slot.values → x.isFinite = true

namespace Lite

open Message (Within SinglesFinite)

/-! ## Values -/

/-- The single precision numbers of a value are finite, at every level. -/
def SinglesFiniteIn : Value → Prop
  | .float x => x.isFinite = true
  | .message m => ∀ n, Within n m → SinglesFinite n
  | _ => True

theorem singlesFiniteIn_of_mem {m : Message} (h : ∀ n, Within n m → SinglesFinite n) {f : Field}
    {slot : Slot Value} (hf : (f, slot) ∈ m.entries) {v : Value} (hv : v ∈ slot.values) :
    SinglesFiniteIn v := by
  cases v with
  | float x => exact h m (.refl m) f slot hf x hv
  | message inner => exact fun n hn => h n (.step hf hv hn)
  | _ => trivial

/-- A scalar that is read from a proper element is finite, unless it is a single precision
number that was too large. -/
theorem isFinite_of_scalar? {t : FieldType} {e : Json} (he : e.Proper) {v : Value}
    (h : scalar? t e = some v) (hv : SinglesFiniteIn v) : v.isFinite = true := by
  cases v with
  | float x => exact hv
  | double x =>
    cases t <;> simp only [scalar?, Option.map_eq_some_iff, reduceCtorEq, and_false,
      exists_false, Value.double.injEq, exists_eq_right] at h
    exact he.isFinite_double? h
  | _ => rfl

/-! ## Reading with a newer schema -/

section Newer
variable {s s' : Schema} {d d' : MessageDescriptor} {f : Field} {e : Json}

theorem mapM_congr_of_forall₂ {α β γ ε : Type} {r : α → β → Prop} {g : α → Except ε γ}
    {h : β → Except ε γ} {as : List α} {bs : List β} (hall : List.Forall₂ r as bs)
    (heq : ∀ a ∈ as, ∀ b ∈ bs, r a b → g a = h b) : as.mapM g = bs.mapM h := by
  induction hall with
  | nil => rfl
  | cons hr _ ih =>
    rw [mapM_cons_eq, mapM_cons_eq, heq _ (List.mem_cons_self ..) _ (List.mem_cons_self ..) hr,
      ih fun a ha b hb => heq a (List.mem_cons_of_mem _ ha) b (List.mem_cons_of_mem _ hb)]

/-- What a newer schema reads from an element it reads from the value that the older one has
read, once that is written again. -/
def Kept (s s' : Schema) (d d' : MessageDescriptor) (e : Json) : Prop :=
  ∀ f v, readValue s d f e = .ok v → SinglesFiniteIn v →
    v.isFinite = true ∧ readValue s' d' f (encodeValue v) = readValue s' d' f e

/-- An element is kept if the arrays that it may be are kept as messages. -/
theorem kept_of_messages (hs : s.WellFormed) (hextends : s'.Extends s) (he : e.Proper)
    (harray : ∀ nested nested', s.message? nested.name = some nested →
      s'.message? nested.name = some nested' → (∀ g ∈ nested.fields, g ∈ nested'.fields) →
      ∀ elements m, e = .array elements → readMessage s nested .plain elements = .ok m →
        (∀ n, Within n m → SinglesFinite n) →
        readMessage s' nested' .plain (items m) = readMessage s' nested' .plain elements) :
    Kept s s' d d' e := by
  intro f v h hv
  rcases readValue_eq_ok_iff.mp h with ⟨target, enum, ht, hr, hn⟩ |
    ⟨target, nested, elements, m, ht, hr, rfl, hm, rfl⟩ | ⟨ht, hscalar⟩
  · -- an enum number is written as the element it was, whatever the name means now
    refine ⟨?_, by rw [encodeValue_of_enumNumber? hn]⟩
    obtain ⟨n, -, rfl⟩ := Option.map_eq_some_iff.mp hn
    rfl
  · obtain ⟨hnested, hname⟩ := name_of_resolve? hs hr
    obtain ⟨nested', hnested', hfields⟩ := hextends target nested hnested
    have hr' : s'.resolve? target = some (.message nested') := by
      rw [Schema.resolve?, hnested']
    have hagain := harray nested nested' (hname ▸ hnested) (hname ▸ hnested') hfields elements m
      rfl hm hv
    refine ⟨rfl, ?_⟩
    rw [readValue_message ht hr', readValue_message ht hr', encodeValue_message, encode_eq, decodeAs,
      decodeAs, hagain]
  · have hfinite := isFinite_of_scalar? he hscalar hv
    refine ⟨hfinite, ?_⟩
    rw [readValue_scalar ht, readValue_scalar ht, hscalar,
      scalar?_encodeValue (fits_of_scalar? hscalar) hfinite ht]

/-- A slot of kept elements is read again as the newer schema reads its element. -/
theorem readSlot_of_kept {slot : Slot Value} (h : readSlot s d f e = .ok slot) (he : e.Proper)
    (hkept : ∀ x, sizeOf x ≤ sizeOf e → x.Proper → Kept s s' d d' x)
    (hslot : ∀ v ∈ slot.values, SinglesFiniteIn v) :
    (∀ v ∈ slot.values, v.isFinite = true) ∧
      readSlot s' d' f e = reread (fun v => readValue s' d' f (encodeValue v)) f.label slot := by
  rcases readSlot_eq_ok_iff.mp h with ⟨hl, elements, vs, rfl, hvs, rfl⟩ | ⟨hl, v, hv, rfl⟩
  · have hone : ∀ x ∈ elements.filter (fun e => !e.isNull), ∀ v ∈ vs,
        readValue s d f x = .ok v →
          v.isFinite = true ∧ readValue s' d' f (encodeValue v) = readValue s' d' f x := by
      intro x hx v hv hread
      have hmem := (List.mem_filter.mp hx).1
      exact hkept x (Json.sizeOf_lt_of_mem hmem).le (he.of_mem hmem) f v hread (hslot v hv)
    refine ⟨fun v hv => ?_, ?_⟩
    · obtain ⟨x, hx, hread⟩ := exists_of_mem_mapM hvs hv
      exact (hone x hx v hv hread).1
    · rw [readSlot_repeated hl, reread, mapM_congr_of_forall₂ (mapM_eq_ok_iff.mp hvs)
        fun x hx v hv hread => (hone x hx v hv hread).2.symm]
  · obtain ⟨hfinite, hread⟩ := hkept e le_rfl he f v hv (hslot v (List.mem_singleton_self v))
    refine ⟨fun w hw => ?_, ?_⟩
    · rw [List.mem_singleton.mp hw]
      exact hfinite
    · rw [readSlot_single hl, reread, hread]

/-- An absent element leaves a blank slot, which is read again as the absent element is. -/
theorem reread_blank (read : Value → Except MessageError Value) (l : Label) :
    reread read l (.blank l) = .ok (.blank l) := by
  cases l <;> rfl

/-! ## Messages -/

section Items
variable {framing : Framing} {elements : List Json} {m : Message}

/-- An id that the older schema does not declare has the element that it had. -/
theorem elementAt?_items_of_read (hs : s.WellFormed) (hd : d.WellFormed)
    (h : readMessage s d framing elements = .ok m) {id : Nat} (hnone : d.field? id = none)
    (hpos : 0 < id) (hbound : id < Schema.fieldIdBound) :
    elementAt? 1 (items m) id = elementAt? framing.firstId elements id := by
  have hm := conforms_of_readMessage hs hd h
  obtain ⟨-, -, -, hunknown, -⟩ := (readMessage_eq_ok_iff hs hd).mp h
  refine Option.ext fun e => ?_
  rw [elementAt?_items_of_undeclared hd hm hnone, hunknown, mem_unknownFrom]
  constructor
  · rintro ⟨⟨-, -, -, he⟩, -⟩
    exact he
  · intro he
    exact ⟨⟨hpos, hbound, hnone, he⟩, (elementAt?_eq_some_iff.mp he).2.2⟩

/-- A field that the older schema declares is read from the message as from the array. -/
theorem readField_items_of_kept (hs : s.WellFormed) (hd : d.WellFormed)
    (h : readMessage s d framing elements = .ok m) (helements : ∀ e ∈ elements, e.Proper)
    (hkept : ∀ x, sizeOf x < sizeOf elements → x.Proper → Kept s s' d d' x)
    (hfinite : ∀ n, Within n m → SinglesFinite n) (hf : f ∈ d.fields) :
    readField s' d' 1 (items m) f = readField s' d' framing.firstId elements f := by
  have hm := conforms_of_readMessage hs hd h
  obtain ⟨-, -, hread, -, -⟩ := (readMessage_eq_ok_iff hs hd).mp h
  obtain ⟨slot, hslot⟩ := hm.exists_slot hf
  have hsingles : ∀ v ∈ slot.values, SinglesFiniteIn v := fun v =>
    singlesFiniteIn_of_mem hfinite hslot
  have hslotRead := hread f slot hslot
  rw [readField] at hslotRead
  cases he : elementAt? framing.firstId elements f.id with
  | none =>
    rw [he] at hslotRead
    cases hslotRead
    have hblank : ∀ v ∈ (Slot.blank f.label : Slot Value).values, v.isFinite = true := by
      rw [Field.values_blank]
      exact fun v hv => absurd hv List.not_mem_nil
    rw [readField_items hd hm hslot hblank, readField, he, reread_blank]
  | some e =>
    rw [he] at hslotRead
    have hmem := List.mem_of_getElem? (elementAt?_eq_some_iff.mp he).2.1
    have hlt := List.sizeOf_lt_of_mem hmem
    obtain ⟨hvalues, hagain⟩ := readSlot_of_kept hslotRead (helements e hmem)
      (fun x hx => hkept x (hx.trans_lt hlt)) hsingles
    rw [readField_items hd hm hslot hvalues, readField, he]
    exact hagain.symm

/-- The step of the induction: if the elements of an array are kept, it is read by the newer
schema as the message that the older one has read from it. -/
theorem readMessage_items_of_kept (hs : s.WellFormed) (hs' : s'.WellFormed) (hd : d.WellFormed)
    (hd' : d'.WellFormed) (hfields : ∀ f ∈ d.fields, f ∈ d'.fields)
    (h : readMessage s d framing elements = .ok m) (helements : ∀ e ∈ elements, e.Proper)
    (hkept : ∀ x, sizeOf x < sizeOf elements → x.Proper → Kept s s' d d' x)
    (hfinite : ∀ n, Within n m → SinglesFinite n) :
    readMessage s' d' .plain (items m) = readMessage s' d' framing elements := by
  have hfield : ∀ f ∈ d'.fields,
      readField s' d' 1 (items m) f = readField s' d' framing.firstId elements f := by
    intro f hf
    by_cases hold : f ∈ d.fields
    · exact readField_items_of_kept hs hd h helements hkept hfinite hold
    · -- the id of a field that is new was not declared
      have hnone : d.field? f.id = none := by
        refine MessageDescriptor.field?_eq_none_iff.mpr fun g hg hid => hold ?_
        rwa [← hd'.eq_of_id_eq (hfields g hg) hf hid]
      obtain ⟨hpos, hbound⟩ := hd'.id_bounds f hf
      rw [readField, readField, elementAt?_items_of_read hs hd h hnone hpos hbound]
  have hrest : unknownFrom d' Framing.plain.firstId (items m) =
      unknownFrom d' framing.firstId elements := by
    refine Keyed.Sorted.ext (sorted_unknownFrom ..) (sorted_unknownFrom ..) fun p => ?_
    obtain ⟨id, e⟩ := p
    rw [mem_unknownFrom, mem_unknownFrom]
    refine and_congr_right fun hpos => and_congr_right fun hbound =>
      and_congr_right fun hnone' => ?_
    have hnone : d.field? id = none := MessageDescriptor.field?_eq_none_iff.mpr fun g hg =>
      MessageDescriptor.field?_eq_none_iff.mp hnone' g (hfields g hg)
    exact (elementAt?_items_of_read hs hd h hnone hpos hbound) ▸ Iff.rfl
  have hentries : d'.fields.mapM (readEntry s' d' Framing.plain.firstId (items m)) =
      d'.fields.mapM (readEntry s' d' framing.firstId elements) := by
    refine mapM_congr fun f hf => ?_
    rw [readEntry, readEntry]
    exact congrArg _ (hfield f hf)
  rw [readMessage_eq hs' hd', readMessage_eq hs' hd', hentries, hrest]

end Items

/-- Every proper element is kept. -/
theorem kept_of_proper (hs : s.WellFormed) (hs' : s'.WellFormed) (hextends : s'.Extends s)
    (he : e.Proper) : Kept s s' d d' e := by
  induction hn : sizeOf e using Nat.strong_induction_on generalizing d d' e with
  | _ size ih =>
    refine kept_of_messages hs hextends he ?_
    intro nested nested' hnested hnested' hfields elements m helements hm hfinite
    subst helements
    refine readMessage_items_of_kept hs hs' (hs.message _ _ hnested) (hs'.message _ _ hnested')
      hfields hm (fun x hx => he.of_mem hx) (fun x hx hproper => ?_) hfinite
    exact ih (sizeOf x) (hn ▸ hx.trans (Json.sizeOf_items_lt elements)) hproper rfl

end Newer

/-- **A newer schema loses nothing to an older one.**  What the older schema has read from a
proper array, apart from single precision numbers that were too large for it, is written
such that the newer one reads the same message from it as from the array, or fails with
the same error. -/
theorem decode_encode_newer {source source' : List Char}
    (hextends : (Schema.ofSource source').Extends (Schema.ofSource source)) {name : String}
    {framing : Framing} {raw : Json} (hraw : raw.Proper) {m : Message}
    (h : decode (Schema.ofSource source) name framing raw = .ok m)
    (hfinite : ∀ n, Within n m → SinglesFinite n) :
    decode (Schema.ofSource source') name .plain (encode m) =
      decode (Schema.ofSource source') name framing raw := by
  have hs := Schema.wellFormed_ofSource source
  have hs' := Schema.wellFormed_ofSource source'
  cases hd : (Schema.ofSource source).message? name with
  | none =>
    simp only [decode, hd] at h
    cases h
  | some d =>
    simp only [decode, hd] at h
    cases raw with
    | array elements =>
      obtain ⟨d', hd', hfields⟩ := hextends name d hd
      have hitems := readMessage_items_of_kept hs hs' (hs.message _ _ hd) (hs'.message _ _ hd')
        hfields h (fun x hx => hraw.of_mem hx) (fun x _ hx => kept_of_proper hs hs' hextends hx)
        hfinite
      rw [encode_eq]
      simp only [decode, hd', decodeAs]
      exact hitems
    | _ => cases h

/-! ### Notes that have got a title -/

/-- A newer schema of notes, with a title, and with a message type that was not there. -/
def titledSource : List Char :=
  ("message Tag \x7b\x7d message Note \x7b required string text = 1; optional string title = 2; " ++
    "repeated int32 marks = 3; optional Note reply = 4; optional Mood mood = 5; " ++
    "optional float weight = 6; \x7d").toList

/-- The newer type of notes. -/
def titledType : MessageDescriptor where
  name := "Note"
  fields :=
    [⟨1, "text", .string, .required⟩, ⟨2, "title", .string, .optional⟩,
     ⟨3, "marks", .int32, .repeated⟩, ⟨4, "reply", .reference "Note", .optional⟩,
     ⟨5, "mood", .reference "Mood", .optional⟩, ⟨6, "weight", .float, .optional⟩]

theorem extends_titledSource :
    (Schema.ofSource titledSource).Extends (Schema.ofSource Schema.noteSource) := by
  have htitled : (Schema.ofSource titledSource).message? "Note" = some titledType := by
    unfold titledSource
    rw [String.toList_append, String.toList_append, String.toList_ofList,
      String.toList_ofList, String.toList_ofList]
    decide +kernel
  intro name d hd
  rw [Schema.message?, Schema.ofSource_noteSource] at hd
  have hmem := Keyed.mem_of_get?_eq_some hd
  cases List.mem_singleton.mp hmem
  exact ⟨titledType, htitled, by decide⟩

/-- What the older schema makes of a note with a title. -/
def untitledNote : Message := { plainNote with unknown := [(2, .string "title")] }

theorem decode_untitledNote :
    decode (Schema.ofSource Schema.noteSource) "Note" .plain
      (.array [.string "yes", .string "title"]) = .ok untitledNote := by
  have hs := Schema.wellFormed_ofSource Schema.noteSource
  have hd := hs.message _ _ Schema.message?_noteSource
  rw [decode_eq_readMessage Schema.message?_noteSource]
  refine (readMessage_eq_ok_iff hs hd).mpr ⟨rfl, rfl, fun f slot hf => ?_, rfl, rfl⟩
  simp only [untitledNote, plainNote, List.mem_cons, Prod.mk.injEq, List.not_mem_nil,
    or_false] at hf
  rcases hf with ⟨rfl, rfl⟩ | ⟨rfl, rfl⟩ | ⟨rfl, rfl⟩ | ⟨rfl, rfl⟩ | ⟨rfl, rfl⟩
  · exact (readSlot_iff_holds hs).mpr (.single (by decide) (.scalar rfl))
  all_goals rfl

theorem decode_encode_newer_untitledNote :
    decode (Schema.ofSource titledSource) "Note" .plain (encode untitledNote) =
      decode (Schema.ofSource titledSource) "Note" .plain
        (.array [.string "yes", .string "title"]) := by
  refine decode_encode_newer extends_titledSource (.array fun e he => ?_) decode_untitledNote ?_
  · simp only [List.mem_cons, List.not_mem_nil, or_false] at he
    rcases he with rfl | rfl <;> exact .string _
  · intro n hn
    have hvalues : ∀ f slot v, (f, slot) ∈ untitledNote.entries → v ∈ slot.values →
        v = .string "yes" := fun f slot v hf hv => mem_values_plainNote hf hv
    cases hn with
    | refl => exact fun f slot hf x hx => by cases hvalues f slot _ hf hx
    | step hf hk _ => cases hvalues _ _ _ hf hk

end Lite

end LiteChat
