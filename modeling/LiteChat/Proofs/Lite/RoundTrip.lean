import LiteChat.Proofs.Lite.Placement
import LiteChat.Proofs.Lite.Scalar
import LiteChat.Proofs.Message.Built

/-!
# Writing a message and reading it back

Reading back what has been written comes down, field by field, to reading back the values
(`readField_items`).  Scalars come back (`scalar?_encodeValue`), and so do messages, by
induction on how deep they lie; together with the unknown elements, which go back to
where they came from, that makes the whole message (`decode_encode`).
-/

namespace LiteChat

namespace Lite

/-! ## Slots -/

/-- What the slot of a field is to hold if its values are read again. -/
def reread (read : Value → Except MessageError Value) (l : Label) :
    Slot Value → Except MessageError (Slot Value)
  | .unset => .ok (.blank l)
  | .single v => (read v).map .single
  | .repeated vs => (vs.mapM read).map .repeated

theorem mapM_map {α β γ ε : Type} (g : α → β) (f : β → Except ε γ) (l : List α) :
    (l.map g).mapM f = l.mapM fun a => f (g a) := by
  induction l with
  | nil => rfl
  | cons a l ih => rw [List.map_cons, mapM_cons_eq, mapM_cons_eq, ih]

section Fields
variable {s : Schema} {d d' : MessageDescriptor} {m : Message} {f : Field} {slot : Slot Value}

/-- Whatever schema reads a written message again, it reads what each slot holds. -/
theorem readField_items (hd : d.WellFormed) (hm : m.Conforms d) (hf : (f, slot) ∈ m.entries)
    (hfinite : ∀ v ∈ slot.values, v.isFinite = true) :
    readField s d' 1 (items m) f =
      reread (fun v => readValue s d' f (encodeValue v)) f.label slot := by
  have haccept := hm.slots f slot hf
  rw [readField]
  cases slot with
  | unset =>
    rw [elementAt?_items_of_none hd hm hf rfl]
    rfl
  | single v =>
    obtain ⟨hl, -, -⟩ := Field.accept_single_eq_ok haccept
    have hnull := isNull_encodeValue (hfinite v (List.mem_singleton_self v))
    rw [elementAt?_items_of_single hd hm hf, if_pos hnull]
    exact readSlot_single hl
  | repeated vs =>
    obtain ⟨hl, -, -⟩ := Field.accept_repeated_eq_ok haccept
    rcases elementAt?_items_of_repeated hd hm hf with hat | ⟨rfl, hat⟩
    · have hkeep : (vs.map encodeValue).filter (fun e => !e.isNull) = vs.map encodeValue := by
        refine List.filter_eq_self.mpr fun e he => ?_
        obtain ⟨v, hv, rfl⟩ := List.mem_map.mp he
        rw [isNull_encodeValue (hfinite v hv)]
        rfl
      rw [hat]
      change readSlot s d' f (.array (vs.map encodeValue)) = _
      rw [readSlot_repeated hl, hkeep, mapM_map]
      rfl
    · rw [hat, hl]
      rfl

theorem reread_eq_ok (haccept : f.accept slot = .ok slot)
    {read : Value → Except MessageError Value} (h : ∀ v ∈ slot.values, read v = .ok v) :
    reread read f.label slot = .ok slot := by
  cases slot with
  | unset =>
    rw [Field.accept] at haccept
    rw [reread, Except.ok.inj haccept]
  | single v =>
    rw [reread, h v (List.mem_singleton_self v)]
    rfl
  | repeated vs =>
    have hvs : vs.mapM read = .ok (vs.map id) := mapM_eq_ok_map h
    rw [reread, hvs, List.map_id]
    rfl

/-- The unknown elements are found again. -/
theorem unknownFrom_items (hd : d.WellFormed) (hm : m.Conforms d)
    (hnull : ∀ p ∈ m.unknown, p.2.isNull = false) : unknownFrom d 1 (items m) = m.unknown := by
  refine Keyed.Sorted.ext (sorted_unknownFrom d 1 (items m)) hm.unknown_sorted fun p => ?_
  obtain ⟨id, e⟩ := p
  rw [mem_unknownFrom]
  constructor
  · rintro ⟨-, -, hnone, he⟩
    exact ((elementAt?_items_of_undeclared hd hm hnone e).mp he).1
  · intro hp
    obtain ⟨hpos, hbound, hnone⟩ := hm.unknown_ids _ hp
    exact ⟨hpos, hbound, hnone,
      (elementAt?_items_of_undeclared hd hm hnone e).mpr ⟨hp, hnull _ hp⟩⟩

/-- A message is read back if its values are. -/
theorem readMessage_items (hs : s.WellFormed) (hd : d.WellFormed) (hm : m.Conforms d)
    (hrequired : m.checkRequired = .ok ()) (hnull : ∀ p ∈ m.unknown, p.2.isNull = false)
    (hfinite : ∀ f slot, (f, slot) ∈ m.entries → ∀ v ∈ slot.values, v.isFinite = true)
    (hvalues : ∀ f slot, (f, slot) ∈ m.entries → ∀ v ∈ slot.values,
      readValue s d f (encodeValue v) = .ok v) :
    readMessage s d .plain (items m) = .ok m := by
  refine (readMessage_eq_ok_iff hs hd).mpr
    ⟨hm.name_eq, hm.fields_eq, fun f slot hf => ?_, (unknownFrom_items hd hm hnull).symm, hrequired⟩
  have hitems : readField s d 1 (items m) f =
      reread (fun v => readValue s d f (encodeValue v)) f.label slot :=
    readField_items hd hm hf (hfinite f slot hf)
  exact hitems.trans (reread_eq_ok (hm.slots f slot hf) (hvalues f slot hf))

end Fields

end Lite

/-! ## The whole message -/

/-- What it takes, besides its type, for one level of a message to be written without
loss. -/
structure Message.Writable (s : Schema) (m : Message) : Prop where
  /-- Every required field is set. -/
  required : m.checkRequired = .ok ()
  /-- An enum number stands in a field that refers to an enum. -/
  enums : ∀ f slot, (f, slot) ∈ m.entries → ∀ n, .enumeration n ∈ slot.values →
    ∃ target enum, f.type = .reference target ∧ s.resolve? target = some (.enumeration enum)
  /-- No unknown element is null. -/
  unknown : ∀ p ∈ m.unknown, p.2.isNull = false
  /-- Every floating-point number is finite. -/
  finite : ∀ f slot, (f, slot) ∈ m.entries → ∀ v ∈ slot.values, v.isFinite = true

namespace Lite

open Message (Built Within Writable)

section Messages
variable {s : Schema} {name : String} {m : Message}

/-- A value in a slot is read back, if it is a message provided that the message is. -/
theorem readValue_encodeValue {d dm : MessageDescriptor} (hm : m.Conforms dm)
    (hwritable : Writable s m) {f : Field} {slot : Slot Value} (hf : (f, slot) ∈ m.entries)
    {v : Value} (hv : v ∈ slot.values)
    (hinner : ∀ n : Message, v = .message n → decode s n.name .plain (encode n) = .ok n) :
    readValue s d f (encodeValue v) = .ok v := by
  have hfits := Field.fits_of_accept (hm.slots f slot hf) hv
  by_cases ht : ∃ target, f.type = .reference target
  · obtain ⟨target, ht⟩ := ht
    rw [ht] at hfits
    rcases Value.of_fits_reference hfits with ⟨n, rfl⟩ | ⟨n, rfl, hname⟩
    · obtain ⟨target, enum, ht, hr⟩ := hwritable.enums f slot hf n hv
      rw [readValue_enumeration ht hr, encodeValue_enumeration, enumNumber?_toInt]
    · have hread := hinner n rfl
      unfold decode at hread
      split at hread
      · rename_i nested hnested
        have hr : s.resolve? target = some (.message nested) := by
          rw [Schema.resolve?, ← hname, hnested]
        rw [readValue_message ht hr, encodeValue_message, hread]
        rfl
      · cases hread
  · have ht : ∀ target, f.type ≠ .reference target := fun target h => ht ⟨target, h⟩
    rw [readValue_scalar ht, scalar?_encodeValue hfits (hwritable.finite f slot hf v hv) ht]

/-- **A message that is written is read back as it was**, at every level. -/
theorem decode_encode {source : List Char} (hm : Built (Schema.ofSource source) name m)
    (hwritable : ∀ n, Within n m → Writable (Schema.ofSource source) n) :
    decode (Schema.ofSource source) name .plain (encode m) = .ok m := by
  have hs := Schema.wellFormed_ofSource source
  induction hn : sizeOf m using Nat.strong_induction_on generalizing m name with
  | _ size ih =>
    obtain ⟨d, hd, hconforms⟩ := hm.conforms hs
    have htop := hwritable m (.refl m)
    have hread := readMessage_items hs (hs.message name d hd) hconforms htop.required
      htop.unknown htop.finite fun f slot hf v hv =>
        readValue_encodeValue hconforms htop hf hv fun n hvn => by
          subst hvn
          exact ih (sizeOf n) (hn ▸ Message.sizeOf_lt_of_mem hf hv) (hm.inner hf hv)
            (fun k hk => hwritable k (.step hf hv hk)) rfl
    rw [encode_eq]
    simp only [decode, hd, decodeAs]
    exact hread

end Messages

/-! ### A note with another in it -/

/-- A note that answers nothing. -/
def plainNote : Message where
  name := "Note"
  entries :=
    [(⟨1, "text", .string, .required⟩, .single (.string "yes")),
     (⟨3, "marks", .int32, .repeated⟩, .repeated []),
     (⟨4, "reply", .reference "Note", .optional⟩, .unset),
     (⟨5, "mood", .reference "Mood", .optional⟩, .unset),
     (⟨6, "weight", .float, .optional⟩, .unset)]
  unknown := []

/-- A note with a reply, a mood, a weight, and an element that its type does not declare. -/
def fullNote : Message where
  name := "Note"
  entries :=
    [(⟨1, "text", .string, .required⟩, .single (.string "hi")),
     (⟨3, "marks", .int32, .repeated⟩, .repeated []),
     (⟨4, "reply", .reference "Note", .optional⟩, .single (.message plainNote)),
     (⟨5, "mood", .reference "Mood", .optional⟩, .single (.enumeration 0)),
     (⟨6, "weight", .float, .optional⟩, .single (.float ⟨0x3f800000⟩))]
  unknown := [(9, .bool true)]

theorem built_newNote : Built (Schema.ofSource Schema.noteSource) "Note" (.new Schema.noteType) :=
  .new (by rw [Schema.newMessage, Schema.message?_noteSource])

theorem built_plainNote : Built (Schema.ofSource Schema.noteSource) "Note" plainNote := by
  have hset : (Message.new Schema.noteType).set 1 (.single (.string "yes")) = .ok plainNote := rfl
  exact built_newNote.set (fun n hn => by simp [Slot.values] at hn) hset

theorem built_fullNote : Built (Schema.ofSource Schema.noteSource) "Note" fullNote := by
  obtain ⟨m₁, htext⟩ : ∃ m, (Message.new Schema.noteType).set 1 (.single (.string "hi")) = .ok m :=
    ⟨_, rfl⟩
  obtain ⟨m₂, hreply⟩ : ∃ m, m₁.setNamed "reply" (.single (.message plainNote)) = .ok m := by
    cases htext
    exact ⟨_, rfl⟩
  obtain ⟨m₃, hmood⟩ : ∃ m, m₂.set 5 (.single (.enumeration 0)) = .ok m := by
    cases htext
    cases hreply
    exact ⟨_, rfl⟩
  obtain ⟨m₄, hweight⟩ : ∃ m, m₃.set 6 (.single (.float ⟨0x3f800000⟩)) = .ok m := by
    cases htext
    cases hreply
    cases hmood
    exact ⟨_, rfl⟩
  have hunknown : m₄.insertUnknown 9 (.bool true) = .ok fullNote := by
    cases htext
    cases hreply
    cases hmood
    cases hweight
    rfl
  have h₁ := built_newNote.set (fun n hn => by simp [Slot.values] at hn) htext
  have h₂ := h₁.setNamed (fun n hn => by
    cases List.mem_singleton.mp hn
    exact built_plainNote) hreply
  have h₃ := h₂.set (fun n hn => by simp [Slot.values] at hn) hmood
  have h₄ := h₃.set (fun n hn => by simp [Slot.values] at hn) hweight
  exact h₄.insertUnknown (by decide) hunknown

theorem mem_values_plainNote {f : Field} {slot : Slot Value} {v : Value}
    (hf : (f, slot) ∈ plainNote.entries) (hv : v ∈ slot.values) : v = .string "yes" := by
  simp only [plainNote, List.mem_cons, Prod.mk.injEq, List.not_mem_nil, or_false] at hf
  rcases hf with ⟨-, rfl⟩ | ⟨-, rfl⟩ | ⟨-, rfl⟩ | ⟨-, rfl⟩ | ⟨-, rfl⟩
  · exact List.mem_singleton.mp hv
  all_goals cases hv

theorem mem_values_fullNote {f : Field} {slot : Slot Value} {v : Value}
    (hf : (f, slot) ∈ fullNote.entries) (hv : v ∈ slot.values) :
    v = .string "hi" ∨ v = .message plainNote ∨ v = .float ⟨0x3f800000⟩ ∨
      (v = .enumeration 0 ∧ f.type = .reference "Mood") := by
  simp only [fullNote, List.mem_cons, Prod.mk.injEq, List.not_mem_nil, or_false] at hf
  rcases hf with ⟨-, rfl⟩ | ⟨-, rfl⟩ | ⟨-, rfl⟩ | ⟨rfl, rfl⟩ | ⟨-, rfl⟩
  · exact Or.inl (List.mem_singleton.mp hv)
  · cases hv
  · exact Or.inr (Or.inl (List.mem_singleton.mp hv))
  · exact Or.inr (Or.inr (Or.inr ⟨List.mem_singleton.mp hv, rfl⟩))
  · exact Or.inr (Or.inr (Or.inl (List.mem_singleton.mp hv)))

theorem writable_plainNote : Writable (Schema.ofSource Schema.noteSource) plainNote where
  required := rfl
  enums := fun f slot hf n hn => by cases mem_values_plainNote hf hn
  unknown := fun p hp => absurd hp List.not_mem_nil
  finite := fun f slot hf v hv => by
    rw [mem_values_plainNote hf hv]
    rfl

theorem writable_fullNote : Writable (Schema.ofSource Schema.noteSource) fullNote where
  required := rfl
  enums := by
    intro f slot hf n hn
    have hmood : (Schema.ofSource Schema.noteSource).resolve? "Mood" =
        some (.enumeration ⟨"Mood", [(0, "CALM")]⟩) := by
      rw [Schema.ofSource_noteSource]
      rfl
    rcases mem_values_fullNote hf hn with h | h | h | ⟨-, ht⟩
    · cases h
    · cases h
    · cases h
    · exact ⟨_, _, ht, hmood⟩
  unknown := by
    intro p hp
    rw [List.mem_singleton.mp hp]
    rfl
  finite := by
    intro f slot hf v hv
    rcases mem_values_fullNote hf hv with rfl | rfl | rfl | ⟨rfl, -⟩
    · rfl
    · rfl
    · decide
    · rfl

theorem decode_encode_fullNote :
    decode (Schema.ofSource Schema.noteSource) "Note" .plain (encode fullNote) = .ok fullNote := by
  refine decode_encode built_fullNote fun n hn => ?_
  cases hn with
  | refl => exact writable_fullNote
  | step hf hk hn =>
    rcases mem_values_fullNote hf hk with h | h | h | ⟨h, -⟩ <;> cases h
    cases hn with
    | refl => exact writable_plainNote
    | step hf hk _ => cases mem_values_plainNote hf hk

end Lite

end LiteChat
