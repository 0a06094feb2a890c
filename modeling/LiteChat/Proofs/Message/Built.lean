import LiteChat.Proofs.Message.Conforms

/-!
# Messages built by writes

A program does not put a message together as it likes: it starts from a new one and
writes to it, and the messages that it writes into others have been built the same way
(`Message.Built`).  Such a message conforms to its type at every level
(`Built.conforms`).  `Message.Within` reaches the messages at all levels, which are
smaller the deeper they lie (`sizeOf_lt_of_mem`).
-/

namespace LiteChat

namespace Message

/-! ## Levels -/

/-- A message is another or lies in it, at any depth. -/
inductive Within : Message → Message → Prop where
  | refl (m : Message) : Within m m
  | step {n m inner : Message} {f : Field} {slot : Slot Value} (h : (f, slot) ∈ m.entries)
    (hinner : .message inner ∈ slot.values) (hn : Within n inner) : Within n m

theorem sizeOf_lt_of_mem_values {inner : Message} {slot : Slot Value}
    (h : .message inner ∈ slot.values) : sizeOf inner < sizeOf slot := by
  cases slot with
  | unset => cases h
  | single v =>
    rw [← List.mem_singleton.mp h, Slot.single.sizeOf_spec, Value.message.sizeOf_spec]
    omega
  | repeated vs =>
    have hlt := List.sizeOf_lt_of_mem (show .message inner ∈ vs from h)
    rw [Value.message.sizeOf_spec] at hlt
    rw [Slot.repeated.sizeOf_spec]
    omega

/-- A message in a slot of another is smaller. -/
theorem sizeOf_lt_of_mem {m inner : Message} {f : Field} {slot : Slot Value}
    (h : (f, slot) ∈ m.entries) (hinner : .message inner ∈ slot.values) :
    sizeOf inner < sizeOf m := by
  have hslot := sizeOf_lt_of_mem_values hinner
  have hentry := List.sizeOf_lt_of_mem h
  rw [Prod.mk.sizeOf_spec] at hentry
  cases m
  rw [Message.mk.sizeOf_spec]
  dsimp only at hentry
  omega

/-! ## Writes -/

/-- A message of a named type has been built by writes, and so have those within it. -/
inductive Built (s : Schema) : String → Message → Prop where
  | new {name : String} {m : Message} (h : s.newMessage name = .ok m) : Built s name m
  | set {name : String} {m m' : Message} {id : Nat} {slot : Slot Value} (hm : Built s name m)
    (hinner : ∀ n : Message, .message n ∈ slot.values → Built s n.name n)
    (h : m.set id slot = .ok m') : Built s name m'
  | setNamed {name key : String} {m m' : Message} {slot : Slot Value} (hm : Built s name m)
    (hinner : ∀ n : Message, .message n ∈ slot.values → Built s n.name n)
    (h : m.setNamed key slot = .ok m') : Built s name m'
  | insertUnknown {name : String} {m m' : Message} {id : Nat} {raw : Json}
    (hm : Built s name m) (hid : id < Schema.fieldIdBound)
    (h : m.insertUnknown id raw = .ok m') : Built s name m'

namespace Built

variable {s : Schema} {name : String} {m : Message}

/-- A message that has been built conforms to its type. -/
theorem conforms (hs : s.WellFormed) (h : Built s name m) :
    ∃ d, s.message? name = some d ∧ m.Conforms d := by
  induction h with
  | new h =>
    unfold Schema.newMessage at h
    split at h
    · rename_i d hd
      cases h
      exact ⟨d, hd, conforms_new d⟩
    · cases h
  | set _ _ h ih _ =>
    obtain ⟨d, hd, hm⟩ := ih
    exact ⟨d, hd, hm.set (hs.message _ _ hd) h⟩
  | setNamed _ _ h ih _ =>
    obtain ⟨d, hd, hm⟩ := ih
    exact ⟨d, hd, hm.setNamed (hs.message _ _ hd) h⟩
  | insertUnknown _ hid h ih =>
    obtain ⟨d, hd, hm⟩ := ih
    exact ⟨d, hd, hm.insertUnknown hid h⟩

/-- A write brings in no messages but those that are written. -/
theorem inner_of_set {m' inner : Message} {id : Nat} {slot : Slot Value}
    (hm : ∀ f t, (f, t) ∈ m.entries → .message inner ∈ t.values → Built s inner.name inner)
    (hslot : .message inner ∈ slot.values → Built s inner.name inner)
    (h : m.set id slot = .ok m') {f : Field} {t : Slot Value} (ht : (f, t) ∈ m'.entries)
    (hinner : .message inner ∈ t.values) : Built s inner.name inner := by
  obtain ⟨g, old, accepted, -, -, haccept, rfl⟩ := set_eq_ok h
  rcases mem_entries_replace ht with ht | ⟨-, rfl, -⟩
  · exact hm f t ht hinner
  · exact hslot (Field.mem_values_of_accept haccept hinner)

/-- The messages in the slots of a message that has been built have been built, too. -/
theorem inner (h : Built s name m) {f : Field} {slot : Slot Value} {inner : Message}
    (hf : (f, slot) ∈ m.entries) (hinner : .message inner ∈ slot.values) :
    Built s inner.name inner := by
  induction h generalizing f slot with
  | new h =>
    unfold Schema.newMessage at h
    split at h
    · cases h
      obtain ⟨g, -, he⟩ := List.mem_map.mp hf
      cases he
      rw [Field.values_blank] at hinner
      cases hinner
    · cases h
  | set _ hslot h ih _ => exact inner_of_set (fun f t => ih) (hslot inner) h hf hinner
  | setNamed _ hslot h ih _ =>
    obtain ⟨id, h⟩ := setNamed_eq_ok h
    exact inner_of_set (fun f t => ih) (hslot inner) h hf hinner
  | insertUnknown _ _ h ih =>
    obtain ⟨-, -, rfl⟩ := insertUnknown_eq_ok h
    exact ih hf hinner

end Built

end Message

end LiteChat
