import LiteChat.Message.Write
import LiteChat.Proofs.Schema.WellFormed

/-!
# Messages that conform to their type

A message conforms to a descriptor when it has one slot for each field, every slot holds
what its field accepts, and the unknown elements lie at positive undeclared ids, by id
(`Message.Conforms`).  A new message conforms, and every write that succeeds keeps it so
(`Conforms.set`, `Conforms.setNamed`, `Conforms.insertUnknown`).  A write of what its field
accepts does succeed (`Conforms.exists_set`, `Conforms.exists_insertUnknown`).
-/

namespace LiteChat

/-- The values in a slot. -/
def Slot.values {α : Type} : Slot α → List α
  | .unset => []
  | .single a => [a]
  | .repeated as => as

/-- A value of a reference is an enum number or a message of the name. -/
theorem Value.of_fits_reference {v : Value} {target : String}
    (h : v.fits (.reference target) = true) :
    (∃ n, v = .enumeration n) ∨ ∃ m, v = .message m ∧ m.name = target := by
  cases v with
  | enumeration n => exact Or.inl ⟨n, rfl⟩
  | message m =>
    rw [Value.fits, decide_eq_true_eq, FieldType.reference.injEq] at h
    exact Or.inr ⟨m, rfl, h.symm⟩
  | _ => simp [Value.fits, FieldType.isSigned32, FieldType.isSigned64, FieldType.isUnsigned32,
      FieldType.isUnsigned64] at h

/-! ## Slots -/

namespace Field

variable {f : Field} {slot accepted : Slot Value}

theorem accept_blank (f : Field) : f.accept (.blank f.label) = .ok (.blank f.label) := by
  cases hl : f.label <;> simp [Slot.blank, accept, hl]

theorem accept_single_eq_ok {v : Value} (h : f.accept (.single v) = .ok accepted) :
    f.label ≠ .repeated ∧ v.fits f.type = true ∧ accepted = .single v := by
  simp only [accept] at h
  split at h
  · cases h
  · rename_i hl
    split at h
    · rename_i hfits
      cases h
      exact ⟨hl, hfits, rfl⟩
    · cases h

theorem accept_repeated_eq_ok {vs : List Value} (h : f.accept (.repeated vs) = .ok accepted) :
    f.label = .repeated ∧ (∀ v ∈ vs, v.fits f.type = true) ∧ accepted = .repeated vs := by
  simp only [accept] at h
  split at h
  · rename_i hl
    split at h
    · cases h
    · rename_i hnone
      cases h
      exact ⟨hl, by simpa using List.find?_eq_none.mp hnone, rfl⟩
  · cases h

theorem accept_repeated {vs : List Value} (hl : f.label = .repeated)
    (h : ∀ v ∈ vs, v.fits f.type = true) : f.accept (.repeated vs) = .ok (.repeated vs) := by
  have hnone : (vs.find? fun v => !v.fits f.type) = none :=
    List.find?_eq_none.mpr fun v hv => by simp [h v hv]
  simp [accept, hl, hnone]

theorem accept_single {v : Value} (hl : f.label ≠ .repeated) (h : v.fits f.type = true) :
    f.accept (.single v) = .ok (.single v) := by
  cases hlabel : f.label with
  | repeated => exact absurd hlabel hl
  | required => simp [accept, hlabel, h]
  | optional => simp [accept, hlabel, h]

/-- What a write leaves in a slot is what was written, or nothing. -/
theorem eq_or_eq_blank_of_accept (h : f.accept slot = .ok accepted) :
    accepted = slot ∨ accepted = .blank f.label := by
  cases slot with
  | unset =>
    cases h
    exact Or.inr rfl
  | single v => exact Or.inl (accept_single_eq_ok h).2.2
  | repeated vs => exact Or.inl (accept_repeated_eq_ok h).2.2

theorem accept_of_accept (h : f.accept slot = .ok accepted) :
    f.accept accepted = .ok accepted := by
  rcases eq_or_eq_blank_of_accept h with rfl | rfl
  · exact h
  · exact accept_blank f

theorem values_blank (l : Label) : (Slot.blank l : Slot Value).values = [] := by
  cases l <;> rfl

theorem mem_values_of_accept (h : f.accept slot = .ok accepted) {v : Value}
    (hv : v ∈ accepted.values) : v ∈ slot.values := by
  rcases eq_or_eq_blank_of_accept h with rfl | rfl
  · exact hv
  · rw [values_blank] at hv
    exact absurd hv List.not_mem_nil

/-- A value in an accepted slot fits the field. -/
theorem fits_of_accept (h : f.accept slot = .ok accepted) {v : Value}
    (hv : v ∈ accepted.values) : v.fits f.type = true := by
  cases slot with
  | unset =>
    cases h
    rw [values_blank] at hv
    exact absurd hv List.not_mem_nil
  | single w =>
    obtain ⟨-, hfits, rfl⟩ := accept_single_eq_ok h
    rw [List.mem_singleton.mp hv]
    exact hfits
  | repeated vs =>
    obtain ⟨-, hfits, rfl⟩ := accept_repeated_eq_ok h
    exact hfits v hv

end Field

/-! ## Writes -/

namespace Message

variable {m m' : Message} {d : MessageDescriptor} {slot : Slot Value}

/-- What it is for a message to be of a type. -/
structure Conforms (m : Message) (d : MessageDescriptor) : Prop where
  name_eq : m.name = d.name
  /-- There is one slot for each field, in the order of the fields. -/
  fields_eq : m.entries.map Prod.fst = d.fields
  /-- Every slot holds what its field accepts. -/
  slots : ∀ f slot, (f, slot) ∈ m.entries → f.accept slot = .ok slot
  unknown_sorted : Keyed.Sorted m.unknown
  /-- An unknown element lies at a positive id of 32 bits that is not declared. -/
  unknown_ids : ∀ p ∈ m.unknown, 0 < p.1 ∧ p.1 < Schema.fieldIdBound ∧ d.field? p.1 = none

theorem Conforms.mem_fields (hm : m.Conforms d) {f : Field} (h : (f, slot) ∈ m.entries) :
    f ∈ d.fields :=
  hm.fields_eq ▸ List.mem_map_of_mem h

theorem Conforms.exists_slot (hm : m.Conforms d) {f : Field} (h : f ∈ d.fields) :
    ∃ slot, (f, slot) ∈ m.entries := by
  obtain ⟨⟨g, slot⟩, hmem, rfl⟩ := List.mem_map.mp (hm.fields_eq ▸ h)
  exact ⟨slot, hmem⟩

/-- The slots come in the order of the ids. -/
theorem Conforms.ids_increase (hd : d.WellFormed) (hm : m.Conforms d) :
    m.entries.Pairwise fun p q => p.1.id < q.1.id := by
  have hfields := hd.ids_increase
  rwa [← hm.fields_eq, List.pairwise_map] at hfields

theorem map_entry? (m : Message) (id : Nat) :
    (m.entry? id).map Prod.fst =
      (m.entries.map Prod.fst).find? fun f => decide (f.id = id) := by
  rw [List.find?_map]
  rfl

theorem Conforms.declares_eq (hm : m.Conforms d) (id : Nat) :
    m.declares id = (d.field? id).isSome := by
  rw [declares, ← Option.isSome_map, map_entry?, hm.fields_eq]
  rfl

theorem set_eq_ok {id : Nat} (h : m.set id slot = .ok m') :
    ∃ f old accepted, (f, old) ∈ m.entries ∧ f.id = id ∧ f.accept slot = .ok accepted ∧
      m' = m.replace id accepted := by
  unfold set at h
  split at h
  · rename_i e he
    have hid : e.1.id = id := by simpa using List.find?_some he
    unfold write at h
    split at h
    · rename_i accepted haccept
      cases h
      exact ⟨e.1, e.2, accepted, List.mem_of_find?_eq_some he, hid, haccept, by rw [hid]⟩
    · cases h
  · cases h

theorem setNamed_eq_ok {name : String} (h : m.setNamed name slot = .ok m') :
    ∃ id, m.set id slot = .ok m' := by
  unfold setNamed at h
  split at h
  · exact ⟨_, h⟩
  · cases h

theorem insertUnknown_eq_ok {id : Nat} {raw : Json} (h : m.insertUnknown id raw = .ok m') :
    0 < id ∧ m.declares id = false ∧
      m' = { m with unknown := Keyed.insert id raw m.unknown } := by
  unfold insertUnknown at h
  split at h
  · cases h
  · rename_i hid
    obtain ⟨hzero, hdeclares⟩ := not_or.mp hid
    cases h
    exact ⟨Nat.pos_of_ne_zero hzero, Bool.not_eq_true _ ▸ hdeclares, rfl⟩

theorem map_fst_replace (m : Message) (id : Nat) (slot : Slot Value) :
    (m.replace id slot).entries.map Prod.fst = m.entries.map Prod.fst := by
  rw [replace, List.map_map]
  refine List.map_congr_left fun e _ => ?_
  simp only [Function.comp_apply]
  split <;> rfl

theorem mem_entries_replace {id : Nat} {f : Field} {s : Slot Value}
    (h : (f, s) ∈ (m.replace id slot).entries) :
    (f, s) ∈ m.entries ∨ (f.id = id ∧ s = slot ∧ ∃ old, (f, old) ∈ m.entries) := by
  obtain ⟨⟨g, old⟩, hmem, he⟩ := List.mem_map.mp h
  split at he
  · rename_i hid
    cases he
    exact Or.inr ⟨hid, rfl, old, hmem⟩
  · cases he
    exact Or.inl hmem

theorem conforms_new (d : MessageDescriptor) : (Message.new d).Conforms d where
  name_eq := rfl
  fields_eq := by simp [new, Function.comp_def]
  slots := by
    intro f slot h
    obtain ⟨g, -, he⟩ := List.mem_map.mp h
    cases he
    exact Field.accept_blank f
  unknown_sorted := List.Pairwise.nil
  unknown_ids := fun p hp => absurd hp List.not_mem_nil

theorem Conforms.set (hd : d.WellFormed) (hm : m.Conforms d) {id : Nat}
    (h : m.set id slot = .ok m') : m'.Conforms d := by
  obtain ⟨f, old, accepted, hf, hid, haccept, rfl⟩ := set_eq_ok h
  exact
    { name_eq := hm.name_eq
      fields_eq := (map_fst_replace m id accepted).trans hm.fields_eq
      slots := by
        intro g s hg
        rcases mem_entries_replace hg with hg | ⟨hgid, rfl, o, ho⟩
        · exact hm.slots g s hg
        · rw [hd.eq_of_id_eq (hm.mem_fields ho) (hm.mem_fields hf) (hgid.trans hid.symm)]
          exact Field.accept_of_accept haccept
      unknown_sorted := hm.unknown_sorted
      unknown_ids := hm.unknown_ids }

theorem Conforms.setNamed (hd : d.WellFormed) (hm : m.Conforms d) {name : String}
    (h : m.setNamed name slot = .ok m') : m'.Conforms d := by
  obtain ⟨id, h⟩ := setNamed_eq_ok h
  exact hm.set hd h

theorem Conforms.insertUnknown (hm : m.Conforms d) {id : Nat} {raw : Json}
    (hid : id < Schema.fieldIdBound) (h : m.insertUnknown id raw = .ok m') :
    m'.Conforms d := by
  obtain ⟨hpos, hdeclares, rfl⟩ := insertUnknown_eq_ok h
  rw [hm.declares_eq, Option.isSome_eq_false_iff, Option.isNone_iff_eq_none] at hdeclares
  exact
    { name_eq := hm.name_eq
      fields_eq := hm.fields_eq
      slots := hm.slots
      unknown_sorted := Keyed.sorted_insert hm.unknown_sorted id raw
      unknown_ids := by
        intro p hp
        rcases Keyed.mem_of_mem_insert hp with rfl | hp
        · exact ⟨hpos, hid, hdeclares⟩
        · exact hm.unknown_ids p hp }

/-- A write of what the field accepts does not fail. -/
theorem Conforms.exists_set (hd : d.WellFormed) (hm : m.Conforms d) {f : Field}
    (hf : f ∈ d.fields) {accepted : Slot Value} (h : f.accept slot = .ok accepted) :
    ∃ m', m.set f.id slot = .ok m' := by
  have hfield : (m.entry? f.id).map Prod.fst = some f := by
    rw [ map_entry?, hm.fields_eq]
    exact hd.field?_id hf
  obtain ⟨e, he, rfl⟩ := Option.map_eq_some_iff.mp hfield
  exact ⟨m.replace e.1.id accepted, by simp only [Message.set, he, write, h]⟩

/-- Nor does keeping an element at a positive id that is not declared. -/
theorem Conforms.exists_insertUnknown (hm : m.Conforms d) {id : Nat} (hpos : 0 < id)
    (hnone : d.field? id = none) (raw : Json) : ∃ m', m.insertUnknown id raw = .ok m' := by
  have hdeclares : m.declares id = false := by rw [hm.declares_eq, hnone]; rfl
  exact ⟨_, if_neg (by simp [hpos.ne', hdeclares])⟩

theorem Conforms.nodup_slot_ids (hd : d.WellFormed) (hm : m.Conforms d) :
    (m.entries.map fun p => p.1.id).Nodup :=
  List.pairwise_map.mpr ((hm.ids_increase hd).imp fun h => h.ne)

/-- Two slots of one field are one slot. -/
theorem Conforms.slot_unique (hd : d.WellFormed) (hm : m.Conforms d) {f : Field}
    {s t : Slot Value} (hs : (f, s) ∈ m.entries) (ht : (f, t) ∈ m.entries) : s = t :=
  congrArg Prod.snd (List.inj_on_of_nodup_map (hm.nodup_slot_ids hd) hs ht rfl)

/-! ## Ids -/

/-- The ids of a message, those of its slots and those of its unknown elements. -/
def ids (m : Message) : List Nat := m.entries.map (fun p => p.1.id) ++ m.unknown.map Prod.fst

/-- No id occurs twice, be it as a slot or as an unknown element. -/
theorem Conforms.nodup_ids (hd : d.WellFormed) (hm : m.Conforms d) : m.ids.Nodup := by
  refine List.nodup_append.mpr ⟨hm.nodup_slot_ids hd, ?_, ?_⟩
  · exact List.pairwise_map.mpr (hm.unknown_sorted.imp fun h => h.ne)
  · intro a ha b hb hab
    obtain ⟨p, hp, rfl⟩ := List.mem_map.mp ha
    obtain ⟨q, hq, rfl⟩ := List.mem_map.mp hb
    exact MessageDescriptor.field?_eq_none_iff.mp (hm.unknown_ids q hq).2.2 p.1
      (hm.mem_fields hp) hab

/-! ## Required fields -/

theorem checkRequired_eq_ok_iff :
    m.checkRequired = .ok () ↔
      ∀ f slot, (f, slot) ∈ m.entries → f.label = .required → slot.isUnset = false := by
  have hmissing : m.checkRequired = .ok () ↔ m.missing? = none := by
    unfold checkRequired
    cases m.missing? <;> simp
  rw [hmissing, missing?, Option.map_eq_none_iff, List.find?_eq_none]
  constructor
  · intro h f slot hf hl
    simpa [hl] using h (f, slot) hf
  · rintro h ⟨f, slot⟩ hf
    cases hl : f.label with
    | required => simp [h f slot hf hl]
    | _ => simp

end Message

end LiteChat
