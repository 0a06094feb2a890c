import LiteChat.Proofs.Keyed
import LiteChat.Proofs.Lite.Faults
import LiteChat.Proofs.Message.Reflection

/-!
# Messages built from a row of slots

`Message.ofSlots` writes a row of slots to a new message, one after another, and then asks for the
required fields.  Whether a message takes a slot depends on its type alone, not on what has been
written to it before (`set_eq`).  So a row fails at the first of its slots that a new message does
not take (`setAll_new_eq_error_iff`), and a row that does not fail leaves in each field what the
last pair of its id says (`setAll_outcome_eq_ok_iff`).

Where no id occurs twice, the last pair of an id is the only one, and the order of the row makes no
difference (`constructs`).
-/

namespace LiteChat

/-- The slot in the last pair of an id. -/
def lastSlot? (id : Nat) (slots : List (Nat × Slot Value)) : Option (Slot Value) :=
  (slots.reverse.find? fun p => decide (p.1 = id)).map Prod.snd

/-- What a row of slots leaves in a field: what the last pair of its id says, or nothing if there is
no such pair. -/
def Field.outcome (f : Field) (slots : List (Nat × Slot Value)) : Slot Value :=
  match lastSlot? f.id slots with
  | some slot => f.stored slot
  | none => .blank f.label

/-- A row of slots sets a field: there is a last pair of its id, and that one does not unset it. -/
def Field.IsSetBy (f : Field) (slots : List (Nat × Slot Value)) : Prop :=
  ∃ slot, lastSlot? f.id slots = some slot ∧ slot.isUnset = false

variable {id : Nat} {slots slots' : List (Nat × Slot Value)}

theorem lastSlot?_concat (slots : List (Nat × Slot Value)) (p : Nat × Slot Value) :
    lastSlot? id (slots ++ [p]) = if p.1 = id then some p.2 else lastSlot? id slots := by
  rw [lastSlot?, List.reverse_concat, List.find?_cons]
  by_cases hid : p.1 = id
  · simp [hid]
  · simp [hid, lastSlot?]

/-- The last pair of an id is the only one if no id occurs twice. -/
theorem lastSlot?_eq_some_iff (h : (slots.map Prod.fst).Nodup) {slot : Slot Value} :
    lastSlot? id slots = some slot ↔ (id, slot) ∈ slots := by
  have hrev : (slots.reverse.map Prod.fst).Nodup := by
    rw [List.map_reverse]
    exact List.nodup_reverse.mpr h
  rw [lastSlot?, Option.map_eq_some_iff]
  constructor
  · rintro ⟨⟨k, s⟩, hfound, rfl⟩
    obtain ⟨hmem, rfl⟩ := (Keyed.find?_eq_some_iff hrev).mp hfound
    exact List.mem_reverse.mp hmem
  · intro hmem
    exact ⟨_, (Keyed.find?_eq_some_iff hrev).mpr ⟨List.mem_reverse.mpr hmem, rfl⟩, rfl⟩

/-- The order of a row without a repeated id makes no difference to its last pairs. -/
theorem lastSlot?_perm (hperm : slots.Perm slots') (h : (slots.map Prod.fst).Nodup) (id : Nat) :
    lastSlot? id slots = lastSlot? id slots' := by
  have h' : (slots'.map Prod.fst).Nodup := (hperm.map Prod.fst).nodup_iff.mp h
  refine Option.ext fun slot => ?_
  rw [lastSlot?_eq_some_iff h, lastSlot?_eq_some_iff h', hperm.mem_iff]

namespace Field

variable {f : Field}

theorem outcome_nil (f : Field) : f.outcome [] = .blank f.label := rfl

theorem outcome_concat (f : Field) (slots : List (Nat × Slot Value)) (p : Nat × Slot Value) :
    f.outcome (slots ++ [p]) = if p.1 = f.id then f.stored p.2 else f.outcome slots := by
  rw [outcome, lastSlot?_concat]
  by_cases hid : p.1 = f.id
  · rw [if_pos hid, if_pos hid]
  · rw [if_neg hid, if_neg hid, outcome]

theorem outcome_perm (hperm : slots.Perm slots') (h : (slots.map Prod.fst).Nodup) (f : Field) :
    f.outcome slots = f.outcome slots' := by
  rw [outcome, outcome, lastSlot?_perm hperm h]

theorem isSetBy_perm (hperm : slots.Perm slots') (h : (slots.map Prod.fst).Nodup) (f : Field) :
    f.IsSetBy slots ↔ f.IsSetBy slots' := by
  rw [IsSetBy, IsSetBy, lastSlot?_perm hperm h]

/-- A required field is left unset exactly if the row does not set it. -/
theorem isUnset_outcome_iff (hl : f.label = .required) :
    (f.outcome slots).isUnset = true ↔ ¬ f.IsSetBy slots := by
  rw [outcome, IsSetBy]
  cases hlast : lastSlot? f.id slots with
  | none => simp [hl, Slot.blank, Slot.isUnset]
  | some slot => cases slot <;> simp [stored, hl, Slot.blank, Slot.isUnset]

end Field

namespace Message

variable {d : MessageDescriptor} {m m' : Message} {slot : Slot Value} {e : MessageError}
  {f : Field}

/-- A new message of a type takes a slot at an id. -/
def Takes (d : MessageDescriptor) (p : Nat × Slot Value) : Prop :=
  ∃ m, (new d).set p.1 p.2 = .ok m

/-- The message that has what a row of slots leaves in each field. -/
def outcome (d : MessageDescriptor) (slots : List (Nat × Slot Value)) : Message :=
  ⟨d.name, d.fields.map fun f => (f, f.outcome slots), []⟩

theorem descriptor_new (d : MessageDescriptor) : (new d).descriptor = d := by
  cases d
  simp [descriptor, new, Function.comp_def]

theorem descriptor_outcome (d : MessageDescriptor) (slots : List (Nat × Slot Value)) :
    (outcome d slots).descriptor = d := by
  cases d
  simp [descriptor, outcome, Function.comp_def]

theorem outcome_nil (d : MessageDescriptor) : outcome d [] = new d := rfl

/-! ## One write -/

/-- What a write by id makes of a message is a matter of the type, apart from the other slots. -/
theorem set_eq (m : Message) (id : Nat) (slot : Slot Value) :
    m.set id slot =
      match m.descriptor.field? id with
      | some f => m.write f slot
      | none => .error (.fieldNotFound m.descriptor.name (.id id)) := by
  have hfield : m.descriptor.field? id = (m.entry? id).map Prod.fst := (m.map_entry? id).symm
  rw [hfield, set]
  cases m.entry? id <;> rfl

theorem set_eq_ok_iff :
    m.set id slot = .ok m' ↔
      ∃ f, m.descriptor.field? id = some f ∧ f.Takes slot ∧ m' = m.replace id (f.stored slot) := by
  rw [set_eq]
  cases hf : m.descriptor.field? id with
  | none => simp
  | some f =>
    obtain ⟨-, rfl⟩ := MessageDescriptor.mem_of_field?_eq_some hf
    show m.write f slot = .ok m' ↔ _
    rw [write]
    cases haccept : f.accept slot with
    | ok accepted =>
      obtain ⟨htakes, rfl⟩ := Field.accept_eq_ok_iff.mp haccept
      simp [htakes, eq_comm]
    | error found =>
      have htakes : ¬ f.Takes slot := by
        intro htakes
        obtain ⟨accepted, h⟩ := Field.exists_accept_iff.mpr htakes
        rw [haccept] at h
        cases h
      simp [htakes]

/-- A new message takes a slot if its type declares the id and the slot agrees with the field. -/
theorem takes_iff {p : Nat × Slot Value} :
    Takes d p ↔ ∃ f, d.field? p.1 = some f ∧ f.Takes p.2 := by
  simp [Takes, set_eq_ok_iff, descriptor_new]

/-- A write fails on a message as it fails on any other of the type. -/
theorem set_eq_error_iff_new (h : m.descriptor = d) :
    m.set id slot = .error e ↔ (new d).set id slot = .error e := by
  subst h
  rw [set_eq, set_eq, descriptor_new]
  cases m.descriptor.field? id with
  | none => rfl
  | some f =>
    show m.write f slot = .error e ↔ (new m.descriptor).write f slot = .error e
    rw [write, write]
    cases f.accept slot <;> simp [new, descriptor]

theorem descriptor_of_set (h : m.set id slot = .ok m') : m'.descriptor = m.descriptor := by
  obtain ⟨f, -, -, rfl⟩ := set_eq_ok_iff.mp h
  rw [descriptor, map_fst_replace]
  rfl

/-! ## Rows of writes -/

/-- A row fails as its slots fail one by one. -/
theorem setAll_eq_error_iff (h : m.descriptor = d) :
    m.setAll slots = .error e ↔ slots.mapM (fun p => (new d).set p.1 p.2) = .error e := by
  induction slots generalizing m with
  | nil =>
    constructor <;>
    · intro h
      cases h
  | cons p rest ih =>
    rw [setAll, Lite.mapM_cons_eq]
    cases hset : m.set p.1 p.2 with
    | error fault =>
      simp [(set_eq_error_iff_new h).mp hset, Except.bind]
    | ok m' =>
      have hnew : ∀ fault, (new d).set p.1 p.2 ≠ .error fault := by
        intro fault hfault
        rw [(set_eq_error_iff_new h).mpr hfault] at hset
        cases hset
      refine (ih ((descriptor_of_set hset).trans h)).trans ?_
      cases hfirst : (new d).set p.1 p.2 with
      | error fault => exact absurd hfirst (hnew fault)
      | ok n => cases rest.mapM fun p => (new d).set p.1 p.2 <;> simp [Except.bind, Except.map]

/-- A row fails at the first of its slots that a new message does not take. -/
theorem setAll_new_eq_error_iff :
    (new d).setAll slots = .error e ↔ ∃ before p after, slots = before ++ p :: after ∧
      (∀ q ∈ before, Takes d q) ∧ (new d).set p.1 p.2 = .error e := by
  rw [setAll_eq_error_iff (descriptor_new d), Lite.mapM_eq_error_iff]
  rfl

/-- A further write replaces what the row has left in the field. -/
theorem set_outcome_eq_ok_iff (hd : d.WellFormed) (front : List (Nat × Slot Value))
    (p : Nat × Slot Value) :
    (outcome d front).set p.1 p.2 = .ok m ↔ Takes d p ∧ m = outcome d (front ++ [p]) := by
  have hreplace : ∀ f ∈ d.fields, f.id = p.1 →
      (outcome d front).replace p.1 (f.stored p.2) = outcome d (front ++ [p]) := by
    intro f hf hid
    rw [outcome, outcome, replace]
    congr 1
    rw [List.map_map]
    refine List.map_congr_left fun g hg => ?_
    show (if g.id = p.1 then (g, f.stored p.2) else (g, g.outcome front)) = _
    rw [Field.outcome_concat]
    by_cases hgid : g.id = p.1
    · rw [if_pos hgid, if_pos hgid.symm, hd.eq_of_id_eq hg hf (hgid.trans hid.symm)]
    · rw [if_neg hgid, if_neg (Ne.symm hgid)]
  rw [set_eq_ok_iff, descriptor_outcome, takes_iff]
  constructor
  · rintro ⟨f, hf, htakes, rfl⟩
    obtain ⟨hmem, hid⟩ := MessageDescriptor.mem_of_field?_eq_some hf
    exact ⟨⟨f, hf, htakes⟩, hreplace f hmem hid⟩
  · rintro ⟨⟨f, hf, htakes⟩, rfl⟩
    obtain ⟨hmem, hid⟩ := MessageDescriptor.mem_of_field?_eq_some hf
    exact ⟨f, hf, htakes, (hreplace f hmem hid).symm⟩

theorem setAll_outcome_eq_ok_iff (hd : d.WellFormed) (front : List (Nat × Slot Value)) :
    (outcome d front).setAll slots = .ok m ↔
      (∀ p ∈ slots, Takes d p) ∧ m = outcome d (front ++ slots) := by
  induction slots generalizing front with
  | nil => simp [setAll, eq_comm]
  | cons p rest ih =>
    rw [setAll, List.forall_mem_cons]
    cases hset : (outcome d front).set p.1 p.2 with
    | error fault =>
      have hnot : ¬ Takes d p := by
        intro htakes
        rw [(set_outcome_eq_ok_iff hd front p).mpr ⟨htakes, rfl⟩] at hset
        cases hset
      simp [hnot]
    | ok m' =>
      obtain ⟨htakes, rfl⟩ := (set_outcome_eq_ok_iff hd front p).mp hset
      show (outcome d (front ++ [p])).setAll rest = .ok m ↔ _
      rw [ih, List.append_assoc, List.singleton_append]
      simp [htakes]

/-! ## Required fields -/

/-- A field is the one of least id that is required and not set by a row of slots. -/
structure FirstUnset (d : MessageDescriptor) (slots : List (Nat × Slot Value)) (f : Field) :
    Prop where
  mem : f ∈ d.fields
  required : f.label = .required
  not_set : ¬ f.IsSetBy slots
  least : ∀ g ∈ d.fields, g.id < f.id → g.label = .required → g.IsSetBy slots

theorem missing?_outcome (d : MessageDescriptor) (slots : List (Nat × Slot Value)) :
    (outcome d slots).missing? =
      d.fields.find? fun f => decide (f.label = .required) && (f.outcome slots).isUnset := by
  rw [missing?, outcome, List.find?_map, Option.map_map]
  exact congrFun Option.map_id _

theorem lacks_iff : (decide (f.label = .required) && (f.outcome slots).isUnset) = true ↔
    f.label = .required ∧ ¬ f.IsSetBy slots := by
  rw [Bool.and_eq_true, decide_eq_true_eq]
  exact and_congr_right Field.isUnset_outcome_iff

theorem missing?_outcome_eq_some_iff (hd : d.WellFormed) :
    (outcome d slots).missing? = some f ↔ FirstUnset d slots f := by
  rw [missing?_outcome, Sorting.find?_eq_some_iff_least hd.ids_increase, lacks_iff]
  have hleast : ∀ g : Field,
      (decide (g.label = .required) && (g.outcome slots).isUnset) = false ↔
        (g.label = .required → g.IsSetBy slots) := by
    intro g
    rw [← Bool.not_eq_true, lacks_iff, not_and, not_not]
  constructor
  · rintro ⟨hf, ⟨hl, hnot⟩, h⟩
    exact ⟨hf, hl, hnot, fun g hg hlt => (hleast g).mp (h g hg hlt)⟩
  · rintro ⟨hf, hl, hnot, h⟩
    exact ⟨hf, ⟨hl, hnot⟩, fun g hg hlt => (hleast g).mpr (h g hg hlt)⟩

theorem missing?_outcome_eq_none_iff :
    (outcome d slots).missing? = none ↔
      ∀ f ∈ d.fields, f.label = .required → f.IsSetBy slots := by
  rw [missing?_outcome, List.find?_eq_none]
  refine forall₂_congr fun f _ => ?_
  rw [lacks_iff, not_and, not_not]

/-! ## Rows that make a message -/

/-- Once every slot has been taken, it is up to the required fields. -/
theorem ofSlots_of_takes (hd : d.WellFormed) (h : ∀ p ∈ slots, Takes d p) :
    ofSlots d slots =
      match (outcome d slots).missing? with
      | some f => .error (.requiredMissing d.name f.name)
      | none => .ok (outcome d slots) := by
  have hset : (new d).setAll slots = .ok (outcome d slots) :=
    (setAll_outcome_eq_ok_iff hd []).mpr ⟨h, rfl⟩
  rw [ofSlots, hset]
  simp only [checkRequired]
  cases (outcome d slots).missing? <;> rfl

/-- A slot that is not taken is the end of it. -/
theorem exists_setAll_eq_error (hd : d.WellFormed) (h : ¬ ∀ p ∈ slots, Takes d p) :
    ∃ e, (new d).setAll slots = .error e ∧ ofSlots d slots = .error e := by
  cases hset : (new d).setAll slots with
  | error e => exact ⟨e, rfl, by rw [ofSlots, hset]⟩
  | ok m => exact absurd ((setAll_outcome_eq_ok_iff hd []).mp hset).1 h

theorem ofSlots_eq_ok_iff (hd : d.WellFormed) :
    ofSlots d slots = .ok m ↔
      (∀ p ∈ slots, Takes d p) ∧ (∀ f ∈ d.fields, f.label = .required → f.IsSetBy slots) ∧
        m = outcome d slots := by
  by_cases h : ∀ p ∈ slots, Takes d p
  · rw [ofSlots_of_takes hd h, ← missing?_outcome_eq_none_iff, and_iff_right h]
    cases (outcome d slots).missing? with
    | some f => simp
    | none => simp [eq_comm]
  · obtain ⟨e, -, he⟩ := exists_setAll_eq_error hd h
    rw [he]
    exact iff_of_false (by simp) fun hok => h hok.1

theorem ofSlots_eq_error_iff (hd : d.WellFormed) :
    ofSlots d slots = .error e ↔
      (∃ before p after, slots = before ++ p :: after ∧ (∀ q ∈ before, Takes d q) ∧
        (new d).set p.1 p.2 = .error e) ∨
      (∀ p ∈ slots, Takes d p) ∧
        ∃ f, FirstUnset d slots f ∧ e = .requiredMissing d.name f.name := by
  rw [← setAll_new_eq_error_iff]
  by_cases h : ∀ p ∈ slots, Takes d p
  · have hset : (new d).setAll slots ≠ .error e := by
      intro herror
      have hok : (new d).setAll slots = .ok _ := (setAll_outcome_eq_ok_iff hd []).mpr ⟨h, rfl⟩
      rw [hok] at herror
      cases herror
    rw [ofSlots_of_takes hd h, or_iff_right hset, and_iff_right h]
    simp only [← missing?_outcome_eq_some_iff hd]
    cases (outcome d slots).missing? with
    | none => simp
    | some f => simp [eq_comm]
  · obtain ⟨e', hset, he⟩ := exists_setAll_eq_error hd h
    rw [hset, he, or_iff_left fun hmissing => h hmissing.1]

/-- What becomes of a row of slots. -/
structure Constructs (d : MessageDescriptor) (slots : List (Nat × Slot Value)) : Prop where
  /-- A row makes a message exactly if each of its slots is taken by a new message, and the last
  pair of every required field is there and sets it.  The message has what the last pair of each
  id says, and nothing in the fields of the other ids. -/
  ok_iff : ∀ m, ofSlots d slots = .ok m ↔
    (∀ p ∈ slots, Takes d p) ∧ (∀ f ∈ d.fields, f.label = .required → f.IsSetBy slots) ∧
      m = outcome d slots
  /-- That is what is read from the message. -/
  get_eq : ∀ m, ofSlots d slots = .ok m →
    ∀ f ∈ d.fields, m.get f.id = .ok (f.outcome slots)
  /-- If no id occurs twice, any order of the pairs makes the same message, or none. -/
  perm : ∀ slots', slots.Perm slots' → (slots.map Prod.fst).Nodup →
    ∀ m, ofSlots d slots = .ok m ↔ ofSlots d slots' = .ok m
  /-- A row fails at the first slot that is not taken, whatever else is wrong with it.  Only if all
  are taken does it fail for want of a required field, namely the one of least id. -/
  error_iff : ∀ e, ofSlots d slots = .error e ↔
    (∃ before p after, slots = before ++ p :: after ∧ (∀ q ∈ before, Takes d q) ∧
      (new d).set p.1 p.2 = .error e) ∨
    (∀ p ∈ slots, Takes d p) ∧ ∃ f, FirstUnset d slots f ∧ e = .requiredMissing d.name f.name

theorem outcome_perm (hperm : slots.Perm slots') (h : (slots.map Prod.fst).Nodup)
    (d : MessageDescriptor) : outcome d slots = outcome d slots' := by
  simp only [outcome, Field.outcome_perm hperm h]

theorem get_outcome (hd : d.WellFormed) (hf : f ∈ d.fields) :
    (outcome d slots).get f.id = .ok (f.outcome slots) := by
  have hentry : Message.entry? (outcome d slots) f.id =
      (d.field? f.id).map fun g => (g, g.outcome slots) := by
    rw [ entry?, outcome, List.find?_map]
    rfl
  rw [get, hentry, hd.field?_id hf]
  rfl

/-- **A message is made of a row of slots all or nothing, and the last slot of an id counts.**  What
it is made of depends on the row as a map from ids to slots, and so does whether it is made. -/
theorem constructs {source : List Char} (hd : d ∈ (Schema.compile source).messages)
    (slots : List (Nat × Slot Value)) : Constructs d slots := by
  have hwf := Schema.wellFormed_of_mem_compile hd
  refine ⟨fun m => ofSlots_eq_ok_iff hwf, ?_, ?_, fun e => ofSlots_eq_error_iff hwf⟩
  · intro m hm f hf
    obtain ⟨-, -, rfl⟩ := (ofSlots_eq_ok_iff hwf).mp hm
    exact get_outcome hwf hf
  · intro slots' hperm hnodup m
    have htakes : (∀ p ∈ slots, Takes d p) ↔ ∀ p ∈ slots', Takes d p :=
      forall_congr' fun p => by rw [hperm.mem_iff]
    have hset : (∀ f ∈ d.fields, f.label = .required → f.IsSetBy slots) ↔
        ∀ f ∈ d.fields, f.label = .required → f.IsSetBy slots' :=
      forall₂_congr fun f _ => by rw [Field.isSetBy_perm hperm hnodup]
    rw [ofSlots_eq_ok_iff hwf, ofSlots_eq_ok_iff hwf, htakes, hset, outcome_perm hperm hnodup]

theorem constructs_note :
    Schema.noteType ∈ (Schema.compile Schema.noteSource).messages ∧
      Constructs Schema.noteType
        [(1, .single (.string "hi")), (3, .repeated [.int32 7]), (1, .unset)] :=
  ⟨Schema.noteType_mem_compile, constructs Schema.noteType_mem_compile _⟩

end Message

end LiteChat
