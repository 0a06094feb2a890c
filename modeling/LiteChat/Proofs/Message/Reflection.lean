import LiteChat.Proofs.Sorting
import LiteChat.Proofs.Message.Conforms

/-!
# Messages under writes

A message is written to by id, by name, or at an undeclared id (`Write`), and each write either
succeeds or says why not.  `Write.perform` carries a write out on a message that is changed in
place: it looks for the place of the field by halving, it may give up at several points, and what
it has changed by then stays changed.  That makes no difference (`Conforms.run_eq`): the place is the
right one because the ids of a compiled message type increase, and nothing is changed before the
last point at which a write may give up.

So after any row of writes, whether they succeed or not, the message is still of its type, each
slot holds what its field may hold, and a write succeeds exactly if it agrees with the declaration
of the field (`reflective_writeAll`).
-/

namespace LiteChat

/-! ## Slots against declarations -/

namespace Field

variable {f : Field} {slot accepted : Slot Value}

/-- A slot agrees with the declaration of a field: it is of the field's shape, and each value is of
the field's type. -/
inductive Takes (f : Field) : Slot Value → Prop where
  | unset : Takes f .unset
  | single {v : Value} (hl : f.label ≠ .repeated) (hv : v.fits f.type = true) :
    Takes f (.single v)
  | repeated {vs : List Value} (hl : f.label = .repeated)
    (hvs : ∀ v ∈ vs, v.fits f.type = true) : Takes f (.repeated vs)

/-- What a field holds after a write: unsetting a repeated field empties it. -/
def stored (f : Field) : Slot Value → Slot Value
  | .unset => .blank f.label
  | slot => slot

theorem accept_eq_ok_iff :
    f.accept slot = .ok accepted ↔ f.Takes slot ∧ accepted = f.stored slot := by
  constructor
  · intro h
    cases slot with
    | unset => exact ⟨.unset, (Except.ok.inj h).symm⟩
    | single v =>
      obtain ⟨hl, hv, rfl⟩ := accept_single_eq_ok h
      exact ⟨.single hl hv, rfl⟩
    | repeated vs =>
      obtain ⟨hl, hvs, rfl⟩ := accept_repeated_eq_ok h
      exact ⟨.repeated hl hvs, rfl⟩
  · rintro ⟨h, rfl⟩
    cases h with
    | unset => rfl
    | single hl hv => exact accept_single hl hv
    | repeated hl hvs => exact accept_repeated hl hvs

theorem exists_accept_iff : (∃ accepted, f.accept slot = .ok accepted) ↔ f.Takes slot := by
  simp [accept_eq_ok_iff]

/-- A slot that a field may hold is a list exactly if the field is repeated. -/
theorem repeated_iff_of_accept (h : f.accept slot = .ok slot) :
    f.label = .repeated ↔ ∃ vs, slot = .repeated vs := by
  cases slot with
  | unset =>
    have hblank : Slot.blank f.label = Slot.unset := Except.ok.inj h
    constructor
    · intro hl
      rw [hl] at hblank
      cases hblank
    · rintro ⟨vs, hvs⟩
      cases hvs
  | single v =>
    have hl := (accept_single_eq_ok h).1
    constructor
    · intro hl'
      exact absurd hl' hl
    · rintro ⟨vs, hvs⟩
      cases hvs
  | repeated vs => exact iff_of_true (accept_repeated_eq_ok h).1 ⟨vs, rfl⟩

end Field

/-! ## Writes -/

/-- A write to a message.  Ids are numbers of 32 bits. -/
inductive Write where
  /-- To the field of an id. -/
  | set (id : UInt32) (slot : Slot Value)
  /-- To the field of a name. -/
  | setNamed (name : String) (slot : Slot Value)
  /-- Of a raw element at an undeclared id. -/
  | insertUnknown (id : UInt32) (raw : Json)

namespace Message

/-- The message that a write leads to, or why it fails. -/
def apply (m : Message) : Write → Except MessageError Message
  | .set id slot => m.set id.toNat slot
  | .setNamed name slot => m.setNamed name slot
  | .insertUnknown id raw => m.insertUnknown id.toNat raw

/-- The place of the slot of an id, and the field it belongs to. -/
def place? (m : Message) (id : Nat) : Option (Nat × Field) :=
  (m.descriptor.indexOf? id).bind fun i => m.entries[i]?.map fun e => (i, e.1)

end Message

/-- Writes to the slot of an id in place. -/
def writeInPlace (id : Nat) (slot : Slot Value) : ExceptT MessageError (StateM Message) Unit := do
  let m ← get
  match m.place? id with
  | none => throw (.fieldNotFound m.name (.id id))
  | some (i, f) =>
    match f.accept slot with
    | .error found => throw (.typeMismatch m.name f.name f.expectation found)
    | .ok accepted => modify fun m => { m with entries := m.entries.set i (f, accepted) }

/-- Carries a write out on a message that is changed in place. -/
def Write.perform : Write → ExceptT MessageError (StateM Message) Unit
  | .set id slot => writeInPlace id.toNat slot
  | .setNamed name slot => do
    let m ← get
    match m.descriptor.fieldNamed? name with
    | none => throw (.fieldNotFound m.name (.name name))
    | some f => writeInPlace f.id slot
  | .insertUnknown id raw => do
    let m ← get
    if id.toNat = 0 ∨ (m.descriptor.field? id.toNat).isSome then
      throw (.fieldNotFound m.name (.unknown id.toNat))
    else modify fun m => { m with unknown := Keyed.insert id.toNat raw m.unknown }

/-- What becomes of a write, and of the message. -/
def Write.run (w : Write) (m : Message) : Except MessageError Unit × Message :=
  (ExceptT.run w.perform).run m

/-- The message after a row of writes, whatever becomes of each. -/
def Message.writeAll (m : Message) (writes : List Write) : Message :=
  writes.foldl (fun m w => (w.run m).2) m

theorem run_get_bind (m : Message) (k : Message → ExceptT MessageError (StateM Message) Unit) :
    (ExceptT.run (get >>= k)).run m = (ExceptT.run (k m)).run m :=
  rfl

namespace Message

variable {m m' : Message} {d : MessageDescriptor} {f : Field} {slot old : Slot Value}

/-! ### The place of a slot -/

theorem Conforms.descriptor_eq (hm : m.Conforms d) : m.descriptor = d := by
  cases d
  rw [descriptor, hm.name_eq, hm.fields_eq]

theorem Conforms.entry?_eq_some_iff (hd : d.WellFormed) (hm : m.Conforms d) {id : Nat} :
    m.entry? id = some (f, slot) ↔ (f, slot) ∈ m.entries ∧ f.id = id := by
  have hids := hm.ids_increase hd
  constructor
  · intro h
    exact ⟨List.mem_of_find?_eq_some h, by simpa using List.find?_some h⟩
  · rintro ⟨hf, rfl⟩
    rw [Message.entry?, Sorting.find?_eq_some_iff_least hids]
    refine ⟨hf, by simp, ?_⟩
    intro p _ hlt
    simpa using hlt.ne

theorem Conforms.place?_eq_some_iff (hd : d.WellFormed) (hm : m.Conforms d) {id i : Nat} :
    m.place? id = some (i, f) ↔ ∃ old, m.entries[i]? = some (f, old) ∧ f.id = id := by
  have hfield : ∀ i : Nat, d.fields[i]? = m.entries[i]?.map Prod.fst := by
    intro i
    rw [← hm.fields_eq, List.getElem?_map]
  simp only [place?, hm.descriptor_eq, Option.bind_eq_some_iff, MessageDescriptor.indexOf?,
    Sorting.search_eq_some_iff hd.ids_increase, hfield, Option.map_eq_some_iff]
  constructor
  · rintro ⟨j, ⟨g, ⟨⟨g', s⟩, hg, rfl⟩, hid⟩, ⟨h, t⟩, hh, he⟩
    cases he
    rw [hh] at hg
    cases hg
    exact ⟨_, hh, hid⟩
  · rintro ⟨old, hold, hid⟩
    exact ⟨i, ⟨f, ⟨_, hold, rfl⟩, hid⟩, _, hold, rfl⟩

theorem Conforms.place?_eq_none (hd : d.WellFormed) (hm : m.Conforms d) {id : Nat}
    (h : m.entry? id = none) : m.place? id = none := by
  rw [Option.eq_none_iff_forall_ne_some]
  rintro ⟨i, f⟩ hplace
  obtain ⟨old, hold, hid⟩ := (hm.place?_eq_some_iff hd).mp hplace
  rw [(hm.entry?_eq_some_iff hd).mpr ⟨List.mem_of_getElem? hold, hid⟩] at h
  cases h

/-- The slot at the place of a field is the one that a write to the field replaces. -/
theorem Conforms.set_place (hd : d.WellFormed) (hm : m.Conforms d) {i : Nat}
    (h : m.entries[i]? = some (f, old)) (slot : Slot Value) :
    { m with entries := m.entries.set i (f, slot) } = m.replace f.id slot := by
  have hids := hm.ids_increase hd
  have hi : i < m.entries.length := (List.getElem?_eq_some_iff.mp h).1
  rw [replace]
  congr 1
  refine List.ext_getElem? fun j => ?_
  rw [List.getElem?_map]
  by_cases hj : i = j
  · subst hj
    rw [List.getElem?_set_self hi, h]
    simp
  · rw [List.getElem?_set_ne hj]
    cases hp : m.entries[j]? with
    | none => rfl
    | some p =>
      have hne : p.1.id ≠ f.id := fun he =>
        hj (Sorting.place_unique hids h hp he.symm)
      rw [Option.map_some, if_neg hne]

/-! ### Writes in place -/

theorem Conforms.map_entryNamed?_eq (hm : m.Conforms d) (name : String) :
    (m.entryNamed? name).map Prod.fst = d.fieldNamed? name := by
  rw [MessageDescriptor.fieldNamed?, ← hm.fields_eq, List.find?_map]
  rfl

/-- Writing to the slot at the place of an id is writing to the field of the id, and a write that
fails has changed nothing. -/
theorem Conforms.run_writeInPlace (hd : d.WellFormed) (hm : m.Conforms d) (id : Nat)
    (slot : Slot Value) :
    (ExceptT.run (writeInPlace id slot)).run m =
      match m.set id slot with
      | .ok m' => (.ok (), m')
      | .error e => (.error e, m) := by
  rw [writeInPlace, run_get_bind, Message.set]
  cases hentry : m.entry? id with
  | none =>
    rw [hm.place?_eq_none hd hentry]
    rfl
  | some e =>
    obtain ⟨f, old⟩ := e
    obtain ⟨hf, hid⟩ := (hm.entry?_eq_some_iff hd).mp hentry
    obtain ⟨i, hi⟩ := List.getElem?_of_mem hf
    have hplace : m.place? id = some (i, f) := (hm.place?_eq_some_iff hd).mpr ⟨old, hi, hid⟩
    rw [hplace]
    simp only [write]
    cases haccept : f.accept slot with
    | error found => rfl
    | ok accepted => exact congrArg (Prod.mk _) (hm.set_place hd hi accepted)

/-- **A write in place comes to the same.**  A write that succeeds leaves the message that it
leads to, and one that fails leaves the message as it was. -/
theorem Conforms.run_eq (hd : d.WellFormed) (hm : m.Conforms d) (w : Write) :
    w.run m =
      match m.apply w with
      | .ok m' => (.ok (), m')
      | .error e => (.error e, m) := by
  rw [Write.run]
  cases w with
  | set id slot => exact hm.run_writeInPlace hd id.toNat slot
  | setNamed name slot =>
    rw [Write.perform, run_get_bind, hm.descriptor_eq, ← hm.map_entryNamed?_eq, apply,
      Message.setNamed]
    cases m.entryNamed? name with
    | none => rfl
    | some e => exact hm.run_writeInPlace hd e.1.id slot
  | insertUnknown id raw =>
    rw [Write.perform, run_get_bind, hm.descriptor_eq, ← hm.declares_eq, apply,
      Message.insertUnknown]
    split <;> rfl

theorem Conforms.apply (hd : d.WellFormed) (hm : m.Conforms d) {w : Write}
    (h : m.apply w = .ok m') : m'.Conforms d := by
  cases w with
  | set id slot => exact hm.set hd h
  | setNamed name slot => exact hm.setNamed hd h
  | insertUnknown id raw => exact hm.insertUnknown id.toNat_lt h

/-- A message conforms to its type after a write, whatever becomes of the write. -/
theorem Conforms.run (hd : d.WellFormed) (hm : m.Conforms d) (w : Write) :
    (w.run m).2.Conforms d := by
  rw [hm.run_eq hd w]
  cases h : m.apply w with
  | ok m' => exact hm.apply hd h
  | error e => exact hm

theorem Conforms.writeAll (hd : d.WellFormed) (hm : m.Conforms d) (writes : List Write) :
    (m.writeAll writes).Conforms d := by
  induction writes generalizing m with
  | nil => exact hm
  | cons w rest ih => exact ih (hm.run hd w)

/-! ### Reading back -/

/-- A write to a field leaves every other slot where it is. -/
theorem find?_replace (m : Message) (id : Nat) (slot : Slot Value) (p : Field → Bool) :
    (m.replace id slot).entries.find? (fun e => p e.1) =
      (m.entries.find? fun e => p e.1).map fun e => if e.1.id = id then (e.1, slot) else e := by
  rw [replace, List.find?_map]
  congr 2
  funext e
  simp only [Function.comp_apply]
  split <;> rfl

/-- What a write to a field makes of a message. -/
structure Written (m m' : Message) (f : Field) (slot : Slot Value) : Prop where
  descriptor_eq : m'.descriptor = m.descriptor
  /-- What has been written is read under the id of the field. -/
  get_id : m'.get f.id = .ok (f.stored slot)
  /-- It is read under the name, too. -/
  get_name : m'.getNamed f.name = .ok (f.stored slot)
  /-- Under every other id the same is read as before. -/
  get_of_ne : ∀ id, id ≠ f.id → m'.get id = m.get id
  /-- So it is under every other name. -/
  getNamed_of_ne : ∀ name, name ≠ f.name → m'.getNamed name = m.getNamed name
  unknown_eq : m'.unknown = m.unknown

/-- What has been written to a field is read again, and everything else as before. -/
theorem Conforms.written (hd : d.WellFormed) (hm : m.Conforms d) (hf : f ∈ d.fields)
    (h : m.set f.id slot = .ok m') : Written m m' f slot := by
  obtain ⟨g, old, accepted, hg, hid, haccept, rfl⟩ := set_eq_ok h
  obtain rfl : g = f := hd.eq_of_id_eq (hm.mem_fields hg) hf hid
  obtain ⟨-, rfl⟩ := Field.accept_eq_ok_iff.mp haccept
  have hname : m.entryNamed? g.name = some (g, old) := by
    have hfield := hm.map_entryNamed?_eq g.name
    rw [hd.fieldNamed?_eq_some_iff.mpr ⟨hf, rfl⟩] at hfield
    obtain ⟨⟨k, t⟩, hk, rfl⟩ := Option.map_eq_some_iff.mp hfield
    rw [hk, hm.slot_unique hd (List.mem_of_find?_eq_some hk) hg]
  refine ⟨?_, ?_, ?_, ?_, ?_, rfl⟩
  · rw [descriptor, map_fst_replace]
    rfl
  · have hentry : m.entry? g.id = some (g, old) := (hm.entry?_eq_some_iff hd).mpr ⟨hg, rfl⟩
    rw [get, entry?, find?_replace m g.id _ fun k => decide (k.id = g.id), ← entry?, hentry]
    simp
  · rw [getNamed, entryNamed?, find?_replace m g.id _ fun k => decide (k.name = g.name),
      ← entryNamed?, hname]
    simp
  · intro id hne
    rw [get, get, entry?, find?_replace m g.id _ fun k => decide (k.id = id), ← entry?]
    cases hentry : m.entry? id with
    | none => rfl
    | some e =>
      have he : e.1.id = id := by simpa using List.find?_some hentry
      simp [he, hne]
  · intro name hne
    rw [getNamed, getNamed, entryNamed?, find?_replace m g.id _ fun k => decide (k.name = name),
      ← entryNamed?]
    cases hentry : m.entryNamed? name with
    | none => rfl
    | some e =>
      have he : e.1.name = name := by simpa using List.find?_some hentry
      have hother : e.1.id ≠ g.id := by
        intro hid
        -- a field of this id would have this name
        have hsame := hd.eq_of_id_eq (hm.mem_fields (List.mem_of_find?_eq_some hentry)) hf hid
        exact hne (he.symm.trans (congrArg Field.name hsame))
      simp [hother]

/-! ### Which writes succeed -/

/-- A write by id succeeds exactly if the id is declared and the slot agrees with the field. -/
theorem Conforms.exists_set_iff (hd : d.WellFormed) (hm : m.Conforms d) {id : Nat} :
    (∃ m', m.set id slot = .ok m') ↔ ∃ f, d.field? id = some f ∧ f.Takes slot := by
  constructor
  · rintro ⟨m', h⟩
    obtain ⟨f, old, accepted, hf, rfl, haccept, -⟩ := set_eq_ok h
    exact ⟨f, hd.field?_id (hm.mem_fields hf), Field.exists_accept_iff.mp ⟨_, haccept⟩⟩
  · rintro ⟨f, hf, htakes⟩
    obtain ⟨hmem, rfl⟩ := MessageDescriptor.mem_of_field?_eq_some hf
    obtain ⟨accepted, haccept⟩ := Field.exists_accept_iff.mpr htakes
    exact hm.exists_set hd hmem haccept

/-- A write by name is the write by the id of the field. -/
theorem Conforms.setNamed_eq (hm : m.Conforms d) {name : String}
    (h : d.fieldNamed? name = some f) (slot : Slot Value) :
    m.setNamed name slot = m.set f.id slot := by
  rw [← hm.map_entryNamed?_eq] at h
  obtain ⟨e, he, rfl⟩ := Option.map_eq_some_iff.mp h
  rw [Message.setNamed, he]

theorem Conforms.exists_setNamed_iff (hd : d.WellFormed) (hm : m.Conforms d) {name : String} :
    (∃ m', m.setNamed name slot = .ok m') ↔ ∃ f, d.fieldNamed? name = some f ∧ f.Takes slot := by
  cases hf : d.fieldNamed? name with
  | none =>
    have hentry := hm.map_entryNamed?_eq name
    rw [hf, Option.map_eq_none_iff] at hentry
    simp [Message.setNamed, hentry]
  | some f =>
    have hmem : f ∈ d.fields := List.mem_of_find?_eq_some hf
    rw [hm.setNamed_eq hf, hm.exists_set_iff hd, hd.field?_id hmem]

/-! ### Rows of writes -/

/-- What holds of a message of a type however it has been written to. -/
structure Reflective (m : Message) (d : MessageDescriptor) : Prop where
  /-- There is one slot for each field. -/
  descriptor_eq : m.descriptor = d
  /-- A slot is a list exactly if its field is repeated. -/
  repeated_iff : ∀ f slot, (f, slot) ∈ m.entries →
    (f.label = .repeated ↔ ∃ vs, slot = .repeated vs)
  /-- Every value is of the type of its field. -/
  fits : ∀ f slot, (f, slot) ∈ m.entries → ∀ v ∈ slot.values, v.fits f.type = true
  /-- The unknown elements lie at positive undeclared ids. -/
  unknown_ids : ∀ p ∈ m.unknown, 0 < p.1 ∧ d.field? p.1 = none
  /-- A write by id succeeds exactly if it agrees with the declaration. -/
  set_iff : ∀ id slot, (∃ m', m.set id slot = .ok m') ↔ ∃ f, d.field? id = some f ∧ f.Takes slot
  /-- So does a write by name. -/
  setNamed_iff : ∀ name slot,
    (∃ m', m.setNamed name slot = .ok m') ↔ ∃ f, d.fieldNamed? name = some f ∧ f.Takes slot
  /-- After a write by id, the field holds what was written and all else is as before. -/
  written_of_set : ∀ id f slot m', d.field? id = some f → m.set id slot = .ok m' →
    Written m m' f slot
  /-- So it is after a write by name. -/
  written_of_setNamed : ∀ name f slot m', d.fieldNamed? name = some f →
    m.setNamed name slot = .ok m' → Written m m' f slot
  /-- A write in place that succeeds does what the write does, and one that fails does nothing. -/
  run_eq : ∀ w : Write, w.run m =
    match m.apply w with
    | .ok m' => (.ok (), m')
    | .error e => (.error e, m)

theorem Conforms.reflective (hd : d.WellFormed) (hm : m.Conforms d) : m.Reflective d where
  descriptor_eq := hm.descriptor_eq
  repeated_iff f slot hf := Field.repeated_iff_of_accept (hm.slots f slot hf)
  fits f slot hf v hv := Field.fits_of_accept (hm.slots f slot hf) hv
  unknown_ids p hp := ⟨(hm.unknown_ids p hp).1, (hm.unknown_ids p hp).2.2⟩
  set_iff _ _ := hm.exists_set_iff hd
  setNamed_iff _ _ := hm.exists_setNamed_iff hd
  written_of_set id f slot m' hf h := by
    obtain ⟨hmem, rfl⟩ := MessageDescriptor.mem_of_field?_eq_some hf
    exact hm.written hd hmem h
  written_of_setNamed name f slot m' hf h := by
    rw [hm.setNamed_eq hf] at h
    exact hm.written hd (List.mem_of_find?_eq_some hf) h
  run_eq := hm.run_eq hd

/-- **However a message is written to, it stays of its type.**  After any row of writes to a new
message of a compiled type, every slot holds what its field may hold, and a further write succeeds
exactly if it agrees with the declaration of its field; it changes that field alone, or nothing at
all if it fails. -/
theorem reflective_writeAll {source : List Char} (hd : d ∈ (Schema.compile source).messages)
    (writes : List Write) : ((new d).writeAll writes).Reflective d := by
  have hwf := Schema.wellFormed_of_mem_compile hd
  exact ((conforms_new d).writeAll hwf writes).reflective hwf

theorem reflective_writeAll_note :
    Schema.noteType ∈ (Schema.compile Schema.noteSource).messages ∧
      ((new Schema.noteType).writeAll
        [.set 1 (.single (.string "hi")), .set 2 .unset, .setNamed "marks" (.single (.int32 7)),
         .insertUnknown 9 .null]).Reflective Schema.noteType :=
  ⟨Schema.noteType_mem_compile, reflective_writeAll Schema.noteType_mem_compile _⟩

end Message

end LiteChat
