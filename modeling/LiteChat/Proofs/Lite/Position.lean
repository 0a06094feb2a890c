import LiteChat.Proofs.Lite.Reading

/-!
# Reading an array position by position

`readSlots` goes along the elements of an array and writes to the fields it comes across.
Here the same is said from the fields: each field of the message type asks for the
element of its id (`elementAt?`), takes from it what its slot is to hold (`readField`),
and what is left over is unknown (`mem_unknownFrom`).  `readMessage_eq` says that the two
ways give the same message and the same error, so that everything about a read message
can be argued one field at a time.
-/

namespace LiteChat.Lite

/-! ## The element of an id -/

/-- The element of an id in an array whose first element has the id `first`; a null one
counts as absent. -/
def elementAt? (first : Nat) (items : List Json) (id : Nat) : Option Json :=
  if first ≤ id then items[id - first]?.filter fun e => !e.isNull else none

theorem elementAt?_nil (first id : Nat) : elementAt? first [] id = none := by
  simp [elementAt?]

theorem elementAt?_cons_self (id : Nat) (e : Json) (rest : List Json) :
    elementAt? id (e :: rest) id = if e.isNull then none else some e := by
  cases he : e.isNull <;> simp [elementAt?, he]

theorem elementAt?_cons_of_lt {first id : Nat} (h : first < id) (e : Json)
    (rest : List Json) : elementAt? first (e :: rest) id = elementAt? (first + 1) rest id := by
  have hindex : id - first = (id - (first + 1)) + 1 := by omega
  rw [elementAt?, elementAt?, if_pos h.le, if_pos (Nat.succ_le_of_lt h), hindex,
    List.getElem?_cons_succ]

theorem elementAt?_eq_some_iff {first id : Nat} {items : List Json} {e : Json} :
    elementAt? first items id = some e ↔
      first ≤ id ∧ items[id - first]? = some e ∧ e.isNull = false := by
  unfold elementAt?
  split
  · rename_i h
    simp [h, Option.filter_eq_some_iff]
  · rename_i h
    simp [h]

theorem elementAt?_of_lt {first id : Nat} (h : id < first) (items : List Json) :
    elementAt? first items id = none :=
  if_neg h.not_ge

/-! ## The slots of the fields -/

/-- What the slot of a field is to hold after an array has been read. -/
def readField (s : Schema) (d : MessageDescriptor) (first : Nat) (items : List Json)
    (f : Field) : Except MessageError (Slot Value) :=
  match elementAt? first items f.id with
  | none => .ok (.blank f.label)
  | some e => readSlot s d f e

/-- A field with what its slot is to hold. -/
def readEntry (s : Schema) (d : MessageDescriptor) (first : Nat) (items : List Json)
    (f : Field) : Except MessageError (Field × Slot Value) :=
  (readField s d first items f).map fun slot => (f, slot)

section Slots
variable {s : Schema} {d : MessageDescriptor} {f : Field} {e : Json} {slot : Slot Value}

theorem readEntry_eq_ok_iff {first : Nat} {items : List Json} {p : Field × Slot Value} :
    readEntry s d first items f = .ok p ↔
      p.1 = f ∧ readField s d first items f = .ok p.2 := by
  unfold readEntry
  cases readField s d first items f with
  | error fault => simp [Except.map]
  | ok slot =>
    obtain ⟨g, t⟩ := p
    simp [Except.map, eq_comm]

theorem mapM_readEntry_eq_ok_iff {first : Nat} {items : List Json} {fields : List Field}
    {entries : List (Field × Slot Value)} :
    fields.mapM (readEntry s d first items) = .ok entries ↔
      entries.map Prod.fst = fields ∧
        ∀ f slot, (f, slot) ∈ entries → readField s d first items f = .ok slot := by
  rw [mapM_eq_ok_iff]
  constructor
  · intro h
    induction h with
    | nil => exact ⟨rfl, fun f slot h => absurd h List.not_mem_nil⟩
    | cons hp _ ih =>
      obtain ⟨rfl, hread⟩ := readEntry_eq_ok_iff.mp hp
      refine ⟨by rw [List.map_cons, ih.1], fun g t hg => ?_⟩
      rcases List.mem_cons.mp hg with rfl | hg
      · exact hread
      · exact ih.2 g t hg
  · rintro ⟨rfl, h⟩
    rw [List.forall₂_map_left_iff]
    exact List.forall₂_same.mpr fun p hp => readEntry_eq_ok_iff.mpr ⟨rfl, h p.1 p.2 hp⟩

theorem accept_of_readField (hs : s.WellFormed) {first : Nat} {items : List Json}
    (h : readField s d first items f = .ok slot) : f.accept slot = .ok slot := by
  unfold readField at h
  split at h
  · cases h
    exact Field.accept_blank f
  · exact accept_of_readSlot hs h

/-- A write to a field changes the slot of that field. -/
theorem set_entry {name : String} {before after : List (Field × Slot Value)}
    {unknown : List (Nat × Json)} {old : Slot Value}
    (hbefore : ∀ p ∈ before, p.1.id ≠ f.id) (hafter : ∀ p ∈ after, p.1.id ≠ f.id)
    (haccept : f.accept slot = .ok slot) :
    Message.set ⟨name, before ++ (f, old) :: after, unknown⟩ f.id slot =
      .ok ⟨name, before ++ (f, slot) :: after, unknown⟩ := by
  have hentry : Message.entry? ⟨name, before ++ (f, old) :: after, unknown⟩ f.id =
      some (f, old) := by
    have hnone : (before.find? fun p => decide (p.1.id = f.id)) = none :=
      List.find?_eq_none.mpr fun p hp => by simpa using hbefore p hp
    simp [Message.entry?, List.find?_append, hnone]
  have hsame : ∀ l : List (Field × Slot Value), (∀ p ∈ l, p.1.id ≠ f.id) →
      (l.map fun p => if p.1.id = f.id then (p.1, slot) else p) = l := fun l hl => by
    conv_rhs => rw [← List.map_id l]
    exact List.map_congr_left fun p hp => if_neg (hl p hp)
  simp only [Message.set, hentry, Message.write, haccept, Message.replace, List.map_append,
    List.map_cons, hsame before hbefore, hsame after hafter, if_true]

/-- A field with the least id among those that are left is the first of them. -/
theorem exists_cons_of_least (hd : d.WellFormed) {before : List (Field × Slot Value)}
    {fields : List Field} (hsplit : d.fields = before.map Prod.fst ++ fields)
    (hbefore : ∀ p ∈ before, p.1.id < f.id) (hleast : ∀ g ∈ fields, f.id ≤ g.id)
    (hf : f ∈ d.fields) : ∃ later, fields = f :: later ∧ ∀ g ∈ later, f.id < g.id := by
  have hsorted : fields.Pairwise fun f g => f.id < g.id :=
    (List.pairwise_append.mp (hsplit ▸ hd.ids_increase)).2.1
  have hleft : f ∈ fields := by
    rcases List.mem_append.mp (hsplit ▸ hf) with hf | hf
    · obtain ⟨p, hp, rfl⟩ := List.mem_map.mp hf
      exact absurd (hbefore p hp) (lt_irrefl _)
    · exact hf
  cases fields with
  | nil => cases hleft
  | cons g rest =>
    obtain ⟨hfirst, -⟩ := List.pairwise_cons.mp hsorted
    rcases List.mem_cons.mp hleft with rfl | hlater
    · exact ⟨rest, rfl, hfirst⟩
    · exact absurd (hleast g List.mem_cons_self) (hfirst f hlater).not_ge

/-- The first write goes to the first of the fields that are left. -/
theorem setAll_cons {name : String} {before : List (Field × Slot Value)} {later : List Field}
    {unknown : List (Nat × Json)} (hbefore : ∀ p ∈ before, p.1.id < f.id)
    (hlater : ∀ g ∈ later, f.id < g.id) (haccept : f.accept slot = .ok slot)
    (slots : List (Nat × Slot Value)) :
    Message.setAll ⟨name, before ++ (f, .blank f.label) :: later.map fun g => (g, .blank g.label),
        unknown⟩ ((f.id, slot) :: slots) =
      Message.setAll ⟨name, (before ++ [(f, slot)]) ++ later.map fun g => (g, .blank g.label),
        unknown⟩ slots := by
  rw [Message.setAll, set_entry (fun p hp => (hbefore p hp).ne) ?_ haccept, ← List.append_cons]
  intro p hp
  obtain ⟨g, hg, rfl⟩ := List.mem_map.mp hp
  exact (hlater g hg).ne'

theorem readEntry_cons_of_lt {first : Nat} (h : first < f.id) (items : List Json) :
    readEntry s d first (e :: items) f = readEntry s d (first + 1) items f := by
  rw [readEntry, readField, elementAt?_cons_of_lt h]
  rfl

theorem readEntry_cons_self (items : List Json) :
    readEntry s d f.id (e :: items) f =
      if e.isNull then .ok (f, .blank f.label)
      else (readSlot s d f e).map fun slot => (f, slot) := by
  rw [readEntry, readField, elementAt?_cons_self]
  cases e.isNull <;> rfl

theorem readSlots_cons_of_none {id : Nat} (h : d.field? id = none) (items : List Json) :
    readSlots s d id (e :: items) = readSlots s d (id + 1) items := by
  rw [readSlots, h]

theorem readSlots_cons_of_isNull {id : Nat} (he : e.isNull = true) (items : List Json) :
    readSlots s d id (e :: items) = readSlots s d (id + 1) items := by
  rw [readSlots]
  cases d.field? id <;> simp [he]

theorem readSlots_cons_of_some {id : Nat} (h : d.field? id = some f) (he : e.isNull = false)
    (items : List Json) :
    readSlots s d id (e :: items) = (readSlot s d f e).bind fun slot =>
      (readSlots s d (id + 1) items).map ((id, slot) :: ·) := by
  rw [readSlots, h]
  simp only [he, Bool.false_eq_true, if_false]
  cases readSlot s d f e with
  | error fault => rfl
  | ok slot => cases readSlots s d (id + 1) items <;> rfl

/-- Going along the elements writes to the fields what each field asks for.  The fields
in `before` lie behind, those in `fields` are still to come. -/
theorem setAll_readSlots (hs : s.WellFormed) (hd : d.WellFormed) (name : String)
    (unknown : List (Nat × Json)) (items : List Json) :
    ∀ (first : Nat) (before : List (Field × Slot Value)) (fields : List Field),
      d.fields = before.map Prod.fst ++ fields → (∀ p ∈ before, p.1.id < first) →
      (∀ f ∈ fields, first ≤ f.id) →
      (readSlots s d first items).bind
          (Message.setAll ⟨name, before ++ fields.map fun f => (f, .blank f.label), unknown⟩) =
        (fields.mapM (readEntry s d first items)).map fun entries =>
          ⟨name, before ++ entries, unknown⟩ := by
  induction items with
  | nil =>
    intro first before fields _ _ _
    have hblank : ∀ f ∈ fields, readEntry s d first [] f = .ok (f, .blank f.label) :=
      fun f _ => by rw [readEntry, readField, elementAt?_nil]; rfl
    rw [mapM_eq_ok_map hblank, readSlots]
    rfl
  | cons e rest ih =>
    intro first before fields hsplit hbefore hfields
    cases hfirst : d.field? first with
    | none =>
      -- no field has this id, so all that are left come later
      have hlater : ∀ f ∈ fields, first < f.id := fun f hf =>
        lt_of_le_of_ne (hfields f hf) fun he => MessageDescriptor.field?_eq_none_iff.mp hfirst f
          (hsplit ▸ List.mem_append_right _ hf) he.symm
      rw [readSlots_cons_of_none hfirst,
        mapM_congr fun f hf => readEntry_cons_of_lt (hlater f hf) rest]
      exact ih (first + 1) before fields hsplit (fun p hp => Nat.lt_succ_of_lt (hbefore p hp))
        hlater
    | some f =>
      obtain ⟨hmem, rfl⟩ := MessageDescriptor.mem_of_field?_eq_some hfirst
      obtain ⟨later, rfl, hlater⟩ := exists_cons_of_least hd hsplit hbefore hfields hmem
      -- whatever the slot of `f` holds, the rest is read as if `f` lay behind
      have hrest : ∀ slot, (readSlots s d (f.id + 1) rest).bind (Message.setAll
            ⟨name, (before ++ [(f, slot)]) ++ later.map fun g => (g, .blank g.label), unknown⟩) =
          (later.mapM (readEntry s d f.id (e :: rest))).map fun entries =>
            ⟨name, before ++ (f, slot) :: entries, unknown⟩ := by
        intro slot
        rw [mapM_congr fun g hg => readEntry_cons_of_lt (hlater g hg) rest,
          ih (f.id + 1) (before ++ [(f, slot)]) later (by simp [hsplit]) ?_ hlater]
        · simp only [List.append_assoc, List.singleton_append]
        · intro p hp
          rcases List.mem_append.mp hp with hp | hp
          · exact Nat.lt_succ_of_lt (hbefore p hp)
          · rw [List.mem_singleton.mp hp]
            exact Nat.lt_succ_self _
      rw [mapM_cons_eq, readEntry_cons_self, List.map_cons]
      cases he : e.isNull with
      | true =>
        rw [readSlots_cons_of_isNull he, List.append_cons, hrest]
        cases later.mapM (readEntry s d f.id (e :: rest)) <;> rfl
      | false =>
        rw [readSlots_cons_of_some hfirst he]
        cases hslot : readSlot s d f e with
        | error fault => rfl
        | ok slot =>
          calc ((readSlots s d (f.id + 1) rest).map ((f.id, slot) :: ·)).bind (Message.setAll
                ⟨name, before ++ (f, .blank f.label) :: later.map fun g => (g, .blank g.label),
                  unknown⟩)
              = (readSlots s d (f.id + 1) rest).bind (Message.setAll
                  ⟨name, (before ++ [(f, slot)]) ++ later.map fun g => (g, .blank g.label),
                    unknown⟩) := by
                cases readSlots s d (f.id + 1) rest with
                | error fault => rfl
                | ok slots => exact setAll_cons hbefore hlater (accept_of_readSlot hs hslot) slots
            _ = _ := hrest slot
            _ = _ := by cases later.mapM (readEntry s d f.id (e :: rest)) <;> rfl

end Slots

/-! ## The unknown elements -/

section Unknown
variable {d : MessageDescriptor}

/-- The elements that are kept as unknown are those of the undeclared ids. -/
theorem mem_unknownFrom {items : List Json} {first id : Nat} {e : Json} :
    (id, e) ∈ unknownFrom d first items ↔
      0 < id ∧ id < Schema.fieldIdBound ∧ d.field? id = none ∧
        elementAt? first items id = some e := by
  induction items generalizing first with
  | nil => simp [unknownFrom, elementAt?_nil]
  | cons x rest ih =>
    unfold unknownFrom
    split
    · rename_i hbound
      constructor
      · intro h
        cases h
      · rintro ⟨-, hid, -, he⟩
        exact absurd ((elementAt?_eq_some_iff.mp he).1) (hid.trans_le hbound).not_ge
    · rename_i hbound
      have hbound : first < Schema.fieldIdBound := not_le.mp hbound
      -- at `first` the head counts, behind it the tail, and in front of it nothing
      have hrest : (id, e) ∈ unknownFrom d (first + 1) rest ↔
          first < id ∧ 0 < id ∧ id < Schema.fieldIdBound ∧ d.field? id = none ∧
            elementAt? first (x :: rest) id = some e := by
        rw [ih]
        constructor
        · rintro ⟨hpos, hid, hnone, he⟩
          have hlt : first < id := (elementAt?_eq_some_iff.mp he).1
          exact ⟨hlt, hpos, hid, hnone, (elementAt?_cons_of_lt hlt x rest).trans he⟩
        · rintro ⟨hlt, hpos, hid, hnone, he⟩
          exact ⟨hpos, hid, hnone, (elementAt?_cons_of_lt hlt x rest).symm.trans he⟩
      split
      · rename_i hskip
        rw [hrest]
        refine ⟨fun h => h.2, fun ⟨hpos, hid, hnone, he⟩ => ⟨?_, hpos, hid, hnone, he⟩⟩
        refine lt_of_le_of_ne (elementAt?_eq_some_iff.mp he).1 fun heq => ?_
        subst heq
        rw [elementAt?_cons_self] at he
        rcases hskip with hzero | hnull | hdeclared
        · exact hpos.ne' hzero
        · rw [if_pos hnull] at he
          cases he
        · rw [hnone] at hdeclared
          cases hdeclared
      · rename_i hkeep
        rw [not_or, not_or] at hkeep
        obtain ⟨hpos, hnull, hnone⟩ := hkeep
        rw [Bool.not_eq_true, Option.isSome_eq_false_iff, Option.isNone_iff_eq_none] at hnone
        rw [List.mem_cons, hrest]
        constructor
        · rintro (heq | h)
          · cases heq
            exact ⟨Nat.pos_of_ne_zero hpos, hbound, hnone, by
              rw [elementAt?_cons_self, if_neg hnull]⟩
          · exact h.2
        · rintro ⟨h0, hid, hdecl, he⟩
          rcases (elementAt?_eq_some_iff.mp he).1.eq_or_lt with heq | hlt
          · subst heq
            rw [elementAt?_cons_self, if_neg hnull] at he
            cases he
            exact Or.inl rfl
          · exact Or.inr ⟨hlt, h0, hid, hdecl, he⟩

theorem sorted_unknownFrom (d : MessageDescriptor) (first : Nat) (items : List Json) :
    Keyed.Sorted (unknownFrom d first items) := by
  induction items generalizing first with
  | nil => exact List.Pairwise.nil
  | cons x rest ih =>
    unfold unknownFrom
    split
    · exact List.Pairwise.nil
    · split
      · exact ih (first + 1)
      · refine List.pairwise_cons.mpr ⟨fun p hp => ?_, ih (first + 1)⟩
        exact (elementAt?_eq_some_iff.mp (mem_unknownFrom.mp hp).2.2.2).1

/-- Elements that come by id at undeclared ids are all kept. -/
theorem keepUnknown_eq_ok {m : Message} {elements : List (Nat × Json)}
    (hids : ∀ p ∈ elements, 0 < p.1 ∧ m.declares p.1 = false)
    (hsorted : Keyed.Sorted (m.unknown ++ elements)) :
    keepUnknown m elements = .ok { m with unknown := m.unknown ++ elements } := by
  induction elements generalizing m with
  | nil =>
    rw [keepUnknown]
    cases m
    simp only [List.append_nil]
  | cons p rest ih =>
    obtain ⟨id, raw⟩ := p
    obtain ⟨hpos, hdeclares⟩ := hids _ (List.mem_cons_self ..)
    have hlast : ∀ q ∈ m.unknown, q.1 < id := fun q hq =>
      (List.pairwise_append.mp hsorted).2.2 q hq _ (List.mem_cons_self ..)
    have hinsert : m.insertUnknown id raw =
        .ok { m with unknown := m.unknown ++ [(id, raw)] } := by
      rw [Message.insertUnknown, if_neg (by simp [hpos.ne', hdeclares]),
        Keyed.insert_of_forall_lt hlast]
    rw [List.append_cons] at hsorted ⊢
    rw [keepUnknown, hinsert]
    exact ih (m := { m with unknown := m.unknown ++ [(id, raw)] })
      (fun q hq => hids q (List.mem_cons_of_mem _ hq)) hsorted

end Unknown

/-! ## The whole message -/

section Message
variable {s : Schema} {d : MessageDescriptor}

/-- The message of a type that holds given slots and unknown elements, provided that its
required fields are set. -/
def complete (m : Message) : Except MessageError Message := m.checkRequired.map fun _ => m

/-- **A message is read field by field.**  The error is that of the first field, by id,
whose element cannot be read; if there is none, that of the first required field that is
left unset. -/
theorem readMessage_eq (hs : s.WellFormed) (hd : d.WellFormed) (framing : Framing)
    (items : List Json) :
    readMessage s d framing items =
      (d.fields.mapM (readEntry s d framing.firstId items)).bind fun entries =>
        complete ⟨d.name, entries, unknownFrom d framing.firstId items⟩ := by
  have hslots : (readSlots s d framing.firstId items).bind (Message.setAll (.new d)) =
      (d.fields.mapM (readEntry s d framing.firstId items)).map fun entries =>
        ⟨d.name, entries, []⟩ := by
    cases framing with
    | plain =>
      exact setAll_readSlots hs hd d.name [] items 1 [] d.fields rfl
        (fun p hp => absurd hp List.not_mem_nil) fun f hf => (hd.id_bounds f hf).1
    | discriminated =>
      exact setAll_readSlots hs hd d.name [] items 0 [] d.fields rfl
        (fun p hp => absurd hp List.not_mem_nil) fun f _ => Nat.zero_le _
  rw [readMessage]
  cases hread : readSlots s d framing.firstId items with
  | error fault =>
    rw [hread] at hslots
    cases hentries : d.fields.mapM (readEntry s d framing.firstId items) with
    | error fault' =>
      rw [hentries] at hslots
      exact congrArg Except.error (Except.error.inj hslots)
    | ok entries =>
      rw [hentries] at hslots
      cases hslots
  | ok slots =>
    rw [hread] at hslots
    change Message.setAll (.new d) slots = _ at hslots
    change assemble d slots _ = _
    rw [assemble, hslots]
    cases hentries : d.fields.mapM (readEntry s d framing.firstId items) with
    | error fault => rfl
    | ok entries =>
      have hfields := (mapM_readEntry_eq_ok_iff.mp hentries).1
      have hkeep : keepUnknown ⟨d.name, entries, []⟩ (unknownFrom d framing.firstId items) =
          .ok ⟨d.name, entries, unknownFrom d framing.firstId items⟩ := by
        refine keepUnknown_eq_ok (fun p hp => ?_) (sorted_unknownFrom d framing.firstId items)
        obtain ⟨hpos, -, hnone, -⟩ := mem_unknownFrom.mp hp
        refine ⟨hpos, ?_⟩
        rw [Message.declares, ← Option.isSome_map, Message.map_entry?, hfields]
        change (d.field? p.1).isSome = false
        rw [hnone]
        rfl
      simp only [Except.map, hkeep, Except.bind, complete]
      cases Message.checkRequired ⟨d.name, entries, unknownFrom d framing.firstId items⟩ <;> rfl

theorem complete_eq_ok_iff {m m' : Message} :
    complete m = .ok m' ↔ m.checkRequired = .ok () ∧ m = m' := by
  unfold complete
  cases m.checkRequired <;> simp [Except.map]

/-- What it takes for an array to be read as a message. -/
theorem readMessage_eq_ok_iff (hs : s.WellFormed) (hd : d.WellFormed) {framing : Framing}
    {items : List Json} {m : Message} :
    readMessage s d framing items = .ok m ↔
      m.name = d.name ∧ m.entries.map Prod.fst = d.fields ∧
        (∀ f slot, (f, slot) ∈ m.entries →
          readField s d framing.firstId items f = .ok slot) ∧
        m.unknown = unknownFrom d framing.firstId items ∧ m.checkRequired = .ok () := by
  rw [readMessage_eq hs hd]
  constructor
  · intro h
    cases hentries : d.fields.mapM (readEntry s d framing.firstId items) with
    | error fault =>
      rw [hentries] at h
      cases h
    | ok entries =>
      rw [hentries] at h
      obtain ⟨hrequired, rfl⟩ := complete_eq_ok_iff.mp h
      obtain ⟨hfields, hread⟩ := mapM_readEntry_eq_ok_iff.mp hentries
      exact ⟨rfl, hfields, hread, rfl, hrequired⟩
  · rintro ⟨hname, hfields, hread, hunknown, hrequired⟩
    rw [mapM_readEntry_eq_ok_iff.mpr ⟨hfields, hread⟩, ← hname, ← hunknown]
    cases m
    exact complete_eq_ok_iff.mpr ⟨hrequired, rfl⟩

/-- A message that is read conforms to its type. -/
theorem conforms_of_readMessage (hs : s.WellFormed) (hd : d.WellFormed) {framing : Framing}
    {items : List Json} {m : Message} (h : readMessage s d framing items = .ok m) :
    m.Conforms d := by
  obtain ⟨hname, hfields, hread, hunknown, -⟩ := (readMessage_eq_ok_iff hs hd).mp h
  exact
    { name_eq := hname
      fields_eq := hfields
      slots := fun f slot hf => accept_of_readField hs (hread f slot hf)
      unknown_sorted := hunknown ▸ sorted_unknownFrom d framing.firstId items
      unknown_ids := by
        intro p hp
        obtain ⟨hpos, hid, hnone, -⟩ := mem_unknownFrom.mp (hunknown ▸ hp)
        exact ⟨hpos, hid, hnone⟩ }

end Message

end LiteChat.Lite
