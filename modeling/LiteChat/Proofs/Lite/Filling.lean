import LiteChat.Proofs.Lite.Placement
import LiteChat.Proofs.Message.Reflection

/-!
# Filling the array of a message

The positional form of a message is filled in two rounds: the fields go first, up to the first
one whose place lies past the end, and then the unknown elements, for which nobody looks where the
array ends.  `fill` does this on an array of cells that is strict about it: writing to a cell past
the end, or to one that has been written to, is a failure.

No such failure occurs, and the filled array is the positional form of the message
(`fill_eq`).  For messages that come about by writes the rest of the bookkeeping follows:
how long the array is, and what each of its elements is (`encode_laidOut`).
-/

namespace LiteChat

namespace Lite

/-! ## Cells -/

/-- An array with an element written to one of its cells, which has to be there and to be empty. -/
def writeCell (cells : List (Option Json)) (i : Nat) (e : Json) : Option (List (Option Json)) :=
  match cells[i]? with
  | some none => some (cells.set i (some e))
  | _ => none

/-- Writes elements to the cells of their ids.  Id 0 has no cell. -/
def writeEach (cells : List (Option Json)) : List (Nat × Json) → Option (List (Option Json))
  | [] => some cells
  | (id, e) :: rest =>
    if id = 0 then writeEach cells rest
    else (writeCell cells (id - 1) e).bind fun cells => writeEach cells rest

/-- Writes the slots of fields to the cells of their ids, up to the first field that lies past the
end. -/
def fillFields (cells : List (Option Json)) :
    List (Field × Slot Value) → Option (List (Option Json))
  | [] => some cells
  | (f, slot) :: rest =>
    if f.id = 0 then fillFields cells rest
    else if cells.length ≤ f.id - 1 then some cells
    else
      match encodeSlot slot with
      | none => fillFields cells rest
      | some e => (writeCell cells (f.id - 1) e).bind fun cells => fillFields cells rest

/-- The elements in the cells, null in those that have not been written to. -/
def shown (cells : List (Option Json)) : List Json := cells.map fun cell => cell.getD .null

/-- The array of a message, unless a write goes astray. -/
def fill (m : Message) : Option (List Json) :=
  ((fillFields (List.replicate m.extent none) m.entries).bind fun cells =>
    writeEach cells m.unknown).map shown

section Cells
variable {cells filled : List (Option Json)} {i : Nat} {e : Json}

theorem writeCell_eq_some_iff :
    writeCell cells i e = some filled ↔
      cells[i]? = some none ∧ filled = cells.set i (some e) := by
  unfold writeCell
  split
  · rename_i hcell
    simp [hcell, eq_comm]
  · rename_i hcell
    exact iff_of_false (fun h => nomatch h) fun h => hcell h.1

theorem length_of_writeCell (h : writeCell cells i e = some filled) :
    filled.length = cells.length := by
  rw [(writeCell_eq_some_iff.mp h).2, List.length_set]

theorem shown_set (i : Nat) : shown (cells.set i (some e)) = (shown cells).set i e := by
  simp [shown, List.map_set]

theorem writeEach_append (front back : List (Nat × Json)) :
    writeEach cells (front ++ back) =
      (writeEach cells front).bind fun cells => writeEach cells back := by
  induction front generalizing cells with
  | nil => rfl
  | cons p rest ih =>
    obtain ⟨id, e⟩ := p
    rw [List.cons_append, writeEach, writeEach]
    split
    · exact ih
    · rw [Option.bind_assoc]
      exact congrArg _ (funext fun cells => ih)

/-- Elements with an empty cell each are all written. -/
theorem exists_writeEach {elements : List (Nat × Json)}
    (hids : (elements.map Prod.fst).Nodup)
    (hempty : ∀ p ∈ elements, 0 < p.1 ∧ cells[p.1 - 1]? = some none) :
    ∃ filled, writeEach cells elements = some filled ∧
      shown filled = writeAll (shown cells) elements := by
  induction elements generalizing cells with
  | nil => exact ⟨cells, rfl, rfl⟩
  | cons p rest ih =>
    obtain ⟨id, e⟩ := p
    obtain ⟨hid, hrest⟩ := List.nodup_cons.mp hids
    obtain ⟨hpos, hcell⟩ := hempty (id, e) List.mem_cons_self
    have hwrite : writeCell cells (id - 1) e = some (cells.set (id - 1) (some e)) :=
      writeCell_eq_some_iff.mpr ⟨hcell, rfl⟩
    rw [writeEach, if_neg (by omega), hwrite, writeAll_cons, if_neg (by omega), ← shown_set]
    refine ih hrest fun q hq => ?_
    obtain ⟨hqpos, hqcell⟩ := hempty q (List.mem_cons_of_mem _ hq)
    -- the cell of another id is as it was
    have hne : q.1 ≠ id := fun he => hid (List.mem_map.mpr ⟨q, hq, he⟩)
    refine ⟨hqpos, ?_⟩
    rw [List.getElem?_set_ne (by omega)]
    exact hqcell

/-- Of fields in the order of their ids those are written that have a cell. -/
theorem fillFields_eq {entries : List (Field × Slot Value)}
    (hids : entries.Pairwise fun p q => p.1.id < q.1.id) :
    fillFields cells entries =
      writeEach cells ((encodeEntries entries).filter fun p => decide (p.1 ≤ cells.length)) := by
  induction entries generalizing cells with
  | nil => rfl
  | cons p rest ih =>
    obtain ⟨f, slot⟩ := p
    obtain ⟨hfirst, hrest⟩ := List.pairwise_cons.mp hids
    rw [fillFields]
    split
    · rename_i hzero
      rw [ih hrest, encodeEntries_cons]
      cases encodeSlot slot with
      | none => rfl
      | some e => simp [hzero, writeEach]
    · rename_i hpos
      split
      · rename_i hpast
        -- the fields that follow lie past the end, too
        have hnone : (encodeEntries ((f, slot) :: rest)).filter
            (fun p => decide (p.1 ≤ cells.length)) = [] := by
          refine List.filter_eq_nil_iff.mpr fun p hp => ?_
          obtain ⟨g, t, hg, hid, -⟩ := mem_encodeEntries.mp hp
          have hle : f.id ≤ g.id := by
            rcases List.mem_cons.mp hg with hg | hg
            · cases hg
              exact le_rfl
            · exact (hfirst _ hg).le
          simp
          omega
        rw [hnone]
        rfl
      · rename_i hin
        rw [encodeEntries_cons]
        cases encodeSlot slot with
        | none => exact ih hrest
        | some e =>
          have hle : f.id ≤ cells.length := by omega
          rw [List.filter_cons_of_pos (by simpa using hle), writeEach, if_neg hpos]
          show (writeCell cells (f.id - 1) e).bind _ = _
          cases hwrite : writeCell cells (f.id - 1) e with
          | none => rfl
          | some filled =>
            rw [← length_of_writeCell hwrite]
            exact ih hrest

end Cells

theorem writeAll_append (items : List Json) (front back : List (Nat × Json)) :
    writeAll items (front ++ back) = writeAll (writeAll items front) back :=
  List.foldl_append

/-- Writing to an array leaves out what lies past the end. -/
theorem writeAll_filter (items : List Json) (elements : List (Nat × Json)) :
    writeAll items (elements.filter fun p => decide (p.1 ≤ items.length)) =
      writeAll items elements := by
  induction elements generalizing items with
  | nil => rfl
  | cons p rest ih =>
    obtain ⟨id, e⟩ := p
    by_cases hid : id ≤ items.length
    · rw [List.filter_cons_of_pos (by simpa using hid), writeAll_cons, writeAll_cons]
      split
      · exact ih items
      · rw [← ih (items.set (id - 1) e), List.length_set]
    · rw [List.filter_cons_of_neg (by simpa using hid), writeAll_cons, if_neg (by omega),
        List.set_eq_of_length_le (by omega), ih]

/-- **No write goes astray.**  The fields and the unknown elements of a message each have a cell of
their own within the array, and what is filled in is the positional form. -/
theorem fill_eq {m : Message} {d : MessageDescriptor} (hd : d.WellFormed) (hm : m.Conforms d) :
    fill m = some (items m) := by
  have hlength : (List.replicate m.extent (none : Option Json)).length = m.extent :=
    List.length_replicate
  have hshown : shown (List.replicate m.extent none) = List.replicate m.extent Json.null :=
    List.map_replicate
  -- the fields that have a cell, and the unknown elements
  have hids : (((encodeEntries m.entries).filter (fun p => decide (p.1 ≤ m.extent)) ++
      m.unknown).map Prod.fst).Nodup :=
    (nodup_ids_items hd hm).sublist
      ((List.filter_sublist.append (List.Sublist.refl _)).map Prod.fst)
  have hempty : ∀ p ∈ (encodeEntries m.entries).filter (fun p => decide (p.1 ≤ m.extent)) ++
      m.unknown, 0 < p.1 ∧ (List.replicate m.extent (none : Option Json))[p.1 - 1]? = some none := by
    intro p hp
    have hplace : 0 < p.1 ∧ p.1 ≤ m.extent := by
      rcases List.mem_append.mp hp with hp | hp
      · obtain ⟨hmem, hle⟩ := List.mem_filter.mp hp
        obtain ⟨f, slot, hf, hid, -⟩ := mem_encodeEntries.mp hmem
        exact ⟨hid ▸ (hd.id_bounds f (hm.mem_fields hf)).1, by simpa using hle⟩
      · exact ⟨(hm.unknown_ids p hp).1, Message.id_le_extent_of_mem_unknown hp⟩
    exact ⟨hplace.1, List.getElem?_replicate_of_lt (by omega)⟩
  obtain ⟨filled, hfilled, hitems⟩ := exists_writeEach hids hempty
  have hfilter := writeAll_filter (List.replicate m.extent .null) (encodeEntries m.entries)
  rw [List.length_replicate] at hfilter
  calc fill m
      = (writeEach (List.replicate m.extent none)
          ((encodeEntries m.entries).filter (fun p => decide (p.1 ≤ m.extent)) ++
            m.unknown)).map shown := by
        rw [fill, fillFields_eq (hm.ids_increase hd), hlength, writeEach_append]
    _ = some (writeAll (writeAll (List.replicate m.extent .null)
          ((encodeEntries m.entries).filter fun p => decide (p.1 ≤ m.extent))) m.unknown) := by
        rw [hfilled, Option.map_some, hitems, hshown, writeAll_append]
    _ = some (items m) := by
        rw [hfilter, items, place_eq_writeAll, writeAll_append]

/-! ## The elements of the array -/

/-- The greatest of some ids, 0 if there are none. -/
def greatest (ids : List Nat) : Nat := ids.max?.getD 0

/-- The element that a slot is written as. -/
def slotElement : Slot Value → Json
  | .unset => .null
  | .single v => encodeValue v
  | .repeated vs => .array (vs.map encodeValue)

/-- An array has the contents of a message, each at its place. -/
structure LaidOut (m : Message) (items : List Json) : Prop where
  /-- The array ends at the last slot that is occupied, or at the last unknown element. -/
  length_eq : items.length =
    max (greatest ((m.entries.filter fun p => p.2.isOccupied).map fun p => p.1.id))
      (greatest (m.unknown.map Prod.fst))
  /-- Each write to the array is within it, and no cell is written to twice. -/
  fill_eq : fill m = some items
  /-- At the place of a field there is the element of its slot. -/
  field : ∀ i f slot, (f, slot) ∈ m.entries → f.id = i + 1 → i < items.length →
    items[i]? = some (slotElement slot)
  /-- At the place of an unknown element there is this element. -/
  unknown : ∀ i raw, (i + 1, raw) ∈ m.unknown → items[i]? = some raw
  /-- Elsewhere there is null. -/
  other : ∀ i, i < items.length → (∀ p ∈ m.entries, p.1.id ≠ i + 1) →
    (∀ p ∈ m.unknown, p.1 ≠ i + 1) → items[i]? = some .null
  /-- No occupied slot lies past the end. -/
  field_present : ∀ f slot, (f, slot) ∈ m.entries → slot.isOccupied = true →
    ∃ i, f.id = i + 1 ∧ i < items.length
  /-- Nor does an unknown element. -/
  unknown_present : ∀ p ∈ m.unknown, ∃ i, p.1 = i + 1 ∧ i < items.length

section Elements
variable {m : Message} {d : MessageDescriptor} {f : Field} {slot : Slot Value} {i : Nat} {e : Json}

theorem foldl_max_eq (l : List Nat) (n : Nat) : l.foldl max n = max n (greatest l) := by
  rw [List.foldl_max, greatest]
  cases l.max? with
  | none => simp
  | some k => rfl

theorem extent_eq (m : Message) : m.extent =
    max (greatest ((m.entries.filter fun p => p.2.isOccupied).map fun p => p.1.id))
      (greatest (m.unknown.map Prod.fst)) := by
  rw [Message.extent, List.foldl_append, foldl_max_eq, foldl_max_eq, Nat.zero_max]

theorem length_items (m : Message) : (items m).length = m.extent := by
  rw [items, place_eq_writeAll, length_writeAll, List.length_replicate]

theorem encodeSlot_eq (slot : Slot Value) :
    (slot = .unset ∧ encodeSlot slot = none) ∨ encodeSlot slot = some (slotElement slot) := by
  cases slot with
  | unset => exact Or.inl ⟨rfl, by rw [encodeSlot]⟩
  | single v => exact Or.inr (by rw [encodeSlot, slotElement])
  | repeated vs => exact Or.inr (by rw [encodeSlot, encodeValues_eq, slotElement])

theorem getElem?_items_of_mem (hd : d.WellFormed) (hm : m.Conforms d)
    (h : (i + 1, e) ∈ encodeEntries m.entries ++ m.unknown) (hi : i < m.extent) :
    (items m)[i]? = some e := by
  rw [items, place_eq_writeAll]
  exact getElem?_writeAll_of_mem (Nat.succ_pos i) (nodup_ids_items hd hm)
    (by rw [List.length_replicate]; omega) h

theorem getElem?_items_of_ne (h : ∀ p ∈ encodeEntries m.entries ++ m.unknown, p.1 ≠ i + 1)
    (hi : i < m.extent) : (items m)[i]? = some .null := by
  have hnull : (List.replicate m.extent Json.null)[i]? = some .null :=
    List.getElem?_replicate_of_lt hi
  rw [items, place_eq_writeAll, ← hnull]
  exact getElem?_writeAll_of_ne (Nat.succ_pos i) h

theorem exists_index {id n : Nat} (hpos : 0 < id) (hle : id ≤ n) : ∃ i, id = i + 1 ∧ i < n :=
  ⟨id - 1, by omega, by omega⟩

/-- The positional form of a message has its contents, each at its place. -/
theorem laidOut_items (hd : d.WellFormed) (hm : m.Conforms d) : LaidOut m (items m) where
  length_eq := by rw [length_items, extent_eq]
  fill_eq := fill_eq hd hm
  field := by
    intro i f slot hf hid hi
    rw [length_items] at hi
    rcases encodeSlot_eq slot with ⟨rfl, he⟩ | he
    · have hne := ne_id_of_encodeSlot_eq_none hd hm hf he
      rw [hid] at hne
      exact getElem?_items_of_ne hne hi
    · refine getElem?_items_of_mem hd hm (List.mem_append_left _ ?_) hi
      exact mem_encodeEntries.mpr ⟨f, slot, hf, hid, he⟩
  unknown := by
    intro i raw h
    have hle := Message.id_le_extent_of_mem_unknown h
    exact getElem?_items_of_mem hd hm (List.mem_append_right _ h) hle
  other := by
    intro i hi hfields hunknown
    rw [length_items] at hi
    refine getElem?_items_of_ne (fun p hp => ?_) hi
    rcases List.mem_append.mp hp with hp | hp
    · obtain ⟨f, slot, hf, hid, -⟩ := mem_encodeEntries.mp hp
      exact hid ▸ hfields (f, slot) hf
    · exact hunknown p hp
  field_present := by
    intro f slot hf hslot
    rw [length_items]
    exact exists_index (hd.id_bounds f (hm.mem_fields hf)).1
      (Message.id_le_extent_of_isOccupied hf hslot)
  unknown_present := by
    intro p hp
    rw [length_items]
    exact exists_index (hm.unknown_ids p hp).1 (Message.id_le_extent_of_mem_unknown hp)

end Elements

/-- **Everything in a message has one place in its positional form, and nothing else has one.**
After any row of writes to a new message of a compiled type, the array is as long as the contents
ask for, it is filled without a write past its end or a second one to the same place, and its
elements are those of the slots, the unknown elements, and null. -/
theorem encode_laidOut {source : List Char} {d : MessageDescriptor}
    (hd : d ∈ (Schema.compile source).messages) (writes : List Write) :
    ∃ items, encode ((Message.new d).writeAll writes) = .array items ∧
      LaidOut ((Message.new d).writeAll writes) items := by
  have hwf := Schema.wellFormed_of_mem_compile hd
  have hm := (Message.conforms_new d).writeAll hwf writes
  exact ⟨_, encode_eq _, laidOut_items hwf hm⟩

theorem encode_laidOut_note :
    Schema.noteType ∈ (Schema.compile Schema.noteSource).messages ∧
      ∃ items,
        encode ((Message.new Schema.noteType).writeAll
          [.insertUnknown 9 (.bool true), .setNamed "text" (.single (.string "hi")),
           .set 3 (.single (.int32 7))]) = .array items ∧
        LaidOut ((Message.new Schema.noteType).writeAll
          [.insertUnknown 9 (.bool true), .setNamed "text" (.single (.string "hi")),
           .set 3 (.single (.int32 7))]) items :=
  ⟨Schema.noteType_mem_compile, encode_laidOut Schema.noteType_mem_compile _⟩

end Lite

end LiteChat
