import LiteChat.Lite.Encode
import LiteChat.Proofs.Lite.Position

/-!
# Where a message puts its elements

The positional form of a message has the element of every occupied slot and every unknown
element at the place of its id, because no two of them share an id and the array is long
enough for all (`elementAt?_items_of_single`, `elementAt?_items_of_repeated`,
`elementAt?_items_of_undeclared`).  An empty list is the one thing that may lie past the end,
where it reads as the empty list it is.
-/

namespace LiteChat

/-! ## The length -/

theorem le_foldl_max {l : List Nat} {n init : Nat} (h : n ∈ l ∨ n ≤ init) :
    n ≤ l.foldl max init := by
  induction l generalizing init with
  | nil => exact h.resolve_left List.not_mem_nil
  | cons k rest ih =>
    refine ih ?_
    rcases h with h | h
    · rcases List.mem_cons.mp h with rfl | h
      · exact Or.inr (le_max_right _ _)
      · exact Or.inl h
    · exact Or.inr (h.trans (le_max_left _ _))

namespace Message

variable {m : Message}

theorem id_le_extent_of_isOccupied {f : Field} {slot : Slot Value} (h : (f, slot) ∈ m.entries)
    (hslot : slot.isOccupied = true) : f.id ≤ m.extent :=
  le_foldl_max (Or.inl (List.mem_append_left _
    (List.mem_map.mpr ⟨_, List.mem_filter.mpr ⟨h, hslot⟩, rfl⟩)))

theorem id_le_extent_of_mem_unknown {p : Nat × Json} (h : p ∈ m.unknown) : p.1 ≤ m.extent :=
  le_foldl_max (Or.inl (List.mem_append_right _ (List.mem_map_of_mem h)))

end Message

namespace Lite

/-! ## Placing elements -/

section Place

/-- The array after the elements have been written to it one by one. -/
def writeAll (items : List Json) (elements : List (Nat × Json)) : List Json :=
  elements.foldl (fun items e => if e.1 = 0 then items else items.set (e.1 - 1) e.2) items

variable {items : List Json} {elements : List (Nat × Json)} {id : Nat}

theorem writeAll_cons (id : Nat) (e : Json) :
    writeAll items ((id, e) :: elements) =
      writeAll (if id = 0 then items else items.set (id - 1) e) elements :=
  rfl

theorem length_writeAll : (writeAll items elements).length = items.length := by
  induction elements generalizing items with
  | nil => rfl
  | cons p rest ih =>
    rw [writeAll_cons, ih]
    split
    · rfl
    · exact List.length_set ..

/-- A place that is not written to stays as it was. -/
theorem getElem?_writeAll_of_ne (hid : 0 < id) (h : ∀ p ∈ elements, p.1 ≠ id) :
    (writeAll items elements)[id - 1]? = items[id - 1]? := by
  induction elements generalizing items with
  | nil => rfl
  | cons p rest ih =>
    rw [writeAll_cons, ih fun q hq => h q (List.mem_cons_of_mem _ hq)]
    split
    · rfl
    · have hne := h p (List.mem_cons_self ..)
      exact List.getElem?_set_ne (by omega)

/-- A place that is written to once holds what was written. -/
theorem getElem?_writeAll_of_mem {e : Json} (hid : 0 < id)
    (hnodup : (elements.map Prod.fst).Nodup) (hlength : id ≤ items.length)
    (h : (id, e) ∈ elements) : (writeAll items elements)[id - 1]? = some e := by
  induction elements generalizing items with
  | nil => cases h
  | cons p rest ih =>
    rw [List.map_cons, List.nodup_cons] at hnodup
    rw [writeAll_cons]
    rcases List.mem_cons.mp h with rfl | h
    · have hrest : ∀ q ∈ rest, q.1 ≠ id := fun q hq he =>
        hnodup.1 (List.mem_map.mpr ⟨q, hq, he⟩)
      rw [getElem?_writeAll_of_ne hid hrest, if_neg hid.ne', List.getElem?_set_self (by omega)]
    · refine ih hnodup.2 ?_ h
      split
      · exact hlength
      · rwa [List.length_set]

theorem place_eq_writeAll (length : Nat) :
    place length elements = writeAll (List.replicate length .null) elements :=
  rfl

theorem elementAt?_one (hid : 0 < id) :
    elementAt? 1 items id = items[id - 1]?.filter fun e => !e.isNull :=
  if_pos hid

theorem elementAt?_place_of_ne {length : Nat} (h : ∀ p ∈ elements, p.1 ≠ id) :
    elementAt? 1 (place length elements) id = none := by
  rcases Nat.eq_zero_or_pos id with rfl | hid
  · exact elementAt?_of_lt one_pos _
  · rw [elementAt?_one hid, place_eq_writeAll, getElem?_writeAll_of_ne hid h,
      List.getElem?_replicate]
    split <;> rfl

theorem elementAt?_place_of_mem {length : Nat} {e : Json} (hid : 0 < id)
    (hnodup : (elements.map Prod.fst).Nodup) (h : (id, e) ∈ elements) :
    elementAt? 1 (place length elements) id =
      if id ≤ length ∧ e.isNull = false then some e else none := by
  rw [elementAt?_one hid, place_eq_writeAll]
  rcases Nat.lt_or_ge length id with hlt | hle
  · rw [List.getElem?_eq_none (by rw [length_writeAll, List.length_replicate]; omega),
      if_neg fun h => hlt.not_ge h.1]
    rfl
  · rw [getElem?_writeAll_of_mem hid hnodup (by rwa [List.length_replicate]) h]
    cases he : e.isNull <;> simp [he, hle]

end Place

/-! ## The elements of a message -/

/-- The elements of the positional form. -/
def items (m : Message) : List Json := place m.extent (encodeEntries m.entries ++ m.unknown)

theorem encode_eq (m : Message) : encode m = .array (items m) := by
  cases m
  rw [encode, items]

theorem encodeValues_eq (vs : List Value) : encodeValues vs = vs.map encodeValue := by
  induction vs with
  | nil => rw [encodeValues, List.map_nil]
  | cons v rest ih => rw [encodeValues, ih, List.map_cons]

theorem mem_encodeEntries {entries : List (Field × Slot Value)} {id : Nat} {e : Json} :
    (id, e) ∈ encodeEntries entries ↔
      ∃ f slot, (f, slot) ∈ entries ∧ f.id = id ∧ encodeSlot slot = some e := by
  induction entries with
  | nil =>
    constructor
    · intro h
      cases h
    · rintro ⟨f, slot, hf, -⟩
      cases hf
  | cons p rest ih =>
    obtain ⟨f, slot⟩ := p
    rw [encodeEntries_cons]
    cases hslot : encodeSlot slot with
    | none =>
      simp only [ih, List.mem_cons, Prod.mk.injEq]
      constructor
      · rintro ⟨g, t, hg, hid, ht⟩
        exact ⟨g, t, Or.inr hg, hid, ht⟩
      · rintro ⟨g, t, ⟨rfl, rfl⟩ | hg, hid, ht⟩
        · rw [hslot] at ht
          cases ht
        · exact ⟨g, t, hg, hid, ht⟩
    | some x =>
      simp only [ih, List.mem_cons, Prod.mk.injEq]
      constructor
      · rintro (⟨rfl, rfl⟩ | ⟨g, t, hg, hid, ht⟩)
        · exact ⟨f, slot, Or.inl ⟨rfl, rfl⟩, rfl, hslot⟩
        · exact ⟨g, t, Or.inr hg, hid, ht⟩
      · rintro ⟨g, t, ⟨rfl, rfl⟩ | hg, hid, ht⟩
        · rw [hslot] at ht
          cases ht
          exact Or.inl ⟨hid.symm, rfl⟩
        · exact Or.inr ⟨g, t, hg, hid, ht⟩

theorem map_fst_encodeEntries_sublist (entries : List (Field × Slot Value)) :
    ((encodeEntries entries).map Prod.fst).Sublist (entries.map fun p => p.1.id) := by
  induction entries with
  | nil => exact .slnil
  | cons p rest ih =>
    obtain ⟨f, slot⟩ := p
    rw [encodeEntries_cons]
    cases encodeSlot slot with
    | none => exact ih.cons _
    | some e => exact ih.cons_cons _

section Items
variable {m : Message} {d : MessageDescriptor} {f : Field} {slot : Slot Value} {id : Nat}

theorem nodup_ids_items (hd : d.WellFormed) (hm : m.Conforms d) :
    ((encodeEntries m.entries ++ m.unknown).map Prod.fst).Nodup := by
  rw [List.map_append]
  exact (hm.nodup_ids hd).sublist
    ((map_fst_encodeEntries_sublist m.entries).append (List.Sublist.refl _))

/-- The element of a field, as far as the array reaches and the element is not null. -/
theorem elementAt?_items_of_some (hd : d.WellFormed) (hm : m.Conforms d)
    (hf : (f, slot) ∈ m.entries) {e : Json} (he : encodeSlot slot = some e) :
    elementAt? 1 (items m) f.id =
      if f.id ≤ m.extent ∧ e.isNull = false then some e else none := by
  have hmem : (f.id, e) ∈ encodeEntries m.entries ++ m.unknown :=
    List.mem_append_left _ (mem_encodeEntries.mpr ⟨f, slot, hf, rfl, he⟩)
  rw [items, elementAt?_place_of_mem (hd.id_bounds f (hm.mem_fields hf)).1
    (nodup_ids_items hd hm) hmem]

/-- The one value of a field stands at its place, unless JSON has no form for it. -/
theorem elementAt?_items_of_single (hd : d.WellFormed) (hm : m.Conforms d) {v : Value}
    (hf : (f, .single v) ∈ m.entries) :
    elementAt? 1 (items m) f.id =
      if (encodeValue v).isNull = false then some (encodeValue v) else none := by
  have hle : f.id ≤ m.extent := Message.id_le_extent_of_isOccupied hf rfl
  simp only [elementAt?_items_of_some hd hm hf rfl, hle, true_and]

/-- The values of a field stand at its place, unless there are none and the array is not that
long. -/
theorem elementAt?_items_of_repeated (hd : d.WellFormed) (hm : m.Conforms d) {vs : List Value}
    (hf : (f, .repeated vs) ∈ m.entries) :
    elementAt? 1 (items m) f.id = some (.array (vs.map encodeValue)) ∨
      vs = [] ∧ elementAt? 1 (items m) f.id = none := by
  rw [elementAt?_items_of_some hd hm hf rfl, encodeValues_eq]
  by_cases hle : f.id ≤ m.extent
  · exact Or.inl (if_pos ⟨hle, rfl⟩)
  · refine Or.inr ⟨?_, if_neg fun h => hle h.1⟩
    cases vs with
    | nil => rfl
    | cons v rest => exact absurd (Message.id_le_extent_of_isOccupied hf rfl) hle

/-- Nothing is written at the place of a slot without an element. -/
theorem ne_id_of_encodeSlot_eq_none (hd : d.WellFormed) (hm : m.Conforms d)
    (hf : (f, slot) ∈ m.entries) (he : encodeSlot slot = none) :
    ∀ p ∈ encodeEntries m.entries ++ m.unknown, p.1 ≠ f.id := by
  intro p hp hid
  rcases List.mem_append.mp hp with hp | hp
  · -- the only slot of this id is the one without an element
    obtain ⟨g, t, hg, hgid, ht⟩ := mem_encodeEntries.mp hp
    have hgf := hd.eq_of_id_eq (hm.mem_fields hg) (hm.mem_fields hf) (hgid.trans hid)
    rw [hgf] at hg
    rw [hm.slot_unique hd hg hf, he] at ht
    cases ht
  · exact MessageDescriptor.field?_eq_none_iff.mp (hm.unknown_ids p hp).2.2 f
      (hm.mem_fields hf) hid.symm

theorem elementAt?_items_of_none (hd : d.WellFormed) (hm : m.Conforms d)
    (hf : (f, slot) ∈ m.entries) (he : encodeSlot slot = none) :
    elementAt? 1 (items m) f.id = none :=
  elementAt?_place_of_ne (ne_id_of_encodeSlot_eq_none hd hm hf he)

/-- An unknown element goes back to where it came from, unless it is null. -/
theorem elementAt?_items_of_undeclared (hd : d.WellFormed) (hm : m.Conforms d)
    (hid : d.field? id = none) (e : Json) :
    elementAt? 1 (items m) id = some e ↔ (id, e) ∈ m.unknown ∧ e.isNull = false := by
  by_cases hmem : ∃ x, (id, x) ∈ m.unknown
  · obtain ⟨x, hx⟩ := hmem
    rw [items, elementAt?_place_of_mem (hm.unknown_ids _ hx).1 (nodup_ids_items hd hm)
      (List.mem_append_right _ hx)]
    have hle : id ≤ m.extent := Message.id_le_extent_of_mem_unknown hx
    have hunique : (id, e) ∈ m.unknown ↔ e = x := by
      rw [← Keyed.get?_eq_some_iff hm.unknown_sorted, (Keyed.get?_eq_some_iff hm.unknown_sorted).mpr hx,
        Option.some.injEq, eq_comm]
    rw [hunique]
    split
    · rename_i h
      simp only [Option.some.injEq]
      constructor
      · rintro rfl
        exact ⟨rfl, h.2⟩
      · rintro ⟨rfl, -⟩
        rfl
    · rename_i h
      constructor
      · intro he
        cases he
      · rintro ⟨rfl, hnull⟩
        exact absurd ⟨hle, hnull⟩ h
  · have hnone : elementAt? 1 (items m) id = none := by
      refine elementAt?_place_of_ne fun p hp he => ?_
      rcases List.mem_append.mp hp with hp | hp
      · obtain ⟨g, t, hg, hgid, -⟩ := mem_encodeEntries.mp hp
        exact MessageDescriptor.field?_eq_none_iff.mp hid g (hm.mem_fields hg) (hgid.trans he)
      · exact hmem ⟨p.2, he ▸ hp⟩
    rw [hnone]
    constructor
    · intro h
      cases h
    · rintro ⟨h, -⟩
      exact absurd ⟨e, h⟩ hmem

end Items

end Lite

end LiteChat
