import LiteChat.Proofs.Schema.Order
import LiteChat.Proofs.Sorting

/-!
# Ways of looking up

A descriptor can be asked for a field by its id, which is searched for by halving, by its name,
and through the accessor table, which has an index by name of its own.  All these ways lead to
the same field (`MessageDescriptor.Consistent`), because ids and names are kept apart while the
block is read and the fields are sorted afterwards.  An enum finds the number of each symbol, and
of the symbols of one number the one that the text declares first (`EnumDescriptor.Lists`):
sorting by numbers leaves them in the order of the text.

The registry lists a name once in each of its maps, with the last declaration of that name
(`Registered`).  Last means last in the text: behind the block of a declaration stand the blocks
of the later ones (`exists_blockIn_of_filterMap`).
-/

namespace LiteChat

open Unicode

/-! ## Messages -/

/-- Every way of looking up a field leads to the same one. -/
structure MessageDescriptor.Consistent (d : MessageDescriptor) : Prop where
  /-- Ids are positive, -/
  id_pos : ∀ f ∈ d.fields, 0 < f.id
  /-- and come in strictly increasing order. -/
  ids_increase : d.fields.Pairwise fun f g => f.id < g.id
  /-- Names are identifiers, -/
  name : ∀ f ∈ d.fields, Schema.isIdentifier f.name.toList = true
  /-- and no two fields have one name. -/
  names_differ : (d.fields.map Field.name).Nodup
  /-- An id finds the field that has it, -/
  field?_iff : ∀ id f, d.field? id = some f ↔ f ∈ d.fields ∧ f.id = id
  /-- and its place; -/
  indexOf?_iff : ∀ id i, d.indexOf? id = some i ↔ ∃ f, d.fields[i]? = some f ∧ f.id = id
  /-- at that place the field stands. -/
  field?_eq : ∀ id, d.field? id = (d.indexOf? id).bind fun i => d.fields[i]?
  /-- A name finds the field that has it, -/
  fieldNamed?_iff : ∀ name f, d.fieldNamed? name = some f ↔ f ∈ d.fields ∧ f.name = name
  /-- and in the accessor table the id of that field. -/
  idOf?_eq : ∀ name,
    (AccessorTable.ofDescriptor d).idOf? name = (d.fieldNamed? name).map Field.id
  /-- There an id finds the accessor name of the field that has it. -/
  camelNameOf?_eq : ∀ id, (AccessorTable.ofDescriptor d).camelNameOf? id =
    (d.field? id).map fun f => String.ofList (Schema.camelCase f.name.toList)
  /-- The greatest id is that of a field, if there is one, -/
  maxId_mem : d.fields = [] ∧ d.maxId = 0 ∨ ∃ f ∈ d.fields, f.id = d.maxId
  /-- and no id is greater. -/
  le_maxId : ∀ f ∈ d.fields, f.id ≤ d.maxId

namespace MessageDescriptor.WellFormed

variable {d : MessageDescriptor}

theorem indexOf?_eq_some_iff (hd : d.WellFormed) {id i : Nat} :
    d.indexOf? id = some i ↔ ∃ f, d.fields[i]? = some f ∧ f.id = id :=
  Sorting.search_eq_some_iff hd.ids_increase

/-- Going through the fields ends where halving ends. -/
theorem field?_eq_bind_indexOf? (hd : d.WellFormed) (id : Nat) :
    d.field? id = (d.indexOf? id).bind fun i => d.fields[i]? := by
  refine Option.ext fun f => ?_
  rw [hd.field?_eq_some_iff, Option.bind_eq_some_iff]
  constructor
  · rintro ⟨hf, hid⟩
    obtain ⟨i, hi⟩ := List.mem_iff_getElem?.mp hf
    exact ⟨i, hd.indexOf?_eq_some_iff.mpr ⟨f, hi, hid⟩, hi⟩
  · rintro ⟨i, hplace, hi⟩
    obtain ⟨g, hg, hid⟩ := hd.indexOf?_eq_some_iff.mp hplace
    rw [hi] at hg
    cases hg
    exact ⟨List.mem_of_getElem? hi, hid⟩

/-- The index by name agrees with going through the fields. -/
theorem idOf?_ofDescriptor (hd : d.WellFormed) (name : String) :
    (AccessorTable.ofDescriptor d).idOf? name = (d.fieldNamed? name).map Field.id := by
  have hrows : (AccessorTable.ofDescriptor d).entries.map (fun e => (e.name, e.id)) =
      d.fields.map fun f => (f.name, f.id) := by
    rw [AccessorTable.ofDescriptor, List.map_map]
    rfl
  have hkeys : ((d.fields.map fun f => (f.name, f.id)).map Prod.fst).Nodup := by
    rw [List.map_map]
    exact hd.names_differ
  rw [AccessorTable.idOf?, hrows]
  cases hfound : d.fieldNamed? name with
  | some f =>
    obtain ⟨hf, rfl⟩ := hd.fieldNamed?_eq_some_iff.mp hfound
    exact Keyed.get?_ofList_of_mem hkeys (List.mem_map_of_mem hf)
  | none =>
    by_contra hne
    obtain ⟨p, hp, rfl⟩ := Keyed.exists_mem_of_get?_ofList hne
    obtain ⟨f, hf, rfl⟩ := List.mem_map.mp hp
    rw [hd.fieldNamed?_eq_some_iff.mpr ⟨hf, rfl⟩] at hfound
    cases hfound

end MessageDescriptor.WellFormed

namespace MessageDescriptor

variable {d : MessageDescriptor}

theorem camelNameOf?_ofDescriptor (d : MessageDescriptor) (id : Nat) :
    (AccessorTable.ofDescriptor d).camelNameOf? id =
      (d.field? id).map fun f => String.ofList (Schema.camelCase f.name.toList) := by
  rw [AccessorTable.camelNameOf?, AccessorTable.ofDescriptor, List.find?_map, Option.map_map]
  rfl

theorem maxId_of_getLast? {last : Field} (h : d.fields.getLast? = some last) :
    d.maxId = last.id := by
  rw [maxId, h]
  rfl

theorem maxId_mem (d : MessageDescriptor) :
    d.fields = [] ∧ d.maxId = 0 ∨ ∃ f ∈ d.fields, f.id = d.maxId := by
  cases hlast : d.fields.getLast? with
  | none =>
    refine Or.inl ⟨List.getLast?_eq_none_iff.mp hlast, ?_⟩
    rw [maxId, hlast]
    rfl
  | some last => exact Or.inr ⟨last, List.mem_of_getLast? hlast, (maxId_of_getLast? hlast).symm⟩

theorem WellFormed.le_maxId (hd : d.WellFormed) {f : Field} (hf : f ∈ d.fields) :
    f.id ≤ d.maxId := by
  cases hlast : d.fields.getLast? with
  | none =>
    rw [List.getLast?_eq_none_iff.mp hlast] at hf
    cases hf
  | some last =>
    obtain ⟨front, hsplit⟩ := List.getLast?_eq_some_iff.mp hlast
    have hids := hd.ids_increase
    rw [hsplit] at hf hids
    rw [maxId_of_getLast? hlast]
    rcases List.mem_append.mp hf with hf | hf
    · exact ((List.pairwise_append.mp hids).2.2 f hf last (List.mem_singleton_self last)).le
    · rw [List.mem_singleton.mp hf]

theorem consistent_of_mem_compile {source : List Char}
    (h : d ∈ (Schema.compile source).messages) : d.Consistent :=
  have hd := Schema.wellFormed_of_mem_compile h
  have hread : d.Readable :=
    Schema.readable_of_mem_blocks _ (Schema.mem_blocks_of_mem_messages h)
  { id_pos := fun f hf => (hd.id_bounds f hf).1
    ids_increase := hd.ids_increase
    name := fun f hf => (hread.field f hf).proper.name
    names_differ := hd.names_differ
    field?_iff := fun _ _ => hd.field?_eq_some_iff
    indexOf?_iff := fun _ _ => hd.indexOf?_eq_some_iff
    field?_eq := hd.field?_eq_bind_indexOf?
    fieldNamed?_iff := fun _ _ => hd.fieldNamed?_eq_some_iff
    idOf?_eq := hd.idOf?_ofDescriptor
    camelNameOf?_eq := camelNameOf?_ofDescriptor d
    maxId_mem := d.maxId_mem
    le_maxId := fun _ => hd.le_maxId }

end MessageDescriptor

/-! ## Enums -/

/-- An enum finds the values that have been declared, in the order in which they were. -/
structure EnumDescriptor.Lists (e : EnumDescriptor) (values : List (Int × String)) : Prop where
  /-- Numbers come in order. -/
  numbers_increase : e.values.Pairwise fun v w => v.1 ≤ w.1
  /-- No two values have one symbol. -/
  symbols_differ : (e.values.map Prod.snd).Nodup
  /-- The values are those that have been declared. -/
  perm : e.values.Perm values
  /-- A symbol finds the number that it is declared with, -/
  numberOf?_iff : ∀ symbol n, e.numberOf? symbol = some n ↔ (n, symbol) ∈ values
  /-- and a number the first symbol that is declared with it. -/
  nameOf?_eq : ∀ n, e.nameOf? n = (values.find? fun v => decide (v.1 = n)).map Prod.snd

namespace EnumDescriptor

theorem numberOf?_eq_some_iff {e : EnumDescriptor} (h : (e.values.map Prod.snd).Nodup)
    {symbol : String} {n : Int} : e.numberOf? symbol = some n ↔ (n, symbol) ∈ e.values := by
  rw [numberOf?, Option.map_eq_some_iff]
  simp only [Keyed.find?_eq_some_iff h]
  constructor
  · rintro ⟨v, ⟨hv, rfl⟩, rfl⟩
    exact hv
  · intro hmem
    exact ⟨_, ⟨hmem, rfl⟩, rfl⟩

theorem lists_ofValues (name : String) {values : List (Int × String)}
    (h : (values.map Prod.snd).Nodup) : (EnumDescriptor.ofValues name values).Lists values := by
  have hperm : (ofValues name values).values.Perm values := Sorting.perm_sortOn Prod.fst values
  have hsymbols : ((ofValues name values).values.map Prod.snd).Nodup :=
    (hperm.map Prod.snd).nodup_iff.mpr h
  refine ⟨Sorting.pairwise_sortOn Prod.fst values, hsymbols, hperm, fun symbol n => ?_,
    fun n => ?_⟩
  · rw [numberOf?_eq_some_iff hsymbols, hperm.mem_iff]
  · exact congrArg (Option.map Prod.snd) ((Sorting.stablySorted_sortOn Prod.fst values).find?_eq n)

end EnumDescriptor

namespace Schema

/-! ## The order of the text -/

/-- The declarations of one kind come in the order of the text. -/
theorem exists_blockIn_of_filterMap {α : Type} {kind? : Block → Option α}
    (hkind : ∀ b a, kind? b = some a → b.malformed? = none) {text : List Char} {front back : List α}
    {a : α} (h : (blocks text).filterMap kind? = front ++ a :: back) :
    ∃ k name body behind, BlockIn k name body behind text ∧ kind? (readBlock k name body) = some a ∧
      (blocks behind).filterMap kind? = back := by
  obtain ⟨before, rest, hsplit, -, hrest⟩ := List.filterMap_eq_append_iff.mp h
  obtain ⟨skipped, b, after, rfl, -, hb, hafter⟩ := List.filterMap_eq_cons_iff.mp hrest
  rw [← List.append_assoc] at hsplit
  obtain ⟨k, name, body, behind, hin, -, rfl, rfl⟩ := exists_blockIn hsplit (hkind b a hb)
  exact ⟨k, name, body, behind, hin, hb, hafter⟩

/-- A message is read from a block with its name. -/
theorem eq_of_message?_readBlock {k : Keyword} {name body : List Char} {d : MessageDescriptor}
    (h : (readBlock k name body).message? = some d) :
    k = .message ∧ d.name.toList = name := by
  unfold readBlock at h
  cases k with
  | message =>
    cases hfields : readFields [] (statements body) with
    | ok fields =>
      simp only [hfields] at h
      cases h
      exact ⟨rfl, String.toList_ofList⟩
    | error fault =>
      simp only [hfields] at h
      cases h
  | enumeration =>
    cases hvalues : readValues [] (statements body) <;> simp only [hvalues] at h <;> cases h

/-- So is an enum, with the values of the block. -/
theorem eq_of_enum?_readBlock {k : Keyword} {name body : List Char} {e : EnumDescriptor}
    (h : (readBlock k name body).enum? = some e) :
    k = .enumeration ∧ e.name.toList = name ∧
      ∃ values, readValues [] (statements body) = .ok values ∧ e = .ofValues e.name values := by
  unfold readBlock at h
  cases k with
  | message =>
    cases hfields : readFields [] (statements body) <;> simp only [hfields] at h <;> cases h
  | enumeration =>
    cases hvalues : readValues [] (statements body) with
    | ok values =>
      simp only [hvalues] at h
      cases h
      exact ⟨rfl, String.toList_ofList, values, rfl, rfl⟩
    | error fault =>
      simp only [hvalues] at h
      cases h

/-! ## The registry -/

/-- What the registry of a text leads to. -/
structure Registered (source : List Char) : Prop where
  /-- A message name leads to the last message of that name, -/
  message?_iff : ∀ name d, (ofSource source).message? name = some d ↔
    Keyed.LastOf MessageDescriptor.name name (compile source).messages d
  /-- and to the accessor table of the same message. -/
  tables_eq : ∀ name, Keyed.get? name (tables (compile source)) =
    ((ofSource source).message? name).map AccessorTable.ofDescriptor
  /-- An enum name leads to the last enum of that name. -/
  enum?_iff : ∀ name e, (ofSource source).enum? name = some e ↔
    Keyed.LastOf EnumDescriptor.name name (compile source).enums e
  /-- A message is read from a block of its name, and the later ones stand behind it. -/
  message_order : ∀ front d back, (compile source).messages = front ++ d :: back →
    ∃ body behind, BlockIn .message d.name.toList body behind (stripComments source) ∧
      readBlock .message d.name.toList body = .message d ∧
      (Compiled.ofBlocks (blocks behind)).messages = back

theorem registered (source : List Char) : Registered source where
  message?_iff _ _ := Keyed.get?_ofList_eq_some_iff
  tables_eq := get?_tables (compile source)
  enum?_iff _ _ := Keyed.get?_ofList_eq_some_iff
  message_order front d back h := by
    obtain ⟨k, name, body, behind, hin, hread, hback⟩ :=
      exists_blockIn_of_filterMap (fun b d hb => by rw [Block.message?_eq_some_iff.mp hb]; rfl) h
    obtain ⟨rfl, rfl⟩ := eq_of_message?_readBlock hread
    exact ⟨body, behind, hin, Block.message?_eq_some_iff.mp hread, hback⟩

/-- An enum finds the values of a block of its name, and the later enums stand behind it. -/
theorem exists_lists {source : List Char} {front back : List EnumDescriptor} {e : EnumDescriptor}
    (h : (compile source).enums = front ++ e :: back) :
    ∃ body behind values,
      BlockIn .enumeration e.name.toList body behind (stripComments source) ∧
      (Compiled.ofBlocks (blocks behind)).enums = back ∧
      List.Forall₂ (fun row v => readValue row = .ok v) (statements body) values ∧
      e.Lists values := by
  obtain ⟨k, name, body, behind, hin, hread, hback⟩ :=
    exists_blockIn_of_filterMap (fun b e hb => by rw [Block.enum?_eq_some_iff.mp hb]; rfl) h
  obtain ⟨rfl, rfl, values, hvalues, he⟩ := eq_of_enum?_readBlock hread
  obtain ⟨hread, hsymbols⟩ := readValues_nil_eq_ok_iff.mp hvalues
  refine ⟨body, behind, values, hin, hback, hread.flip, ?_⟩
  rw [he]
  exact EnumDescriptor.lists_ofValues e.name hsymbols

/-- **All ways of looking up agree.**  In every message that a text is compiled to, an id and a
name lead to the same field by every way.  In every enum a symbol leads to its number, and a
number to the first symbol that the text declares with it.  The registry leads from a name to the
last declaration of it in the text, and to the accessor table of that one. -/
theorem compile_lookups (source : List Char) :
    (∀ d ∈ (compile source).messages, d.Consistent) ∧
    (∀ front e back, (compile source).enums = front ++ e :: back → ∃ body behind values,
      BlockIn .enumeration e.name.toList body behind (stripComments source) ∧
      (Compiled.ofBlocks (blocks behind)).enums = back ∧
      List.Forall₂ (fun row v => readValue row = .ok v) (statements body) values ∧
      e.Lists values) ∧
    Registered source :=
  ⟨fun _ hd => MessageDescriptor.consistent_of_mem_compile hd, fun _ _ _ he => exists_lists he,
    registered source⟩

/-- A text with two symbols of one number, and a message that is declared twice. -/
def aliasSource : List Char :=
  ("enum Mode \x7b ON = 1; AUTO = 1; OFF = 0; \x7d message M \x7b optional int32 a = 1; \x7d " ++
    "message M \x7b required Mode b_c = 7; optional string a = 2; \x7d").toList

/-- The enum of that text. -/
def aliasMode : EnumDescriptor := ⟨"Mode", [(0, "OFF"), (1, "ON"), (1, "AUTO")]⟩

/-- The message as it is declared first. -/
def aliasFirst : MessageDescriptor := ⟨"M", [⟨1, "a", .int32, .optional⟩]⟩

/-- The message as it is declared last. -/
def aliasLast : MessageDescriptor :=
  ⟨"M", [⟨2, "a", .string, .optional⟩, ⟨7, "b_c", .reference "Mode", .required⟩]⟩

theorem compile_aliasSource : compile aliasSource = ⟨[aliasMode], [aliasFirst, aliasLast], []⟩ := by
  unfold aliasSource
  rw [String.toList_append, String.toList_ofList, String.toList_ofList]
  decide +kernel

theorem compile_lookups_aliasSource :
    aliasLast.Consistent ∧
      (∃ body values, List.Forall₂ (fun row v => readValue row = .ok v) (statements body) values ∧
        aliasMode.Lists values) ∧
      (ofSource aliasSource).message? "M" = some aliasLast ∧
      Keyed.get? "M" (tables (compile aliasSource)) = some (.ofDescriptor aliasLast) := by
  obtain ⟨hmessages, henums, hregistry⟩ := compile_lookups aliasSource
  have hlast : (ofSource aliasSource).message? "M" = some aliasLast := by
    refine (hregistry.message?_iff "M" aliasLast).mpr ⟨[aliasFirst], [], ?_, rfl, by simp⟩
    rw [compile_aliasSource]
    rfl
  have hmode : (compile aliasSource).enums = [] ++ aliasMode :: [] := by
    rw [compile_aliasSource]
    rfl
  obtain ⟨body, -, values, -, -, hrows, hlists⟩ := henums [] aliasMode [] hmode
  refine ⟨hmessages aliasLast ?_, ⟨body, values, hrows, hlists⟩, hlast, ?_⟩
  · rw [compile_aliasSource]
    simp
  · rw [hregistry.tables_eq, hlast]
    rfl

/-- The number of the alias is called by the symbol that comes first in the text. -/
example : aliasMode.nameOf? 1 = some "ON" ∧ aliasMode.numberOf? "AUTO" = some 1 := by decide

end Schema

end LiteChat
