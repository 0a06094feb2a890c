import LiteChat.Proofs.Lite.Contents
import LiteChat.Proofs.Lite.Faults

/-!
# Arrays that are cut short or padded

An array that breaks off early is read as one with nulls in the missing places: every field is
read from its own element, so the fields in front of the cut are not touched, and those behind it
are as if they had never been written (`Message.upTo`).  The cut is an error only if it takes
away a required field, and then the first one that it takes away is named.  Nulls at the end of
an array stand for nothing (`decode_truncated`).
-/

namespace LiteChat

/-- A message with everything past an id cleared. -/
def Message.upTo (m : Message) (n : Nat) : Message where
  name := m.name
  entries := m.entries.map fun p => if p.1.id ≤ n then p else (p.1, .blank p.1.label)
  unknown := m.unknown.filter fun p => decide (p.1 ≤ n)

namespace Lite

variable {s : Schema} {d : MessageDescriptor} {elements : List Json}

/-! ## The elements that are left -/

theorem elementAt?_take (n id : Nat) (elements : List Json) :
    elementAt? 1 (elements.take n) id = if id ≤ n then elementAt? 1 elements id else none := by
  unfold elementAt?
  by_cases hpos : 1 ≤ id
  · rw [if_pos hpos, if_pos hpos, List.getElem?_take]
    by_cases hle : id ≤ n
    · rw [if_pos hle, if_pos (by omega)]
    · rw [if_neg hle, if_neg (by omega)]
      rfl
  · simp [hpos]

theorem elementAt?_append_nulls (first k id : Nat) (elements : List Json) :
    elementAt? first (elements ++ List.replicate k .null) id = elementAt? first elements id := by
  unfold elementAt?
  by_cases hle : first ≤ id
  · rw [if_pos hle, if_pos hle]
    by_cases hlt : id - first < elements.length
    · rw [List.getElem?_append_left hlt]
    · rw [List.getElem?_append_right (by omega), List.getElem?_eq_none (l := elements) (by omega),
        List.getElem?_replicate]
      split <;> rfl
  · rw [if_neg hle, if_neg hle]

/-! ## What is read from them -/

/-- Two arrays with the same elements at every id are read alike. -/
theorem readMessage_congr (hs : s.WellFormed) (hd : d.WellFormed) {framing : Framing}
    {elements elements' : List Json}
    (h : ∀ id, elementAt? framing.firstId elements id = elementAt? framing.firstId elements' id) :
    readMessage s d framing elements = readMessage s d framing elements' := by
  have hunknown : unknownFrom d framing.firstId elements =
      unknownFrom d framing.firstId elements' := by
    refine (sorted_unknownFrom d _ elements).ext (sorted_unknownFrom d _ elements') fun p => ?_
    rw [mem_unknownFrom, mem_unknownFrom, h]
  have hentries : ∀ f, readEntry s d framing.firstId elements f =
      readEntry s d framing.firstId elements' f := by
    intro f
    rw [readEntry, readEntry, readField, readField, h]
  rw [readMessage_eq hs hd, readMessage_eq hs hd, hunknown, mapM_congr fun f _ => hentries f]

theorem readField_take (f : Field) (n : Nat) :
    readField s d 1 (elements.take n) f =
      if f.id ≤ n then readField s d 1 elements f else .ok (.blank f.label) := by
  rw [readField, elementAt?_take]
  by_cases hle : f.id ≤ n
  · rw [if_pos hle, if_pos hle, readField]
  · rw [if_neg hle, if_neg hle]

theorem unknownFrom_take (n : Nat) (elements : List Json) :
    unknownFrom d 1 (elements.take n) =
      (unknownFrom d 1 elements).filter fun p => decide (p.1 ≤ n) := by
  refine (sorted_unknownFrom d 1 _).ext ((sorted_unknownFrom d 1 elements).filter _) fun p => ?_
  rw [mem_unknownFrom, List.mem_filter, mem_unknownFrom, elementAt?_take, decide_eq_true_eq]
  by_cases hle : p.1 ≤ n
  · simp [hle]
  · simp [hle]

/-- The message that is left has the fields in front of the cut. -/
theorem mapM_readEntry_take {entries : List (Field × Slot Value)} (n : Nat)
    (h : d.fields.mapM (readEntry s d 1 elements) = .ok entries) :
    d.fields.mapM (readEntry s d 1 (elements.take n)) =
      .ok (entries.map fun p => if p.1.id ≤ n then p else (p.1, .blank p.1.label)) := by
  obtain ⟨hfields, hread⟩ := mapM_readEntry_eq_ok_iff.mp h
  refine mapM_readEntry_eq_ok_iff.mpr ⟨?_, ?_⟩
  · rw [List.map_map, ← hfields]
    refine List.map_congr_left fun p _ => ?_
    simp only [Function.comp_apply]
    split <;> rfl
  · intro f slot hf
    obtain ⟨p, hp, he⟩ := List.mem_map.mp hf
    rw [readField_take]
    by_cases hle : p.1.id ≤ n
    · rw [if_pos hle] at he
      subst he
      rw [if_pos hle]
      exact hread f slot hp
    · rw [if_neg hle] at he
      cases he
      rw [if_neg hle]

/-- An array that can be read, cut short, is read as the message cleared past the cut, if that
has its required fields. -/
theorem readMessage_take (hs : s.WellFormed) (hd : d.WellFormed) {m : Message} (n : Nat)
    (h : readMessage s d .plain elements = .ok m) :
    readMessage s d .plain (elements.take n) = complete (m.upTo n) := by
  obtain ⟨hname, hfields, hread, hunknown, -⟩ := (readMessage_eq_ok_iff hs hd).mp h
  have hentries := mapM_readEntry_take n (mapM_readEntry_eq_ok_iff.mpr ⟨hfields, hread⟩)
  rw [readMessage_eq hs hd]
  change ((d.fields.mapM (readEntry s d 1 (elements.take n))).bind fun entries =>
    complete ⟨d.name, entries, unknownFrom d 1 (elements.take n)⟩) = _
  rw [hentries, unknownFrom_take]
  change complete _ = _
  rw [Message.upTo, hname, hunknown]
  rfl

/-! ## What the cut takes away -/

/-- An array that can be read has an element for each required field. -/
theorem elementAt?_ne_none_of_required (hs : s.WellFormed) (hd : d.WellFormed)
    {framing : Framing} {m : Message} {f : Field}
    (h : readMessage s d framing elements = .ok m) (hf : f ∈ d.fields)
    (hl : f.label = .required) : elementAt? framing.firstId elements f.id ≠ none := by
  obtain ⟨-, hfields, hread, -, hrequired⟩ := (readMessage_eq_ok_iff hs hd).mp h
  obtain ⟨⟨g, slot⟩, hg, rfl⟩ := List.mem_map.mp (hfields ▸ hf)
  intro habsent
  have hunset := (isUnset_iff_of_readField hl (hread g slot hg)).mpr habsent
  rw [Message.checkRequired_eq_ok_iff.mp hrequired g slot hg hl] at hunset
  cases hunset

/-- A field is the required one of least id past a position. -/
structure FirstCut (d : MessageDescriptor) (n : Nat) (f : Field) : Prop where
  mem : f ∈ d.fields
  required : f.label = .required
  past : n < f.id
  least : ∀ g ∈ d.fields, g.label = .required → n < g.id → f.id ≤ g.id

/-- The first required field that a cut array lacks is the first one past the cut. -/
theorem firstLacking_take_iff (hs : s.WellFormed) (hd : d.WellFormed) {m : Message} {n : Nat}
    {f : Field} (h : readMessage s d .plain elements = .ok m) :
    FirstLacking d 1 (elements.take n) f ↔ FirstCut d n f := by
  have habsent : ∀ g ∈ d.fields, g.label = .required →
      (elementAt? 1 (elements.take n) g.id = none ↔ n < g.id) := by
    intro g hg hl
    have hset : elementAt? 1 elements g.id ≠ none := elementAt?_ne_none_of_required hs hd h hg hl
    rw [elementAt?_take]
    by_cases hle : g.id ≤ n
    · simp [hle, hset]
    · simp [hle]
      omega
  constructor
  · rintro ⟨hf, hl, hnone, hleast⟩
    refine ⟨hf, hl, (habsent f hf hl).mp hnone, fun g hg hgl hpast => ?_⟩
    by_contra hlt
    exact hleast g hg (by omega) hgl ((habsent g hg hgl).mpr hpast)
  · rintro ⟨hf, hl, hpast, hleast⟩
    refine ⟨hf, hl, (habsent f hf hl).mpr hpast, fun g hg hlt hgl hnone => ?_⟩
    have := hleast g hg hgl ((habsent g hg hgl).mp hnone)
    omega

/-- Among the required fields past a position there is a first one. -/
theorem exists_firstCut (hd : d.WellFormed) {n : Nat}
    (h : ∃ f ∈ d.fields, f.label = .required ∧ n < f.id) : ∃ f, FirstCut d n f := by
  have hsome : (d.fields.find? fun f => decide (f.label = .required ∧ n < f.id)).isSome := by
    rw [List.find?_isSome]
    simpa using h
  obtain ⟨f, hfound⟩ := Option.isSome_iff_exists.mp hsome
  obtain ⟨hf, hcut, hleast⟩ := (Sorting.find?_eq_some_iff_least hd.ids_increase).mp hfound
  obtain ⟨hl, hpast⟩ := of_decide_eq_true hcut
  refine ⟨f, hf, hl, hpast, fun g hg hgl hgpast => ?_⟩
  by_contra hlt
  exact of_decide_eq_false (hleast g hg (by omega)) ⟨hgl, hgpast⟩

/-- The cut is an error only for the first required field past it. -/
theorem readMessage_take_eq_error_iff (hs : s.WellFormed) (hd : d.WellFormed) {m : Message}
    {n : Nat} {fault : MessageError} (h : readMessage s d .plain elements = .ok m) :
    readMessage s d .plain (elements.take n) = .error fault ↔
      ∃ f, FirstCut d n f ∧ fault = .requiredMissing d.name f.name := by
  obtain ⟨hname, hfields, hread, -, -⟩ := (readMessage_eq_ok_iff hs hd).mp h
  have hentries := mapM_readEntry_take n (mapM_readEntry_eq_ok_iff.mpr ⟨hfields, hread⟩)
  have hmissing : ∀ f, (m.upTo n).missing? = some f ↔ FirstCut d n f := fun f =>
    (missing?_eq_some_iff hd hentries).trans (firstLacking_take_iff hs hd h)
  rw [readMessage_take hs hd n h, complete_eq_error_iff]
  simp only [hmissing]
  rw [Message.upTo, hname]

/-! ## Cutting and padding -/

/-- What reading an array that is cut off behind `n` elements comes to, given the message that
the whole array is read as. -/
structure CutOff (d : MessageDescriptor) (m : Message) (n : Nat)
    (outcome : Except MessageError Message) : Prop where
  /-- The cut is an error exactly if there is a required field past it, -/
  fails_iff : (∃ fault, outcome = .error fault) ↔
    ∃ f ∈ d.fields, f.label = .required ∧ n < f.id
  /-- and the error names the first such field. -/
  fault : ∀ fault, outcome = .error fault →
    ∃ f, FirstCut d n f ∧ fault = .requiredMissing d.name f.name
  /-- If there is none, the message is read, cleared past the cut. -/
  reads : (∀ f ∈ d.fields, f.label = .required → f.id ≤ n) → outcome = .ok (m.upTo n)

theorem cutOff_readMessage (hs : s.WellFormed) (hd : d.WellFormed) {m : Message} (n : Nat)
    (h : readMessage s d .plain elements = .ok m) :
    CutOff d m n (readMessage s d .plain (elements.take n)) where
  fails_iff := by
    simp only [readMessage_take_eq_error_iff hs hd h]
    constructor
    · rintro ⟨fault, f, hf, -⟩
      exact ⟨f, hf.mem, hf.required, hf.past⟩
    · intro hpast
      obtain ⟨f, hf⟩ := exists_firstCut hd hpast
      exact ⟨_, f, hf, rfl⟩
  fault fault hfault := (readMessage_take_eq_error_iff hs hd h).mp hfault
  reads hleft := by
    cases hcut : readMessage s d .plain (elements.take n) with
    | error fault =>
      obtain ⟨f, hf, -⟩ := (readMessage_take_eq_error_iff hs hd h).mp hcut
      have hle := hleft f hf.mem hf.required
      exact absurd hf.past (by omega)
    | ok m' =>
      rw [readMessage_take hs hd n h] at hcut
      rw [(complete_eq_ok_iff.mp hcut).2]

/-- **An array can be cut short and padded.**  If an array is read as a declared message, then a
part that it begins with is read as that message cleared past the cut, unless that takes away a
required field.  Nulls behind the elements make no difference, whatever the elements are. -/
theorem decode_cutOff {source : List Char} {name : String} {d : MessageDescriptor}
    (hd : (Schema.ofSource source).message? name = some d) (items : List Json) :
    (∀ m, decode (Schema.ofSource source) name .plain (.array items) = .ok m → ∀ n,
      CutOff d m n (decode (Schema.ofSource source) name .plain (.array (items.take n)))) ∧
    ∀ k, decode (Schema.ofSource source) name .plain (.array (items ++ List.replicate k .null)) =
      decode (Schema.ofSource source) name .plain (.array items) := by
  have hs := Schema.wellFormed_ofSource source
  have hwf := hs.message name d hd
  simp only [decode_eq_readMessage hd]
  refine ⟨fun m hm n => cutOff_readMessage hs hwf n hm, fun k => ?_⟩
  exact readMessage_congr hs hwf fun id => elementAt?_append_nulls 1 k id items

/-- Behind its text a note can be cut anywhere, in front of it nowhere. -/
theorem decode_cutOff_note :
    ∃ m, decode (Schema.ofSource Schema.noteSource) "Note" .plain
        (.array [.string "hi", .bool true, .array [.int 1]]) = .ok m ∧
      CutOff Schema.noteType m 1 (decode (Schema.ofSource Schema.noteSource) "Note" .plain
        (.array [.string "hi"])) ∧
      CutOff Schema.noteType m 0 (decode (Schema.ofSource Schema.noteSource) "Note" .plain
        (.array [])) := by
  have hs := Schema.wellFormed_ofSource Schema.noteSource
  have hwf := hs.message _ _ Schema.message?_noteSource
  obtain ⟨m, hm⟩ : ∃ m, readMessage (Schema.ofSource Schema.noteSource) Schema.noteType .plain
      [.string "hi", .bool true, .array [.int 1]] = .ok m := by
    refine (exists_readMessage_iff hs hwf).mpr fun f hf => ?_
    simp only [Schema.noteType, List.mem_cons, List.not_mem_nil, or_false] at hf
    rcases hf with rfl | rfl | rfl | rfl | rfl
    · exact Or.inr ⟨_, _, rfl, .single (by decide) (.scalar rfl)⟩
    · exact Or.inr ⟨_, _, rfl, .repeated rfl (.cons rfl (.scalar rfl) .nil)⟩
    all_goals exact Or.inl ⟨rfl, by decide⟩
  rw [← decode_eq_readMessage Schema.message?_noteSource .plain] at hm
  have hcut := (decode_cutOff Schema.message?_noteSource _).1 m hm
  exact ⟨m, hm, hcut 1, hcut 0⟩

end Lite

end LiteChat
