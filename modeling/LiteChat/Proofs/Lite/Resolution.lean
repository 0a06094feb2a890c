import LiteChat.Proofs.Lite.Contents
import LiteChat.Proofs.Lite.Faults
import LiteChat.Proofs.Schema.NormalForm

/-!
# References that reading comes across

A reference is resolved when a value is read for its field, so one to a name that is not
declared does no harm until then.  `Schema.dangling` lists such references without reading
anything.  The list says exactly which names can turn out not to be declared
(`unresolved_iff_dangling`): whatever is read as a declared message, an error for an undeclared
name comes from a field on the list, and for each field on the list there is an array that fails
for it, which holds nothing but one element at the place of the field (`only`).
-/

namespace LiteChat

namespace Schema

variable {s : Schema}

theorem danglingAt?_eq_some_iff {d : MessageDescriptor} {f : Field} {r : Dangling} :
    s.danglingAt? d f = some r ↔ ∃ target, f.type = .reference target ∧
      s.resolve? target = none ∧ r = ⟨d.name, f.name, target⟩ := by
  unfold danglingAt?
  cases hf : f.type with
  | reference target =>
    cases hr : s.resolve? target <;> simp [hr, eq_comm]
  | _ => simp

/-- What is listed are the references of fields of declared messages. -/
theorem mem_dangling_iff (hsorted : Keyed.Sorted s.messages) {r : Dangling} :
    r ∈ s.dangling ↔ ∃ name d f target, s.message? name = some d ∧ f ∈ d.fields ∧
      f.type = .reference target ∧ s.resolve? target = none ∧ r = ⟨d.name, f.name, target⟩ := by
  unfold dangling
  simp only [List.mem_flatMap, List.mem_filterMap, danglingAt?_eq_some_iff]
  constructor
  · rintro ⟨⟨name, d⟩, hd, f, hf, target, ht, hr, rfl⟩
    exact ⟨name, d, f, target, (Keyed.get?_eq_some_iff hsorted).mpr hd, hf, ht, hr, rfl⟩
  · rintro ⟨name, d, f, target, hd, hf, ht, hr, rfl⟩
    exact ⟨(name, d), Keyed.mem_of_get?_eq_some hd, f, hf, target, ht, hr, rfl⟩

end Schema

namespace Lite

variable {s : Schema} {d : MessageDescriptor} {f : Field} {e : Json} {target : String}

/-! ## From the error to the reference -/

/-- Some field refers to an undeclared name. -/
def Dangles (s : Schema) (target : String) : Prop :=
  ∃ name d f, s.message? name = some d ∧ f ∈ d.fields ∧ f.type = .reference target ∧
    s.resolve? target = none

/-- An undeclared name that turns up in a message turns up in an element of one of its fields. -/
theorem exists_slot_of_unresolved (hs : s.WellFormed) (hd : d.WellFormed) {framing : Framing}
    (h : decodeAs s d framing e = .error (.unresolvedType target)) :
    ∃ items f x, e = .array items ∧ f ∈ d.fields ∧
      elementAt? framing.firstId items f.id = some x ∧
      readSlot s d f x = .error (.unresolvedType target) := by
  rcases decodeAs_eq_error_iff.mp h with ⟨items, rfl, hitems⟩ | ⟨-, hfault⟩
  · rcases (readMessage_eq_error_iff hs hd).mp hitems with
      ⟨f, hf, hfield, -⟩ | ⟨-, g, -, hfault⟩
    · obtain ⟨x, hx, hslot⟩ := readField_eq_error_iff.mp hfield
      exact ⟨items, f, x, rfl, hf, hx, hslot⟩
    · cases hfault
  · cases hfault

/-- An undeclared name that turns up in a slot turns up in one of its values. -/
theorem exists_value_of_unresolved (h : readSlot s d f e = .error (.unresolvedType target)) :
    ∃ x, sizeOf x ≤ sizeOf e ∧ readValue s d f x = .error (.unresolvedType target) := by
  rcases readSlot_eq_error_iff.mp h with
    ⟨-, items, rfl, hitems⟩ | ⟨-, -, hfault⟩ | ⟨-, hvalue⟩
  · obtain ⟨before, x, after, rfl, -, -, hx⟩ := readValues_eq_error_iff.mp hitems
    exact ⟨x, (Json.sizeOf_lt_of_mem (by simp)).le, hx⟩
  · cases hfault
  · exact ⟨e, le_rfl, hvalue⟩

/-- An undeclared name that turns up in a value is the target of its field, or turns up in the
message that the value is. -/
theorem cases_of_unresolved (h : readValue s d f e = .error (.unresolvedType target)) :
    (f.type = .reference target ∧ s.resolve? target = none) ∨
      ∃ name nested, f.type = .reference name ∧ s.resolve? name = some (.message nested) ∧
        decodeAs s nested .plain e = .error (.unresolvedType target) := by
  rcases readValue_eq_error_iff.mp h with
    ⟨name, ht, hr, hfault⟩ | ⟨_, _, -, -, -, hfault⟩ | hnested | ⟨-, -, hfault⟩
  · cases hfault
    exact Or.inl ⟨ht, hr⟩
  · cases hfault
  · exact Or.inr hnested
  · cases hfault

/-- Whatever is read as a declared message, an undeclared name is the target of a field.  The
induction is on the value that is read: a nested message is smaller than the one it is in. -/
theorem dangles_of_unresolved (hs : s.WellFormed) {name : String}
    (hd : s.message? name = some d) {framing : Framing}
    (h : decodeAs s d framing e = .error (.unresolvedType target)) : Dangles s target := by
  induction hn : sizeOf e using Nat.strong_induction_on generalizing name d framing e with
  | _ n ih =>
    obtain ⟨items, f, x, rfl, hf, hx, hslot⟩ :=
      exists_slot_of_unresolved hs (hs.message name d hd) h
    obtain ⟨y, hy, hvalue⟩ := exists_value_of_unresolved hslot
    rcases cases_of_unresolved hvalue with ⟨ht, hr⟩ | ⟨_, nested, -, hr, hnested⟩
    · exact ⟨name, d, f, hd, hf, ht, hr⟩
    · have hsmaller : sizeOf y < n :=
        hn ▸ (hy.trans_lt (sizeOf_of_elementAt? hx)).trans (Json.sizeOf_items_lt items)
      exact ih (sizeOf y) hsmaller (name_of_resolve? hs hr).1 hnested rfl

/-! ## From the reference to the error -/

/-- The array with nothing but one element, which has a given id. -/
def only (framing : Framing) (id : Nat) (e : Json) : List Json :=
  List.replicate (id - framing.firstId) .null ++ [e]

/-- An element that a field of any type looks at. -/
def probe : Label → Json
  | .repeated => .array [.bool true]
  | _ => .bool true

theorem elementAt?_only_self {framing : Framing} {id : Nat} (hid : framing.firstId ≤ id)
    (he : e.isNull = false) : elementAt? framing.firstId (only framing id e) id = some e := by
  have hlast : (only framing id e)[id - framing.firstId]? = some e := by
    simp [only]
  exact elementAt?_eq_some_iff.mpr ⟨hid, hlast, he⟩

theorem elementAt?_only_of_lt {framing : Framing} {id other : Nat} (h : other < id) :
    elementAt? framing.firstId (only framing id e) other = none := by
  by_cases hfirst : framing.firstId ≤ other
  · have hfront : other - framing.firstId < id - framing.firstId := by omega
    simp [elementAt?, hfirst, only, List.getElem?_append_left, hfront, Json.isNull]
  · exact elementAt?_of_lt (by omega) _

theorem readSlot_probe (ht : f.type = .reference target) (hr : s.resolve? target = none) :
    readSlot s d f (probe f.label) = .error (.unresolvedType target) := by
  by_cases hl : f.label = .repeated
  · have hvalues : readValues s d f [.bool true] = .error (.unresolvedType target) :=
      readValues_eq_error_iff.mpr ⟨[], .bool true, [], rfl,
        fun b hb => absurd hb List.not_mem_nil, rfl, readValue_unresolved ht hr⟩
    rw [hl]
    exact readSlot_eq_error_iff.mpr (Or.inl ⟨hl, [.bool true], rfl, hvalues⟩)
  · exact readSlot_eq_error_iff.mpr (Or.inr (Or.inr ⟨hl, readValue_unresolved ht hr⟩))

/-- The fields in front of the one that refers to an undeclared name have no element. -/
theorem decodeAs_only (hs : s.WellFormed) (hd : d.WellFormed) (framing : Framing)
    (hf : f ∈ d.fields) (ht : f.type = .reference target) (hr : s.resolve? target = none) :
    decodeAs s d framing (.array (only framing f.id (probe f.label))) =
      .error (.unresolvedType target) := by
  have hfirst : framing.firstId ≤ f.id := by
    have hpos := (hd.id_bounds f hf).1
    cases framing with
    | plain => exact hpos
    | discriminated => exact Nat.zero_le _
  have hnull : (probe f.label).isNull = false := by cases f.label <;> rfl
  refine (readMessage_eq_error_iff hs hd).mpr (Or.inl ⟨f, hf, ?_, fun g _ hlt => ?_⟩)
  · exact readField_eq_error_iff.mpr ⟨_, elementAt?_only_self hfirst hnull, readSlot_probe ht hr⟩
  · refine exists_readField_iff.mpr fun x hx => ?_
    rw [elementAt?_only_of_lt hlt] at hx
    cases hx

/-! ## The list of references -/

/-- **The references that are listed are those that reading fails for.**  A name turns out not to
be declared in some reading of a declared message exactly if it is the target of a reference on
the list; so none does exactly if the list is empty; and every reference on the list is met when
an array is read as the message that holds it. -/
theorem unresolved_iff_dangling (source : List Char) :
    (∀ target, (∃ name raw framing, ((Schema.ofSource source).message? name).isSome ∧
        decode (Schema.ofSource source) name framing raw = .error (.unresolvedType target)) ↔
      ∃ r ∈ (Schema.ofSource source).dangling, r.target = target) ∧
    ((Schema.ofSource source).dangling = [] ↔
      ¬ ∃ name raw framing target, ((Schema.ofSource source).message? name).isSome ∧
        decode (Schema.ofSource source) name framing raw = .error (.unresolvedType target)) ∧
    ∀ r ∈ (Schema.ofSource source).dangling,
      ((Schema.ofSource source).message? r.message).isSome ∧
      ∀ framing, ∃ items, decode (Schema.ofSource source) r.message framing (.array items) =
        .error (.unresolvedType r.target) := by
  have hs := Schema.wellFormed_ofSource source
  have hsorted := (Schema.readable_ofSource source).messages_sorted
  set s := Schema.ofSource source
  have hlisted : ∀ {name raw framing target}, (s.message? name).isSome →
      decode s name framing raw = .error (.unresolvedType target) →
      ∃ r ∈ s.dangling, r.target = target := by
    intro name raw framing target hname h
    obtain ⟨d, hd⟩ := Option.isSome_iff_exists.mp hname
    simp only [decode, hd] at h
    obtain ⟨name', d', f, hd', hf, ht, hr⟩ := dangles_of_unresolved hs hd h
    exact ⟨_, (Schema.mem_dangling_iff hsorted).mpr ⟨name', d', f, target, hd', hf, ht, hr, rfl⟩,
      rfl⟩
  have hmet : ∀ r ∈ s.dangling, (s.message? r.message).isSome ∧
      ∀ framing, ∃ items, decode s r.message framing (.array items) =
        .error (.unresolvedType r.target) := by
    intro r hr
    obtain ⟨name, d, f, target, hd, hf, ht, hresolve, rfl⟩ :=
      (Schema.mem_dangling_iff hsorted).mp hr
    rw [← hs.name_eq name d hd] at hd
    refine ⟨Option.isSome_iff_exists.mpr ⟨d, hd⟩, fun framing => ?_⟩
    refine ⟨only framing f.id (probe f.label), ?_⟩
    simp only [decode, hd]
    exact decodeAs_only hs (hs.message _ d hd) framing hf ht hresolve
  refine ⟨fun target => ⟨?_, ?_⟩, ⟨?_, ?_⟩, hmet⟩
  · rintro ⟨name, raw, framing, hname, h⟩
    exact hlisted hname h
  · rintro ⟨r, hr, rfl⟩
    obtain ⟨hname, h⟩ := hmet r hr
    obtain ⟨items, hitems⟩ := h .plain
    exact ⟨r.message, .array items, .plain, hname, hitems⟩
  · rintro hnil ⟨name, raw, framing, target, hname, h⟩
    obtain ⟨r, hr, -⟩ := hlisted hname h
    rw [hnil] at hr
    exact List.not_mem_nil hr
  · intro hnone
    refine List.eq_nil_iff_forall_not_mem.mpr fun r hr => hnone ?_
    obtain ⟨hname, h⟩ := hmet r hr
    obtain ⟨items, hitems⟩ := h .plain
    exact ⟨r.message, .array items, .plain, r.target, hname, hitems⟩

end Lite

end LiteChat
