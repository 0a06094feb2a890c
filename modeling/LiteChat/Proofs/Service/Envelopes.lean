import Mathlib
import LiteChat.Proofs.Service.Tags

/-!
# What an envelope brings

An envelope is an object, or an object whose key `p` holds the text of one (`Unwraps`); a value
that is neither is the only thing that fails an envelope as a whole (`BadWrapper`).  Each of the
two tags that count has its own outcome, so an envelope accounts for its tags (`Accounts`), what
becomes of a tag depends on the contents of that tag alone, and a wrapper leaves no trace
(`decode_envelope`).
-/

namespace LiteChat.Envelope

/-! ## The wrapper -/

/-- The object of an envelope. -/
inductive Unwraps : Json → List (String × Json) → Prop
  /-- An object without the key of the wrapper is the envelope itself. -/
  | bare {members : List (String × Json)} (h : Keyed.get? "p" members = none) :
    Unwraps (.object members) members
  /-- Under the key of the wrapper stands the text of the envelope. -/
  | wrapped {members inner : List (String × Json)} {text : String}
      (h : Keyed.get? "p" members = some (.string text))
      (htext : Json.ofText? text = some (.object inner)) :
    Unwraps (.object members) inner

/-- The values that hold no envelope. -/
inductive BadWrapper : Json → Prop
  /-- The value is no object. -/
  | notObject {raw : Json} (h : ∀ members, raw ≠ .object members) : BadWrapper raw
  /-- The wrapper is no string. -/
  | notString {members : List (String × Json)} {wrapper : Json}
      (h : Keyed.get? "p" members = some wrapper) (hwrapper : ∀ text, wrapper ≠ .string text) :
    BadWrapper (.object members)
  /-- The wrapper is not the text of an object. -/
  | notText {members : List (String × Json)} {text : String}
      (h : Keyed.get? "p" members = some (.string text))
      (htext : ∀ inner, Json.ofText? text ≠ some (.object inner)) :
    BadWrapper (.object members)

theorem unwrap_of_unwraps {raw : Json} {inner : List (String × Json)} (h : Unwraps raw inner) :
    unwrap raw = .ok inner := by
  cases h with
  | bare h => simp only [unwrap, h]
  | wrapped h htext => simp only [unwrap, h, htext]

theorem unwrap_of_badWrapper {raw : Json} (h : BadWrapper raw) : ∃ e, unwrap raw = .error e := by
  cases h with
  | notObject h =>
    cases raw with
    | object members => exact absurd rfl (h members)
    | _ => exact ⟨_, rfl⟩
  | @notString members wrapper h hwrapper =>
    cases wrapper with
    | string text => exact absurd rfl (hwrapper text)
    | _ =>
      simp only [unwrap, h]
      exact ⟨_, rfl⟩
  | @notText members text h htext =>
    simp only [unwrap, h]
    cases hread : Json.ofText? text with
    | none => exact ⟨_, rfl⟩
    | some value =>
      cases value with
      | object inner => exact absurd hread (htext inner)
      | _ => exact ⟨_, rfl⟩

/-- Every value holds an envelope or none. -/
theorem unwraps_or_badWrapper (raw : Json) : (∃ inner, Unwraps raw inner) ∨ BadWrapper raw := by
  by_cases hobject : ∃ members, raw = .object members
  · obtain ⟨members, rfl⟩ := hobject
    cases hwrapper : Keyed.get? "p" members with
    | none => exact Or.inl ⟨members, .bare hwrapper⟩
    | some wrapper =>
      by_cases hstring : ∃ text, wrapper = .string text
      · obtain ⟨text, rfl⟩ := hstring
        by_cases htext : ∃ inner, Json.ofText? text = some (.object inner)
        · obtain ⟨inner, htext⟩ := htext
          exact Or.inl ⟨inner, .wrapped hwrapper htext⟩
        · exact Or.inr (.notText hwrapper fun inner h => htext ⟨inner, h⟩)
      · exact Or.inr (.notString hwrapper fun text h => hstring ⟨text, h⟩)
  · exact Or.inr (.notObject fun members h => hobject ⟨members, h⟩)

theorem decode_of_unwraps (s : Schema) {raw : Json} {inner : List (String × Json)}
    (h : Unwraps raw inner) : decode s raw = .ok (ofMembers s inner) := by
  rw [decode, unwrap_of_unwraps h]
  rfl

theorem fails_iff_badWrapper (s : Schema) (raw : Json) :
    (∃ e, decode s raw = .error e) ↔ BadWrapper raw := by
  constructor
  · rintro ⟨e, he⟩
    refine (unwraps_or_badWrapper raw).resolve_left ?_
    rintro ⟨inner, hinner⟩
    rw [decode_of_unwraps s hinner] at he
    cases he
  · intro h
    obtain ⟨e, he⟩ := unwrap_of_badWrapper h
    exact ⟨e, by rw [decode, he]; rfl⟩

/-! ## The envelope as a whole -/

/-- Whether a tag is delivered. -/
def delivers (e : Envelope) : Tag → Bool
  | .clientId => e.clientId.isSome
  | .payload => e.push.isSome

/-- The errors that are listed for a tag. -/
def rejections (e : Envelope) (tag : Tag) : List PayloadError :=
  (e.rejected.filter fun p => decide (p.1 = tag)).map Prod.snd

/-- An envelope accounts for the tags of an object. -/
structure Accounts (s : Schema) (members : List (String × Json)) (e : Envelope) : Prop where
  /-- A tag that is there is delivered and not listed, or listed once and not delivered. -/
  present : ∀ tag : Tag, (Keyed.get? tag.key members).isSome = true →
    (e.delivers tag = true ∧ e.rejections tag = []) ∨
      (e.delivers tag = false ∧ ∃ err, e.rejections tag = [err])
  /-- A tag that is not there is neither. -/
  absent : ∀ tag : Tag, Keyed.get? tag.key members = none →
    e.delivers tag = false ∧ e.rejections tag = []
  /-- Nothing else is listed, and the client id first. -/
  order : (e.rejected.map Prod.fst).Sublist [.clientId, .payload]
  /-- The client id is the text in tag 3. -/
  clientId_iff : ∀ id, e.clientId = some id ↔
    ∃ tag, Keyed.get? "3" members = some tag ∧ tag.get? "2" = some (.string id)
  /-- A batch is that of the payload whose text is in tag 2. -/
  batch_iff : ∀ updates, e.push = some (.batch updates) ↔
    ∃ tag text payload, Keyed.get? "2" members = some tag ∧ tag.get? "2" = some (.string text) ∧
      Json.ofText? text = some payload ∧ decodeBatch s payload = .ok updates
  /-- A payload with another discriminator is ignored. -/
  ignored_iff : ∀ discriminator, e.push = some (.ignored discriminator) ↔
    ∃ tag text payload, Keyed.get? "2" members = some tag ∧ tag.get? "2" = some (.string text) ∧
      Json.ofText? text = some payload ∧
      decodeBatch s payload = .error (.unrecognized discriminator)

/-- The parts of an envelope are the outcomes of its tags. -/
theorem exists_outcomes (s : Schema) (members : List (String × Json)) :
    ∃ badId badPush,
      Outcome .clientId decodeClientId (Keyed.get? "3" members) (ofMembers s members).clientId
        badId ∧
      Outcome .payload (decodePush s) (Keyed.get? "2" members) (ofMembers s members).push
        badPush ∧
      (ofMembers s members).rejected = badId ++ badPush :=
  ⟨_, _, readTag_outcome .clientId members decodeClientId,
    readTag_outcome .payload members (decodePush s), rfl⟩

/-- The errors of a tag are those that its outcome lists. -/
theorem rejections_ofMembers {s : Schema} {members : List (String × Json)}
    {badId badPush : List (Tag × PayloadError)} {id : Option String} {push : Option PushEvent}
    (hid : Outcome .clientId decodeClientId (Keyed.get? "3" members) id badId)
    (hpush : Outcome .payload (decodePush s) (Keyed.get? "2" members) push badPush)
    (hrejected : (ofMembers s members).rejected = badId ++ badPush) :
    (ofMembers s members).rejections .clientId = badId.map Prod.snd ∧
      (ofMembers s members).rejections .payload = badPush.map Prod.snd := by
  constructor
  · rw [rejections, hrejected, List.filter_append, hid.filter_self,
      hpush.filter_other (by decide), List.append_nil]
  · rw [rejections, hrejected, List.filter_append, hpush.filter_self,
      hid.filter_other (by decide), List.nil_append]

/-- A payload that is read is delivered. -/
theorem push_of_decodePush {s : Schema} {members : List (String × Json)} {tag : Json}
    (htag : Keyed.get? "2" members = some tag) {push : PushEvent}
    (h : decodePush s tag = .ok push) :
    (ofMembers s members).push = some push ∧ (ofMembers s members).rejections .payload = [] := by
  obtain ⟨badId, badPush, hid, hpush, hrejected⟩ := exists_outcomes s members
  obtain ⟨-, hlisted⟩ := rejections_ofMembers hid hpush hrejected
  rw [htag] at hpush
  obtain ⟨hdelivered, rfl⟩ := hpush.unique (.delivered h)
  exact ⟨hdelivered, hlisted⟩

/-- A payload that cannot be read is listed once. -/
theorem rejections_of_decodePush {s : Schema} {members : List (String × Json)} {tag : Json}
    (htag : Keyed.get? "2" members = some tag) {e : PayloadError}
    (h : decodePush s tag = .error e) :
    (ofMembers s members).push = none ∧ (ofMembers s members).rejections .payload = [e] := by
  obtain ⟨badId, badPush, hid, hpush, hrejected⟩ := exists_outcomes s members
  obtain ⟨-, hlisted⟩ := rejections_ofMembers hid hpush hrejected
  rw [htag] at hpush
  obtain ⟨hdelivered, rfl⟩ := hpush.unique (.rejected h)
  exact ⟨hdelivered, hlisted⟩

theorem accounts_ofMembers (s : Schema) (members : List (String × Json)) :
    Accounts s members (ofMembers s members) := by
  obtain ⟨badId, badPush, hid, hpush, hrejected⟩ := exists_outcomes s members
  obtain ⟨hbadId, hbadPush⟩ := rejections_ofMembers hid hpush hrejected
  refine ⟨fun tag => ?_, fun tag => ?_, ?_, fun id => ?_, fun updates => ?_,
    fun discriminator => ?_⟩
  · cases tag with
    | clientId =>
      rw [hbadId]
      exact hid.accounts.1
    | payload =>
      rw [hbadPush]
      exact hpush.accounts.1
  · cases tag with
    | clientId =>
      rw [hbadId]
      exact hid.accounts.2
    | payload =>
      rw [hbadPush]
      exact hpush.accounts.2
  · rw [hrejected, List.map_append]
    exact hid.tags_sublist.append hpush.tags_sublist
  · simp only [hid.delivered_eq_some_iff, decodeClientId_eq_ok_iff]
  · rw [hpush.delivered_eq_some_iff]
    simp [decodePush_eq_ok_iff]
  · rw [hpush.delivered_eq_some_iff]
    simp [decodePush_eq_ok_iff]

/-- **Tags are read independently, and a wrapper leaves no trace.**  An envelope fails only if it
has no proper wrapper.  Otherwise it accounts for the tags of its object; the client id and what is
listed of tag 3 depend on tag 3 alone, the payload and what is listed of tag 2 on tag 2 alone; and
whatever text wraps an object, with whatever other keys beside it, the envelope is that of the bare
object. -/
theorem decode_envelope (s : Schema) :
    (∀ raw, (∃ e, decode s raw = .error e) ↔ BadWrapper raw) ∧
    (∀ raw, ¬ BadWrapper raw → ∃ members e,
      Unwraps raw members ∧ decode s raw = .ok e ∧ Accounts s members e) ∧
    (∀ raw raw' members members' e e', Unwraps raw members → Unwraps raw' members' →
      decode s raw = .ok e → decode s raw' = .ok e' →
      (Keyed.get? "3" members = Keyed.get? "3" members' →
        e.clientId = e'.clientId ∧ e.rejections .clientId = e'.rejections .clientId) ∧
      (Keyed.get? "2" members = Keyed.get? "2" members' →
        e.push = e'.push ∧ e.rejections .payload = e'.rejections .payload)) ∧
    (∀ members inner text, Keyed.get? "p" inner = none →
      Keyed.get? "p" members = some (.string text) → Json.ofText? text = some (.object inner) →
      decode s (.object members) = decode s (.object inner)) := by
  refine ⟨fails_iff_badWrapper s, fun raw hraw => ?_, ?_,
    fun members inner text hbare hp htext => ?_⟩
  · obtain ⟨members, hmembers⟩ := (unwraps_or_badWrapper raw).resolve_right hraw
    exact ⟨members, _, hmembers, decode_of_unwraps s hmembers, accounts_ofMembers s members⟩
  · intro raw raw' members members' e e' hmembers hmembers' he he'
    rw [decode_of_unwraps s hmembers] at he
    rw [decode_of_unwraps s hmembers'] at he'
    cases he
    cases he'
    obtain ⟨badId, badPush, hid, hpush, hrejected⟩ := exists_outcomes s members
    obtain ⟨badId', badPush', hid', hpush', hrejected'⟩ := exists_outcomes s members'
    obtain ⟨hbadId, hbadPush⟩ := rejections_ofMembers hid hpush hrejected
    obtain ⟨hbadId', hbadPush'⟩ := rejections_ofMembers hid' hpush' hrejected'
    constructor
    · intro hsame
      rw [hsame] at hid
      obtain ⟨hdelivered, hlisted⟩ := hid.unique hid'
      exact ⟨hdelivered, by rw [hbadId, hbadId', hlisted]⟩
    · intro hsame
      rw [hsame] at hpush
      obtain ⟨hdelivered, hlisted⟩ := hpush.unique hpush'
      exact ⟨hdelivered, by rw [hbadPush, hbadPush', hlisted]⟩
  · rw [decode_of_unwraps s (.wrapped hp htext), decode_of_unwraps s (.bare hbare)]

/-- The text of an envelope with a client id, and a payload that cannot be read. -/
def firstText : String := "\x7b\"2\":\x7b\"2\":5\x7d,\"3\":\x7b\"2\":\"first\"\x7d\x7d"

/-- The object of that envelope. -/
def firstMembers : List (String × Json) :=
  [("2", .object [("2", .int 5)]), ("3", .object [("2", .string "first")])]

theorem ofText?_firstText : Json.ofText? firstText = some (.object firstMembers) := by cbv

theorem unwraps_firstMembers : Unwraps (.object firstMembers) firstMembers := .bare (by decide)

theorem decode_envelope_first :
    (∃ e, decode Service.schema (.string "noop") = .error e) ∧
    (∃ members e, Unwraps (.object firstMembers) members ∧
      decode Service.schema (.object firstMembers) = .ok e ∧
      Accounts Service.schema members e) ∧
    (ofMembers Service.schema firstMembers).clientId =
      (ofMembers Service.schema [("3", .object [("2", .string "first")])]).clientId ∧
    decode Service.schema (.object [("p", .string firstText), ("q", .null)]) =
      decode Service.schema (.object firstMembers) := by
  obtain ⟨hfails, haccounts, halone, hwrapped⟩ := decode_envelope Service.schema
  have hread := decode_of_unwraps Service.schema unwraps_firstMembers
  refine ⟨(hfails _).mpr (.notObject fun members h => ?_), haccounts _ fun hbad => ?_, ?_,
    hwrapped _ _ _ (by decide) (by simp [Keyed.get?]) ofText?_firstText⟩
  · cases h
  · obtain ⟨e, he⟩ := (hfails _).mpr hbad
    rw [hread] at he
    cases he
  · have hbare : Unwraps (.object [("3", .object [("2", .string "first")])])
        [("3", .object [("2", .string "first")])] := .bare (by decide)
    exact ((halone _ _ _ _ _ _ unwraps_firstMembers hbare hread
      (decode_of_unwraps Service.schema hbare)).1 rfl).1

end LiteChat.Envelope
