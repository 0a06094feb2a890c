import Mathlib.Data.List.Forall2
import LiteChat.Service.Envelope

/-!
# What the tags of an envelope come to

Each of the two tags that count comes to one of three things, whatever else stands in the object:
it is absent, delivered, or rejected (`Outcome`).  A tag is delivered exactly if what it holds is
read: the client id as a text (`decodeClientId_eq_ok_iff`), the payload as the text of a batch, or
of something that is not meant as one (`decodePush_eq_ok_iff`).  The updates of a batch are those of
its entries (`forall₂_decodeBatch`).
-/

namespace LiteChat.Envelope

/-! ## Tags -/

/-- What becomes of a tag with some contents: what it delivers, and what is listed of it. -/
inductive Outcome {α : Type} (tag : Tag) (read : Json → Except PayloadError α) :
    Option Json → Option α → List (Tag × PayloadError) → Prop
  /-- It is not there. -/
  | absent : Outcome tag read none none []
  /-- It is read. -/
  | delivered {contents : Json} {a : α} (h : read contents = .ok a) :
    Outcome tag read (some contents) (some a) []
  /-- It cannot be read. -/
  | rejected {contents : Json} {e : PayloadError} (h : read contents = .error e) :
    Outcome tag read (some contents) none [(tag, e)]

theorem readTag_outcome {α : Type} (tag : Tag) (members : List (String × Json))
    (read : Json → Except PayloadError α) :
    Outcome tag read (Keyed.get? tag.key members) (readTag tag members read).1
      (readTag tag members read).2 := by
  unfold readTag
  cases Keyed.get? tag.key members with
  | none => exact .absent
  | some contents =>
    cases hread : read contents with
    | ok a => simpa only [hread] using Outcome.delivered hread
    | error e => simpa only [hread] using Outcome.rejected hread

theorem readTag_fst {α : Type} (tag : Tag) (members : List (String × Json))
    (read : Json → Except PayloadError α) :
    (readTag tag members read).1 =
      (Keyed.get? tag.key members).bind fun contents => (read contents).toOption := by
  unfold readTag
  cases Keyed.get? tag.key members with
  | none => rfl
  | some contents => cases h : read contents <;> simp [h, Except.toOption]

/-- A tag that is absent or cannot be read brings nothing, and is listed if it is there. -/
theorem readTag_of_error {α : Type} {tag : Tag} {members : List (String × Json)}
    {read : Json → Except PayloadError α}
    (h : ∀ contents, Keyed.get? tag.key members = some contents → ∃ e, read contents = .error e) :
    (readTag tag members read).1 = none ∧
      ((readTag tag members read).2 = [] ↔ Keyed.get? tag.key members = none) := by
  unfold readTag
  cases hget : Keyed.get? tag.key members with
  | none => simp
  | some contents =>
    obtain ⟨e, he⟩ := h contents hget
    simp [he]

namespace Outcome

variable {α : Type} {tag : Tag} {read : Json → Except PayloadError α} {contents : Option Json}
  {delivered delivered' : Option α} {listed listed' : List (Tag × PayloadError)}

/-- There is one outcome for each contents. -/
theorem unique (h : Outcome tag read contents delivered listed)
    (h' : Outcome tag read contents delivered' listed') :
    delivered = delivered' ∧ listed = listed' := by
  cases h with
  | absent =>
    cases h'
    exact ⟨rfl, rfl⟩
  | delivered h =>
    cases h' with
    | delivered h' =>
      rw [h] at h'
      cases h'
      exact ⟨rfl, rfl⟩
    | rejected h' =>
      rw [h] at h'
      cases h'
  | rejected h =>
    cases h' with
    | delivered h' =>
      rw [h] at h'
      cases h'
    | rejected h' =>
      rw [h] at h'
      cases h'
      exact ⟨rfl, rfl⟩

theorem delivered_eq_some_iff (h : Outcome tag read contents delivered listed) {a : α} :
    delivered = some a ↔ ∃ c, contents = some c ∧ read c = .ok a := by
  cases h with
  | absent => simp
  | delivered h => simp [h]
  | rejected h => simp [h]

theorem filter_self (h : Outcome tag read contents delivered listed) :
    listed.filter (fun p => decide (p.1 = tag)) = listed := by
  cases h <;> simp

theorem filter_other (h : Outcome tag read contents delivered listed) {other : Tag}
    (hother : tag ≠ other) : listed.filter (fun p => decide (p.1 = other)) = [] := by
  cases h <;> simp [hother]

theorem tags_sublist (h : Outcome tag read contents delivered listed) :
    (listed.map Prod.fst).Sublist [tag] := by
  cases h with
  | absent => exact List.nil_sublist _
  | delivered => exact List.nil_sublist _
  | rejected => exact List.Sublist.refl _

/-- A tag that is there is delivered and not listed, or listed once and not delivered; one that is
not there is neither. -/
theorem accounts (h : Outcome tag read contents delivered listed) :
    (contents.isSome = true → (delivered.isSome = true ∧ listed.map Prod.snd = []) ∨
      (delivered.isSome = false ∧ ∃ err, listed.map Prod.snd = [err])) ∧
    (contents = none → delivered.isSome = false ∧ listed.map Prod.snd = []) := by
  cases h <;> simp

end Outcome

/-! ## What the tags hold -/

theorem innerText?_eq_some_iff {tag : Json} {text : String} :
    innerText? tag = some text ↔ tag.get? "2" = some (.string text) := by
  rw [innerText?, Option.bind_eq_some_iff]
  constructor
  · rintro ⟨inner, hinner, htext⟩
    cases inner <;> cases htext
    exact hinner
  · intro h
    exact ⟨_, h, rfl⟩

theorem decodeClientId_eq_ok_iff {tag : Json} {id : String} :
    decodeClientId tag = .ok id ↔ tag.get? "2" = some (.string id) := by
  rw [← innerText?_eq_some_iff, decodeClientId]
  cases innerText? tag <;> simp

/-- A payload is delivered if its text is read and it is a batch, or not meant as one. -/
theorem decodePush_eq_ok_iff {s : Schema} {tag : Json} {push : PushEvent} :
    decodePush s tag = .ok push ↔
      ∃ text payload, tag.get? "2" = some (.string text) ∧ Json.ofText? text = some payload ∧
        ((∃ updates, push = .batch updates ∧ decodeBatch s payload = .ok updates) ∨
          ∃ discriminator, push = .ignored discriminator ∧
            decodeBatch s payload = .error (.unrecognized discriminator)) := by
  constructor
  · intro h
    unfold decodePush at h
    split at h
    · cases h
    · rename_i text htext
      split at h
      · cases h
      · rename_i payload hpayload
        refine ⟨text, payload, innerText?_eq_some_iff.mp htext, hpayload, ?_⟩
        split at h
        · rename_i updates hbatch
          cases h
          exact Or.inl ⟨updates, rfl, hbatch⟩
        · rename_i discriminator hbatch
          cases h
          exact Or.inr ⟨discriminator, rfl, hbatch⟩
        · cases h
  · rintro ⟨text, payload, htext, hpayload, h⟩
    rw [decodePush, innerText?_eq_some_iff.mpr htext]
    simp only [hpayload]
    rcases h with ⟨updates, rfl, hbatch⟩ | ⟨discriminator, rfl, hbatch⟩
    · simp only [hbatch]
    · simp only [hbatch]

/-! ## Batches -/

theorem forall₂_readUpdates {messages : List Message} {updates : List StateUpdate}
    (h : readUpdates messages = .ok updates) :
    List.Forall₂ (fun m u => StateUpdate.ofMessage m = .ok u) messages updates := by
  induction messages generalizing updates with
  | nil =>
    cases h
    exact .nil
  | cons m rest ih =>
    rw [readUpdates] at h
    split at h
    · cases h
    · rename_i update hupdate
      cases hrest : readUpdates rest with
      | error e => simp [hrest, Except.map] at h
      | ok others =>
        simp only [hrest, Except.map, Except.ok.injEq] at h
        subst h
        exact .cons hupdate (ih hrest)

/-- The updates of a batch are what its entries say, one for one and in their order. -/
theorem forall₂_decodeBatch {s : Schema} {payload : Json} {updates : List StateUpdate}
    (h : decodeBatch s payload = .ok updates) :
    ∃ batch, Lite.decode s "BatchUpdate" .discriminated payload = .ok batch ∧
      List.Forall₂ (fun m u => StateUpdate.ofMessage m = .ok u)
        ((batch.elements "state_update").filterMap Value.message?) updates := by
  unfold decodeBatch at h
  split at h
  · split at h
    · split at h
      · cases h
      · rename_i batch hbatch
        exact ⟨batch, hbatch, forall₂_readUpdates h⟩
    · cases h
  · cases h
  · cases h

end LiteChat.Envelope
