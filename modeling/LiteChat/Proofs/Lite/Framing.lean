import LiteChat.Lite.Reply
import LiteChat.Proofs.Lite.Contents

/-!
# Arrays with a discriminator

A discriminator is element 0 of an array, and no field has the id 0, so reading passes over it
both where it looks for fields (`readSlots_discriminated`) and where it looks for what is left
over (`unknownFrom_discriminated`): an array with a discriminator in front is read as the array
behind it (`decode_discriminated`).

The body of a reply does not say whether it opens with a discriminator; a string in front is
taken for one.  Where the first field of a message type holds a message, nothing is misread that
way: a string in its place is refused, so an array that holds such a message does not open with
a string (`framingOf_of_decode`).
-/

namespace LiteChat

theorem MessageDescriptor.WellFormed.field?_zero {d : MessageDescriptor} (hd : d.WellFormed) :
    d.field? 0 = none :=
  field?_eq_none_iff.mpr fun f hf => (hd.id_bounds f hf).1.ne'

namespace Lite

section Discriminator
variable {s : Schema} {d : MessageDescriptor}

theorem readSlots_discriminated (hd : d.WellFormed) (x : Json) (items : List Json) :
    readSlots s d Framing.discriminated.firstId (x :: items) =
      readSlots s d Framing.plain.firstId items :=
  readSlots_cons_of_none hd.field?_zero items

theorem unknownFrom_discriminated (x : Json) (items : List Json) :
    unknownFrom d Framing.discriminated.firstId (x :: items) =
      unknownFrom d Framing.plain.firstId items := by
  have hid : Framing.discriminated.firstId = 0 := rfl
  rw [unknownFrom, if_neg (by decide), if_pos (Or.inl hid)]
  rfl

/-- An array with a discriminator is read as the array behind it. -/
theorem decode_behind (hs : s.WellFormed) (name : String) (x : Json) (items : List Json) :
    decode s name .discriminated (.array (x :: items)) = decode s name .plain (.array items) := by
  cases hd : s.message? name with
  | none => simp only [decode, hd]
  | some d =>
    rw [decode_eq_decodeAs hd, decode_eq_decodeAs hd, decodeAs, decodeAs, readMessage, readMessage,
      readSlots_discriminated (hs.message name d hd), unknownFrom_discriminated]

/-- **A discriminator makes no difference.**  Whatever stands in front, an array with a
discriminator is read as what is behind it: as the same message, down to the ids of its unknown
elements, or with the same error. -/
theorem decode_discriminated (source : List Char) (name : String) (x : Json) (items : List Json) :
    decode (Schema.ofSource source) name .discriminated (.array (x :: items)) =
      decode (Schema.ofSource source) name .plain (.array items) :=
  decode_behind (Schema.wellFormed_ofSource source) name x items

end Discriminator

/-! ## Replies -/

/-- The first field of a message type holds a message, or messages. -/
def LedByMessage (s : Schema) (d : MessageDescriptor) : Prop :=
  ∃ f target nested, d.field? 1 = some f ∧ f.type = .reference target ∧
    s.resolve? target = some (.message nested)

section Replies
variable {s : Schema} {d : MessageDescriptor} {name : String} {items : List Json}

/-- A string stands for no message. -/
theorem not_holdsSlot_string {f : Field} {target : String} {nested : MessageDescriptor}
    (ht : f.type = .reference target) (hr : s.resolve? target = some (.message nested))
    (t : String) (slot : Slot Value) :
    ¬ HoldsSlot s f (.string t) slot := by
  intro h
  cases h with
  | single _ hv =>
    rw [ht] at hv
    cases hv with
    | scalar hv => cases hv
    | enumeration hr' =>
      rw [hr] at hr'
      cases hr'

/-- An array that is read without a discriminator has none. -/
theorem framingOf_of_decode (hs : s.WellFormed) (hd : s.message? name = some d)
    (hled : LedByMessage s d) {m : Message} (h : decode s name .plain (.array items) = .ok m) :
    framingOf (.array items) = .plain := by
  rw [decode_eq_decodeAs hd, decodeAs] at h
  cases items with
  | nil => rfl
  | cons e rest =>
    cases e with
    | string t =>
      obtain ⟨f, target, nested, hfield, ht, hr⟩ := hled
      obtain ⟨hf, hid⟩ := MessageDescriptor.mem_of_field?_eq_some hfield
      have hwf := hs.message name d hd
      obtain ⟨slot, hslot⟩ := (conforms_of_readMessage hs hwf h).exists_slot hf
      obtain ⟨-, -, -, hpresent, -, -⟩ := (readMessage_iff_holds hs hwf).mp h
      have hat : elementAt? Framing.plain.firstId (.string t :: rest) f.id = some (.string t) := by
        rw [hid]
        rfl
      exact absurd (hpresent f slot _ hslot hat) (not_holdsSlot_string ht hr t slot)
    | _ => rfl

theorem decodeBody_string (hs : s.WellFormed) (t : String) :
    decodeBody s name (.array (.string t :: items)) =
      (decode s name .plain (.array items)).mapError .message := by
  rw [decodeBody, framingOf, decode_behind hs]

theorem decodeBody_of_decode (hs : s.WellFormed) (hd : s.message? name = some d)
    (hled : LedByMessage s d) {m : Message} (h : decode s name .plain (.array items) = .ok m) :
    decodeBody s name (.array items) = .ok m := by
  rw [decodeBody, framingOf_of_decode hs hd hled h, h]
  rfl

end Replies

end Lite

end LiteChat
