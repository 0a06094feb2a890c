import LiteChat.Proofs.Lite.Contents
import LiteChat.Proofs.Lite.Fields
import LiteChat.Proofs.Service.Declarations
import LiteChat.Service.Record

/-!
# Records and the arrays behind them

A record is read from a message by names of fields, and a name that no field has reads as absent.
So that the names are those of the schema is part of what is shown here: each record of the client
is read from whatever decodes as its message, without fail, and what it holds is said from the
array alone, by ids (`ParticipantId.Reads` and its like).

What a record holds is then the same for arrays that agree on what the schema declares (`Alike`):
the undeclared elements of an array do not reach the record, but for the message that it keeps.

`Decoded` and `Alike` speak of message types by their names, and ask for fields by what the schema
declares under these names (`Service.Declares`), so each step along a path into the array costs one
look at the declarations.
-/

namespace LiteChat

open Service (schema Declares DeclaresMessage DeclaresEnum optional repeated ref)
open Lite (ReadFrom AlikeRow IsPlain elementAt?)

/-! ## What elements hold -/

/-- An element is a text. -/
def IsText (text : String) (e : Json) : Prop := e = .string text

/-- An element is a time: the number, or the digits of it as a string. -/
def IsTime (n : Nat) (e : Json) : Prop := Lite.wideUnsigned? e = some n

/-- A part of a record is there exactly if the element that it is read from is. -/
def Part {α : Type} (Reads : (Nat → Option Json) → α → Prop) : Option α → Option Json → Prop :=
  Option.Rel fun a e => Reads (Json.element? · e) a

/-- An enum field has a value exactly if the element is the number of it. -/
def IsValue {α : Type} (wire : α → Int) (a : Option α) (e : Option Json) : Prop :=
  ∀ x, a = some x ↔ e = some (.int (wire x))

theorem texts_eq {a a' : Option String} {e e' : Option Json} (h : Option.Rel IsText a e)
    (h' : Option.Rel IsText a' e') (he : e = e') : a = a' := by
  have htext : ∀ t e, IsText t e → e.string? = some t := by
    rintro t _ rfl
    rfl
  rw [eq_bind_of_rel h htext, eq_bind_of_rel h' htext, he]

theorem times_eq {a a' : Option Nat} {e e' : Option Json} (h : Option.Rel IsTime a e)
    (h' : Option.Rel IsTime a' e') (he : e = e') : a = a' := by
  rw [eq_bind_of_rel h fun _ _ => id, eq_bind_of_rel h' fun _ _ => id, he]

theorem values_eq {α : Type} {wire : α → Int} {a a' : Option α} {e e' : Option Json}
    (h : IsValue wire a e) (h' : IsValue wire a' e') (he : e = e') : a = a' := by
  refine Option.ext fun x => ?_
  rw [h x, h' x, he]

/-- A number stands for the value that has it, if all values are listed. -/
theorem fromWire?_eq_some_iff {α : Type} {all : List α} {wire : α → Int} (hall : ∀ a, a ∈ all)
    (hwire : (all.map wire).Nodup) {n : Int} {a : α} :
    fromWire? all wire n = some a ↔ wire a = n :=
  (Keyed.find?_eq_some_iff hwire).trans (and_iff_right (hall a))

theorem ActiveClientState.ofWire?_eq_some_iff {n : Int} {a : ActiveClientState} :
    ofWire? n = some a ↔ a.wire = n :=
  fromWire?_eq_some_iff (fun a => by cases a <;> decide) (by decide)

theorem TypingType.ofWire?_eq_some_iff {n : Int} {a : TypingType} :
    ofWire? n = some a ↔ a.wire = n :=
  fromWire?_eq_some_iff (fun a => by cases a <;> decide) (by decide)

theorem FocusType.ofWire?_eq_some_iff {n : Int} {a : FocusType} :
    ofWire? n = some a ↔ a.wire = n :=
  fromWire?_eq_some_iff (fun a => by cases a <;> decide) (by decide)

/-! ## Messages of the service -/

/-- A message of the service was read from an array, whose elements are a row. -/
def Decoded (name : String) (row : Nat → Option Json) (m : Message) : Prop :=
  ∃ framing items, row = elementAt? (Framing.firstId framing) items ∧
    Lite.decode schema name framing (.array items) = .ok m

theorem declares_conversationId : Declares "ConversationId" (optional 1 "id" .string) := by
  decide +kernel

namespace Decoded

variable {name field target : String} {id : Nat} {row : Nat → Option Json} {m : Message}

theorem readFrom (h : Decoded name row m) :
    ∃ d, schema.message? name = some d ∧ ReadFrom schema d row m := by
  obtain ⟨framing, items, rfl, h⟩ := h
  obtain ⟨d, hd, hm⟩ := Lite.exists_of_decode h
  exact ⟨d, hd, Lite.readFrom_of_readMessage Service.wellFormed_schema
    (Service.wellFormed_schema.message _ _ hd) hm⟩

theorem ofType (h : Decoded name row m) : m.ofType name = .ok m := by
  obtain ⟨d, hd, hm⟩ := h.readFrom
  rw [Message.ofType, if_pos (hm.name_eq.trans (Service.wellFormed_schema.name_eq _ _ hd))]

theorem string (h : Decoded name row m) (hf : Declares name (optional id field .string)) :
    Option.Rel IsText (m.string? field) (row id) := by
  obtain ⟨d, hd, hm⟩ := h.readFrom
  exact hm.string (hf.mem hd) nofun rfl

theorem timestamp (h : Decoded name row m) (hf : Declares name (optional id field .uint64)) :
    Option.Rel IsTime (m.uint64? field) (row id) := by
  obtain ⟨d, hd, hm⟩ := h.readFrom
  exact hm.timestamp (hf.mem hd) nofun rfl

theorem strings (h : Decoded name row m) (hf : Declares name (repeated id field .string)) :
    ((m.elements field).filterMap Value.string?).map Json.string = Json.present (row id) := by
  obtain ⟨d, hd, hm⟩ := h.readFrom
  exact hm.strings (hf.mem hd) rfl rfl

theorem isValue {α : Type} {ofWire? : Int → Option α} {wire : α → Int}
    (hwire : ∀ {n a}, ofWire? n = some a ↔ wire a = n) (h : Decoded name row m)
    (hf : DeclaresEnum name id field target) :
    IsValue wire ((m.enum? field).bind fun n => ofWire? n.toInt) (row id) := by
  intro a
  obtain ⟨d, hd, hm⟩ := h.readFrom
  obtain ⟨e, ht⟩ := Service.exists_resolve?_enumeration hf.2.1 hf.2.2
  have hrel : Option.Rel _ (m.enum? field) (row id) := hm.enumeration (hf.1.mem hd) nofun rfl ht
  generalize m.enum? field = number at hrel ⊢
  generalize row id = element at hrel ⊢
  cases hrel with
  | @some n e he =>
    rw [he, Option.bind_some, hwire, Option.some.injEq, Json.int.injEq]
    exact eq_comm
  | none => simp

/-- A nested message was read from the elements of the element. -/
theorem message (h : Decoded name row m) (hf : DeclaresMessage name id field target) :
    Option.Rel (fun m' e => Decoded target (Json.element? · e) m') (m.message? field) (row id) := by
  obtain ⟨d, hd, hm⟩ := h.readFrom
  obtain ⟨nested, hnested⟩ := Service.exists_message? hf.2
  refine rel_imp (hm.message (hf.1.mem hd) nofun rfl (Service.resolve?_of_message? hnested))
    fun m' e hm' => ?_
  cases e with
  | array items =>
    exact ⟨.plain, items, rfl, (Lite.decode_eq_decodeAs hnested .plain _).trans hm'⟩
  | _ => cases hm'

theorem conversationId? (h : Decoded name row m)
    (hf : DeclaresMessage name id "conversation_id" "ConversationId") :
    Option.Rel IsText m.conversationId? ((row id).bind (Json.element? 1)) :=
  rel_bind (h.message hf) fun _ _ hid => hid.string declares_conversationId

/-- A record in a field is a part, if it can be read from whatever decodes. -/
theorem record? {α : Type} {read : Message → Except PayloadError α}
    {Reads : (Nat → Option Json) → α → Prop}
    (hread : ∀ {row m}, Decoded target row m → ∃ a, read m = .ok a ∧ Reads row a)
    (h : Decoded name row m) (hf : DeclaresMessage name id field target) :
    ∃ a, m.record? field read = .ok a ∧ Part Reads a (row id) := by
  have hrel := h.message hf
  unfold Message.record?
  generalize m.message? field = nested at hrel ⊢
  generalize row id = element at hrel ⊢
  cases hrel with
  | @some m' e hm' =>
    obtain ⟨a, ha, hreads⟩ := hread hm'
    exact ⟨some a, by simp only [ha, Except.map], .some hreads⟩
  | none => exact ⟨none, rfl, .none⟩

end Decoded

/-! ## Rows that agree on what is declared -/

/-- Two rows of elements agree on what a message type of the service declares. -/
def Alike (name : String) (row row' : Nat → Option Json) : Prop :=
  ∃ d, schema.message? name = some d ∧ AlikeRow schema d row row'

/-- Two elements that hold nested messages do so, or neither is there. -/
def AlikeParts (name : String) : Option Json → Option Json → Prop :=
  Option.Rel fun e e' => Alike name (Json.element? · e) (Json.element? · e')

section
variable {name field target : String} {id : Nat} {type : FieldType} {label : Label}
  {row row' : Nat → Option Json} {e e' : Option Json}

theorem isPlain_enumeration (h : DeclaresEnum name id field target) :
    IsPlain schema (ref target) := by
  rintro _ nested ⟨⟩ hnested
  obtain ⟨e, he⟩ := Service.exists_resolve?_enumeration h.2.1 h.2.2
  rw [he] at hnested
  cases hnested

namespace Alike

/-- A field that holds no nested message has one element in both. -/
theorem eq (h : Alike name row row') (hf : Declares name ⟨id, field, type, label⟩)
    (ht : IsPlain schema type) : row id = row' id := by
  obtain ⟨d, hd, hrow⟩ := h
  exact hrow.eq (hf.mem hd) ht

theorem text (h : Alike name row row') (hf : Declares name (optional id field .string)) :
    row id = row' id :=
  h.eq hf fun _ _ => nofun

theorem time (h : Alike name row row') (hf : Declares name (optional id field .uint64)) :
    row id = row' id :=
  h.eq hf fun _ _ => nofun

theorem value (h : Alike name row row') (hf : DeclaresEnum name id field target) :
    row id = row' id :=
  h.eq hf.1 (isPlain_enumeration hf)

theorem parts (h : Alike name row row') (hf : DeclaresMessage name id field target) :
    AlikeParts target (row id) (row' id) := by
  obtain ⟨d, hd, hrow⟩ := h
  obtain ⟨nested, hnested⟩ := Service.exists_message? hf.2
  exact rel_imp (hrow.nested (hf.1.mem hd) nofun rfl (Service.resolve?_of_message? hnested))
    fun e e' he => ⟨nested, hnested, he⟩

end Alike

namespace AlikeParts

theorem text (h : AlikeParts name e e') (hf : Declares name (optional id field .string)) :
    e.bind (Json.element? id) = e'.bind (Json.element? id) := by
  cases h with
  | some h => exact h.text hf
  | none => rfl

theorem texts (h : AlikeParts name e e') (hf : Declares name (repeated id field .string)) :
    e.bind (Json.element? id) = e'.bind (Json.element? id) := by
  cases h with
  | some h => exact h.eq hf fun _ _ => nofun
  | none => rfl

theorem parts (h : AlikeParts name e e') (hf : DeclaresMessage name id field target) :
    AlikeParts target (e.bind (Json.element? id)) (e'.bind (Json.element? id)) :=
  rel_bind h fun _ _ hrow => hrow.parts hf

end AlikeParts

theorem parts_eq {α : Type} {Reads : (Nat → Option Json) → α → Prop}
    (hunique : ∀ {row row' a a'}, Reads row a → Reads row' a' → Alike target row row' → a = a')
    {a a' : Option α} (h : Part Reads a e) (h' : Part Reads a' e') (he : AlikeParts target e e') :
    a = a' :=
  eq_of_rel h h' he fun _ _ _ _ => hunique

end

/-- The id of the conversation is the same in both. -/
theorem Alike.conversationId {name : String} {id : Nat} {row row' : Nat → Option Json}
    (h : Alike name row row')
    (hf : DeclaresMessage name id "conversation_id" "ConversationId") :
    (row id).bind (Json.element? 1) = (row' id).bind (Json.element? 1) :=
  (h.parts hf).text declares_conversationId

/-! ## What a record is read from -/

/-- A participant is what the elements of a participant id say. -/
structure ParticipantId.Reads (row : Nat → Option Json) (r : ParticipantId) : Prop where
  gaiaId : Option.Rel IsText r.gaiaId (row 1)
  chatId : Option.Rel IsText r.chatId (row 2)

namespace ParticipantId

variable {row row' : Nat → Option Json}

theorem declares : Declares "ParticipantId" (optional 1 "gaia_id" .string) ∧
    Declares "ParticipantId" (optional 2 "chat_id" .string) := by
  decide +kernel

theorem exists_reads {m : Message} (h : Decoded "ParticipantId" row m) :
    ∃ r, ofMessage m = .ok r ∧ Reads row r := by
  obtain ⟨hgaia, hchat⟩ := declares
  rw [ofMessage, h.ofType]
  exact ⟨_, rfl, h.string hgaia, h.string hchat⟩

theorem Reads.unique {r r' : ParticipantId} (h : Reads row r) (h' : Reads row' r')
    (hrow : Alike "ParticipantId" row row') : r = r' := by
  obtain ⟨gaia, chat⟩ := r
  obtain ⟨gaia', chat'⟩ := r'
  obtain ⟨hgaia, hchat⟩ := declares
  rw [show gaia = gaia' from texts_eq h.gaiaId h'.gaiaId (hrow.text hgaia),
    show chat = chat' from texts_eq h.chatId h'.chatId (hrow.text hchat)]

end ParticipantId

/-- The account that is signed in is described by its entity, the second element of the reply. -/
structure SelfInfo.Reads (row : Nat → Option Json) (r : SelfInfo) : Prop where
  id : Part ParticipantId.Reads r.id ((row 2).bind (Json.element? 9))
  displayName : Option.Rel IsText r.displayName
    (((row 2).bind (Json.element? 10)).bind (Json.element? 2))
  emails : r.emails.map Json.string =
    Json.present (((row 2).bind (Json.element? 10)).bind (Json.element? 5))

namespace SelfInfo

variable {row row' : Nat → Option Json}

theorem declares : DeclaresMessage "GetSelfInfoResponse" 2 "self_entity" "Entity" ∧
    DeclaresMessage "Entity" 9 "id" "ParticipantId" ∧
    DeclaresMessage "Entity" 10 "properties" "EntityProperties" ∧
    Declares "EntityProperties" (optional 2 "display_name" .string) ∧
    Declares "EntityProperties" (repeated 5 "email" .string) := by
  decide +kernel

/-- The id of an account is read if there is an entity. -/
theorem exists_id {entity : Option Message} {e : Option Json}
    (h : Option.Rel (fun m' e => Decoded "Entity" (Json.element? · e) m') entity e) :
    ∃ id, (match entity with
        | none => Except.ok none
        | some m' => m'.record? "id" ParticipantId.ofMessage) = .ok id ∧
      Part ParticipantId.Reads id (e.bind (Json.element? 9)) := by
  cases h with
  | some hm' => exact hm'.record? ParticipantId.exists_reads declares.2.1
  | none => exact ⟨none, rfl, .none⟩

theorem emails_eq {properties : Option Message} {e : Option Json}
    (h : Option.Rel (fun m' e => Decoded "EntityProperties" (Json.element? · e) m') properties e) :
    ((properties.map fun p => (p.elements "email").filterMap Value.string?).getD []).map
        Json.string = Json.present (e.bind (Json.element? 5)) := by
  cases h with
  | some hm' => exact hm'.strings declares.2.2.2.2
  | none => rfl

theorem exists_reads {m : Message} (h : Decoded "GetSelfInfoResponse" row m) :
    ∃ r, ofMessage m = .ok r ∧ Reads row r := by
  obtain ⟨hself, -, hproperties, hname, -⟩ := declares
  have hentity : Option.Rel (fun m' e => Decoded "Entity" (Json.element? · e) m')
      (m.message? "self_entity") (row 2) := h.message hself
  have hproperties := rel_bind hentity fun _ _ hm' => hm'.message hproperties
  obtain ⟨id, hid, hreads⟩ := exists_id hentity
  refine ⟨⟨id, _, _, m⟩, ?_, hreads, rel_bind hproperties fun _ _ hp => hp.string hname,
    emails_eq hproperties⟩
  rw [ofMessage, h.ofType]
  cases hfound : m.message? "self_entity" with
  | none =>
    rw [hfound] at hid
    cases hid
    simp only [hfound, bind, Except.bind]
    rfl
  | some m' =>
    rw [hfound] at hid
    simp only [hfound, hid, bind, Except.bind]
    rfl

theorem Reads.unique {r r' : SelfInfo} (h : Reads row r) (h' : Reads row' r')
    (hrow : Alike "GetSelfInfoResponse" row row') :
    (r.id, r.displayName, r.emails) = (r'.id, r'.displayName, r'.emails) := by
  obtain ⟨hself, hid, hproperties, hname, hemail⟩ := declares
  have hentity := hrow.parts hself
  have hproperties := hentity.parts hproperties
  have hemails : r.emails = r'.emails := by
    refine List.map_injective_iff.mpr (fun _ _ => Json.string.inj) ?_
    rw [h.emails, h'.emails, hproperties.texts hemail]
  rw [parts_eq ParticipantId.Reads.unique h.id h'.id (hentity.parts hid),
    texts_eq h.displayName h'.displayName (hproperties.text hname), hemails]

end SelfInfo

/-- A header is what its elements say. -/
structure StateUpdateHeader.Reads (row : Nat → Option Json) (r : StateUpdateHeader) : Prop where
  activeClientState : IsValue ActiveClientState.wire r.activeClientState (row 1)
  requestTraceId : Option.Rel IsText r.requestTraceId (row 3)
  currentServerTime : Option.Rel IsTime r.currentServerTime (row 5)

namespace StateUpdateHeader

variable {row row' : Nat → Option Json}

theorem declares :
    DeclaresEnum "StateUpdateHeader" 1 "active_client_state" "ActiveClientState" ∧
    Declares "StateUpdateHeader" (optional 3 "request_trace_id" .string) ∧
    Declares "StateUpdateHeader" (optional 5 "current_server_time" .uint64) := by
  decide +kernel

theorem exists_reads {m : Message} (h : Decoded "StateUpdateHeader" row m) :
    ∃ r, ofMessage m = .ok r ∧ Reads row r := by
  obtain ⟨hstate, htrace, htime⟩ := declares
  rw [ofMessage, h.ofType]
  exact ⟨_, rfl, h.isValue ActiveClientState.ofWire?_eq_some_iff hstate, h.string htrace,
    h.timestamp htime⟩

theorem Reads.unique {r r' : StateUpdateHeader} (h : Reads row r) (h' : Reads row' r')
    (hrow : Alike "StateUpdateHeader" row row') : r = r' := by
  obtain ⟨state, trace, time⟩ := r
  obtain ⟨state', trace', time'⟩ := r'
  obtain ⟨hstate, htrace, htime⟩ := declares
  rw [show state = state' from
      values_eq h.activeClientState h'.activeClientState (hrow.value hstate),
    show trace = trace' from texts_eq h.requestTraceId h'.requestTraceId (hrow.text htrace),
    show time = time' from times_eq h.currentServerTime h'.currentServerTime (hrow.time htime)]

end StateUpdateHeader

/-- A watermark is what its elements say. -/
structure WatermarkNotification.Reads (row : Nat → Option Json) (r : WatermarkNotification) :
    Prop where
  senderId : Part ParticipantId.Reads r.senderId (row 1)
  conversationId : Option.Rel IsText r.conversationId ((row 2).bind (Json.element? 1))
  latestReadTimestamp : Option.Rel IsTime r.latestReadTimestamp (row 3)

namespace WatermarkNotification

variable {row row' : Nat → Option Json}

theorem declares :
    DeclaresMessage "WatermarkNotification" 1 "sender_id" "ParticipantId" ∧
    DeclaresMessage "WatermarkNotification" 2 "conversation_id" "ConversationId" ∧
    Declares "WatermarkNotification" (optional 3 "latest_read_timestamp" .uint64) := by
  decide +kernel

theorem exists_reads {m : Message} (h : Decoded "WatermarkNotification" row m) :
    ∃ r, ofMessage m = .ok r ∧ Reads row r := by
  obtain ⟨hsender, hconversation, htime⟩ := declares
  obtain ⟨sender, hread, hreads⟩ := h.record? ParticipantId.exists_reads hsender
  refine ⟨⟨sender, _, _⟩, ?_, hreads, h.conversationId? hconversation, h.timestamp htime⟩
  rw [ofMessage, h.ofType]
  simp only [hread, bind, Except.bind]
  rfl

theorem Reads.unique {r r' : WatermarkNotification} (h : Reads row r) (h' : Reads row' r')
    (hrow : Alike "WatermarkNotification" row row') : r = r' := by
  obtain ⟨sender, conversation, time⟩ := r
  obtain ⟨sender', conversation', time'⟩ := r'
  obtain ⟨hsender, hconversation, htime⟩ := declares
  rw [show sender = sender' from
      parts_eq ParticipantId.Reads.unique h.senderId h'.senderId (hrow.parts hsender),
    show conversation = conversation' from
      texts_eq h.conversationId h'.conversationId (hrow.conversationId hconversation),
    show time = time' from times_eq h.latestReadTimestamp h'.latestReadTimestamp (hrow.time htime)]

end WatermarkNotification

/-- A typing notification is what its elements say. -/
structure TypingNotification.Reads (row : Nat → Option Json) (r : TypingNotification) : Prop where
  conversationId : Option.Rel IsText r.conversationId ((row 1).bind (Json.element? 1))
  senderId : Part ParticipantId.Reads r.senderId (row 2)
  timestamp : Option.Rel IsTime r.timestamp (row 3)
  typing : IsValue TypingType.wire r.typing (row 4)

namespace TypingNotification

variable {row row' : Nat → Option Json}

theorem declares :
    DeclaresMessage "SetTypingNotification" 1 "conversation_id" "ConversationId" ∧
    DeclaresMessage "SetTypingNotification" 2 "sender_id" "ParticipantId" ∧
    Declares "SetTypingNotification" (optional 3 "timestamp" .uint64) ∧
    DeclaresEnum "SetTypingNotification" 4 "type" "TypingType" := by
  decide +kernel

theorem exists_reads {m : Message} (h : Decoded "SetTypingNotification" row m) :
    ∃ r, ofMessage m = .ok r ∧ Reads row r := by
  obtain ⟨hconversation, hsender, htime, hvalue⟩ := declares
  obtain ⟨sender, hread, hreads⟩ := h.record? ParticipantId.exists_reads hsender
  refine ⟨⟨_, sender, _, _⟩, ?_, h.conversationId? hconversation, hreads, h.timestamp htime,
    h.isValue TypingType.ofWire?_eq_some_iff hvalue⟩
  rw [ofMessage, h.ofType]
  simp only [hread, bind, Except.bind]
  rfl

theorem Reads.unique {r r' : TypingNotification} (h : Reads row r) (h' : Reads row' r')
    (hrow : Alike "SetTypingNotification" row row') : r = r' := by
  obtain ⟨conversation, sender, time, typing⟩ := r
  obtain ⟨conversation', sender', time', typing'⟩ := r'
  obtain ⟨hconversation, hsender, htime, hvalue⟩ := declares
  rw [show conversation = conversation' from
      texts_eq h.conversationId h'.conversationId (hrow.conversationId hconversation),
    show sender = sender' from
      parts_eq ParticipantId.Reads.unique h.senderId h'.senderId (hrow.parts hsender),
    show time = time' from times_eq h.timestamp h'.timestamp (hrow.time htime),
    show typing = typing' from values_eq h.typing h'.typing (hrow.value hvalue)]

end TypingNotification

/-- A focus notification is what its elements say. -/
structure FocusNotification.Reads (row : Nat → Option Json) (r : FocusNotification) : Prop where
  conversationId : Option.Rel IsText r.conversationId ((row 1).bind (Json.element? 1))
  senderId : Part ParticipantId.Reads r.senderId (row 2)
  timestamp : Option.Rel IsTime r.timestamp (row 3)
  focus : IsValue FocusType.wire r.focus (row 4)

namespace FocusNotification

variable {row row' : Nat → Option Json}

theorem declares :
    DeclaresMessage "SetFocusNotification" 1 "conversation_id" "ConversationId" ∧
    DeclaresMessage "SetFocusNotification" 2 "sender_id" "ParticipantId" ∧
    Declares "SetFocusNotification" (optional 3 "timestamp" .uint64) ∧
    DeclaresEnum "SetFocusNotification" 4 "type" "FocusType" := by
  decide +kernel

theorem exists_reads {m : Message} (h : Decoded "SetFocusNotification" row m) :
    ∃ r, ofMessage m = .ok r ∧ Reads row r := by
  obtain ⟨hconversation, hsender, htime, hvalue⟩ := declares
  obtain ⟨sender, hread, hreads⟩ := h.record? ParticipantId.exists_reads hsender
  refine ⟨⟨_, sender, _, _⟩, ?_, h.conversationId? hconversation, hreads, h.timestamp htime,
    h.isValue FocusType.ofWire?_eq_some_iff hvalue⟩
  rw [ofMessage, h.ofType]
  simp only [hread, bind, Except.bind]
  rfl

theorem Reads.unique {r r' : FocusNotification} (h : Reads row r) (h' : Reads row' r')
    (hrow : Alike "SetFocusNotification" row row') : r = r' := by
  obtain ⟨conversation, sender, time, focus⟩ := r
  obtain ⟨conversation', sender', time', focus'⟩ := r'
  obtain ⟨hconversation, hsender, htime, hvalue⟩ := declares
  rw [show conversation = conversation' from
      texts_eq h.conversationId h'.conversationId (hrow.conversationId hconversation),
    show sender = sender' from
      parts_eq ParticipantId.Reads.unique h.senderId h'.senderId (hrow.parts hsender),
    show time = time' from times_eq h.timestamp h'.timestamp (hrow.time htime),
    show focus = focus' from values_eq h.focus h'.focus (hrow.value hvalue)]

end FocusNotification

/-- A state update has the parts whose elements are there. -/
structure StateUpdate.Reads (row : Nat → Option Json) (r : StateUpdate) : Prop where
  header : Part StateUpdateHeader.Reads r.header (row 1)
  watermark : Part WatermarkNotification.Reads r.watermark (row 8)
  typing : Part TypingNotification.Reads r.typing (row 5)
  focus : Part FocusNotification.Reads r.focus (row 4)

namespace StateUpdate

variable {row row' : Nat → Option Json}

theorem declares :
    DeclaresMessage "StateUpdate" 1 "state_update_header" "StateUpdateHeader" ∧
    DeclaresMessage "StateUpdate" 8 "watermark_notification" "WatermarkNotification" ∧
    DeclaresMessage "StateUpdate" 5 "typing_notification" "SetTypingNotification" ∧
    DeclaresMessage "StateUpdate" 4 "focus_notification" "SetFocusNotification" := by
  decide +kernel

theorem exists_reads {m : Message} (h : Decoded "StateUpdate" row m) :
    ∃ r, ofMessage m = .ok r ∧ Reads row r := by
  obtain ⟨hheader, hwatermark, htyping, hfocus⟩ := declares
  obtain ⟨header, hheader, hheader'⟩ := h.record? StateUpdateHeader.exists_reads hheader
  obtain ⟨watermark, hwatermark, hwatermark'⟩ :=
    h.record? WatermarkNotification.exists_reads hwatermark
  obtain ⟨typing, htyping, htyping'⟩ := h.record? TypingNotification.exists_reads htyping
  obtain ⟨focus, hfocus, hfocus'⟩ := h.record? FocusNotification.exists_reads hfocus
  refine ⟨⟨header, watermark, typing, focus, m⟩, ?_, hheader', hwatermark', htyping', hfocus'⟩
  rw [ofMessage, h.ofType]
  simp only [hheader, hwatermark, htyping, hfocus, bind, Except.bind]
  rfl

theorem Reads.unique {r r' : StateUpdate} (h : Reads row r) (h' : Reads row' r')
    (hrow : Alike "StateUpdate" row row') :
    (r.header, r.watermark, r.typing, r.focus) =
      (r'.header, r'.watermark, r'.typing, r'.focus) := by
  obtain ⟨hheader, hwatermark, htyping, hfocus⟩ := declares
  rw [parts_eq StateUpdateHeader.Reads.unique h.header h'.header (hrow.parts hheader),
    parts_eq WatermarkNotification.Reads.unique h.watermark h'.watermark (hrow.parts hwatermark),
    parts_eq TypingNotification.Reads.unique h.typing h'.typing (hrow.parts htyping),
    parts_eq FocusNotification.Reads.unique h.focus h'.focus (hrow.parts hfocus)]

end StateUpdate

/-! ## The records that keep their message -/

theorem SelfInfo.message_eq {m : Message} {r : SelfInfo} (h : ofMessage m = .ok r) :
    r.message = m := by
  unfold ofMessage Message.ofType at h
  by_cases hname : m.name = "GetSelfInfoResponse"
  · simp only [hname, if_true, bind, Except.bind] at h
    split at h
    · cases h
      rfl
    · split at h
      · cases h
      · cases h
        rfl
  · simp only [hname, if_false, bind, Except.bind] at h
    cases h

theorem StateUpdate.message_eq {m : Message} {r : StateUpdate} (h : ofMessage m = .ok r) :
    r.message = m := by
  unfold ofMessage Message.ofType at h
  by_cases hname : m.name = "StateUpdate"
  · simp only [hname, if_true, bind, Except.bind] at h
    repeat' split at h
    all_goals cases h
    rfl
  · simp only [hname, if_false, bind, Except.bind] at h
    cases h

/-! ## All records -/

/-- The records of a kind say what the message of a type holds: `Reads` relates them to its
elements, and `parts` is what they hold but for the message itself. -/
structure Faithful {α β : Type} (name : String) (read : Message → Except PayloadError α)
    (Reads : (Nat → Option Json) → α → Prop) (parts : α → β) : Prop where
  /-- The type is declared. -/
  declared : ∃ d, schema.message? name = some d
  /-- From whatever array decodes as the message a record is read, and it holds what the elements
  of the array say. -/
  total : ∀ framing items m, Lite.decode schema name framing (.array items) = .ok m →
    ∃ r, read m = .ok r ∧ Reads (elementAt? framing.firstId items) r
  /-- Arrays that agree on what is declared give the same parts. -/
  independent : ∀ framing framing' items items' m m' r r',
    Lite.decode schema name framing (.array items) = .ok m → read m = .ok r →
    Lite.decode schema name framing' (.array items') = .ok m' → read m' = .ok r' →
    Alike name (elementAt? framing.firstId items) (elementAt? framing'.firstId items') →
    parts r = parts r'
  /-- A message of any other type is refused. -/
  refuses : ∀ m, m.name ≠ name → read m = .error (.misshapen (.messageType name m.name))

theorem Message.ofType_of_ne {m : Message} {name : String} (h : m.name ≠ name) :
    m.ofType name = .error (.misshapen (.messageType name m.name)) := by
  rw [ofType, if_neg h]

theorem faithful_of {α β : Type} {name : String} {read : Message → Except PayloadError α}
    {Reads : (Nat → Option Json) → α → Prop} {parts : α → β}
    (hname : name ∈ Service.messages.map MessageDescriptor.name)
    (htotal : ∀ {row m}, Decoded name row m → ∃ r, read m = .ok r ∧ Reads row r)
    (hunique : ∀ {row row' r r'}, Reads row r → Reads row' r' → Alike name row row' →
      parts r = parts r')
    (hrefuses : ∀ m, m.ofType name = .error (.misshapen (.messageType name m.name)) →
      read m = .error (.misshapen (.messageType name m.name))) :
    Faithful name read Reads parts where
  declared := Service.exists_message? hname
  total framing items m h := htotal ⟨framing, items, rfl, h⟩
  independent framing framing' items items' m m' r r' h hr h' hr' halike := by
    obtain ⟨r₁, hr₁, hreads⟩ := htotal ⟨framing, items, rfl, h⟩
    obtain ⟨r₂, hr₂, hreads'⟩ := htotal ⟨framing', items', rfl, h'⟩
    rw [hr] at hr₁
    cases hr₁
    rw [hr'] at hr₂
    cases hr₂
    exact hunique hreads hreads' halike
  refuses m h := hrefuses m (Message.ofType_of_ne h)

/-- **Records are total and faithful.**  Each record is read from whatever array decodes as its
message; each of its fields is what the element at the place of the field says, and is there
exactly if that element is; elements that are not declared do not count, but for the message that
a record keeps; and a message of any other type is refused. -/
theorem records_faithful :
    Faithful "ParticipantId" ParticipantId.ofMessage ParticipantId.Reads id ∧
    Faithful "GetSelfInfoResponse" SelfInfo.ofMessage SelfInfo.Reads
      (fun r => (r.id, r.displayName, r.emails)) ∧
    Faithful "StateUpdateHeader" StateUpdateHeader.ofMessage StateUpdateHeader.Reads id ∧
    Faithful "WatermarkNotification" WatermarkNotification.ofMessage
      WatermarkNotification.Reads id ∧
    Faithful "SetTypingNotification" TypingNotification.ofMessage TypingNotification.Reads id ∧
    Faithful "SetFocusNotification" FocusNotification.ofMessage FocusNotification.Reads id ∧
    Faithful "StateUpdate" StateUpdate.ofMessage StateUpdate.Reads
      (fun r => (r.header, r.watermark, r.typing, r.focus)) ∧
    (∀ m r, SelfInfo.ofMessage m = .ok r → r.message = m) ∧
    (∀ m r, StateUpdate.ofMessage m = .ok r → r.message = m) := by
  refine ⟨faithful_of (by decide +kernel) ParticipantId.exists_reads ParticipantId.Reads.unique ?_,
    faithful_of (by decide +kernel) SelfInfo.exists_reads SelfInfo.Reads.unique ?_,
    faithful_of (by decide +kernel) StateUpdateHeader.exists_reads
      StateUpdateHeader.Reads.unique ?_,
    faithful_of (by decide +kernel) WatermarkNotification.exists_reads
      WatermarkNotification.Reads.unique ?_,
    faithful_of (by decide +kernel) TypingNotification.exists_reads
      TypingNotification.Reads.unique ?_,
    faithful_of (by decide +kernel) FocusNotification.exists_reads
      FocusNotification.Reads.unique ?_,
    faithful_of (by decide +kernel) StateUpdate.exists_reads StateUpdate.Reads.unique ?_,
    fun m r => SelfInfo.message_eq, fun m r => StateUpdate.message_eq⟩
  · intro m h
    rw [ParticipantId.ofMessage, h]
    rfl
  · intro m h
    rw [SelfInfo.ofMessage, h]
    rfl
  · intro m h
    rw [StateUpdateHeader.ofMessage, h]
    rfl
  · intro m h
    rw [WatermarkNotification.ofMessage, h]
    rfl
  · intro m h
    rw [TypingNotification.ofMessage, h]
    rfl
  · intro m h
    rw [FocusNotification.ofMessage, h]
    rfl
  · intro m h
    rw [StateUpdate.ofMessage, h]
    rfl

/-- The type of the header of a state update. -/
def headerType : MessageDescriptor where
  name := "StateUpdateHeader"
  fields :=
    [⟨1, "active_client_state", .reference "ActiveClientState", .optional⟩,
     ⟨3, "request_trace_id", .string, .optional⟩,
     ⟨4, "notification_settings", .reference "NotificationSettings", .optional⟩,
     ⟨5, "current_server_time", .uint64, .optional⟩]

/-- A header with a time that is spelled out, and an element that is not declared. -/
def headerItems : List Json :=
  [.int 2, .null, .string "trace", .null, .string "1500", .null, .bool true]

theorem exists_decode_headerItems :
    ∃ m, Lite.decode schema "StateUpdateHeader" .plain (.array headerItems) = .ok m := by
  have hmem : headerType ∈ Service.messages := by decide +kernel
  have hd := Service.message?_schema hmem
  obtain ⟨-, hnot, hnames⟩ := StateUpdateHeader.declares.1
  obtain ⟨states, hstates⟩ := Service.exists_resolve?_enumeration hnot hnames
  rw [show "StateUpdateHeader" = headerType.name from rfl, Lite.decode_eq_readMessage hd]
  refine (Lite.exists_readMessage_iff Service.wellFormed_schema
    (Service.wellFormed_schema.message _ _ hd)).mpr fun f hf => ?_
  simp only [headerType, List.mem_cons, List.not_mem_nil, or_false] at hf
  rcases hf with rfl | rfl | rfl | rfl
  · exact Or.inr ⟨_, _, rfl, .single (by decide) (.enumeration hstates rfl)⟩
  · exact Or.inr ⟨_, _, rfl, .single (by decide) (.scalar rfl)⟩
  · exact Or.inl ⟨rfl, by decide⟩
  · exact Or.inr ⟨_, _, rfl, .single (by decide) (.scalar rfl)⟩

/-- The header is read with all three of its parts, and from no other message. -/
theorem records_faithful_header :
    (∃ m, Lite.decode schema "StateUpdateHeader" .plain (.array headerItems) = .ok m ∧
      StateUpdateHeader.ofMessage m = .ok ⟨some .otherActive, some "trace", some 1500⟩) ∧
    StateUpdateHeader.ofMessage ⟨"StateUpdate", [], []⟩ =
      .error (.misshapen (.messageType "StateUpdateHeader" "StateUpdate")) := by
  obtain ⟨-, -, hfaithful, -⟩ := records_faithful
  refine ⟨?_, hfaithful.refuses _ (by decide)⟩
  obtain ⟨m, hm⟩ := exists_decode_headerItems
  obtain ⟨⟨state, trace, time⟩, hread, hreads⟩ := hfaithful.total .plain headerItems m hm
  refine ⟨m, hm, ?_⟩
  have hstate : state = some .otherActive := (hreads.activeClientState _).mpr rfl
  have htrace : trace = some "trace" := texts_eq hreads.requestTraceId (.some rfl) rfl
  have hdigits : IsTime 1500 (.string "1500") := rfl
  have htime : time = some 1500 := times_eq hreads.currentServerTime (.some hdigits) rfl
  rw [hread, hstate, htrace, htime]

end LiteChat
