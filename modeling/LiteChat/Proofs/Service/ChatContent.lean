import LiteChat.Proofs.Lite.Contents
import LiteChat.Proofs.Lite.Scalar
import LiteChat.Proofs.Service.Declarations
import LiteChat.Request.Call

/-!
# Chat messages as the service's schema has them

The array of a chat message to send is put together by hand, while the one that comes back is read
by the schema.  Both have the same elements at the same places: the array to send is read as a
message of the schema, and every part of the chat message is found in it under its name
(`decode_chatMessage`).

The message types concerned have no gaps between their ids, and the array has one element for each
field.  Such an array is read element by element (`holdsMessage_of_fills`), so all that is left is to
say which value each element stands for, from the formats of a segment up to the list of segments.
-/

namespace LiteChat

namespace Lite

/-! ## Arrays with an element for each field -/

/-- An element stands for the slot of a field: a null one leaves blank what is not required. -/
inductive Fills (s : Schema) : Field × Slot Value → Json → Prop where
  | absent {f : Field} (hl : f.label ≠ .required) : Fills s (f, .blank f.label) .null
  | present {f : Field} {slot : Slot Value} {e : Json} (he : e.isNull = false)
    (h : HoldsSlot s f e slot) : Fills s (f, slot) e

/-- An array with an element for each slot of a message without gaps holds the message. -/
theorem holdsMessage_of_fills {s : Schema} {m : Message} {items : List Json}
    (hids : m.entries.map (fun p => p.1.id) = (List.range m.entries.length).map (· + 1))
    (hunknown : m.unknown = []) (h : List.Forall₂ (Fills s) m.entries items) :
    HoldsMessage s m.descriptor Framing.plain.firstId items m := by
  have hid : ∀ (i : Nat) p, m.entries[i]? = some p → p.1.id = i + 1 := by
    intro i p hp
    have hlt := (List.getElem?_eq_some_iff.mp hp).1
    have hget := congrArg (·[i]?) hids
    simpa [hp, List.getElem?_range hlt] using hget
  have hitem : ∀ f slot, (f, slot) ∈ m.entries → ∃ e, Fills s (f, slot) e ∧
      elementAt? 1 items f.id = if e.isNull then none else some e := by
    intro f slot hmem
    obtain ⟨i, hi, hget⟩ := List.getElem_of_mem hmem
    have hi' : i < items.length := h.length_eq ▸ hi
    have hfills : Fills s m.entries[i] items[i] := h.get hi hi'
    rw [hget] at hfills
    have hf : f.id = i + 1 := hid i (f, slot) (List.getElem?_eq_some_iff.mpr ⟨hi, hget⟩)
    refine ⟨items[i], hfills, ?_⟩
    rw [elementAt?, hf, if_pos (by omega), Nat.add_sub_cancel, List.getElem?_eq_getElem hi']
    cases hnull : items[i].isNull <;> simp [hnull]
  refine .intro rfl rfl (fun f slot hmem habsent => ?_) (fun f slot x hmem hx => ?_)
    (hunknown ▸ List.Pairwise.nil) fun id x => ?_
  · obtain ⟨e, hfills, he⟩ := hitem f slot hmem
    cases hfills with
    | absent hl => exact ⟨hl, rfl⟩
    | present hnull _ =>
      rw [hnull] at he
      cases habsent.symm.trans he
  · obtain ⟨e, hfills, he⟩ := hitem f slot hmem
    cases hfills with
    | absent hl => cases hx.symm.trans he
    | present hnull hslot =>
      rw [hnull] at he
      cases hx.symm.trans he
      exact hslot
  · rw [hunknown]
    refine iff_of_false List.not_mem_nil ?_
    rintro ⟨hpos, -, hnone, hx⟩
    -- there is a field at the place of the element
    obtain ⟨-, hget, -⟩ := elementAt?_eq_some_iff.mp hx
    have hlt : id - 1 < m.entries.length := h.length_eq ▸ (List.getElem?_eq_some_iff.mp hget).1
    have hplace := hid _ _ (List.getElem?_eq_getElem hlt)
    exact MessageDescriptor.field?_eq_none_iff.mp hnone _
      (List.mem_map_of_mem (List.getElem_mem hlt)) (by omega)

end Lite

open Service (schema optional repeated required ref)
open Lite (Fills HoldsMessage HoldsValue HoldsValues HoldsSlot)

/-- A message has the slots of a type of the schema that has no gaps, and nothing is unknown. -/
structure Message.IsDense (m : Message) : Prop where
  mem : m.descriptor ∈ Service.messages
  ids_eq : m.entries.map (fun p => p.1.id) = (List.range m.entries.length).map (· + 1)
  unknown_eq : m.unknown = []

namespace Message.IsDense

variable {m : Message} {items : List Json}

theorem message? (hm : m.IsDense) : schema.message? m.name = some m.descriptor :=
  Service.message?_schema (d := m.descriptor) hm.mem

/-- An array with an element for each slot stands for the message. -/
theorem holdsValue (hm : m.IsDense) (h : List.Forall₂ (Fills schema) m.entries items) :
    HoldsValue schema (ref m.name) (.array items) (.message m) :=
  .message (Service.resolve?_of_message? hm.message?)
    (Lite.holdsMessage_of_fills hm.ids_eq hm.unknown_eq h)

/-- It is read as the message. -/
theorem decode_eq (hm : m.IsDense) (h : List.Forall₂ (Fills schema) m.entries items) :
    Lite.decode schema m.name .plain (.array items) = .ok m := by
  have hs := Service.wellFormed_schema
  rw [Lite.decode_eq_readMessage hm.message?]
  exact (Lite.readMessage_iff_holds hs (hs.message _ _ hm.message?)).mpr
    (Lite.holdsMessage_of_fills hm.ids_eq hm.unknown_eq h)

end Message.IsDense

/-! ## The messages of the schema -/

/-- The formats of a segment as a message. -/
def Formatting.message (f : Formatting) : Message :=
  ⟨"Formatting",
    [(optional 1 "bold" .bool, .single (.bool f.bold)),
     (optional 2 "italic" .bool, .single (.bool f.italic)),
     (optional 3 "strikethrough" .bool, .single (.bool f.strikethrough)),
     (optional 4 "underline" .bool, .single (.bool f.underline))], []⟩

/-- The target of a link as a message. -/
def linkMessage (target : String) : Message :=
  ⟨"LinkData", [(optional 1 "link_target" .string, .single (.string target))], []⟩

/-- A segment as a message. -/
def Segment.message (s : Segment) : Message :=
  ⟨"Segment",
    [(required 1 "type" (ref "SegmentType"), .single (.enumeration (Int32.ofInt s.kind.wire))),
     (optional 2 "text" .string, .single (.string s.text)),
     (optional 3 "formatting" (ref "Formatting"), .single (.message s.formatting.message)),
     (optional 4 "link_data" (ref "LinkData"),
      match s.target with
      | some target => .single (.message (linkMessage target))
      | none => .unset)], []⟩

/-- The segments of a chat message as a message. -/
def contentMessage (segments : List Segment) : Message :=
  ⟨"MessageContent",
    [(repeated 1 "segment" (ref "Segment"), .repeated (segments.map fun s => .message s.message)),
     (repeated 2 "attachment" (ref "Attachment"), .repeated [])], []⟩

/-- The id of a conversation as a message. -/
def conversationIdMessage (id : String) : Message :=
  ⟨"ConversationId", [(optional 1 "id" .string, .single (.string id))], []⟩

/-- The types of these messages are types of the schema; what a message says is no part of its
type. -/
theorem descriptor_mem_messages : ∀ m ∈ [(default : Formatting).message, linkMessage "",
    (default : Segment).message, contentMessage [], conversationIdMessage ""],
    m.descriptor ∈ Service.messages := by
  decide +kernel

theorem isDense_formatting (f : Formatting) : f.message.IsDense :=
  ⟨descriptor_mem_messages (default : Formatting).message (.head _), rfl, rfl⟩

theorem isDense_link (target : String) : (linkMessage target).IsDense :=
  ⟨descriptor_mem_messages (linkMessage "") (.tail _ (.head _)), rfl, rfl⟩

theorem isDense_segment (s : Segment) : s.message.IsDense :=
  ⟨descriptor_mem_messages (default : Segment).message (.tail _ (.tail _ (.head _))), rfl, rfl⟩

theorem isDense_content (segments : List Segment) : (contentMessage segments).IsDense :=
  ⟨descriptor_mem_messages (contentMessage []) (.tail _ (.tail _ (.tail _ (.head _)))), rfl, rfl⟩

theorem isDense_conversationId (id : String) : (conversationIdMessage id).IsDense :=
  ⟨descriptor_mem_messages (conversationIdMessage "")
    (.tail _ (.tail _ (.tail _ (.tail _ (.head _))))), rfl, rfl⟩

/-! ## What the arrays hold -/

/-- A field that is not repeated is filled by what stands for its value. -/
theorem fills_single {f : Field} {e : Json} {v : Value} (hl : f.label ≠ .repeated)
    (he : e.isNull = false) (h : HoldsValue schema f.type e v) :
    Fills schema (f, .single v) e :=
  .present he (.single hl h)

theorem fills_scalar {f : Field} {e : Json} {v : Value} (hl : f.label ≠ .repeated)
    (he : e.isNull = false) (h : Lite.scalar? f.type e = some v) :
    Fills schema (f, .single v) e :=
  fills_single hl he (.scalar h)

theorem holdsValue_formatting (f : Formatting) :
    HoldsValue schema (ref "Formatting")
      (.array [.bool f.bold, .bool f.italic, .bool f.strikethrough, .bool f.underline])
      (.message f.message) :=
  (isDense_formatting f).holdsValue
    (.cons (fills_scalar nofun rfl rfl) (.cons (fills_scalar nofun rfl rfl)
      (.cons (fills_scalar nofun rfl rfl) (.cons (fills_scalar nofun rfl rfl) .nil))))

theorem holdsValue_link (target : String) :
    HoldsValue schema (ref "LinkData") (.array [.string target]) (.message (linkMessage target)) :=
  (isDense_link target).holdsValue (.cons (fills_scalar nofun rfl rfl) .nil)

/-- A number of a segment kind is one of the enum. -/
theorem holdsValue_kind (k : SegmentKind) :
    HoldsValue schema (ref "SegmentType") (.int k.wire) (.enumeration (Int32.ofInt k.wire)) := by
  obtain ⟨enum, henum⟩ : ∃ enum, schema.resolve? "SegmentType" = some (.enumeration enum) :=
    Service.exists_resolve?_enumeration (by decide +kernel) (by decide +kernel)
  refine .enumeration henum ?_
  cases k <;> rfl

/-- A segment stands for its message. -/
theorem holdsValue_segment (s : Segment) :
    HoldsValue schema (ref "Segment") s.encode (.message s.message) := by
  refine (isDense_segment s).holdsValue
    (.cons (fills_single nofun rfl (holdsValue_kind s.kind))
      (.cons (fills_scalar nofun rfl rfl)
        (.cons (fills_single nofun rfl (holdsValue_formatting s.formatting)) (.cons ?_ .nil))))
  cases s.target with
  | some target => exact fills_single nofun rfl (holdsValue_link target)
  | none => exact .absent nofun

/-- The segments of a chat message stand for their messages, in their order. -/
theorem holdsValues_segments (segments : List Segment) :
    HoldsValues schema (ref "Segment") (segments.map Segment.encode)
      (segments.map fun s => .message s.message) := by
  induction segments with
  | nil => exact .nil
  | cons s rest ih => exact .cons rfl (holdsValue_segment s) ih

theorem decode_content (segments : List Segment) :
    Lite.decode schema "MessageContent" .plain
      (.array [.array (segments.map Segment.encode), .array []]) =
      .ok (contentMessage segments) :=
  (isDense_content segments).decode_eq
    (.cons (.present rfl (.repeated rfl (holdsValues_segments segments)))
      (.cons (.present rfl (.repeated rfl .nil)) .nil))

theorem decode_conversationId (id : String) :
    Lite.decode schema "ConversationId" .plain (Call.conversationId id) =
      .ok (conversationIdMessage id) :=
  (isDense_conversationId id).decode_eq (.cons (fills_scalar nofun rfl rfl) .nil)

/-! ## What is found under the names -/

/-- A message has what a segment is made of, under the names of the schema. -/
structure Segment.ShownBy (s : Segment) (m : Message) : Prop where
  name_eq : m.name = "Segment"
  unknown_eq : m.unknown = []
  kind : (m.enum? "type").map Int32.toInt = some s.kind.wire
  text : m.string? "text" = some s.text
  formatting : ∃ n, m.message? "formatting" = some n ∧ n.unknown = [] ∧
    n.bool? "bold" = some s.formatting.bold ∧ n.bool? "italic" = some s.formatting.italic ∧
    n.bool? "strikethrough" = some s.formatting.strikethrough ∧
    n.bool? "underline" = some s.formatting.underline
  /-- There is link data exactly if there is a target, and then it has the target. -/
  link : Option.Rel (fun target v => ∃ n, v = .message n ∧ n.unknown = [] ∧
    n.string? "link_target" = some target) s.target (m.value? "link_data")

theorem shownBy_message (s : Segment) : s.ShownBy s.message where
  name_eq := rfl
  unknown_eq := rfl
  kind := by
    obtain ⟨kind, text, formatting, target⟩ := s
    cases kind <;> rfl
  text := rfl
  formatting := ⟨s.formatting.message, rfl, rfl, rfl, rfl, rfl, rfl⟩
  link := by
    obtain ⟨kind, text, formatting, target⟩ := s
    cases target with
    | some target => exact .some ⟨linkMessage target, rfl, rfl, rfl⟩
    | none => exact .none

/-- The elements of a body have a chat message and the id of its conversation where the schema has
them. -/
structure ShowsChatMessage (conversation : String) (segments : List Segment)
    (items : List Json) : Prop where
  /-- The sixth element is read as the content of a chat message: its segments, and nothing else. -/
  content : ∃ e m, items[5]? = some e ∧ Lite.decode schema "MessageContent" .plain e = .ok m ∧
    m.unknown = [] ∧ m.elements "attachment" = [] ∧
    List.Forall₂ (fun s v => ∃ n, v = .message n ∧ s.ShownBy n) segments (m.elements "segment")
  /-- The eighth element begins with the id of the conversation. -/
  conversation : ∃ e rest m, items[7]? = some (.array (e :: rest)) ∧
    Lite.decode schema "ConversationId" .plain e = .ok m ∧ m.unknown = [] ∧
    m.string? "id" = some conversation

/-- **A chat message to send is one that the schema reads.**  Whoever sends it, wherever to and
whatever it carries, its text is found in the body where the schema has the text of a chat message
that comes in. -/
theorem decode_chatMessage (config : ClientConfig) (clientId : Option String)
    (conversation : String) (message : OutgoingMessage) (requestId : Nat) :
    ∃ items, (Call.request config clientId
        (.sendChatMessage conversation message requestId)).body = .array items ∧
      ShowsChatMessage conversation message.segments items := by
  refine ⟨_, rfl, ⟨_, _, rfl, decode_content message.segments, rfl, rfl, ?_⟩,
    ⟨_, _, _, rfl, decode_conversationId conversation, rfl, rfl⟩⟩
  show List.Forall₂ _ message.segments (message.segments.map fun s => Value.message s.message)
  exact List.forall₂_map_right_iff.mpr
    (List.forall₂_same.mpr fun s _ => ⟨s.message, rfl, shownBy_message s⟩)

end LiteChat
