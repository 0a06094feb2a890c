import Mathlib
import LiteChat.Proofs.Lite.Framing
import LiteChat.Proofs.Service.Declarations
import LiteChat.Request.Endpoint

/-!
# What the service replies

The replies are declared in the order of the endpoints, one for each, and all of them open with
the same header (`exists_reply`).  The header is a message, so no reply is mistaken for one that
opens with a discriminator: a body is read as the reply that it holds, be there a discriminator
in front or not (`decodeReply_framing`).
-/

namespace LiteChat

theorem Json.ofBytes?_toUTF8 (text : String) : ofBytes? text.toUTF8 = ofText? text := by
  have hvalid : text.toUTF8.IsValidUTF8 := text.isValidUTF8
  rw [ofBytes?, String.fromUTF8?, dif_pos (by simpa using hvalid)]
  rfl

theorem Endpoint.mem_all (e : Endpoint) : e ∈ all := by cases e <;> decide

namespace Service

/-- The header of a reply. -/
def responseHeader : Field := optional 1 "response_header" (ref "ResponseHeader")

/-- Behind their header the replies stand in the order of the endpoints. -/
theorem names_replies :
    responseMessages.tail.map MessageDescriptor.name = Endpoint.all.map Endpoint.response := by
  decide +kernel

theorem field?_replies : ∀ d ∈ responseMessages.tail, d.field? 1 = some responseHeader := by
  decide +kernel

theorem mem_messages_of_mem_tail {d : MessageDescriptor} (hd : d ∈ responseMessages.tail) :
    d ∈ messages :=
  List.mem_append_right _ (List.mem_of_mem_tail hd)

/-- The reply of an endpoint is declared, and its first field is a message. -/
theorem exists_reply (e : Endpoint) :
    ∃ d, schema.message? e.response = some d ∧ Lite.LedByMessage schema d := by
  have hname : e.response ∈ responseMessages.tail.map MessageDescriptor.name := by
    rw [names_replies]
    exact List.mem_map_of_mem e.mem_all
  obtain ⟨d, hd, hname⟩ := List.mem_map.mp hname
  obtain ⟨header, hheader⟩ : ∃ header, schema.resolve? "ResponseHeader" = some (.message header) :=
    exists_resolve?_message (by decide +kernel)
  rw [← hname]
  exact ⟨d, message?_schema (mem_messages_of_mem_tail hd), responseHeader, "ResponseHeader", header,
    field?_replies d hd, rfl, hheader⟩

end Service

namespace Lite

open Service (schema)

/-- The reply to a typing notice. -/
def setTypingResponse : MessageDescriptor where
  name := "SetTypingResponse"
  fields :=
    [⟨1, "response_header", .reference "ResponseHeader", .optional⟩,
     ⟨2, "timestamp", .uint64, .optional⟩]

/-- **A reply is never misread for its framing.**  A body that opens with a string is read as what
is behind the string, and a body that holds a reply without one is read as this reply. -/
theorem decodeReply_framing (e : Endpoint) (body : ByteArray) :
    (schema.message? e.response).isSome ∧
    (∀ t items, Json.ofBytes? body = some (.array (.string t :: items)) →
      decodeReply schema e.response body =
        (decode schema e.response .plain (.array items)).mapError .message) ∧
    ∀ items m, Json.ofBytes? body = some (.array items) →
      decode schema e.response .plain (.array items) = .ok m →
      decodeReply schema e.response body = .ok m := by
  obtain ⟨d, hd, hled⟩ := Service.exists_reply e
  refine ⟨by rw [hd]; rfl, fun t items hbody => ?_, fun items m hbody hm => ?_⟩
  · rw [decodeReply, hbody]
    exact decodeBody_string Service.wellFormed_schema t
  · rw [decodeReply, hbody]
    exact decodeBody_of_decode Service.wellFormed_schema hd hled hm

/-- A reply with nothing but a timestamp is read as the same message without a discriminator and
with one. -/
theorem decodeReply_framing_setTyping :
    ∃ m, decodeReply schema (Endpoint.response .setTyping) "[null,1500]".toUTF8 = .ok m ∧
      decodeReply schema (Endpoint.response .setTyping) "[\"cgserp\",null,1500]".toUTF8 =
        .ok m := by
  have hplain : Json.ofBytes? "[null,1500]".toUTF8 = some (.array [.null, .int 1500]) := by
    rw [Json.ofBytes?_toUTF8]
    cbv
  have hdiscriminated : Json.ofBytes? "[\"cgserp\",null,1500]".toUTF8 =
      some (.array [.string "cgserp", .null, .int 1500]) := by
    rw [Json.ofBytes?_toUTF8]
    cbv
  have hdeclared : setTypingResponse ∈ Service.messages :=
    Service.mem_messages_of_mem_tail (by decide +kernel)
  have hname : Endpoint.response .setTyping = setTypingResponse.name := by decide +kernel
  have hd := Service.message?_schema hdeclared
  rw [← hname] at hd
  obtain ⟨m, hm⟩ : ∃ m, decode schema (Endpoint.response .setTyping) .plain
      (.array [.null, .int 1500]) = .ok m := by
    rw [decode_eq_decodeAs hd]
    refine (exists_readMessage_iff Service.wellFormed_schema
      (Service.wellFormed_schema.message _ _ hd)).mpr fun f hf => ?_
    simp only [setTypingResponse, List.mem_cons, List.not_mem_nil, or_false] at hf
    rcases hf with rfl | rfl
    · exact Or.inl ⟨rfl, by decide⟩
    · exact Or.inr ⟨_, _, rfl, .single (by decide) (.scalar rfl)⟩
  refine ⟨m, (decodeReply_framing .setTyping _).2.2 _ m hplain hm, ?_⟩
  rw [(decodeReply_framing .setTyping _).2.1 _ _ hdiscriminated, hm]
  rfl

end Lite

end LiteChat
