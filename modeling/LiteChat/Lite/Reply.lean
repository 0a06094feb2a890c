import LiteChat.Lite.Decode
import LiteChat.Lite.Error
import LiteChat.Service.Wire

/-!
# Replies

The body of a reply is a positional array, usually with a discriminator in front.
No reply message has a string as its first field, so a body that opens with a string
opens with a discriminator, and any other does not (`framingOf`).
-/

namespace LiteChat.Lite

/-- How the body of a reply is framed. -/
def framingOf : Json → Framing
  | .array (.string _ :: _) => .discriminated
  | _ => .plain

/-- The message of a named type in a body that has been read as JSON. -/
def decodeBody (s : Schema) (name : String) (raw : Json) : Except PayloadError Message :=
  (decode s name (framingOf raw) raw).mapError .message

/-- The message of a named type in the body of a reply. -/
def decodeReply (s : Schema) (name : String) (body : ByteArray) : Except PayloadError Message :=
  match Json.ofBytes? body with
  | none => .error .notJson
  | some raw => decodeBody s name raw

/-- The status in the header of a reply, if it has one that is known. -/
def responseStatus? (m : Message) : Option ResponseStatus :=
  ((m.message? "response_header").bind fun h => h.enum? "status").bind fun n =>
    ResponseStatus.ofWire? n.toInt

end LiteChat.Lite
