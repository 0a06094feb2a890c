import LiteChat.Message.Write

/-!
# Why a payload is refused

A payload is refused because it is no JSON, because it disagrees with its message
type, because it is not of the shape that is expected at this point, or because it
carries a discriminator that nobody reads.
-/

namespace LiteChat

/-- How a JSON value can fail to be what the protocol expects in its place. -/
inductive Misshapen where
  /-- An envelope is no object. -/
  | envelope (raw : Json)
  /-- The contents of a wrapper are no object. -/
  | wrapped (contents : Json)
  /-- A wrapper does not hold text. -/
  | wrapper (held : Json)
  /-- The tag of a client id holds no string. -/
  | clientId
  /-- The tag of a payload holds no text. -/
  | payload
  /-- A pushed payload is no array, or an empty one. -/
  | emptyPayload
  /-- A message is of another type than the record to be read from it. -/
  | messageType (expected got : String)
  deriving Repr

/-- What is wrong, in words. -/
def Misshapen.text : Misshapen → String
  | .envelope raw => "envelope is not an object: " ++ raw.text
  | .wrapped contents => "wrapped envelope is not an object: " ++ contents.text
  | .wrapper held => "envelope wrapper is not a string: " ++ held.text
  | .clientId => "tag 3 without a client id string"
  | .payload => "tag 2 without a payload string"
  | .emptyPayload => "empty push payload"
  | .messageType expected got => "expected " ++ expected ++ ", got " ++ got

/-- Why a payload is refused. -/
inductive PayloadError where
  /-- It is not JSON. -/
  | notJson
  /-- It disagrees with its message type. -/
  | message (e : MessageError)
  /-- It is not of the expected shape. -/
  | misshapen (what : Misshapen)
  /-- Its discriminator is not one that is read. -/
  | unrecognized (discriminator : String)
  deriving Repr

/-- The text of an error.  What exactly is wrong with a text that is not JSON is not
part of it. -/
def PayloadError.text : PayloadError → String
  | .notJson => "decode failed"
  | .message e => e.text
  | .misshapen what => "invalid message: " ++ what.text
  | .unrecognized discriminator => "unrecognized push discriminator `" ++ discriminator ++ "`"

end LiteChat
