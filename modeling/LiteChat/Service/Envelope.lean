import LiteChat.Lite.Decode
import LiteChat.Service.Declarations
import LiteChat.Service.Record

/-!
# Envelopes

What the service pushes comes in an envelope, an object whose keys are tags.  Tag 3
holds a new client id and tag 2 a payload; nothing else in it counts.  An envelope may
be wrapped: then it is the text under the key `p` of an object.

The two tags are read independently, and a tag that cannot be read is listed as
rejected while the other one still counts.  Only a bad wrapper fails the whole
envelope.

A payload is a batch of state updates if its discriminator says so; a payload with
another discriminator is ignored.  A batch is delivered whole or not at all.
-/

namespace LiteChat

/-- What a payload brings. -/
inductive PushEvent where
  /-- State updates in the order in which the service sent them. -/
  | batch (updates : List StateUpdate)
  /-- Something that is not read, with its discriminator. -/
  | ignored (discriminator : String)

/-- Why a payload with a discriminator is ignored, in words. -/
def PushEvent.ignoredReason (discriminator : String) : String :=
  "discriminator `" ++ discriminator ++ "`"

/-- A tag of an envelope that counts. -/
inductive Tag where
  /-- Tag 3. -/
  | clientId
  /-- Tag 2. -/
  | payload
  deriving DecidableEq, Repr

/-- The key of a tag. -/
def Tag.key : Tag → String
  | .clientId => "3"
  | .payload => "2"

/-- What an envelope brings. -/
structure Envelope where
  /-- A new client id. -/
  clientId : Option String
  /-- A payload. -/
  push : Option PushEvent
  /-- The tags that could not be read. -/
  rejected : List (Tag × PayloadError)

namespace Envelope

/-- Whether there were tags and none could be read. -/
def isRejected (e : Envelope) : Bool :=
  e.clientId.isNone && e.push.isNone && !e.rejected.isEmpty

/-- The discriminator of a batch of state updates. -/
def batchDiscriminator : String := "cbu"

/-- Reads a record from each of a list of messages. -/
def readUpdates : List Message → Except PayloadError (List StateUpdate)
  | [] => .ok []
  | m :: rest =>
    match StateUpdate.ofMessage m with
    | .error e => .error e
    | .ok u => (readUpdates rest).map (u :: ·)

/-- The state updates of a payload. -/
def decodeBatch (s : Schema) (payload : Json) : Except PayloadError (List StateUpdate) :=
  match payload with
  | .array (.string discriminator :: _) =>
    if discriminator = batchDiscriminator then
      match Lite.decode s "BatchUpdate" .discriminated payload with
      | .error e => .error (.message e)
      | .ok batch => readUpdates ((batch.elements "state_update").filterMap Value.message?)
    else .error (.unrecognized discriminator)
  | .array (other :: _) => .error (.unrecognized other.text)
  | _ => .error (.misshapen .emptyPayload)

/-- The text in the inner tag of a tag. -/
def innerText? (tag : Json) : Option String := (tag.get? "2").bind Json.string?

/-- The client id in tag 3. -/
def decodeClientId (tag : Json) : Except PayloadError String :=
  match innerText? tag with
  | some id => .ok id
  | none => .error (.misshapen .clientId)

/-- The payload in tag 2. -/
def decodePush (s : Schema) (tag : Json) : Except PayloadError PushEvent :=
  match innerText? tag with
  | none => .error (.misshapen .payload)
  | some text =>
    match Json.ofText? text with
    | none => .error .notJson
    | some payload =>
      match decodeBatch s payload with
      | .ok updates => .ok (.batch updates)
      | .error (.unrecognized discriminator) => .ok (.ignored discriminator)
      | .error e => .error e

/-- The object of an envelope, taken out of its wrapper if it has one. -/
def unwrap (raw : Json) : Except PayloadError (List (String × Json)) :=
  match raw with
  | .object members =>
    match Keyed.get? "p" members with
    | none => .ok members
    | some (.string text) =>
      match Json.ofText? text with
      | none => .error .notJson
      | some (.object inner) => .ok inner
      | some other => .error (.misshapen (.wrapped other))
    | some other => .error (.misshapen (.wrapper other))
  | other => .error (.misshapen (.envelope other))

/-- What a tag brings: nothing if it is absent, and its name with the error if it
cannot be read. -/
def readTag {α : Type} (tag : Tag) (members : List (String × Json))
    (read : Json → Except PayloadError α) : Option α × List (Tag × PayloadError) :=
  match Keyed.get? tag.key members with
  | none => (none, [])
  | some contents =>
    match read contents with
    | .ok a => (some a, [])
    | .error e => (none, [(tag, e)])

/-- What the object of an envelope brings. -/
def ofMembers (s : Schema) (members : List (String × Json)) : Envelope :=
  let (clientId, badId) := readTag .clientId members decodeClientId
  let (push, badPush) := readTag .payload members (decodePush s)
  ⟨clientId, push, badId ++ badPush⟩

/-- What a pushed element brings as an envelope. -/
def decode (s : Schema) (raw : Json) : Except PayloadError Envelope :=
  (unwrap raw).map (ofMembers s)

end Envelope

end LiteChat
