import LiteChat.Session.Config

/-!
# Settings of a client

How the client presents itself to the service, and how long it asks the service to
remember things.  As for a session, a member that is missing keeps its default.
-/

namespace LiteChat

open Json (Document Tree)

/-- The settings of a client. -/
structure ClientConfig where
  /-- The name in the header of every request. -/
  clientName : String := "parrot"
  /-- The language in the header of every request. -/
  language : String := "en"
  /-- The service that the push channel is subscribed to. -/
  serviceName : String := "babel"
  /-- Where an upload begins. -/
  uploadUrl : String := "https://docs.google.com/upload/photos/resumable"
  /-- The size that a reply with all new events may have. -/
  maxResponseSize : Nat := 1048576
  /-- The seconds that a presence stands. -/
  presenceTimeout : Nat := 720
  /-- The seconds that a focus stands. -/
  focusTimeout : Nat := 20
  /-- The events held for a subscriber that has not taken them yet. -/
  eventCapacity : Nat := 256
  /-- The settings of the session. -/
  session : SessionConfig := {}
  deriving DecidableEq, Repr, Inhabited

namespace ClientConfig

/-- The default settings. -/
def standard : ClientConfig := {}

/-- The members, in their declared order. -/
def memberNames : List String :=
  ["client_name", "language", "service_name", "upload_url", "max_response_size_bytes",
   "presence_timeout_secs", "focus_timeout_secs", "event_capacity", "session"]

/-- The settings that a tree spells. -/
def ofTree? (t : Tree) : Option ClientConfig :=
  match t.record? memberNames with
  | some [name, language, service, url, size, presence, focus, capacity, session] => do
    return {
      clientName := ← Tree.orDefault standard.clientName Tree.string? name
      language := ← Tree.orDefault standard.language Tree.string? language
      serviceName := ← Tree.orDefault standard.serviceName Tree.string? service
      uploadUrl := ← Tree.orDefault standard.uploadUrl Tree.string? url
      maxResponseSize := ← Tree.orDefault standard.maxResponseSize Tree.nat64? size
      presenceTimeout := ← Tree.orDefault standard.presenceTimeout Tree.nat32? presence
      focusTimeout := ← Tree.orDefault standard.focusTimeout Tree.nat32? focus
      eventCapacity := ← Tree.orDefault standard.eventCapacity Tree.nat64? capacity
      session := ← Tree.orDefault standard.session SessionConfig.ofTree? session }
  | _ => none

/-- The settings that a text spells. -/
def ofText? (text : String) : Option ClientConfig :=
  (Tree.ofText? text.toList).bind ofTree?

/-- The settings as a JSON document. -/
def document (c : ClientConfig) : Document :=
  .object (memberNames.zip
    [.ofString c.clientName, .ofString c.language, .ofString c.serviceName,
     .ofString c.uploadUrl, .ofNat c.maxResponseSize, .ofNat c.presenceTimeout,
     .ofNat c.focusTimeout, .ofNat c.eventCapacity, c.session.document])

end ClientConfig

end LiteChat
