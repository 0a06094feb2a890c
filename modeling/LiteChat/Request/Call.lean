import LiteChat.Client.Config
import LiteChat.Request.Content
import LiteChat.Request.Endpoint

/-!
# Calls and their bodies

A `Call` is an endpoint with its arguments.  The body of its request is an array: a
header that says who sends it, and then the contents, which depend on the call and
the settings alone.

Some calls carry an id that the client made up, by which the service recognises a
request that it has seen before.  Such an id is an argument like the others, and so
is the time.
-/

namespace LiteChat

/-- A call of an endpoint. -/
inductive Call where
  /-- Invites users to a conversation. -/
  | addUser (conversation : String) (users : List String) (requestId : Nat)
  /-- Creates a conversation with users. -/
  | createConversation (users : List String) (forceGroup : Bool) (requestId : Nat)
  /-- Deletes what a conversation held up to a time. -/
  | deleteConversation (conversation : String) (now : Nat)
  /-- Shows an easter egg to a conversation. -/
  | easterEgg (conversation egg : String)
  /-- Asks for the events of a conversation before a time. -/
  | getConversation (conversation : String) (timestamp maxEvents : Nat)
  /-- Looks users up. -/
  | getEntitiesById (users : List String)
  /-- Asks who this account is. -/
  | getSelfInfo
  /-- Asks for users that this account may know. -/
  | getSuggestedEntities (maxCount : Nat)
  /-- Asks for the presence of users. -/
  | queryPresence (users : List String)
  /-- Leaves a conversation. -/
  | removeUser (conversation : String) (requestId : Nat)
  /-- Gives a conversation a name. -/
  | renameConversation (conversation name : String) (requestId : Nat)
  /-- Searches for users. -/
  | searchEntities (query : String) (maxResults : Nat)
  /-- Sends a chat message to a conversation. -/
  | sendChatMessage (conversation : String) (message : OutgoingMessage) (requestId : Nat)
  /-- Says whether the client of an identity is the active one. -/
  | setActiveClient (isActive : Bool) (identity : String) (timeout : Nat)
  /-- Says how loudly a conversation announces its events. -/
  | setNotificationLevel (conversation : String) (level : NotificationLevel)
  /-- Says whether the user looks at a conversation. -/
  | setFocus (conversation : String) (focus : FocusType)
  /-- Says whether the user is online, and in which mood. -/
  | setPresence (online : Bool) (mood : Option String)
  /-- Says what the user does at the keyboard. -/
  | setTyping (conversation : String) (typing : TypingType)
  /-- Asks for all events since a time. -/
  | syncAllNewEvents (since : Nat)
  /-- Asks for the latest events of the latest conversations. -/
  | syncRecentConversations (maxConversations maxEvents : Nat)
  /-- Says up to which time a conversation has been read. -/
  | updateWatermark (conversation : String) (timestamp : Nat)
  deriving DecidableEq, Repr, Inhabited

/-- A body and the endpoint it goes to. -/
structure Request where
  endpoint : Endpoint
  body : Json

namespace Call

/-- The endpoint of a call. -/
def endpoint : Call → Endpoint
  | addUser .. => .addUser
  | createConversation .. => .createConversation
  | deleteConversation .. => .deleteConversation
  | easterEgg .. => .easterEgg
  | getConversation .. => .getConversation
  | getEntitiesById .. => .getEntityById
  | getSelfInfo => .getSelfInfo
  | getSuggestedEntities .. => .getSuggestedEntities
  | queryPresence .. => .queryPresence
  | removeUser .. => .removeUser
  | renameConversation .. => .renameConversation
  | searchEntities .. => .searchEntities
  | sendChatMessage .. => .sendChatMessage
  | setActiveClient .. => .setActiveClient
  | setNotificationLevel .. => .setConversationNotificationLevel
  | setFocus .. => .setFocus
  | setPresence .. => .setPresence
  | setTyping .. => .setTyping
  | syncAllNewEvents .. => .syncAllNewEvents
  | syncRecentConversations .. => .syncRecentConversations
  | updateWatermark .. => .updateWatermark

/-- A natural number as it stands in a body. -/
def number (n : Nat) : Json := .int n

/-- A row of natural numbers as it stands in a body. -/
def numbers (ns : List Nat) : Json := .array (ns.map number)

/-- An id of a conversation as it stands in a body. -/
def conversationId (id : String) : Json := .array [.string id]

/-- The users to invite, as they stand in a body. -/
def invitees (users : List String) : Json :=
  .array (users.map fun id =>
    .array [.string id, .null, .null, .string "unknown", .null, .array []])

/-- Whether a conversation with users is one of two persons or of a group. -/
def conversationKind (users : List String) (forceGroup : Bool) : Nat :=
  if users.length = 1 ∧ forceGroup = false then 1 else 2

/-- The fields of a presence, by their numbers. -/
def presenceFields : List Nat := [1, 2, 3, 4, 5, 6, 7, 8, 9, 10]

/-- The number of a presence. -/
def presenceState (online : Bool) : Nat := if online then 1 else 40

/-- The elements of the body after the header. -/
def contents (config : ClientConfig) : Call → List Json
  | addUser conversation users requestId =>
    [.null, invitees users, .null,
     .array [conversationId conversation, number requestId, number 2, .null, number 4]]
  | createConversation users forceGroup requestId =>
    [number (conversationKind users forceGroup), number requestId, .null, invitees users]
  | deleteConversation conversation now =>
    [conversationId conversation, number now, .null, .array []]
  | easterEgg conversation egg =>
    [conversationId conversation, .array [.string egg, .null, number 1]]
  | getConversation conversation timestamp maxEvents =>
    [.array [conversationId conversation, .array [], .array []], .bool false, .bool true, .null,
     number maxEvents, .array [.null, .null, number timestamp]]
  | getEntitiesById users => [.null, .array (users.map fun id => .array [.string id])]
  | getSelfInfo => []
  | getSuggestedEntities maxCount => [.null, .null, number maxCount]
  | queryPresence users =>
    [.array [.array (users.map Json.string)], numbers presenceFields]
  | removeUser conversation requestId =>
    [.null, .null, .null, .array [conversationId conversation, number requestId, number 2]]
  | renameConversation conversation name requestId =>
    [.null, .string name, .null,
     .array [conversationId conversation, number requestId, number 1]]
  | searchEntities query maxResults => [.array [], .string query, number maxResults]
  | sendChatMessage conversation message requestId =>
    [.null, .null, .null, .array [],
     .array [.array (message.segments.map Segment.encode), .array []],
     match message.image with
     | some image => image.encode
     | none => .null,
     .array
      [conversationId conversation, number requestId, .int message.otrStatus.wire,
       .array [.int message.medium.wire], .null]]
  | setActiveClient isActive identity timeout =>
    [.bool isActive, .string identity, number timeout]
  | setNotificationLevel conversation level => [conversationId conversation, .int level.wire]
  | setFocus conversation focus =>
    [conversationId conversation, .int focus.wire, number config.focusTimeout]
  | setPresence online mood =>
    [numbers [config.presenceTimeout, presenceState online], .null, .null,
     .array [.bool !online],
     .array [match mood with
       | some mood => .string mood
       | none => .null]]
  | setTyping conversation typing => [conversationId conversation, .int typing.wire]
  | syncAllNewEvents since =>
    [number since, .array [], .null, .array [], .bool false, .array [],
     number config.maxResponseSize]
  | syncRecentConversations maxConversations maxEvents =>
    [.null, number maxConversations, number maxEvents, numbers [1]]
  | updateWatermark conversation timestamp => [conversationId conversation, number timestamp]

/-- The header of every body: the name of the client, its id if it has one, and its
language. -/
def header (config : ClientConfig) (clientId : Option String) : Json :=
  .array
    [.array [.null, .null, .string config.clientName, .null, .null, .null],
     .array
      [match clientId with
       | some id => .string id
       | none => .null,
       .null],
     .null, .string config.language]

/-- The request of a call, made by the client with an id. -/
def request (config : ClientConfig) (clientId : Option String) (c : Call) : Request :=
  ⟨c.endpoint, .array (header config clientId :: c.contents config)⟩

end Call

end LiteChat
