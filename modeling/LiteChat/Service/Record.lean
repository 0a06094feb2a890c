import LiteChat.Lite.Error
import LiteChat.Service.Wire

/-!
# Records

The client only needs a few fields of what it is sent, and reads them into records.
A record is read from a message of one type and refuses any other; what is absent in
the message is absent in the record.  A record that is handed on to subscribers keeps
the message it was read from, so that nothing is lost.
-/

namespace LiteChat

/-- The message itself, if it is of the expected type. -/
def Message.ofType (m : Message) (expected : String) : Except PayloadError Message :=
  if m.name = expected then .ok m else .error (.misshapen (.messageType expected m.name))

/-- The record in a field of a message, if a message is there. -/
def Message.record? {α : Type} (m : Message) (field : String)
    (read : Message → Except PayloadError α) : Except PayloadError (Option α) :=
  match m.message? field with
  | none => .ok none
  | some nested => (read nested).map some

/-- The id in the conversation id of a message. -/
def Message.conversationId? (m : Message) : Option String :=
  (m.message? "conversation_id").bind fun c => c.string? "id"

/-- A participant of a conversation. -/
structure ParticipantId where
  /-- The id of the account. -/
  gaiaId : Option String
  /-- The id in chats. -/
  chatId : Option String
  deriving DecidableEq, Repr

/-- The participant that a message names. -/
def ParticipantId.ofMessage (m : Message) : Except PayloadError ParticipantId := do
  let m ← m.ofType "ParticipantId"
  return ⟨m.string? "gaia_id", m.string? "chat_id"⟩

/-- The account that is signed in. -/
structure SelfInfo where
  /-- Its id. -/
  id : Option ParticipantId
  /-- The name it is shown under. -/
  displayName : Option String
  /-- Its email addresses. -/
  emails : List String
  /-- The message all this was read from. -/
  message : Message

namespace SelfInfo

/-- The account that a reply describes. -/
def ofMessage (m : Message) : Except PayloadError SelfInfo := do
  let m ← m.ofType "GetSelfInfoResponse"
  let entity := m.message? "self_entity"
  let properties := entity.bind fun e => e.message? "properties"
  let id ← match entity with
    | none => .ok none
    | some e => e.record? "id" ParticipantId.ofMessage
  return {
    id := id
    displayName := properties.bind fun p => p.string? "display_name"
    emails := (properties.map fun p => (p.elements "email").filterMap Value.string?).getD []
    message := m }

/-- The primary email address. -/
def email? (info : SelfInfo) : Option String := info.emails.head?

end SelfInfo

/-- The header of a state update. -/
structure StateUpdateHeader where
  /-- Which client the service takes to be active. -/
  activeClientState : Option ActiveClientState
  /-- The id under which the service traces the request. -/
  requestTraceId : Option String
  /-- The time of the service, in microseconds. -/
  currentServerTime : Option Nat
  deriving DecidableEq, Repr

/-- The header that a message holds. -/
def StateUpdateHeader.ofMessage (m : Message) : Except PayloadError StateUpdateHeader := do
  let m ← m.ofType "StateUpdateHeader"
  return {
    activeClientState := (m.enum? "active_client_state").bind fun n =>
      ActiveClientState.ofWire? n.toInt
    requestTraceId := m.string? "request_trace_id"
    currentServerTime := m.uint64? "current_server_time" }

/-- Somebody has read a conversation up to a time. -/
structure WatermarkNotification where
  /-- Who has. -/
  senderId : Option ParticipantId
  /-- The conversation. -/
  conversationId : Option String
  /-- The time, in microseconds. -/
  latestReadTimestamp : Option Nat
  deriving DecidableEq, Repr

/-- The watermark that a message holds. -/
def WatermarkNotification.ofMessage (m : Message) : Except PayloadError WatermarkNotification := do
  let m ← m.ofType "WatermarkNotification"
  return {
    senderId := ← m.record? "sender_id" ParticipantId.ofMessage
    conversationId := m.conversationId?
    latestReadTimestamp := m.uint64? "latest_read_timestamp" }

/-- Somebody is typing, or no longer is. -/
structure TypingNotification where
  /-- The conversation. -/
  conversationId : Option String
  /-- Who. -/
  senderId : Option ParticipantId
  /-- When, in microseconds. -/
  timestamp : Option Nat
  /-- What they are doing. -/
  typing : Option TypingType
  deriving DecidableEq, Repr

/-- The typing notification that a message holds. -/
def TypingNotification.ofMessage (m : Message) : Except PayloadError TypingNotification := do
  let m ← m.ofType "SetTypingNotification"
  return {
    conversationId := m.conversationId?
    senderId := ← m.record? "sender_id" ParticipantId.ofMessage
    timestamp := m.uint64? "timestamp"
    typing := (m.enum? "type").bind fun n => TypingType.ofWire? n.toInt }

/-- Somebody has turned to a conversation, or away from it. -/
structure FocusNotification where
  /-- The conversation. -/
  conversationId : Option String
  /-- Who. -/
  senderId : Option ParticipantId
  /-- When, in microseconds. -/
  timestamp : Option Nat
  /-- Which of the two. -/
  focus : Option FocusType
  deriving DecidableEq, Repr

/-- The focus notification that a message holds. -/
def FocusNotification.ofMessage (m : Message) : Except PayloadError FocusNotification := do
  let m ← m.ofType "SetFocusNotification"
  return {
    conversationId := m.conversationId?
    senderId := ← m.record? "sender_id" ParticipantId.ofMessage
    timestamp := m.uint64? "timestamp"
    focus := (m.enum? "type").bind fun n => FocusType.ofWire? n.toInt }

/-- One entry of a pushed batch. -/
structure StateUpdate where
  /-- Its header. -/
  header : Option StateUpdateHeader
  /-- What somebody has read. -/
  watermark : Option WatermarkNotification
  /-- Who is typing. -/
  typing : Option TypingNotification
  /-- Who is looking. -/
  focus : Option FocusNotification
  /-- The message all this was read from; it holds everything else. -/
  message : Message

namespace StateUpdate

/-- The state update that a message holds. -/
def ofMessage (m : Message) : Except PayloadError StateUpdate := do
  let m ← m.ofType "StateUpdate"
  return {
    header := ← m.record? "state_update_header" StateUpdateHeader.ofMessage
    watermark := ← m.record? "watermark_notification" WatermarkNotification.ofMessage
    typing := ← m.record? "typing_notification" TypingNotification.ofMessage
    focus := ← m.record? "focus_notification" FocusNotification.ofMessage
    message := m }

/-- The active client that the service reports, if it reports a known one. -/
def activeClientState? (u : StateUpdate) : Option ActiveClientState :=
  u.header.bind StateUpdateHeader.activeClientState

/-- The event that the update brings. -/
def event? (u : StateUpdate) : Option Message :=
  (u.message.message? "event_notification").bind fun n => n.message? "event"

end StateUpdate

end LiteChat
