/-!
# Endpoints

The functions that the service offers.  A request goes to the path of an endpoint, and
its reply is a message of the endpoint's response type.
-/

namespace LiteChat

/-- A function of the service. -/
inductive Endpoint where
  | addUser
  | createConversation
  | deleteConversation
  | easterEgg
  | getConversation
  | getEntityById
  | getSelfInfo
  | getSuggestedEntities
  | queryPresence
  | removeUser
  | renameConversation
  | searchEntities
  | sendChatMessage
  | setActiveClient
  | setConversationNotificationLevel
  | setFocus
  | setPresence
  | setTyping
  | syncAllNewEvents
  | syncRecentConversations
  | updateWatermark
  deriving DecidableEq, Repr

namespace Endpoint

/-- Every endpoint, in the order of the names. -/
def all : List Endpoint :=
  [addUser, createConversation, deleteConversation, easterEgg, getConversation, getEntityById,
   getSelfInfo, getSuggestedEntities, queryPresence, removeUser, renameConversation,
   searchEntities, sendChatMessage, setActiveClient, setConversationNotificationLevel, setFocus,
   setPresence, setTyping, syncAllNewEvents, syncRecentConversations, updateWatermark]

/-- The name of an endpoint. -/
def name : Endpoint → String
  | addUser => "AddUser"
  | createConversation => "CreateConversation"
  | deleteConversation => "DeleteConversation"
  | easterEgg => "EasterEgg"
  | getConversation => "GetConversation"
  | getEntityById => "GetEntityById"
  | getSelfInfo => "GetSelfInfo"
  | getSuggestedEntities => "GetSuggestedEntities"
  | queryPresence => "QueryPresence"
  | removeUser => "RemoveUser"
  | renameConversation => "RenameConversation"
  | searchEntities => "SearchEntities"
  | sendChatMessage => "SendChatMessage"
  | setActiveClient => "SetActiveClient"
  | setConversationNotificationLevel => "SetConversationNotificationLevel"
  | setFocus => "SetFocus"
  | setPresence => "SetPresence"
  | setTyping => "SetTyping"
  | syncAllNewEvents => "SyncAllNewEvents"
  | syncRecentConversations => "SyncRecentConversations"
  | updateWatermark => "UpdateWatermark"

/-- The path that requests go to. -/
def path : Endpoint → String
  | addUser => "conversations/adduser"
  | createConversation => "conversations/createconversation"
  | deleteConversation => "conversations/deleteconversation"
  | easterEgg => "conversations/easteregg"
  | getConversation => "conversations/getconversation"
  | getEntityById => "contacts/getentitybyid"
  | getSelfInfo => "contacts/getselfinfo"
  | getSuggestedEntities => "contacts/getsuggestedentities"
  | queryPresence => "presence/querypresence"
  | removeUser => "conversations/removeuser"
  | renameConversation => "conversations/renameconversation"
  | searchEntities => "conversations/searchentities"
  | sendChatMessage => "conversations/sendchatmessage"
  | setActiveClient => "clients/setactiveclient"
  | setConversationNotificationLevel => "conversations/setconversationnotificationlevel"
  | setFocus => "conversations/setfocus"
  | setPresence => "presence/setpresence"
  | setTyping => "conversations/settyping"
  | syncAllNewEvents => "conversations/syncallnewevents"
  | syncRecentConversations => "conversations/syncrecentconversations"
  | updateWatermark => "conversations/updatewatermark"

/-- The message type of the replies. -/
def response (e : Endpoint) : String := e.name ++ "Response"

end Endpoint

end LiteChat
