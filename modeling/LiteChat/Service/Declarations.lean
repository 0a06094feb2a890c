import LiteChat.Schema.Registry

/-!
# The service's declarations

The schema of everything the service sends, as data: its enums, and its messages by
topic.  Names do not travel; what has to agree with the service are the ids, the types
and the labels.  `Service.schema` is the schema of all of them together.
-/

namespace LiteChat.Service

/-- An optional field. -/
def optional (id : Nat) (name : String) (type : FieldType) : Field := ⟨id, name, type, .optional⟩

/-- A required field. -/
def required (id : Nat) (name : String) (type : FieldType) : Field := ⟨id, name, type, .required⟩

/-- A repeated field. -/
def repeated (id : Nat) (name : String) (type : FieldType) : Field := ⟨id, name, type, .repeated⟩

/-- The type of a field that refers to another declaration. -/
def ref (name : String) : FieldType := .reference name

/-- The enums of the service. -/
def enums : List EnumDescriptor :=
  [⟨"ActiveClientState",
     [(0, "ACTIVE_CLIENT_STATE_NO_ACTIVE"), (1, "ACTIVE_CLIENT_STATE_IS_ACTIVE"),
      (2, "ACTIVE_CLIENT_STATE_OTHER_ACTIVE")]⟩,
   ⟨"FocusType",
     [(0, "FOCUS_TYPE_UNKNOWN"), (1, "FOCUS_TYPE_FOCUSED"), (2, "FOCUS_TYPE_UNFOCUSED")]⟩,
   ⟨"FocusDevice",
     [(0, "FOCUS_DEVICE_UNSPECIFIED"), (20, "FOCUS_DEVICE_DESKTOP"), (300, "FOCUS_DEVICE_MOBILE")]⟩,
   ⟨"TypingType",
     [(0, "TYPING_TYPE_UNKNOWN"), (1, "TYPING_TYPE_STARTED"), (2, "TYPING_TYPE_PAUSED"),
      (3, "TYPING_TYPE_STOPPED")]⟩,
   ⟨"ClientPresenceStateType",
     [(0, "CLIENT_PRESENCE_STATE_UNKNOWN"), (1, "CLIENT_PRESENCE_STATE_NONE"),
      (30, "CLIENT_PRESENCE_STATE_DESKTOP_IDLE"), (40, "CLIENT_PRESENCE_STATE_DESKTOP_ACTIVE")]⟩,
   ⟨"NotificationLevel",
     [(0, "NOTIFICATION_LEVEL_UNKNOWN"), (10, "NOTIFICATION_LEVEL_QUIET"),
      (30, "NOTIFICATION_LEVEL_RING")]⟩,
   ⟨"SegmentType",
     [(0, "SEGMENT_TYPE_TEXT"), (1, "SEGMENT_TYPE_LINE_BREAK"), (2, "SEGMENT_TYPE_LINK")]⟩,
   ⟨"ItemType",
     [(0, "ITEM_TYPE_THING"), (249, "ITEM_TYPE_PLUS_PHOTO"), (335, "ITEM_TYPE_PLACE"),
      (340, "ITEM_TYPE_PLACE_V2")]⟩,
   ⟨"MembershipChangeType",
     [(1, "MEMBERSHIP_CHANGE_TYPE_JOIN"), (2, "MEMBERSHIP_CHANGE_TYPE_LEAVE")]⟩,
   ⟨"HangoutEventType",
     [(0, "HANGOUT_EVENT_TYPE_UNKNOWN"), (1, "HANGOUT_EVENT_TYPE_START"),
      (2, "HANGOUT_EVENT_TYPE_END"), (3, "HANGOUT_EVENT_TYPE_JOIN"),
      (4, "HANGOUT_EVENT_TYPE_LEAVE"), (5, "HANGOUT_EVENT_TYPE_COMING_SOON"),
      (6, "HANGOUT_EVENT_TYPE_ONGOING")]⟩,
   ⟨"OffTheRecordToggle",
     [(0, "OFF_THE_RECORD_TOGGLE_UNKNOWN"), (1, "OFF_THE_RECORD_TOGGLE_ENABLED"),
      (2, "OFF_THE_RECORD_TOGGLE_DISABLED")]⟩,
   ⟨"OffTheRecordStatus",
     [(0, "OFF_THE_RECORD_STATUS_UNKNOWN"), (1, "OFF_THE_RECORD_STATUS_OFF_THE_RECORD"),
      (2, "OFF_THE_RECORD_STATUS_ON_THE_RECORD")]⟩,
   ⟨"SourceType", [(0, "SOURCE_TYPE_UNKNOWN")]⟩,
   ⟨"EventType",
     [(0, "EVENT_TYPE_UNKNOWN"), (1, "EVENT_TYPE_REGULAR_CHAT_MESSAGE"), (2, "EVENT_TYPE_SMS"),
      (3, "EVENT_TYPE_VOICEMAIL"), (4, "EVENT_TYPE_ADD_USER"), (5, "EVENT_TYPE_REMOVE_USER"),
      (6, "EVENT_TYPE_CONVERSATION_RENAME"), (7, "EVENT_TYPE_HANGOUT"),
      (8, "EVENT_TYPE_PHONE_CALL"), (9, "EVENT_TYPE_OTR_MODIFICATION"),
      (10, "EVENT_TYPE_PLAN_MUTATION"), (11, "EVENT_TYPE_MMS"), (12, "EVENT_TYPE_DEPRECATED_12")]⟩,
   ⟨"ConversationType",
     [(0, "CONVERSATION_TYPE_UNKNOWN"), (1, "CONVERSATION_TYPE_ONE_TO_ONE"),
      (2, "CONVERSATION_TYPE_GROUP")]⟩,
   ⟨"ConversationStatus",
     [(0, "CONVERSATION_STATUS_UNKNOWN"), (1, "CONVERSATION_STATUS_INVITED"),
      (2, "CONVERSATION_STATUS_ACTIVE"), (3, "CONVERSATION_STATUS_LEFT")]⟩,
   ⟨"ConversationView",
     [(0, "CONVERSATION_VIEW_UNKNOWN"), (1, "CONVERSATION_VIEW_INBOX"),
      (2, "CONVERSATION_VIEW_ARCHIVED")]⟩,
   ⟨"DeliveryMediumType",
     [(0, "DELIVERY_MEDIUM_UNKNOWN"), (1, "DELIVERY_MEDIUM_BABEL"),
      (2, "DELIVERY_MEDIUM_GOOGLE_VOICE"), (3, "DELIVERY_MEDIUM_LOCAL_SMS")]⟩,
   ⟨"InvitationAffinity",
     [(0, "INVITE_AFFINITY_UNKNOWN"), (1, "INVITE_AFFINITY_HIGH"), (2, "INVITE_AFFINITY_LOW")]⟩,
   ⟨"ParticipantType",
     [(0, "PARTICIPANT_TYPE_UNKNOWN"), (2, "PARTICIPANT_TYPE_GAIA"),
      (3, "PARTICIPANT_TYPE_GOOGLE_VOICE")]⟩,
   ⟨"InvitationStatus",
     [(0, "INVITATION_STATUS_UNKNOWN"), (1, "INVITATION_STATUS_PENDING"),
      (2, "INVITATION_STATUS_ACCEPTED")]⟩,
   ⟨"ForceHistory", [(0, "FORCE_HISTORY_UNKNOWN"), (1, "FORCE_HISTORY_NO")]⟩,
   ⟨"ProfileType", [(0, "PROFILE_TYPE_NONE"), (1, "PROFILE_TYPE_ES_USER")]⟩,
   ⟨"Gender", [(0, "GENDER_UNKNOWN"), (1, "GENDER_MALE"), (2, "GENDER_FEMALE")]⟩,
   ⟨"ReplyToInviteType",
     [(0, "REPLY_TO_INVITE_TYPE_UNKNOWN"), (1, "REPLY_TO_INVITE_TYPE_ACCEPT"),
      (2, "REPLY_TO_INVITE_TYPE_DECLINE")]⟩,
   ⟨"DeleteType", [(0, "DELETE_TYPE_UNKNOWN"), (1, "DELETE_TYPE_UPPER_BOUND")]⟩,
   ⟨"ResponseStatus",
     [(0, "RESPONSE_STATUS_UNKNOWN"), (1, "RESPONSE_STATUS_OK"), (2, "RESPONSE_STATUS_BUSY"),
      (3, "RESPONSE_STATUS_UNEXPECTED_ERROR"), (4, "RESPONSE_STATUS_INVALID_REQUEST")]⟩]

/-- Identifiers and the pieces that several messages share. -/
def identifierMessages : List MessageDescriptor :=
  [⟨"ConversationId", [optional 1 "id" .string]⟩,
   ⟨"ParticipantId", [optional 1 "gaia_id" .string, optional 2 "chat_id" .string]⟩,
   ⟨"DoNotDisturbSetting",
     [optional 1 "do_not_disturb" .bool, optional 2 "expiration_timestamp" .uint64,
      optional 3 "version" .uint64]⟩,
   ⟨"NotificationSettings", [optional 1 "dnd_settings" (ref "DoNotDisturbSetting")]⟩,
   ⟨"DeviceStatus",
     [optional 1 "mobile" .bool, optional 2 "desktop" .bool, optional 3 "tablet" .bool]⟩,
   ⟨"LastSeen",
     [optional 1 "last_seen_timestamp_usec" .uint64, optional 2 "usec_since_last_seen" .uint64]⟩,
   ⟨"MoodContent", [repeated 1 "segment" (ref "Segment")]⟩,
   ⟨"MoodMessage", [optional 1 "mood_content" (ref "MoodContent")]⟩,
   ⟨"Presence",
     [optional 1 "reachable" .bool, optional 2 "available" .bool,
      optional 6 "device_status" (ref "DeviceStatus"),
      optional 9 "mood_message" (ref "MoodMessage"), optional 10 "last_seen" (ref "LastSeen")]⟩,
   ⟨"PresenceResult",
     [optional 1 "user_id" (ref "ParticipantId"), optional 2 "presence" (ref "Presence")]⟩,
   ⟨"ClientIdentifier", [optional 1 "resource" .string, optional 2 "header_id" .string]⟩,
   ⟨"ClientPresenceState",
     [optional 1 "identifier" (ref "ClientIdentifier"),
      optional 2 "state" (ref "ClientPresenceStateType")]⟩,
   ⟨"UserEventState",
     [optional 1 "user_id" (ref "ParticipantId"), optional 2 "client_generated_id" .string,
      optional 3 "notification_level" (ref "NotificationLevel")]⟩]

/-- What a chat message and an event hold. -/
def contentMessages : List MessageDescriptor :=
  [⟨"Formatting",
     [optional 1 "bold" .bool, optional 2 "italic" .bool, optional 3 "strikethrough" .bool,
      optional 4 "underline" .bool]⟩,
   ⟨"LinkData", [optional 1 "link_target" .string]⟩,
   ⟨"Segment",
     [required 1 "type" (ref "SegmentType"), optional 2 "text" .string,
      optional 3 "formatting" (ref "Formatting"), optional 4 "link_data" (ref "LinkData")]⟩,
   ⟨"Thumbnail",
     [optional 1 "url" .string, optional 4 "image_url" .string, optional 10 "width_px" .uint64,
      optional 11 "height_px" .uint64]⟩,
   ⟨"PlusPhoto",
     [optional 1 "thumbnail" (ref "Thumbnail"), optional 2 "owner_obfuscated_id" .string,
      optional 3 "album_id" .string, optional 4 "photo_id" .string, optional 6 "url" .string,
      optional 10 "original_content_url" .string, repeated 14 "stream_id" .string]⟩,
   ⟨"Place", [optional 1 "url" .string, optional 3 "name" .string]⟩,
   ⟨"EmbedItem",
     [repeated 1 "type" (ref "ItemType"), optional 2 "id" .string,
      optional 27639957 "plus_photo" (ref "PlusPhoto"), optional 35825640 "place" (ref "Place")]⟩,
   ⟨"Attachment", [optional 1 "embed_item" (ref "EmbedItem")]⟩,
   ⟨"MessageContent",
     [repeated 1 "segment" (ref "Segment"), repeated 2 "attachment" (ref "Attachment")]⟩,
   ⟨"EventAnnotation", [optional 1 "type" .int32, optional 2 "value" .string]⟩,
   ⟨"ChatMessage",
     [repeated 2 "annotation" (ref "EventAnnotation"),
      optional 3 "message_content" (ref "MessageContent")]⟩,
   ⟨"MembershipChange",
     [optional 1 "type" (ref "MembershipChangeType"),
      repeated 3 "participant_ids" (ref "ParticipantId")]⟩,
   ⟨"ConversationRename", [optional 1 "new_name" .string, optional 2 "old_name" .string]⟩,
   ⟨"HangoutEvent",
     [optional 1 "event_type" (ref "HangoutEventType"),
      repeated 2 "participant_id" (ref "ParticipantId")]⟩,
   ⟨"OtrModification",
     [optional 1 "old_otr_status" (ref "OffTheRecordStatus"),
      optional 2 "new_otr_status" (ref "OffTheRecordStatus"),
      optional 3 "old_otr_toggle" (ref "OffTheRecordToggle"),
      optional 4 "new_otr_toggle" (ref "OffTheRecordToggle")]⟩,
   ⟨"PhoneNumber", [optional 1 "e164" .string]⟩,
   ⟨"DeliveryMedium",
     [optional 1 "medium_type" (ref "DeliveryMediumType"),
      optional 2 "phone_number" (ref "PhoneNumber")]⟩,
   ⟨"DeliveryMediumOption",
     [optional 1 "delivery_medium" (ref "DeliveryMedium"), optional 2 "current_default" .bool]⟩,
   ⟨"Event",
     [optional 1 "conversation_id" (ref "ConversationId"),
      optional 2 "sender_id" (ref "ParticipantId"), optional 3 "timestamp" .uint64,
      optional 4 "self_event_state" (ref "UserEventState"),
      optional 6 "source_type" (ref "SourceType"), optional 7 "chat_message" (ref "ChatMessage"),
      optional 9 "membership_change" (ref "MembershipChange"),
      optional 10 "conversation_rename" (ref "ConversationRename"),
      optional 11 "hangout_event" (ref "HangoutEvent"), optional 12 "event_id" .string,
      optional 13 "expiration_timestamp" .uint64,
      optional 14 "otr_modification" (ref "OtrModification"),
      optional 15 "advances_sort_timestamp" .bool,
      optional 16 "event_otr" (ref "OffTheRecordStatus"), optional 17 "persisted" .bool,
      optional 20 "delivery_medium" (ref "DeliveryMedium"),
      optional 23 "event_type" (ref "EventType"), optional 24 "event_version" .uint64]⟩]

/-- Conversations and their state. -/
def conversationMessages : List MessageDescriptor :=
  [⟨"UserReadState",
     [optional 1 "participant_id" (ref "ParticipantId"),
      optional 2 "latest_read_timestamp" .uint64]⟩,
   ⟨"UserConversationState",
     [optional 2 "client_generated_id" .string, optional 3 "self_read_state" (ref "UserReadState"),
      optional 4 "status" (ref "ConversationStatus"),
      optional 5 "notification_level" (ref "NotificationLevel"),
      repeated 6 "view" (ref "ConversationView"), optional 7 "inviter_id" (ref "ParticipantId"),
      optional 8 "invite_timestamp" .uint64, optional 9 "sort_timestamp" .uint64,
      optional 10 "active_timestamp" .uint64,
      optional 14 "invite_affinity" (ref "InvitationAffinity"),
      repeated 17 "delivery_medium_option" (ref "DeliveryMediumOption")]⟩,
   ⟨"ConversationParticipantData",
     [optional 1 "id" (ref "ParticipantId"), optional 2 "fallback_name" .string,
      optional 3 "invitation_status" (ref "InvitationStatus"),
      optional 5 "participant_type" (ref "ParticipantType"),
      optional 6 "new_invitation_status" (ref "InvitationStatus")]⟩,
   ⟨"Conversation",
     [optional 1 "conversation_id" (ref "ConversationId"),
      optional 2 "type" (ref "ConversationType"), optional 3 "name" .string,
      optional 4 "self_conversation_state" (ref "UserConversationState"),
      repeated 8 "read_state" (ref "UserReadState"), optional 9 "has_active_hangout" .bool,
      optional 10 "otr_status" (ref "OffTheRecordStatus"),
      optional 11 "otr_toggle" (ref "OffTheRecordToggle"),
      optional 12 "conversation_history_supported" .bool,
      repeated 13 "current_participant" (ref "ParticipantId"),
      repeated 14 "participant_data" (ref "ConversationParticipantData"),
      optional 19 "force_history_state" (ref "ForceHistory")]⟩,
   ⟨"EventContinuationToken",
     [optional 1 "event_id" .string, optional 2 "storage_continuation_token" .bytes,
      optional 3 "event_timestamp" .uint64]⟩,
   ⟨"ConversationState",
     [optional 1 "conversation_id" (ref "ConversationId"),
      optional 2 "conversation" (ref "Conversation"), repeated 3 "event" (ref "Event"),
      optional 5 "event_continuation_token" (ref "EventContinuationToken")]⟩]

/-- Users and what is known of them. -/
def entityMessages : List MessageDescriptor :=
  [⟨"EntityProperties",
     [optional 1 "type" (ref "ProfileType"), optional 2 "display_name" .string,
      optional 3 "first_name" .string, optional 4 "photo_url" .string, repeated 5 "email" .string,
      repeated 6 "phone" .string, optional 10 "in_users_domain" .bool,
      optional 11 "gender" (ref "Gender"), optional 15 "canonical_email" .string]⟩,
   ⟨"Entity",
     [optional 8 "presence" (ref "Presence"), optional 9 "id" (ref "ParticipantId"),
      optional 10 "properties" (ref "EntityProperties"), optional 13 "blocked" .bool,
      optional 16 "entity_type" (ref "ParticipantType")]⟩,
   ⟨"EntityLookupSpec",
     [optional 1 "gaia_id" .string, optional 3 "email" .string, optional 4 "phone" .string,
      optional 6 "create_offnetwork_gaia" .bool]⟩,
   ⟨"EntityResult",
     [optional 1 "lookup_spec" (ref "EntityLookupSpec"), repeated 2 "entity" (ref "Entity")]⟩]

/-- What the service pushes. -/
def notificationMessages : List MessageDescriptor :=
  [⟨"ConversationNotification", [optional 1 "conversation" (ref "Conversation")]⟩,
   ⟨"EventNotification", [optional 1 "event" (ref "Event")]⟩,
   ⟨"SetFocusNotification",
     [optional 1 "conversation_id" (ref "ConversationId"),
      optional 2 "sender_id" (ref "ParticipantId"), optional 3 "timestamp" .uint64,
      optional 4 "type" (ref "FocusType"), optional 5 "device" (ref "FocusDevice")]⟩,
   ⟨"SetTypingNotification",
     [optional 1 "conversation_id" (ref "ConversationId"),
      optional 2 "sender_id" (ref "ParticipantId"), optional 3 "timestamp" .uint64,
      optional 4 "type" (ref "TypingType")]⟩,
   ⟨"SetConversationNotificationLevelNotification",
     [optional 1 "conversation_id" (ref "ConversationId"),
      optional 2 "level" (ref "NotificationLevel"), optional 4 "timestamp" .uint64]⟩,
   ⟨"ReplyToInviteNotification",
     [optional 1 "conversation_id" (ref "ConversationId"),
      optional 2 "type" (ref "ReplyToInviteType")]⟩,
   ⟨"WatermarkNotification",
     [optional 1 "sender_id" (ref "ParticipantId"),
      optional 2 "conversation_id" (ref "ConversationId"),
      optional 3 "latest_read_timestamp" .uint64]⟩,
   ⟨"ConversationViewModification",
     [optional 1 "conversation_id" (ref "ConversationId"),
      optional 2 "old_view" (ref "ConversationView"),
      optional 3 "new_view" (ref "ConversationView")]⟩,
   ⟨"EasterEgg", [optional 1 "message" .string]⟩,
   ⟨"EasterEggNotification",
     [optional 1 "sender_id" (ref "ParticipantId"),
      optional 2 "conversation_id" (ref "ConversationId"),
      optional 3 "easter_egg" (ref "EasterEgg")]⟩,
   ⟨"SelfPresenceNotification",
     [optional 1 "client_presence_state" (ref "ClientPresenceState"),
      optional 3 "do_not_disturb_setting" (ref "DoNotDisturbSetting")]⟩,
   ⟨"DeleteAction",
     [optional 1 "delete_action_timestamp" .uint64,
      optional 2 "delete_upper_bound_timestamp" .uint64,
      optional 3 "delete_type" (ref "DeleteType")]⟩,
   ⟨"DeleteActionNotification",
     [optional 1 "conversation_id" (ref "ConversationId"),
      optional 2 "delete_action" (ref "DeleteAction")]⟩,
   ⟨"PresenceNotification", [repeated 1 "presence" (ref "PresenceResult")]⟩,
   ⟨"StateUpdateHeader",
     [optional 1 "active_client_state" (ref "ActiveClientState"),
      optional 3 "request_trace_id" .string,
      optional 4 "notification_settings" (ref "NotificationSettings"),
      optional 5 "current_server_time" .uint64]⟩,
   ⟨"StateUpdate",
     [optional 1 "state_update_header" (ref "StateUpdateHeader"),
      optional 2 "conversation_notification" (ref "ConversationNotification"),
      optional 3 "event_notification" (ref "EventNotification"),
      optional 4 "focus_notification" (ref "SetFocusNotification"),
      optional 5 "typing_notification" (ref "SetTypingNotification"),
      optional 6 "notification_level_notification"
        (ref "SetConversationNotificationLevelNotification"),
      optional 7 "reply_to_invite_notification" (ref "ReplyToInviteNotification"),
      optional 8 "watermark_notification" (ref "WatermarkNotification"),
      optional 11 "view_modification" (ref "ConversationViewModification"),
      optional 12 "easter_egg_notification" (ref "EasterEggNotification"),
      optional 13 "conversation" (ref "Conversation"),
      optional 14 "self_presence_notification" (ref "SelfPresenceNotification"),
      optional 15 "delete_notification" (ref "DeleteActionNotification"),
      optional 16 "presence_notification" (ref "PresenceNotification")]⟩,
   ⟨"BatchUpdate", [repeated 1 "state_update" (ref "StateUpdate")]⟩]

/-- What the service replies. -/
def responseMessages : List MessageDescriptor :=
  [⟨"ResponseHeader",
     [optional 1 "status" (ref "ResponseStatus"), optional 2 "error_description" .string,
      optional 3 "debug_url" .string, optional 4 "request_trace_id" .string,
      optional 5 "current_server_time" .uint64]⟩,
   ⟨"AddUserResponse",
     [optional 1 "response_header" (ref "ResponseHeader"),
      optional 5 "created_event" (ref "Event")]⟩,
   ⟨"CreateConversationResponse",
     [optional 1 "response_header" (ref "ResponseHeader"),
      optional 2 "conversation" (ref "Conversation"), optional 7 "new_conversation_created" .bool]⟩,
   ⟨"DeleteConversationResponse",
     [optional 1 "response_header" (ref "ResponseHeader"),
      optional 2 "delete_action" (ref "DeleteAction")]⟩,
   ⟨"EasterEggResponse",
     [optional 1 "response_header" (ref "ResponseHeader"), optional 2 "timestamp" .uint64]⟩,
   ⟨"GetConversationResponse",
     [optional 1 "response_header" (ref "ResponseHeader"),
      optional 2 "conversation_state" (ref "ConversationState")]⟩,
   ⟨"GetEntityByIdResponse",
     [optional 1 "response_header" (ref "ResponseHeader"), repeated 2 "entity" (ref "Entity"),
      repeated 3 "entity_result" (ref "EntityResult")]⟩,
   ⟨"GetSelfInfoResponse",
     [optional 1 "response_header" (ref "ResponseHeader"), optional 2 "self_entity" (ref "Entity"),
      optional 3 "is_known_minor" .bool, optional 5 "dnd_state" (ref "DoNotDisturbSetting"),
      optional 10 "google_plus_user" .bool]⟩,
   ⟨"GetSuggestedEntitiesResponse",
     [optional 1 "response_header" (ref "ResponseHeader"), repeated 2 "entity" (ref "Entity")]⟩,
   ⟨"QueryPresenceResponse",
     [optional 1 "response_header" (ref "ResponseHeader"),
      repeated 2 "presence_result" (ref "PresenceResult")]⟩,
   ⟨"RemoveUserResponse",
     [optional 1 "response_header" (ref "ResponseHeader"),
      optional 4 "created_event" (ref "Event")]⟩,
   ⟨"RenameConversationResponse",
     [optional 1 "response_header" (ref "ResponseHeader"),
      optional 4 "created_event" (ref "Event")]⟩,
   ⟨"SearchEntitiesResponse",
     [optional 1 "response_header" (ref "ResponseHeader"), repeated 2 "entity" (ref "Entity")]⟩,
   ⟨"SendChatMessageResponse",
     [optional 1 "response_header" (ref "ResponseHeader"),
      optional 6 "created_event" (ref "Event")]⟩,
   ⟨"SetActiveClientResponse", [optional 1 "response_header" (ref "ResponseHeader")]⟩,
   ⟨"SetConversationNotificationLevelResponse",
     [optional 1 "response_header" (ref "ResponseHeader"), optional 2 "timestamp" .uint64]⟩,
   ⟨"SetFocusResponse",
     [optional 1 "response_header" (ref "ResponseHeader"), optional 2 "timestamp" .uint64]⟩,
   ⟨"SetPresenceResponse", [optional 1 "response_header" (ref "ResponseHeader")]⟩,
   ⟨"SetTypingResponse",
     [optional 1 "response_header" (ref "ResponseHeader"), optional 2 "timestamp" .uint64]⟩,
   ⟨"SyncAllNewEventsResponse",
     [optional 1 "response_header" (ref "ResponseHeader"), optional 2 "sync_timestamp" .uint64,
      repeated 3 "conversation_state" (ref "ConversationState")]⟩,
   ⟨"SyncRecentConversationsResponse",
     [optional 1 "response_header" (ref "ResponseHeader"), optional 2 "sync_timestamp" .uint64,
      repeated 3 "conversation_state" (ref "ConversationState")]⟩,
   ⟨"UpdateWatermarkResponse", [optional 1 "response_header" (ref "ResponseHeader")]⟩]

/-- The messages of all topics. -/
def messages : List MessageDescriptor :=
  identifierMessages ++ contentMessages ++ conversationMessages ++ entityMessages ++
    notificationMessages ++ responseMessages

/-- The service's schema. -/
def schema : Schema := .ofCompiled ⟨enums, messages, []⟩

end LiteChat.Service
