import LiteChat.Lite.Error
import LiteChat.Session.State

/-!
# Why a call fails

A call can fail in the transport, on its reply, for want of a client id, or before
anything has been sent.
-/

namespace LiteChat

/-- Why a call fails. -/
inductive ClientError where
  /-- The transport has no reply. -/
  | requestFailed (endpoint reason : String)
  /-- The transport cannot listen. -/
  | connectionClosed (reason : String)
  /-- The reply cannot be read. -/
  | payload (e : PayloadError)
  /-- The session cannot answer. -/
  | session (e : SessionError)
  /-- The call makes no sense. -/
  | invalidRequest (reason : String)
  /-- A reply to an upload lacks the value at a path. -/
  | uploadReply (path : String)
  /-- The outbox of a conversation has stopped. -/
  | outboxClosed (conversation : String)
  deriving Repr

/-- The text of an error. -/
def ClientError.text : ClientError → String
  | .requestFailed endpoint reason => "request to " ++ endpoint ++ " failed: " ++ reason
  | .connectionClosed reason => "connection closed: " ++ reason
  | .payload e => e.text
  | .session e => e.text
  | .invalidRequest reason => "invalid request: " ++ reason
  | .uploadReply path => "upload reply has no `" ++ path ++ "`"
  | .outboxClosed conversation => "outbox for conversation " ++ conversation ++ " is closed"

end LiteChat
