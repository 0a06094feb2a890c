import LiteChat.Service.Wire
import LiteChat.Session.Clock

/-!
# Sessions

A session knows who the client is to the service: the id that the service assigned to
this connection, the address of the account once it has been looked up, whether this
client is the account's active one, and when it last announced that it is.

At most one client of an account is active.  A client claims the part by an
announcement, and `Session.activate` limits how often: while the session holds itself
active, another announcement has to wait until the time since the last one is greater
than the limit.  The decision and its record are one: a session that decides to
announce is active from then on, so a second decision made before the announcement is
out finds the first one.

The service may also say who is active (`Session.heed`).  That changes the
activity, but not the time of the last announcement.
-/

namespace LiteChat

open Floating (Double)

/-- Whether this client is the active one, as far as it knows. -/
inductive Activity where
  /-- Nothing has been announced or heard. -/
  | unknown
  | active
  | inactive
  deriving DecidableEq, Repr, Inhabited

/-- What the state of an account that the service reports makes of this client. -/
def Activity.ofRemote : ActiveClientState → Activity
  | .isActive => .active
  | .noActive => .inactive
  | .otherActive => .inactive

/-- The answer to the question whether to announce. -/
inductive Activation where
  /-- There is no client id to announce. -/
  | noClientId
  /-- The last announcement still stands. -/
  | throttled
  /-- Announce, under this id and with this address if it is known. -/
  | announce (clientId : String) (email : Option String)
  deriving DecidableEq, Repr, Inhabited

/-- Who this client is to the service. -/
structure Session where
  /-- The id of the client. -/
  clientId : Option String
  /-- The address of the account. -/
  email : Option String
  /-- Whether the client is the active one. -/
  activity : Activity
  /-- The time of the last announcement, in seconds. -/
  lastActive : Double
  deriving DecidableEq, Repr

namespace Session

/-- The session of a fresh connection. -/
def fresh : Session := ⟨none, none, .unknown, .zero⟩

instance : Inhabited Session := ⟨fresh⟩

/-- Whether an id is other than the one the session holds. -/
def isNew (s : Session) (id : String) : Bool := decide (s.clientId ≠ some id)

/-- The session after the service has assigned an id. -/
def observe (s : Session) (id : String) : Session := { s with clientId := some id }

/-- Whether more than the limit has passed since the last announcement. -/
def hasElapsed (s : Session) (now : Double) (limit : TimeSpan) : Bool :=
  limit.inSeconds.below (now.sub s.lastActive)

/-- The decision whether to announce, and the session after it. -/
def activate (s : Session) (now : Double) (limit : TimeSpan) : Session × Activation :=
  match s.clientId with
  | none => (s, .noClientId)
  | some id =>
    if s.activity = .active ∧ s.hasElapsed now limit = false then (s, .throttled)
    else ({ s with activity := .active, lastActive := now }, .announce id s.email)

/-- The session after the service has said which client is active. -/
def heed (s : Session) (state : ActiveClientState) : Session :=
  { s with activity := .ofRemote state }

/-- The session with the address of the account. -/
def resolveEmail (s : Session) (email : String) : Session := { s with email := some email }

/-- The name under which the client announces itself: the address, empty if it is not
known, and the id. -/
def identity? (s : Session) : Option String :=
  s.clientId.map fun id => s.email.getD "" ++ "/" ++ id

end Session

/-- Why a session cannot answer: the service has not assigned an id. -/
inductive SessionError where
  | noClientId
  deriving DecidableEq, Repr, Inhabited

/-- The text of an error. -/
def SessionError.text : SessionError → String
  | .noClientId => "no client id has been assigned yet"

/-- The client id, which has to be there. -/
def Session.requireClientId (s : Session) : Except SessionError String :=
  match s.clientId with
  | some id => .ok id
  | none => .error .noClientId

end LiteChat
