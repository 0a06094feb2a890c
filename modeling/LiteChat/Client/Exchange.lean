import LiteChat.Client.Basic

/-!
# Exchanges

An exchange is a call on its way: its body is built, the request is sent, and the
reply is read.  These are separate steps, so the client id in the header is the one the
session had when the body was built.  An announcement has one step more in front, in
which the identity is read from the session.
-/

namespace LiteChat

/-- How far a call is. -/
inductive Exchange where
  /-- The identity under which to announce the client has to be read. -/
  | identify (isActive : Bool) (timeout : Nat)
  /-- The body has to be built. -/
  | build (call : Call)
  /-- The request has to be sent. -/
  | send (request : Request)
  /-- The reply has to be read. -/
  | await (endpoint : Endpoint) (reply : Reply)
  /-- The call has come to its end. -/
  | done (outcome : Except ClientError Message)

namespace Exchange

/-- The start of a call that a caller asks for.  A lookup of no users has nothing to
ask, and the presence of no users cannot be asked for. -/
def start? : Call → Option Exchange
  | .getEntitiesById [] => none
  | .queryPresence [] =>
    some (.done (.error (.invalidRequest "query_presence needs at least one chat id")))
  | call => some (.build call)

/-- One step of a call. -/
def step (c : Client) : Exchange → Client × Exchange
  | .identify isActive timeout =>
    match c.session.identity? with
    | some identity => (c, .build (.setActiveClient isActive identity timeout))
    | none => (c, .done (.error (.session .noClientId)))
  | .build call => (c, .send (c.request call))
  | .send request =>
    let (c, reply) := c.send request
    (c, .await request.endpoint reply)
  | .await endpoint reply => (c, .done (endpoint.readReply reply))
  | .done outcome => (c, .done outcome)

/-- A bound on the steps that are left. -/
def remaining : Exchange → Nat
  | .identify .. => 4
  | .build _ => 3
  | .send _ => 2
  | .await .. => 1
  | .done _ => 0

/-- The outcome of a call that has come to its end. -/
def outcome? : Exchange → Option (Except ClientError Message)
  | .done outcome => some outcome
  | _ => none

/-- Whether a call waits for its reply. -/
def isAwaiting : Exchange → Bool
  | .await .. => true
  | _ => false

theorem remaining_step (c : Client) (e : Exchange) (h : 0 < e.remaining) :
    (e.step c).2.remaining < e.remaining := by
  cases e with
  | identify isActive timeout =>
    simp only [step]
    split <;> simp [remaining]
  | build call => simp [step, remaining]
  | send request => simp [step, remaining]
  | await endpoint reply => simp [step, remaining]
  | done outcome => simp [remaining] at h

end Exchange

end LiteChat
