import LiteChat.Client.Exchange

/-!
# Claiming to be the active client

To claim the part of the active client, the session is asked whether to announce, and
in the same step records that the claim is made.  If the address of the account is not
known, it is looked up; the announcement is made whatever comes of that.
-/

namespace LiteChat

/-- How far a claim is. -/
inductive Claim where
  /-- The session has to be asked. -/
  | decide
  /-- The account is being looked up. -/
  | lookUp (e : Exchange)
  /-- The address of the account has to be stored. -/
  | store (email : String)
  /-- The announcement is on its way. -/
  | announce (e : Exchange)
  /-- The claim has come to its end: whether an announcement was made. -/
  | done (outcome : Except ClientError Bool)

namespace Claim

/-- The announcement at its start. -/
def announcement (c : Client) : Claim :=
  .announce (.identify true c.config.session.activeTimeout)

/-- What follows the answer to the lookup. -/
def afterLookUp (c : Client) (reply : Except ClientError Message) : Claim :=
  match SelfInfo.ofReply reply with
  | .error _ => announcement c
  | .ok info =>
    match info.email? with
    | some email => .store email
    | none => announcement c

/-- One step of a claim. -/
def step (c : Client) : Claim → Client × Claim
  | .decide =>
    let (session, activation) := c.session.activate c.clock.seconds c.config.session.limit
    let c := { c with session := session }
    match activation with
    | .noClientId => (c, .done (.ok false))
    | .throttled => (c, .done (.ok false))
    | .announce _ none => (c, .lookUp (.build .getSelfInfo))
    | .announce _ (some _) => (c, announcement c)
  | .lookUp e =>
    match e.outcome? with
    | some reply => (c, afterLookUp c reply)
    | none =>
      let (c, e) := e.step c
      (c, .lookUp e)
  | .store email =>
    let c := { c with session := c.session.resolveEmail email }
    (c, announcement c)
  | .announce e =>
    match e.outcome? with
    | some outcome => (c, .done (outcome.map fun _ => true))
    | none =>
      let (c, e) := e.step c
      (c, .announce e)
  | .done outcome => (c, .done outcome)

/-- A bound on the steps that are left. -/
def remaining : Claim → Nat
  | .decide => 12
  | .lookUp e => e.remaining + 7
  | .store _ => 6
  | .announce e => e.remaining + 1
  | .done _ => 0

end Claim

end LiteChat
