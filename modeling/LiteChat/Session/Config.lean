import LiteChat.Json.Record
import LiteChat.Json.Text
import LiteChat.Session.Clock

/-!
# Settings of a session

The settings are read from a JSON record.  A member that is missing keeps its
default; one that is there has to be a number of the right range.
-/

namespace LiteChat

namespace Json.Tree

/-- The value of a member that may be missing: the default if it is, otherwise what
its tree spells. -/
def orDefault {α : Type} (fallback : α) (read : Tree → Option α) : Option Tree → Option α
  | none => some fallback
  | some t => read t

/-- The natural number of 64 bits that a tree spells. -/
def nat64? : Tree → Option Nat := nat? 18446744073709551616

/-- The natural number of 32 bits that a tree spells. -/
def nat32? : Tree → Option Nat := nat? 4294967296

end Json.Tree

open Json (Document Tree)

/-- How often a client announces itself, and for how long. -/
structure SessionConfig where
  /-- The seconds that an announcement stands. -/
  setActiveLimit : Nat := 60
  /-- The seconds for which the service is asked to take the client for active. -/
  activeTimeout : Nat := 120
  deriving DecidableEq, Repr, Inhabited

namespace SessionConfig

/-- The default settings. -/
def standard : SessionConfig := {}

/-- The time that has to pass between two announcements. -/
def limit (c : SessionConfig) : TimeSpan := .ofSeconds c.setActiveLimit

/-- The members, in their declared order. -/
def memberNames : List String := ["set_active_limit_secs", "active_timeout_secs"]

/-- The settings that a tree spells. -/
def ofTree? (t : Tree) : Option SessionConfig :=
  match t.record? memberNames with
  | some [limit, timeout] => do
    return {
      setActiveLimit := ← Tree.orDefault standard.setActiveLimit Tree.nat64? limit
      activeTimeout := ← Tree.orDefault standard.activeTimeout Tree.nat32? timeout }
  | _ => none

/-- The settings that a text spells. -/
def ofText? (text : String) : Option SessionConfig :=
  (Tree.ofText? text.toList).bind ofTree?

/-- The settings as a JSON document. -/
def document (c : SessionConfig) : Document :=
  .object (memberNames.zip [.ofNat c.setActiveLimit, .ofNat c.activeTimeout])

end SessionConfig

end LiteChat
