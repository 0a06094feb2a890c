import LiteChat.Json.Basic

/-!
# Reading records from JSON text

A record with declared members is read from the tree of a text: either from an
object, in which members of other names are ignored and no declared one may occur
twice, or from an array that lists the members in their declared order and may stop
early.  `Tree.members` finds the tree of each member; whether a missing one has a
default is for the caller to say.

Ignored members are only held to the grammar.
-/

namespace LiteChat.Json

namespace Tree

/-- The string that a tree spells. -/
def string? : Tree → Option String
  | .string pieces => Piece.string? pieces
  | _ => none

/-- The integer that a tree spells. -/
def int? : Tree → Option Int
  | .number n =>
    match n.value? with
    | some (.int i) => some i
    | _ => none
  | _ => none

/-- The natural number below a bound that a tree spells. -/
def nat? (bound : Nat) (t : Tree) : Option Nat :=
  (t.int?.filter fun (i : Int) => decide (0 ≤ i ∧ i < (bound : Int))).map Int.toNat

/-- The integer in a range that a tree spells. -/
def intWithin? (least bound : Int) (t : Tree) : Option Int :=
  t.int?.filter fun i => decide (least ≤ i ∧ i < bound)

/-- The list whose items a tree spells, each read in the same way. -/
def list? {α : Type} (item? : Tree → Option α) : Tree → Option (List α)
  | .array items => items.mapM item?
  | _ => none

/-- The members of an object whose key is known, with the key; `none` if a key is
not a string of valid characters or a known key comes twice. -/
def knownMembers? (names seen : List String) :
    List (List Piece × Tree) → Option (List (String × Tree))
  | [] => some []
  | (key, tree) :: rest =>
    match Piece.string? key with
    | none => none
    | some name =>
      if name ∈ names then
        if name ∈ seen then none
        else (knownMembers? names (name :: seen) rest).map ((name, tree) :: ·)
      else knownMembers? names seen rest

/-- The trees of the declared members of a record, in their declared order. -/
def record? (names : List String) : Tree → Option (List (Option Tree))
  | .object members =>
    (knownMembers? names [] members).map fun found => names.map fun n => found.lookup n
  | .array items =>
    if items.length ≤ names.length then
      some ((List.range names.length).map fun i => items[i]?)
    else none
  | _ => none

/-- The case of an enumeration without contents that a tree names: its name as a
string, or an object whose only key it is, with the value null. -/
def caseName? : Tree → Option String
  | .string pieces => Piece.string? pieces
  | .object [(key, .null)] => Piece.string? key
  | _ => none

end Tree

end LiteChat.Json
