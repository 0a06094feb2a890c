import LiteChat.Schema.Comment
import LiteChat.Schema.Statement

/-!
# Blocks of a schema text

A schema text declares its messages and enums in blocks, `message N` or `enum N`
followed by a body in braces; whatever stands between two blocks is skipped.  Every
block is read on its own: a malformed one is reported with its fault, and reading
goes on behind it.

`blocks` lists the blocks of a text in order.  It looks for the next keyword, takes
the header up to the next brace and the body up to the brace that closes it.  Three
faults concern the block as a whole.  A header that is no identifier is reported;
reading goes on behind the body, or right behind the keyword if the brace is never
closed or if the header holds a further keyword, which is then the one the brace
belongs to.  A keyword that no brace follows, and a brace that is never closed, end
the reading.
-/

namespace LiteChat.Schema

/-- A block of a schema text. -/
inductive Block where
  /-- A message declaration. -/
  | message (descriptor : MessageDescriptor)
  /-- An enum declaration. -/
  | enumeration (descriptor : EnumDescriptor)
  /-- A malformed block; `header` is its name, or what stands in place of one. -/
  | malformed (header : List Char) (fault : BlockFault)
  deriving DecidableEq, Repr

/-- The block with a given name and body. -/
def readBlock (keyword : Keyword) (name body : List Char) : Block :=
  match keyword with
  | .message =>
    match readFields [] (statements body) with
    | .ok fields => .message (.ofFields (String.ofList name) fields)
    | .error fault => .malformed name fault
  | .enumeration =>
    match readValues [] (statements body) with
    | .ok values => .enumeration (.ofValues (String.ofList name) values)
    | .error fault => .malformed name fault

/-- What stands before and after the brace that closes the current one, when
`depth` further braces are open. -/
def closing? (depth : Nat) : List Char → Option (List Char × List Char)
  | [] => none
  | c :: rest =>
    if c = '\x7d' then
      match depth with
      | 0 => some ([], rest)
      | depth + 1 => (closing? depth rest).map fun (body, after) => (c :: body, after)
    else
      let depth := if c = '\x7b' then depth + 1 else depth
      (closing? depth rest).map fun (body, after) => (c :: body, after)

theorem length_lt_of_closing? {depth : Nat} {text body after : List Char}
    (h : closing? depth text = some (body, after)) : after.length < text.length := by
  induction text generalizing depth body with
  | nil => cases h
  | cons c rest ih =>
    unfold closing? at h
    split at h
    · split at h
      · cases h
        exact Nat.lt_succ_self _
      · obtain ⟨⟨b, a⟩, hb, he⟩ := Option.map_eq_some_iff.mp h
        cases he
        exact Nat.lt_succ_of_lt (ih hb)
    · obtain ⟨⟨b, a⟩, hb, he⟩ := Option.map_eq_some_iff.mp h
      cases he
      exact Nat.lt_succ_of_lt (ih hb)

/-- The identifier characters at the front of a text, and the rest. -/
def spanWord : List Char → List Char × List Char
  | [] => ([], [])
  | c :: rest =>
    if isIdentChar c then
      let (word, rest) := spanWord rest
      (c :: word, rest)
    else ([], c :: rest)

theorem length_spanWord_le (text : List Char) : (spanWord text).2.length ≤ text.length := by
  induction text with
  | nil => exact Nat.le_refl _
  | cons c rest ih =>
    unfold spanWord
    split
    · exact Nat.le_succ_of_le ih
    · exact Nat.le_refl _

/-- Whether a header holds the word of a keyword. -/
def holdsKeyword (header : List Char) : Bool :=
  (Unicode.words header).any fun w => (Keyword.ofWord? w).isSome

/-- The blocks of a text without comments. -/
def blocks (text : List Char) : List Block :=
  match text with
  | [] => []
  | c :: rest =>
    if isIdentStart c then
      match _hw : spanWord rest with
      | (word, after) =>
        match Keyword.ofWord? (c :: word) with
        | none => blocks after
        | some keyword =>
          match _hc : Text.cut? '\x7b' after with
          | none => [.malformed (Unicode.trim after) (.withoutBody keyword)]
          | some (header, body) =>
            let name := Unicode.trim header
            match _hb : closing? 0 body with
            | none =>
              if isIdentifier name then [.malformed name .unbalanced]
              else .malformed name (.invalidName keyword) :: blocks after
            | some (body, behind) =>
              if isIdentifier name then readBlock keyword name body :: blocks behind
              else
                .malformed name (.invalidName keyword) ::
                  blocks (if holdsKeyword name then after else behind)
    else blocks rest
termination_by text.length
decreasing_by
  all_goals
    have hl := length_spanWord_le rest
    simp only [List.length_cons]
  · simp only [_hw] at hl
    omega
  · simp only [_hw] at hl
    omega
  · simp only [_hw] at hl
    have h1 := Text.length_lt_of_cut? _hc
    have h2 := length_lt_of_closing? _hb
    omega
  · simp only [_hw] at hl
    have h1 := Text.length_lt_of_cut? _hc
    have h2 := length_lt_of_closing? _hb
    split <;> omega
  · omega

/-! ## Compilation -/

/-- A malformed block, as it is reported. -/
structure Malformed where
  /-- The block's name, or what stands in place of one. -/
  block : String
  /-- The fault. -/
  fault : BlockFault
  deriving DecidableEq, Repr

/-- The report of a malformed block. -/
def Malformed.message (m : Malformed) : String :=
  "malformed block `" ++ m.block ++ "`: " ++ m.fault.reason

/-- What a schema text declares, each kind in the order of the text. -/
structure Compiled where
  /-- The enums. -/
  enums : List EnumDescriptor
  /-- The messages. -/
  messages : List MessageDescriptor
  /-- The malformed blocks. -/
  errors : List Malformed
  deriving DecidableEq, Repr

/-- The descriptor of a message block. -/
def Block.message? : Block → Option MessageDescriptor
  | .message d => some d
  | _ => none

/-- The descriptor of an enum block. -/
def Block.enum? : Block → Option EnumDescriptor
  | .enumeration d => some d
  | _ => none

/-- The report of a malformed block. -/
def Block.malformed? : Block → Option Malformed
  | .malformed header fault => some ⟨String.ofList header, fault⟩
  | _ => none

/-- The declarations and faults among a list of blocks. -/
def Compiled.ofBlocks (bs : List Block) : Compiled where
  enums := bs.filterMap Block.enum?
  messages := bs.filterMap Block.message?
  errors := bs.filterMap Block.malformed?

/-- Whether every block was well formed. -/
def Compiled.isClean (c : Compiled) : Bool := c.errors.isEmpty

/-- The declarations of a schema text. -/
def compile (source : List Char) : Compiled := .ofBlocks (blocks (stripComments source))

example : (blocks "message A \x7b optional B b = 2; required string a = 1; \x7d".toList)
    = [.message ⟨"A", [⟨1, "a", .string, .required⟩, ⟨2, "b", .reference "B", .optional⟩]⟩] := by
  decide +kernel

end LiteChat.Schema
