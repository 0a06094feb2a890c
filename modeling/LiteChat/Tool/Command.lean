import LiteChat.Service.Declarations
import LiteChat.Text.Split
import LiteChat.Tool.Report

/-!
# The schema tool

A command names an inquiry and a schema file; without a file the inquiry is about the
schema of the service.  The arguments are the name of the inquiry, at most one file,
with a name that is not empty, and options, each at most once, in any order; a lone
pair of dashes ends the options.
-/

namespace LiteChat

/-- A command. -/
structure Command where
  /-- What is asked. -/
  inquiry : Inquiry
  /-- The schema file. -/
  file : Option String
  deriving DecidableEq, Repr

namespace Command

/-- An option of the command line. -/
inductive Switch where
  /-- The message that an inquiry is about. -/
  | message
  /-- How much is logged; nothing is. -/
  | logLevel
  deriving DecidableEq, Repr

/-- The option of a word. -/
def Switch.ofWord? (word : String) : Option Switch :=
  if word = "-m" ∨ word = "--message" then some .message
  else if word = "--log-level" then some .logLevel
  else none

/-- The option and its value in a word that holds both. -/
def Switch.ofJoined? (word : String) : Option (Switch × String) :=
  match word.toList with
  | '-' :: 'm' :: '=' :: value => some (.message, String.ofList value)
  | '-' :: 'm' :: value => some (.message, String.ofList value)
  | cs =>
    match Text.cut? '=' cs with
    | some (name, value) =>
      (Switch.ofWord? (String.ofList name)).map fun s => (s, String.ofList value)
    | none => none

/-- The words of a command line, taken apart. -/
structure Words where
  /-- The options with their values. -/
  options : List (Switch × String) := []
  /-- The other words. -/
  plain : List String := []

/-- The words with an option in front. -/
def Words.withOption (s : Switch) (value : String) (w : Words) : Words :=
  { w with options := (s, value) :: w.options }

/-- Takes the words of a command line apart; `none` if an option lacks its value or is
not known. -/
def Words.ofList? : List String → Option Words
  | [] => some {}
  | "--" :: rest => some { plain := rest }
  | word :: rest =>
    match Switch.ofWord? word with
    | some s =>
      match rest with
      | value :: rest => (ofList? rest).map (withOption s value)
      | [] => none
    | none =>
      match Switch.ofJoined? word with
      | some (s, value) => (ofList? rest).map (withOption s value)
      | none =>
        if word.startsWith "-" ∧ word ≠ "-" then none
        else (ofList? rest).map fun w => { w with plain := word :: w.plain }

/-- The command of an argument list. -/
def ofArguments? (arguments : List String) : Option Command := do
  let words ← Words.ofList? arguments
  guard (words.options.map Prod.fst).Nodup
  let only := words.options.lookup .message
  match words.plain with
  | name :: files =>
    let inquiry ← match name, only with
      | "check", none => some Inquiry.check
      | "normalize", none => some Inquiry.normalize
      | "accessors", only => some (Inquiry.accessors only)
      | _, _ => none
    guard (files.length ≤ 1 ∧ files.head? ≠ some "")
    return ⟨inquiry, files.head?⟩
  | [] => none

/-- The report that a command asks for, given the text of its file or why that cannot
be read. -/
def report (c : Command) (read : String → Except FileFault String) : Report :=
  match c.file with
  | none => c.inquiry.report Service.schema []
  | some file =>
    match read file with
    | .error fault => .unreadable file fault
    | .ok text =>
      let compiled := Schema.compile text.toList
      c.inquiry.report (.ofCompiled compiled) compiled.errors

/-- What is said of arguments that are no command. -/
def usage : String :=
  "usage: check [SCHEMA] | accessors [SCHEMA] [--message NAME] | normalize [SCHEMA]\n"

end Command

end LiteChat
