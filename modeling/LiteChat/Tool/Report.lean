import LiteChat.Schema.Accessors
import LiteChat.Tool.Folder

/-!
# Reports on a schema

A schema can be asked for three reports: what is wrong with it (`Inquiry.check`), the
accessor tables of its messages (`Inquiry.accessors`), and its declarations in normal
form (`Inquiry.normalize`).  A report is what goes to the output, what goes to the
errors, and an exit code, which is 0 if the inquiry had an answer and the schema no
fault that was asked for.

A malformed block is a fault that only a check reports; the other reports go by the
declarations that are left.
-/

namespace LiteChat

/-- What a report is about. -/
inductive Inquiry where
  /-- Malformed blocks and references to nothing. -/
  | check
  /-- The accessor tables of all messages, or of one. -/
  | accessors (only : Option String)
  /-- The declarations in normal form. -/
  | normalize
  deriving DecidableEq, Repr

/-- A report. -/
structure Report where
  /-- The exit code. -/
  code : Nat := 0
  /-- The text for the output. -/
  output : String := ""
  /-- The text for the errors. -/
  errors : String := ""
  deriving DecidableEq, Repr

namespace Report

/-- The report of a failure. -/
def failure (reason : String) : Report := ⟨1, "", "Error: " ++ reason ++ "\n"⟩

/-- The report that a schema file cannot be read. -/
def unreadable (file : String) (fault : FileFault) : Report :=
  failure ("reading " ++ file ++ "\n\nCaused by:\n    " ++ fault.message)

/-- A natural number in a report. -/
def count (n : Nat) : String := String.ofList (Text.ofNat n)

/-- A line about something that is wrong. -/
def errorLine (text : String) : String := "error: " ++ text ++ "\n"

/-- What is wrong with a reference to nothing. -/
def danglingText (d : Dangling) : String :=
  d.message ++ "." ++ d.field ++ " refers to undeclared type " ++ d.target

/-- The report on what is wrong with a schema. -/
def check (s : Schema) (malformed : List Schema.Malformed) : Report :=
  let problems := malformed.map Schema.Malformed.message ++ s.dangling.map danglingText
  let lines := String.join (problems.map errorLine)
  let output :=
    count s.messages.length ++ " messages, " ++ count s.enums.length ++ " enums\n"
  if problems.isEmpty then { output := output }
  else
    let summary := failure (count problems.length ++ " problem(s) found")
    { code := summary.code, output := output, errors := lines ++ summary.errors }

/-- The report of accessor tables. -/
def tables (ts : List AccessorTable) : Report :=
  { output := (Json.Document.array (ts.map AccessorTable.document)).prettyText ++ "\n" }

/-- The report on the accessors of a schema. -/
def accessors (s : Schema) : Option String → Report
  | some name =>
    match s.accessors? name with
    | some table => tables [table]
    | none => failure ("no message named " ++ name)
  | none => tables (s.messages.map fun m => .ofDescriptor m.2)

end Report

/-- The report on a schema that was compiled with some malformed blocks. -/
def Inquiry.report (s : Schema) (malformed : List Schema.Malformed) : Inquiry → Report
  | .check => .check s malformed
  | .accessors only => .accessors s only
  | .normalize => { output := s.text ++ "\n" }

end LiteChat
