import LiteChat.Tool.Command

/-!
# The command line of the schema tool

Reads the schema file that a command names and prints the report it asks for.
-/

namespace LiteChat

/-- Why a file cannot be read, by the number of the fault. -/
def FileFault.ofError : IO.Error → FileFault
  | .noFileOrDirectory .. => .notFound
  | .permissionDenied .. => .denied
  | .inappropriateType _ 20 _ => .notFolder
  | .inappropriateType _ 21 _ => .isFolder
  | .invalidArgument _ 36 _ => .tooLong
  | e => .other e.toString

/-- The text of a file, or why it cannot be read. -/
def readSchema (file : String) : IO (Except FileFault String) := do
  try
    let bytes ← IO.FS.readBinFile file
    match String.fromUTF8? bytes with
    | some text => return .ok text
    | none => return .error .notText
  catch e => return .error (.ofError e)

end LiteChat

open LiteChat

/-- Runs the schema tool. -/
def main (arguments : List String) : IO UInt32 := do
  match Command.ofArguments? arguments with
  | none =>
    IO.eprint Command.usage
    return 2
  | some command =>
    let text ← match command.file with
      | some file => readSchema file
      | none => pure (.ok "")
    let report := command.report fun _ => text
    IO.print report.output
    IO.eprint report.errors
    return UInt32.ofNat report.code
