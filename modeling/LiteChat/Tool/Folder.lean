import LiteChat.Text.Split

/-!
# A folder of schema files

A path names a file by the folders on the way to it, divided by slashes.  It is followed
name by name: an empty name and a single dot stay where they are, two dots go up, and
any other name is looked up in the folder that has been reached.  The first name that
leads nowhere decides why a file cannot be read, and nothing leads on from a file, not
even an empty name.

A folder here holds files alone.  Of what is above it, only that there are folders is
known.
-/

namespace LiteChat

/-- Why a file cannot be read. -/
inductive FileFault where
  /-- A name is not there. -/
  | notFound
  /-- The file may not be read. -/
  | denied
  /-- The path goes on behind a file. -/
  | notFolder
  /-- The path ends at a folder. -/
  | isFolder
  /-- A name, or the whole path, is too long. -/
  | tooLong
  /-- The file holds bytes that are no text. -/
  | notText
  /-- Another fault, in the words of the system. -/
  | other (text : String)
  deriving DecidableEq, Repr

/-- A fault of the system with its number. -/
def FileFault.numbered (text : String) (number : String) : String :=
  text ++ " (os error " ++ number ++ ")"

/-- A fault in words. -/
def FileFault.message : FileFault → String
  | .notFound => numbered "No such file or directory" "2"
  | .denied => numbered "Permission denied" "13"
  | .notFolder => numbered "Not a directory" "20"
  | .isFolder => numbered "Is a directory" "21"
  | .tooLong => numbered "File name too long" "36"
  | .notText => "stream did not contain valid UTF-8"
  | .other text => text

/-- A folder that holds files and no folders. -/
structure Folder where
  /-- The files with their texts. -/
  files : List (String × String) := []
  deriving DecidableEq, Repr

namespace Folder

/-- What a path leads to. -/
inductive Place where
  /-- The folder itself. -/
  | here
  /-- A folder above it. -/
  | above
  /-- A file with its text. -/
  | file (text : String)
  deriving DecidableEq, Repr

/-- The greatest number of bytes in a name. -/
def nameLimit : Nat := 255

/-- The greatest number of bytes in a path. -/
def pathLimit : Nat := 4095

/-- The file of a name. -/
def find (f : Folder) (name : String) : Except FileFault Place :=
  match f.files.lookup name with
  | some text => .ok (.file text)
  | none => .error .notFound

/-- Where one more name of a path leads. -/
def step (f : Folder) : Place → String → Except FileFault Place
  | .file _, _ => .error .notFolder
  | place, name =>
    if name = "" ∨ name = "." then .ok place
    else if name = ".." then .ok .above
    else if nameLimit < name.utf8ByteSize then .error .tooLong
    else if place = .here then f.find name
    else .error .notFound

/-- The names of a path. -/
def names (path : String) : List String :=
  (Text.splitOn '/' path.toList).map String.ofList

/-- Where a path starts: one that begins with a slash does so at the top. -/
def start (path : String) : Place :=
  if path.toList.head? = some '/' then .above else .here

/-- What a path leads to; an empty path leads nowhere. -/
def place (f : Folder) (path : String) : Except FileFault Place :=
  if path = "" then .error .notFound
  else if pathLimit < path.utf8ByteSize then .error .tooLong
  else (names path).foldlM f.step (start path)

/-- The text of the file that a path names. -/
def read (f : Folder) (path : String) : Except FileFault String := do
  match ← f.place path with
  | .file text => .ok text
  | .here => .error .isFolder
  | .above => .error .isFolder

example : read ⟨[("a", "x")]⟩ "./a" = .ok "x" := by rfl

example : read ⟨[("a", "x")]⟩ "a/" = .error .notFolder := by rfl

example : read ⟨[("a", "x")]⟩ "b/../a" = .error .notFound := by rfl

example : read ⟨[("a", "x")]⟩ "." = .error .isFolder := by rfl

end Folder

end LiteChat
