/-!
Directories: files by their paths. A path is resolved from the working directory, part by part: an
empty part and `.` stay where they are, `..` goes up, and any other part enters what it names. What
lies outside of the working directory is taken to hold no files. Names and paths have a greatest
length in bytes. On such a directory the command can be run without touching a file system.

A file is read as text, so its bytes have to be well-formed UTF-8. A byte order mark is kept.
-/

namespace Lexing

namespace Command

/-- Why a file cannot be read. -/
inductive ReadError where
  /-- There is nothing at the path. -/
  | missing
  /-- The path goes through a file. -/
  | notDirectory
  /-- There is a directory at the path. -/
  | isDirectory
  /-- The path, or a name in it, is longer than any can be. -/
  | nameTooLong
  /-- The bytes are not well-formed UTF-8. -/
  | malformed
  /-- Another reason, in words. -/
  | other (reason : String)
deriving DecidableEq, Repr

/-- The reason in words. -/
def ReadError.message : ReadError → String
  | missing => "No such file or directory (os error 2)"
  | notDirectory => "Not a directory (os error 20)"
  | isDirectory => "Is a directory (os error 21)"
  | nameTooLong => "File name too long (os error 36)"
  | malformed => "stream did not contain valid UTF-8"
  | other reason => reason

/-- The text of a file with these bytes. -/
def decode (bytes : ByteArray) : Except ReadError String :=
  match String.fromUTF8? bytes with
  | some text => .ok text
  | none => .error .malformed

/-- The files below a working directory, each with the parts of its path. A directory exists if
there is a file below it. -/
structure Directory where
  files : List (List String × ByteArray)

namespace Directory

/-- What a path may lead to. -/
inductive Node where
  | folder (parts : List String)
  | file (content : ByteArray)
  /-- A directory that is not below the working directory. -/
  | outside

/-- The directory with these files. -/
def ofFiles (files : List (String × ByteArray)) : Directory :=
  ⟨files.map fun f => (f.1.splitOn "/", f.2)⟩

/-- What is at the path with these parts. -/
def node? (d : Directory) (parts : List String) : Option Node :=
  match d.files.lookup parts with
  | some content => some (.file content)
  | none => if d.files.any fun f => parts.isPrefixOf f.1 then some (.folder parts) else none

/-- The greatest number of bytes in a name. -/
def nameLimit : Nat := 255

/-- The greatest number of bytes in a path. -/
def pathLimit : Nat := 4095

/-- Goes to what has this name in a directory. -/
def child (d : Directory) (parts : List String) (name : String) : Except ReadError Node :=
  if nameLimit < name.utf8ByteSize then .error .nameTooLong
  else
    match d.node? (parts ++ [name]) with
    | some node => .ok node
    | none => .error .missing

/-- Goes one part further along a path. -/
def enter (d : Directory) : Node → String → Except ReadError Node
  | .file _, _ => .error .notDirectory
  | .folder parts, "" => .ok (.folder parts)
  | .folder parts, "." => .ok (.folder parts)
  | .folder [], ".." => .ok .outside
  | .folder parts, ".." => .ok (.folder parts.dropLast)
  | .folder parts, name => d.child parts name
  | .outside, "" => .ok .outside
  | .outside, "." => .ok .outside
  | .outside, ".." => .ok .outside
  | .outside, name => .error (if nameLimit < name.utf8ByteSize then .nameTooLong else .missing)

/-- Reads the text of the file at a path. -/
def read (d : Directory) (path : String) : Except ReadError String := do
  if pathLimit < path.utf8ByteSize then .error .nameTooLong
  let origin := if path.startsWith "/" then .outside else .folder []
  match ← (path.splitOn "/").foldlM d.enter origin with
  | .file content => decode content
  | _ => .error .isDirectory

end Directory

end Command

end Lexing
