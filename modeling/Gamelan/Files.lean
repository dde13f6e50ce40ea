namespace Gamelan

/-!
# Files

What a program sees of the file system: the bytes of a file, or why they cannot be read.

* `FileError` — why a file cannot be read.
* `FileReader` — the files at paths.
* `readText` — the text of a file.
* `pathIn` — the path of a name in a directory.
-/

/-- Why a file cannot be read. -/
inductive FileError where
  | notFound
  | isDirectory
  /-- A path goes on behind a file. -/
  | notDirectory
  | nameTooLong
  /-- No file can have the name. -/
  | invalidName
  | permissionDenied
  /-- The bytes are no UTF-8 text. -/
  | notText
  /-- Any other reason, in the words of the system. -/
  | other (message : String)
deriving DecidableEq, Repr

/-- The wording of a reason. -/
def FileError.message : FileError → String
  | notFound => "No such file or directory (os error 2)"
  | isDirectory => "Is a directory (os error 21)"
  | notDirectory => "Not a directory (os error 20)"
  | nameTooLong => "File name too long (os error 36)"
  | invalidName => "file name contained an unexpected NUL byte"
  | permissionDenied => "Permission denied (os error 13)"
  | notText => "stream did not contain valid UTF-8"
  | other message => message

/-- The bytes of a file, or why they cannot be read. -/
abbrev FileContent := Except FileError (List UInt8)

/-- The files at paths. -/
abbrev FileReader := String → FileContent

/-- A text from its bytes. -/
def decodeText (bytes : List UInt8) : Except FileError String :=
  match String.fromUTF8? ⟨bytes.toArray⟩ with
  | some text => .ok text
  | none => .error .notText

/-- The text of a file. -/
def readText (content : FileContent) : Except FileError String :=
  content.bind decodeText

/-- The path of a name in a directory; a name that starts at the root stands for itself. -/
def pathIn (directory name : String) : String :=
  if name.startsWith "/" then name
  else if directory.isEmpty || directory.endsWith "/" then directory ++ name
  else directory ++ "/" ++ name

end Gamelan
