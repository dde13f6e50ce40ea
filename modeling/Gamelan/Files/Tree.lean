import Gamelan.Files

namespace Gamelan

/-!
# Trees of files

Files stand in directories, and directories in directories.  A path names the way to a file, from the
root or from the directory that a program works in.

* `FileNode` — a file, or a directory with what stands in it.
* `FileNode.walk` — the way along some names.
* `FileSystem.read` — the file at a path.
-/

/-- A file, or a directory with what stands in it, by name. -/
inductive FileNode where
  | file (bytes : List UInt8)
  | directory (entries : List (String × FileNode))

namespace FileNode

/-- The length of the longest name that a file can have, in bytes. -/
def nameLimit : Nat := 255

/-- Where some names lead, from a node with the directories `around` it, the nearest first.  An empty
name and a single dot stay where they are, and two dots go back; the root is around itself.  Behind a
file there is no way on, not even an empty one. -/
def walk (around : List FileNode) : FileNode → List String → Except FileError FileNode
  | node, [] => .ok node
  | .file _, _ :: _ => .error .notDirectory
  | .directory entries, name :: rest =>
    if name.isEmpty || name == "." then walk around (.directory entries) rest
    else if name == ".." then
      match around with
      | [] => walk [] (.directory entries) rest
      | outer :: around => walk around outer rest
    else if nameLimit < name.utf8ByteSize then .error .nameTooLong
    else
      match entries.lookup name with
      | some node => walk (.directory entries :: around) node rest
      | none => .error .notFound

/-- A directory with a file at the end of some names; directories on the way are made. -/
def put (bytes : List UInt8) : List String → FileNode → FileNode
  | [], _ => .file bytes
  | name :: rest, node =>
    let entries :=
      match node with
      | .file _ => []
      | .directory entries => entries
    let inner := (entries.lookup name).getD (.directory [])
    .directory ((name, put bytes rest inner) :: entries.filter (·.1 != name))

/-- A directory with files at paths below it. -/
def ofFiles (files : List (String × List UInt8)) : FileNode :=
  files.foldl
    (fun node (path, bytes) =>
      node.put bytes ((path.splitOn "/").filter fun name => !name.isEmpty && name != "."))
    (.directory [])

end FileNode

/-- A directory to work in, and the directories around it, from the nearest to the root. -/
structure FileSystem where
  working : FileNode
  around : List FileNode

namespace FileSystem

/-- A directory to work in that stands in an otherwise empty root. -/
def ofDirectory (node : FileNode) : FileSystem where
  working := node
  around := [.directory []]

/-- The length of the longest path, in bytes. -/
def pathLimit : Nat := 4095

/-- Where a path leads. -/
def find (s : FileSystem) (path : String) : Except FileError FileNode :=
  if path.toList.contains '\x00' then .error .invalidName
  else if path.isEmpty then .error .notFound
  else if pathLimit < path.utf8ByteSize then .error .nameTooLong
  else if path.startsWith "/" then (s.around.getLastD s.working).walk [] (path.splitOn "/")
  else s.working.walk s.around (path.splitOn "/")

/-- The file at a path. -/
def read (s : FileSystem) : FileReader := fun path => do
  match ← s.find path with
  | .file bytes => return bytes
  | .directory _ => throw .isDirectory

end FileSystem

end Gamelan
