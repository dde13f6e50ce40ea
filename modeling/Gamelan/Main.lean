import Gamelan.CommandLine

namespace Gamelan

/-!
# The program

The arguments and the file that they ask for go in; text and an exit code come out.
-/

/-- The content of a file. -/
def fileContent (path : String) : IO FileContent := do
  try
    let bytes ← IO.FS.readBinFile path
    return .ok bytes.toList
  catch e => return .error (.other (toString e))

end Gamelan

/-- Run the command line. -/
def main (arguments : List String) : IO UInt32 := do
  let content : Gamelan.FileContent ←
    match Gamelan.CommandLine.path? arguments with
    | some path => Gamelan.fileContent path
    | none => pure (.error .notFound)
  let outcome := Gamelan.CommandLine.run (fun _ => content) arguments
  IO.print outcome.output
  IO.eprint outcome.complaint
  return outcome.code.toUInt32
