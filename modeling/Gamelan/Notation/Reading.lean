import Gamelan.Notation.Statement
import Gamelan.Score
import Gamelan.Text.LowerCase

namespace Gamelan.Notation

open Gamelan.Text

/-!
# Reading a score

The nodes of a syntax tree are read in order, each adding to the score built so far.  Metadata sets
the title or the composer, a header opens a section, and a track joins the last section.  What has
no meaning leaves a remark and nothing else.

* `Remark` — what was passed over.
* `readNode` — the score after one more node, and the remark on it.
* `readTree`, `parse` — the score of a tree, and of a source text.
-/

/-- What reading passes over. -/
inductive Remark where
  /-- Input that fits no statement. -/
  | unparsed (span : Span)
  /-- Metadata of an unknown name, in lower case. -/
  | unknownMetadata (name : String)
  /-- A track before the first section. -/
  | strayTrack (span : Span)
deriving DecidableEq, Repr

/-- The inside of a literal: all but its first and its last character. -/
def unwrap (literal : List Char) : List Char :=
  literal.tail.dropLast

/-- The tempo a number stands for: its leading digits, or 0 if they exceed 32 bits. -/
def readTempo (number : List Char) : Nat :=
  let value := (number.takeWhile Char.isDigit).foldl (fun n d => 10 * n + (d.toNat - '0'.toNat)) 0
  if value < Nat.pow 2 32 then value else 0

/-- The text inside the literal of a node. -/
def inside (source : List Char) (node : Node) : List Char :=
  unwrap (node.text source)

/-- The score with a value for some metadata, whose name is in lower case. -/
def setMetadata (score : Score) (name value : String) : Score × List Remark :=
  if name == "title" then ({ score with title := value }, [])
  else if name == "composer" then ({ score with composer := value }, [])
  else (score, [.unknownMetadata name])

/-- The score after metadata.  Without a value it counts for nothing. -/
def readMetadata (source : List Char) (score : Score) (node : Node) : Score × List Remark :=
  match node.child? .name, node.child? .string with
  | some name, some value =>
    setMetadata score (String.ofList (lowerCase (name.text source)))
      (String.ofList (inside source value))
  | _, _ => (score, [])

/-- The section that a header opens as number `id`. -/
def readHeader (source : List Char) (id : Nat) (node : Node) : Section where
  id := id
  title := String.ofList (((node.child? .string).map (inside source)).getD [])
  tempo := ((node.child? .number).map fun number => readTempo (number.text source)).getD 0
  tracks := []

/-- The sections with a track added to the last of them. -/
def addTrack (track : Track) : List Section → List Section
  | [] => []
  | [last] => [{ last with tracks := last.tracks ++ [track] }]
  | first :: second :: rest => first :: addTrack track (second :: rest)

/-- The score after a track. -/
def readTrack (source : List Char) (score : Score) (node : Node) : Score × List Remark :=
  match node.child? .name, node.child? .code with
  | some label, some code =>
    if score.sections.isEmpty then (score, [.strayTrack node.span])
    else
      let track : Track := ⟨String.ofList (label.text source), inside source code⟩
      ({ score with sections := addTrack track score.sections }, [])
  | _, _ => (score, [])

/-- The score after one more node, its children apart. -/
def readNode (source : List Char) (score : Score) (node : Node) : Score × List Remark :=
  match node.kind with
  | .metadata => readMetadata source score node
  | .header =>
    let opened := readHeader source score.sections.length node
    ({ score with sections := score.sections ++ [opened] }, [])
  | .track => readTrack source score node
  | .error => (score, [.unparsed node.span])
  | _ => (score, [])

/-- The score after some more nodes. -/
def readNodes (source : List Char) (score : Score) : List Node → Score × List Remark
  | [] => (score, [])
  | node :: rest =>
    let (read, remarks) := readNode source score node
    let (final, more) := readNodes source read rest
    (final, remarks ++ more)

/-- The score of a syntax tree, and what was passed over. -/
def readTree (source : List Char) (tree : Node) : Score × List Remark :=
  readNodes source .empty tree.preorder

/-- The score of a source text, and what was passed over. -/
def parseWithRemarks (source : List Char) : Score × List Remark :=
  readTree source (parseTree source)

/-- The score of a source text. -/
def parse (source : List Char) : Score :=
  (parseWithRemarks source).1

end Gamelan.Notation
