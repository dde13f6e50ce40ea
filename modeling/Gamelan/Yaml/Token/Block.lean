import Gamelan.Yaml.Cursor
import Gamelan.Yaml.Token.Folding

namespace Gamelan.Yaml

/-!
# Block scalars

A block scalar is the indented text below its header.  The header can tell the indentation, and what
becomes of the breaks at the end; a literal text keeps its lines, another is folded.

* `BlockHeader.read?` — the header.
* `readIndented` — the lines, without their indentation.
* `readBlock?` — the scalar.
-/

/-- What becomes of the breaks at the end. -/
inductive Chomping where
  | strip
  | clip
  | keep
deriving DecidableEq, Repr

/-- What a header says. -/
structure BlockHeader where
  chomping : Chomping := .clip
  /-- By how much the text is indented deeper than the block around it. -/
  increment : Option Nat := none
deriving DecidableEq, Repr

/-! ### Headers -/

/-- The header after one of its indicators, unless there is none. -/
def BlockHeader.withIndicator (c : Char) (h : BlockHeader) : Option BlockHeader :=
  match c with
  | '+' => some { h with chomping := .keep }
  | '-' => some { h with chomping := .strip }
  | _ => if c.isDigit then some { h with increment := some (c.toNat - '0'.toNat) } else none

/-- The header that a text starts with, and its length: an indicator of either kind at most. -/
def BlockHeader.ofIndicators (text : List Char) : BlockHeader × Nat :=
  match text with
  | [] => ({}, 0)
  | c :: rest =>
    match ({} : BlockHeader).withIndicator c with
    | none => ({}, 0)
    | some h =>
      match rest with
      | [] => (h, 1)
      | d :: _ =>
        if c.isDigit == d.isDigit then (h, 1)
        else
          match h.withIndicator d with
          | some both => (both, 2)
          | none => (h, 1)

/-- The header at a cursor, with the rest of its line; an increment is not zero. -/
def BlockHeader.read? (c : Cursor) : Option (BlockHeader × Cursor) :=
  let (h, length) := ofIndicators c.rest
  if h.increment == some 0 then none else (c.drop length).restOfLine?.map (h, ·)

/-! ### Lines -/

/-- The breaks of the empty lines ahead, the widest indentation of these and of the line after them,
and the text of that line.  Spaces up to an indentation are passed over, all spaces if it is open. -/
def readEmptyLines (indent : Option Nat) (widest : Nat) (p : Position) :
    List Char → Option (List Char × Nat × Cursor)
  | [] => some ([], max widest p.column, ⟨[], p⟩)
  | c :: rest =>
    let inside := indent.all (p.column < ·)
    if inside && c == ' ' then readEmptyLines indent widest (p.after c) rest
    else if inside && c == '\t' then none
    else if isBreak c then
      (readEmptyLines indent (max widest p.column) (p.after c) rest).map fun (breaks, found) =>
        (c :: breaks, found)
    else some ([], max widest p.column, ⟨c :: rest, p⟩)

/-- The lines ahead that have an indentation, without it. -/
def readIndented (indent : Nat) (inLine : Bool) (p : Position) :
    List Char → Option (List Char × Cursor)
  | [] => some ([], ⟨[], p⟩)
  | c :: rest =>
    if isBreak c then
      (readIndented indent false (p.after c) rest).map fun (text, cursor) => (c :: text, cursor)
    else if inLine || p.column == indent then
      (readIndented indent true (p.after c) rest).map fun (text, cursor) => (c :: text, cursor)
    else if c == ' ' then readIndented indent false (p.after c) rest
    else if c == '\t' then none
    else some ([], ⟨c :: rest, p⟩)

/-! ### Texts -/

/-- The breaks between two lines once folded: they stay if either line is indented deeper. -/
def foldBreaks (before breaks after : List Char) : List Char :=
  if before.head?.any isBlank || after.head?.any isBlank then breaks
  else (Gap.breaks breaks.head? breaks.tail).text

/-- Lines and the breaks between them, folded. -/
def foldLines : List (List Char) → List Char
  | before :: breaks :: after :: rest =>
    before ++ foldBreaks before breaks after ++ foldLines (after :: rest)
  | runs => runs.flatten

/-- The text of a block from its lines. -/
def blockText (literal : Bool) (chomping : Chomping) (lines : List Char) : List Char :=
  let leading := lines.takeWhile isBreak
  let trailing := (lines.reverse.takeWhile isBreak).reverse
  let body := (lines.drop leading.length).take (lines.length - leading.length - trailing.length)
  let kept :=
    match chomping with
    | .strip => []
    | .clip => trailing.take 1
    | .keep => trailing
  if body.isEmpty then if chomping = .keep then leading else []
  else if literal then leading ++ body ++ kept
  else leading ++ foldLines (body.splitBy fun a b => isBreak a == isBreak b) ++ kept

/-- The block scalar after its first indicator, in a block of an indentation. -/
def readBlock? (literal : Bool) (parent : Option Nat) (c : Cursor) : Option (List Char × Cursor) := do
  let (header, c) ← BlockHeader.read? c
  let told := header.increment.map (parent.getD 0 + ·)
  let (breaks, widest, c) ← readEmptyLines told 0 c.position c.rest
  let indent := told.getD (max widest (max (parent.elim 0 (· + 1)) 1))
  let (text, c) ← readIndented indent false c.position c.rest
  return (blockText literal header.chomping (breaks ++ text), c)

end Gamelan.Yaml
