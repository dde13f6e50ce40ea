import Gamelan.Yaml.Character

namespace Gamelan.Yaml

/-!
# Places in a text

The rules of YAML count bytes, lines and columns; a cursor is what is left of a text, with its place.

* `Position` — a place.
* `Cursor` — the rest of a text from a place on.
-/

/-- A place in a text, counted from zero. -/
structure Position where
  /-- The number of bytes before it. -/
  index : Nat := 0
  line : Nat := 0
  column : Nat := 0
deriving DecidableEq, Repr

/-- The place after a character. -/
def Position.after (c : Char) (p : Position) : Position :=
  if isBreak c then ⟨p.index + c.utf8Size, p.line + 1, 0⟩
  else ⟨p.index + c.utf8Size, p.line, p.column + 1⟩

/-- The rest of a text. -/
structure Cursor where
  rest : List Char
  position : Position := {}
deriving Repr

namespace Cursor

/-- The cursor after the next character. -/
def next (c : Cursor) : Cursor :=
  match c.rest with
  | [] => c
  | head :: rest => ⟨rest, c.position.after head⟩

/-- The cursor after some characters. -/
def drop (n : Nat) (c : Cursor) : Cursor :=
  ⟨c.rest.drop n, (c.rest.take n).foldl (fun p head => p.after head) c.position⟩

/-- The characters up to the first that fails a test, and the cursor there. -/
def takeWhile (test : Char → Bool) (c : Cursor) : List Char × Cursor :=
  let taken := c.rest.takeWhile test
  (taken, c.drop taken.length)

/-- The cursor at the first character that fails a test. -/
def dropWhile (test : Char → Bool) (c : Cursor) : Cursor :=
  (c.takeWhile test).2

/-- The cursor after the rest of a line that holds a comment at most. -/
def restOfLine? (c : Cursor) : Option Cursor :=
  let c := c.dropWhile isBlank
  let c := if c.rest.head? == some '#' then c.dropWhile (!isBreak ·) else c
  match c.rest with
  | [] => some c
  | head :: _ => if isBreak head then some c.next else none

end Cursor

end Gamelan.Yaml
