import Gamelan.Text.Decimal
import Gamelan.Yaml.Token

namespace Gamelan.Yaml

/-!
# Anchors, tags and directives

* `readAnchorName?` — the name of an anchor or an alias.
* `readTag?` — a tag: a handle and what follows it.
* `readDirective?` — a directive, with its line.
-/

/-! ### Anchors -/

/-- Whether a text may follow the name of an anchor. -/
def endsAnchor (text : List Char) : Bool :=
  spaceAhead text || text.head?.any (['?', ':', ',', ']', '\x7d', '%', '@', '\u0060'].contains ·)

/-- The name of an anchor or an alias. -/
def readAnchorName? (c : Cursor) : Option (List Char × Cursor) :=
  let (name, c) := c.takeWhile isNameCharacter
  if !name.isEmpty && endsAnchor c.rest then some (name, c) else none

/-! ### Addresses -/

/-- Whether a character may stand in a tag; between angle brackets some more may. -/
def isTagCharacter (bracketed : Bool) (c : Char) : Bool :=
  isNameCharacter c
    || [';', '/', '?', ':', '@', '&', '=', '+', '$', '.', '!', '~', '*', '\'', '(', ')'].contains c
    || (bracketed && (c == ',' || c == '[' || c == ']'))

/-- The byte that two digits write. -/
def readByte? (text : List Char) : Option Nat :=
  if (text.take 2).length = 2 then Text.readDigits? 16 (text.take 2) else none

/-- How many bytes follow the first byte of a character. -/
def bytesAfter? (first : Nat) : Option Nat :=
  if first < 0x80 then some 0
  else if 0xc0 ≤ first ∧ first < 0xe0 then some 1
  else if 0xe0 ≤ first ∧ first < 0xf0 then some 2
  else if 0xf0 ≤ first ∧ first < 0xf8 then some 3
  else none

/-- How many bytes are to follow after a byte where `due` were. -/
def nextDue? (due byte : Nat) : Option Nat :=
  if due = 0 then bytesAfter? byte
  else if 0x80 ≤ byte ∧ byte < 0xc0 then some (due - 1)
  else none

/-- The characters of a tag.  A percent sign writes a byte, which stands for the character of its
number; `due` more bytes have to follow one, and the first `skip` characters belong to one. -/
def readTagCharacters (bracketed : Bool) (skip due : Nat) (p : Position) :
    List Char → Option (List Char × Cursor)
  | [] => if due = 0 then some ([], ⟨[], p⟩) else none
  | c :: rest =>
    if 0 < skip then readTagCharacters bracketed (skip - 1) due (p.after c) rest
    else if c == '%' then do
      let byte ← readByte? rest
      let due ← nextDue? due byte
      let (text, cursor) ← readTagCharacters bracketed 2 due (p.after c) rest
      return (Char.ofNat byte :: text, cursor)
    else if 0 < due then none
    else if isTagCharacter bracketed c then
      (readTagCharacters bracketed 0 0 (p.after c) rest).map fun (text, cursor) => (c :: text, cursor)
    else some ([], ⟨c :: rest, p⟩)

/-- The characters of a tag at a cursor. -/
def readAddress? (bracketed : Bool) (c : Cursor) : Option (List Char × Cursor) :=
  readTagCharacters bracketed 0 0 c.position c.rest

/-! ### Tags -/

/-- What looks like a handle: an exclamation mark, a name, and a mark again if there is one. -/
def readHandle (c : Cursor) : List Char × Cursor :=
  let (name, c) := c.next.takeWhile isNameCharacter
  if c.rest.head? == some '!' then ('!' :: name ++ ['!'], c.next) else ('!' :: name, c)

/-- Whether a handle has its second mark. -/
def isWholeHandle (handle : List Char) : Bool :=
  2 ≤ handle.length && handle.getLast? == some '!'

/-- A tag between angle brackets. -/
def readBracketedTag? (c : Cursor) : Option (Token × Cursor) := do
  let (suffix, c) ← readAddress? true (c.drop 2)
  if !suffix.isEmpty && c.rest.head? == some '>' then some (.tag [] suffix, c.next) else none

/-- A tag with a handle, or without one: the lone mark is a tag of its own. -/
def readShortTag? (c : Cursor) : Option (Token × Cursor) := do
  let (handle, c) := readHandle c
  let (address, c) ← readAddress? false c
  if isWholeHandle handle then
    if address.isEmpty then none else some (.tag handle address, c)
  else
    let suffix := handle.tail ++ address
    some (if suffix.isEmpty then .tag [] ['!'] else .tag ['!'] suffix, c)

/-- The tag at a cursor. -/
def readTag? (inFlow : Bool) (c : Cursor) : Option (Token × Cursor) := do
  let (tag, c) ← if c.next.rest.head? == some '<' then readBracketedTag? c else readShortTag? c
  if spaceAhead c.rest || (inFlow && c.rest.head? == some ',') then some (tag, c) else none

/-! ### Directives -/

/-- A part of a version: a number of nine digits at most. -/
def readVersionPart? (c : Cursor) : Option (Nat × Cursor) := do
  let (digits, c) := c.takeWhile Char.isDigit
  let n ← Text.readDigits? 10 digits
  if digits.length ≤ 9 then some (n, c) else none

/-- The version of a directive. -/
def readVersion? (c : Cursor) : Option (Token × Cursor) := do
  let (major, c) ← readVersionPart? (c.dropWhile isBlank)
  if c.rest.head? == some '.' then
    let (minor, c) ← readVersionPart? c.next
    some (.versionDirective major minor, c)
  else none

/-- The handle of a directive, and what it stands for. -/
def readTagDirective? (c : Cursor) : Option (Token × Cursor) := do
  let c := c.dropWhile isBlank
  if c.rest.head? != some '!' then none
  else
    let (handle, c) := readHandle c
    if !(isWholeHandle handle || handle == ['!']) || !(c.rest.head?.any isBlank) then none
    else
      let (start, c) ← readAddress? true (c.dropWhile isBlank)
      if !start.isEmpty && spaceAhead c.rest then some (.tagDirective handle start, c) else none

/-- The directive at a cursor, with its line. -/
def readDirective? (c : Cursor) : Option (Token × Cursor) := do
  let (name, c) := c.next.takeWhile isNameCharacter
  let (directive, c) ←
    if !spaceAhead c.rest then none
    else if name == "YAML".toList then readVersion? c
    else if name == "TAG".toList then readTagDirective? c
    else none
  return (directive, ← c.restOfLine?)

end Gamelan.Yaml
