import Gamelan.Yaml.Token.Block
import Gamelan.Yaml.Token.Name
import Gamelan.Yaml.Token.Plain

namespace Gamelan.Yaml

/-!
# From a text to its tokens

What stands before a colon turns out to be a key only when the colon is met; so the place of everything
that may be a key is kept, and the token of the key is put there later.

* `Scan` — the state of the scan.
* `Scan.step?` — the next token.
* `tokens?` — the tokens of a text; `none` if it is not well formed.
-/

/-- The place of something that may be a key. -/
structure PossibleKey where
  /-- Whether it must be one: nothing else may stand at this indentation. -/
  required : Bool
  position : Position
  /-- The number of tokens before it. -/
  index : Nat
deriving Repr

/-- The state of a scan. -/
structure Scan where
  cursor : Cursor
  tokens : Array Token := #[]
  /-- The indentations of the open blocks, the innermost first. -/
  indents : List Nat := []
  /-- What may be a key in the innermost collection. -/
  possibleKey : Option PossibleKey := none
  /-- What may be a key outside of the flow collections that are open. -/
  outerKeys : List (Option PossibleKey) := []
  /-- Whether a key may start here. -/
  keyAllowed : Bool := true

namespace Scan

/-! ### Blanks -/

/-- Pass over blanks, comments and line breaks, from a place outside or inside a comment.  In a block
a line break allows a key, and a tab where a key may start is no blank. -/
def passBlanks (inFlow : Bool) (keyAllowed inComment : Bool) (p : Position) :
    List Char → Bool × Cursor
  | [] => (keyAllowed, ⟨[], p⟩)
  | c :: rest =>
    if isBreak c then passBlanks inFlow (keyAllowed || !inFlow) false (p.after c) rest
    else if inComment || c == '#' then passBlanks inFlow keyAllowed true (p.after c) rest
    else if c == ' ' || (c == '\t' && (inFlow || !keyAllowed))
        || (c == byteOrderMark && p.column == 0) then
      passBlanks inFlow keyAllowed false (p.after c) rest
    else (keyAllowed, ⟨c :: rest, p⟩)

/-! ### Parts of a step -/

/-- Whether a flow collection is open. -/
def inFlow (s : Scan) : Bool :=
  !s.outerKeys.isEmpty

def column (s : Scan) : Nat :=
  s.cursor.position.column

def emit (t : Token) (s : Scan) : Scan :=
  { s with tokens := s.tokens.push t }

/-- Put a token behind the first `index` ones. -/
def insert (index : Nat) (t : Token) (s : Scan) : Scan :=
  { s with tokens := (s.tokens.extract 0 index).push t ++ s.tokens.extract index s.tokens.size }

/-- The state at the first token ahead. -/
def atToken (s : Scan) : Scan :=
  let (keyAllowed, cursor) :=
    passBlanks s.inFlow s.keyAllowed false s.cursor.position s.cursor.rest
  { s with cursor := cursor, keyAllowed := keyAllowed }

/-- End the blocks whose indentation is not given any more. -/
def endBlocks (ended : Nat → Bool) (s : Scan) : Scan :=
  if s.inFlow then s
  else
    let closed := s.indents.takeWhile ended
    { s with
      indents := s.indents.drop closed.length
      tokens := s.tokens ++ Array.replicate closed.length Token.blockEnd }

/-- Start a block at a column, behind the first `index` tokens, unless it is open. -/
def startBlock (column index : Nat) (t : Token) (s : Scan) : Scan :=
  if s.inFlow || s.indents.head?.any (column ≤ ·) then s
  else { s.insert index t with indents := column :: s.indents }

/-- Give up on what may be a key. -/
def dropKey? (s : Scan) : Option Scan :=
  if s.possibleKey.any (·.required) then none else some { s with possibleKey := none }

/-- Keep the place of what may be a key, where one may start. -/
def keepKey? (s : Scan) : Option Scan := do
  if s.keyAllowed then
    let required := !s.inFlow && s.indents.head? == some s.column
    let s ← s.dropKey?
    return { s with possibleKey := some ⟨required, s.cursor.position, s.tokens.size⟩ }
  else some s

/-- A mark of some characters. -/
def mark (length : Nat) (keyAllowed : Bool) (t : Token) (s : Scan) : Scan :=
  { s.emit t with cursor := s.cursor.drop length, keyAllowed := keyAllowed }

/-- A token that has been read up to a cursor. -/
def emitTo (t : Token) (cursor : Cursor) (s : Scan) : Scan :=
  { s.emit t with cursor := cursor }

/-! ### Kinds of tokens -/

/-- A mark between documents, or a directive: all blocks end before it. -/
def betweenDocuments? (s : Scan) : Option Scan := do
  let s ← (s.endBlocks fun _ => true).dropKey?
  return { s with keyAllowed := false }

/-- The start of a flow collection. -/
def openFlow? (t : Token) (s : Scan) : Option Scan := do
  let s ← s.keepKey?
  return { s.mark 1 true t with outerKeys := s.possibleKey :: s.outerKeys, possibleKey := none }

/-- The end of a flow collection; outside of one the mark has no effect of its own. -/
def closeFlow? (t : Token) (s : Scan) : Option Scan := do
  let s ← s.dropKey?
  let s := s.mark 1 false t
  match s.outerKeys with
  | [] => some s
  | key :: outer => some { s with outerKeys := outer, possibleKey := key }

/-- A dash: an entry of a block sequence. -/
def blockEntry? (s : Scan) : Option Scan := do
  if !s.inFlow && !s.keyAllowed then none
  else
    let s ← (s.startBlock s.column s.tokens.size .blockSequence).dropKey?
    return s.mark 1 true .blockEntry

/-- A question mark: a key. -/
def explicitKey? (s : Scan) : Option Scan := do
  if !s.inFlow && !s.keyAllowed then none
  else
    let s ← (s.startBlock s.column s.tokens.size .blockMapping).dropKey?
    return s.mark 1 (!s.inFlow) .key

/-- Whether something may still be a key: it stands on the same line, and not too many bytes away. -/
def stillPossible (s : Scan) (key : PossibleKey) : Bool :=
  key.position.line == s.cursor.position.line
    && s.cursor.position.index ≤ key.position.index + 1024

/-- A colon after something that is a key by it. -/
def valueOf (key : PossibleKey) (s : Scan) : Scan :=
  let s := (s.insert key.index .key).startBlock key.position.column key.index .blockMapping
  { s.mark 1 false .value with possibleKey := none }

/-- A colon after nothing that is a key. -/
def valueAlone? (s : Scan) : Option Scan :=
  if s.inFlow then some (s.mark 1 false .value)
  else if s.keyAllowed then
    some ((s.startBlock s.column s.tokens.size .blockMapping).mark 1 true .value)
  else none

/-- A colon: a value. -/
def value? (s : Scan) : Option Scan :=
  match s.possibleKey with
  | none => s.valueAlone?
  | some key =>
    if s.stillPossible key then some (s.valueOf key)
    else if key.required then none
    else { s with possibleKey := none }.valueAlone?

/-- An anchor or an alias. -/
def anchor? (token : List Char → Token) (s : Scan) : Option Scan := do
  let s ← s.keepKey?
  let (name, cursor) ← readAnchorName? s.cursor.next
  return { s.emitTo (token name) cursor with keyAllowed := false }

def tag? (s : Scan) : Option Scan := do
  let s ← s.keepKey?
  let (tag, cursor) ← readTag? s.inFlow s.cursor
  return { s.emitTo tag cursor with keyAllowed := false }

/-- A block scalar: a key may follow it, for it takes its lines to their ends. -/
def blockScalar? (style : Style) (s : Scan) : Option Scan := do
  let s ← s.dropKey?
  let (text, cursor) ← readBlock? (style == .literal) s.indents.head? s.cursor.next
  return { s.emitTo (.scalar style text) cursor with keyAllowed := true }

def singleQuoted? (s : Scan) : Option Scan := do
  let s ← s.keepKey?
  let start := s.cursor.next
  let (text, cursor) ← readSingleQuoted .empty start.position start.rest
  return { s.emitTo (.scalar .singleQuoted text) cursor with keyAllowed := false }

def doubleQuoted? (s : Scan) : Option Scan := do
  let s ← s.keepKey?
  let start := s.cursor.next
  let (text, cursor) ← readDoubleQuoted 0 .empty start.position start.rest
  return { s.emitTo (.scalar .doubleQuoted text) cursor with keyAllowed := false }

/-- A plain scalar: a key may follow it if the line has ended. -/
def plain? (s : Scan) : Option Scan := do
  let s ← s.keepKey?
  let surroundings : Surroundings := ⟨s.inFlow, s.indents.head?.elim 0 (· + 1)⟩
  let ((text, cursor), broken) ← readPlain surroundings .empty s.cursor.position s.cursor.rest
  return { s.emitTo (.scalar .plain text) cursor with keyAllowed := broken }

/-! ### Steps -/

/-- The characters that start no plain scalar. -/
def tokenStarts : List Char :=
  ['-', '?', ':', ',', '[', ']', '\x7b', '\x7d', '#', '&', '*', '!', '|', '>', '\'', '"', '%', '@',
   '\u0060']

/-- Whether a plain scalar starts with a character before a text. -/
def startsPlainToken (inFlow : Bool) (c : Char) (rest : List Char) : Bool :=
  (!isBlank c && !isBreak c && !tokenStarts.contains c)
    || (c == '-' && !rest.head?.any isBlank)
    || (!inFlow && (c == '?' || c == ':') && !spaceAhead rest)

/-- The state after the token that starts with a character before a text. -/
def token? (c : Char) (rest : List Char) (s : Scan) : Option Scan :=
  let lineStart := s.column == 0
  let separated := s.inFlow || spaceAhead rest
  if lineStart && c == '%' then do
    let s ← s.betweenDocuments?
    let (directive, cursor) ← readDirective? s.cursor
    return s.emitTo directive cursor
  else if lineStart && startsWithMark (c :: rest) then
    s.betweenDocuments?.map (·.mark 3 false (if c == '-' then .documentStart else .documentEnd))
  else if c == '[' then s.openFlow? .flowSequence
  else if c == '\x7b' then s.openFlow? .flowMapping
  else if c == ']' then s.closeFlow? .flowSequenceEnd
  else if c == '\x7d' then s.closeFlow? .flowMappingEnd
  else if c == ',' then s.dropKey?.map (·.mark 1 true .flowEntry)
  else if c == '-' && spaceAhead rest then s.blockEntry?
  else if c == '?' && separated then s.explicitKey?
  else if c == ':' && separated then s.value?
  else if c == '*' then s.anchor? .reference
  else if c == '&' then s.anchor? .anchor
  else if c == '!' then s.tag?
  else if c == '|' && !s.inFlow then s.blockScalar? .literal
  else if c == '>' && !s.inFlow then s.blockScalar? .folded
  else if c == '\'' then s.singleQuoted?
  else if c == '"' then s.doubleQuoted?
  else if startsPlainToken s.inFlow c rest then s.plain?
  else none

/-- The state after the next token; at the end of the text all blocks end. -/
def step? (s : Scan) : Option (Scan × Bool) :=
  let s := s.atToken
  let s := s.endBlocks (s.column < ·)
  match s.cursor.rest with
  | [] => ((s.endBlocks fun _ => true).dropKey?).map (·, true)
  | c :: rest => (s.token? c rest).map (·, false)

/-- The tokens that some steps find up to the end of the text. -/
def run? : Nat → Scan → Option (List Token)
  | 0, _ => none
  | steps + 1, s =>
    match s.step? with
    | none => none
    | some (s, true) => some s.tokens.toList
    | some (s, false) => run? steps s

end Scan

/-! ### Texts -/

/-- A text in which all breaks of a line that have other spellings are new lines. -/
def unifyBreaks : List Char → List Char
  | [] => []
  | '\r' :: '\n' :: rest => '\n' :: unifyBreaks rest
  | c :: rest => (if c == '\r' || c == '\u0085' then '\n' else c) :: unifyBreaks rest

/-- The tokens of a text.  A step takes a character at least, so there are no more steps than
characters, and one for the end. -/
def tokens? (text : List Char) : Option (List Token) :=
  if text.all isAllowed then
    let text := unifyBreaks text
    Scan.run? (text.length + 1) { cursor := ⟨text, {}⟩ }
  else none

end Gamelan.Yaml
