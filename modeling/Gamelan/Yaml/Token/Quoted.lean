import Gamelan.Text.Decimal
import Gamelan.Yaml.Cursor
import Gamelan.Yaml.Token.Folding

namespace Gamelan.Yaml

/-!
# Quoted scalars

* `readSingleQuoted` — between single quotes, where a quote is written twice.
* `readDoubleQuoted` — between double quotes, where a backslash starts an escape.
-/

/-- What has been read so far, in front of what follows. -/
def prepend (start : List Char) (read : Option (List Char × Cursor)) : Option (List Char × Cursor) :=
  read.map fun (text, c) => (start ++ text, c)

/-- The text up to a single quote, after a gap. -/
def readSingleQuoted (gap : Gap) (p : Position) : List Char → Option (List Char × Cursor)
  | [] => none
  | c :: rest =>
    if p.column == 0 && startsWithMark (c :: rest) then none
    else if isBlank c || isBreak c then readSingleQuoted (gap.add c) (p.after c) rest
    else if c == '\'' then
      match rest with
      | '\'' :: rest =>
        prepend (gap.text ++ ['\'']) (readSingleQuoted .empty ((p.after c).after c) rest)
      | _ => some (gap.text, ⟨rest, p.after c⟩)
    else prepend (gap.text ++ [c]) (readSingleQuoted .empty (p.after c) rest)

/-! ### Escapes -/

/-- The character that a letter stands for after a backslash. -/
def escapedCharacter? (letter : Char) : Option Char :=
  match letter with
  | '0' => some '\x00'
  | 'a' => some '\x07'
  | 'b' => some '\x08'
  | 't' | '\t' => some '\t'
  | 'n' => some '\n'
  | 'v' => some '\x0b'
  | 'f' => some '\x0c'
  | 'r' => some '\r'
  | 'e' => some '\x1b'
  | ' ' => some ' '
  | '"' => some '"'
  | '/' => some '/'
  | '\\' => some '\\'
  | 'N' => some '\u0085'
  | '_' => some '\u00a0'
  | 'L' => some '\u2028'
  | 'P' => some '\u2029'
  | _ => none

/-- The character whose number starts a text, in digits of base sixteen. -/
def numberedCharacter? (width : Nat) (text : List Char) : Option Char :=
  let digits := text.take width
  if digits.length < width then none
  else
    match Text.readDigits? 16 digits with
    | some n => if n.isValidChar then some (Char.ofNat n) else none
    | none => none

/-- The character that an escape stands for, and the length of the escape without its backslash. -/
def escape? : List Char → Option (Char × Nat)
  | [] => none
  | 'x' :: rest => (numberedCharacter? 2 rest).map (·, 3)
  | 'u' :: rest => (numberedCharacter? 4 rest).map (·, 5)
  | 'U' :: rest => (numberedCharacter? 8 rest).map (·, 9)
  | letter :: _ => (escapedCharacter? letter).map (·, 1)

/-- The text up to a double quote, after a gap; the first `skip` characters belong to an escape. -/
def readDoubleQuoted (skip : Nat) (gap : Gap) (p : Position) :
    List Char → Option (List Char × Cursor)
  | [] => none
  | c :: rest =>
    if 0 < skip then readDoubleQuoted (skip - 1) gap (p.after c) rest
    else if p.column == 0 && startsWithMark (c :: rest) then none
    else if isBlank c || isBreak c then readDoubleQuoted 0 (gap.add c) (p.after c) rest
    else if c == '"' then some (gap.text, ⟨rest, p.after c⟩)
    else if c != '\\' then prepend (gap.text ++ [c]) (readDoubleQuoted 0 .empty (p.after c) rest)
    else if rest.head?.any isBreak then
      prepend gap.text (readDoubleQuoted 1 (.breaks none []) (p.after c) rest)
    else
      match escape? rest with
      | some (d, length) =>
        prepend (gap.text ++ [d]) (readDoubleQuoted length .empty (p.after c) rest)
      | none => none

end Gamelan.Yaml
