import Gamelan.Yaml.Character
import Gamelan.Yaml.Scalar

namespace Gamelan.Yaml

/-!
# Strings in writing

A string is written without quotes where that reads back as the same string, else between single
quotes, and between double quotes where it needs escapes.

* `Quoting.ofText` — the quotes that a string needs.
* `writeString` — a string with its quotes.
-/

/-- The ways to write a string. -/
inductive Quoting where
  | plain
  | single
  | double
deriving DecidableEq, Repr

/-! ### Choosing quotes -/

/-- The characters that mean something else at the start of a scalar. -/
def indicators : List Char :=
  ['#', ',', '[', ']', '\x7b', '\x7d', '&', '*', '!', '|', '>', '\'', '"', '%', '@', '\u0060']

/-- Whether a text may start a plain scalar. -/
def startsPlain : List Char → Bool
  | [] => false
  | c :: rest =>
    !(indicators.contains c) && !((c == '?' || c == ':' || c == '-') && spaceAhead rest)

/-- Whether no key ends and no comment starts in a text that follows a character. -/
def staysPlain (before : Char) : List Char → Bool
  | [] => true
  | c :: rest =>
    !(c == ':' && spaceAhead rest) && !(c == '#' && (isBlank before || isBreak before))
      && staysPlain c rest

/-- Whether a text may stand as a plain scalar of one line. -/
def isPlain (text : List Char) : Bool :=
  startsPlain text && staysPlain (text.headD ' ') text.tail && !startsLikeMark text
    && !(text.any isBreak) && text.head? != some ' ' && text.getLast? != some ' '

/-- Whether a space and a line break stand side by side. -/
def hasSpaceAtBreak : List Char → Bool
  | c :: d :: rest => (c == ' ' && isBreak d) || (isBreak c && d == ' ') || hasSpaceAtBreak (d :: rest)
  | _ => false

/-- The quotes that a string needs. -/
def Quoting.ofText (text : List Char) : Quoting :=
  if !(text.all isPrintable) || hasSpaceAtBreak text then double
  else if readsAsString text && isPlain text then plain
  else single

/-! ### Writing -/

/-- The spaces in front of a line at an indentation, where there is one to start. -/
def lineStart (indent : Nat) (broken : Bool) : List Char :=
  if broken then List.replicate indent ' ' else []

/-- A text between single quotes: a quote is written twice, and what follows a break is indented.
`broken` tells whether a break was the last character. -/
def singleQuoted (indent : Nat) (broken : Bool) : List Char → List Char
  | [] => lineStart indent broken
  | c :: rest =>
    if isBreak c then c :: singleQuoted indent true rest
    else
      lineStart indent broken ++ (if c == '\'' then ['\'', '\''] else [c]) ++
        singleQuoted indent false rest

/-- The letters of short escapes. -/
def escapeLetter? (c : Char) : Option Char :=
  match c with
  | '\x00' => some '0'
  | '\x07' => some 'a'
  | '\x08' => some 'b'
  | '\t' => some 't'
  | '\n' => some 'n'
  | '\x0b' => some 'v'
  | '\x0c' => some 'f'
  | '\r' => some 'r'
  | '\x1b' => some 'e'
  | '"' => some '"'
  | '\\' => some '\\'
  | '\u0085' => some 'N'
  | '\u2028' => some 'L'
  | '\u2029' => some 'P'
  | _ => none

/-- The number of a character in base sixteen, in capitals. -/
def hexadecimal (width : Nat) (c : Char) : List Char :=
  ((Nat.toDigits 16 c.toNat).map Char.toUpper).leftpad width '0'

/-- A character as an escape. -/
def escape (c : Char) : List Char :=
  match escapeLetter? c with
  | some letter => ['\\', letter]
  | none =>
    if c.toNat ≤ 0xff then ['\\', 'x'] ++ hexadecimal 2 c
    else if c.toNat ≤ 0xffff then ['\\', 'u'] ++ hexadecimal 4 c
    else ['\\', 'U'] ++ hexadecimal 8 c

/-- A text between double quotes. -/
def doubleQuoted (text : List Char) : List Char :=
  text.flatMap fun c =>
    if isPrintable c && !isBreak c && c != '"' && c != '\\' then [c] else escape c

/-- A string in writing, its further lines at an indentation. -/
def writeString (indent : Nat) (s : String) : String :=
  let text := s.toList
  match Quoting.ofText text with
  | .plain => s
  | .single => String.ofList (['\''] ++ singleQuoted indent false text ++ ['\''])
  | .double => String.ofList (['"'] ++ doubleQuoted text ++ ['"'])

end Gamelan.Yaml
