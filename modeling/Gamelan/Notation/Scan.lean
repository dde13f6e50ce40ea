import Gamelan.Notation.Token
import Gamelan.Text.Alphanumeric
import Gamelan.Text.Bytes

namespace Gamelan.Notation

open Gamelan.Text

/-!
# Scanning

A source text becomes a list of tokens that ends with `eof`.  Scanning never fails: what is no
token of the notation is an `unknown` token, for the statements to recover from.

* `gap` — the blanks and the comment that stand before a token.
* `lexeme` — the token that a text starts with, and what is left of the text.
* `scan` — all tokens of a text.
* `gap_append`, `Lexeme.append_rest` — nothing of the text is lost between the tokens.
-/

/-! ### Between tokens -/

/-- Blanks end no line. -/
def isBlank (c : Char) : Bool :=
  c == ' ' || c == '\t' || c == '\r'

/-- Whether a character does not end the line. -/
def inLine (c : Char) : Bool :=
  c != '\n'

/-- The comment that a text starts with: two slashes and the rest of their line. -/
def comment : List Char → List Char
  | '/' :: '/' :: rest => '/' :: '/' :: rest.takeWhile inLine
  | _ => []

/-- What follows the comment that a text starts with. -/
def afterComment : List Char → List Char
  | '/' :: '/' :: rest => rest.dropWhile inLine
  | text => text

/-- The blanks and the comment before the next token. -/
def gap (text : List Char) : List Char :=
  text.takeWhile isBlank ++ comment (text.dropWhile isBlank)

/-- The text from the next token on. -/
def afterGap (text : List Char) : List Char :=
  afterComment (text.dropWhile isBlank)

/-- A comment and what follows it are the whole text. -/
theorem comment_append (text : List Char) : comment text ++ afterComment text = text := by
  unfold comment afterComment
  split <;> simp

/-- The gap and what follows it make up the text. -/
theorem gap_append (text : List Char) : gap text ++ afterGap text = text := by
  simp [gap, afterGap, List.append_assoc, comment_append]

/-- A gap only takes characters away. -/
theorem length_afterGap_le (text : List Char) : (afterGap text).length ≤ text.length := by
  have := congrArg List.length (gap_append text)
  simp only [List.length_append] at this
  omega

/-! ### One token -/

/-- A token taken off a text: its kind, its characters after the first, and the rest of the text. -/
structure Lexeme where
  kind : TokenKind
  tail : List Char
  rest : List Char
deriving Repr, DecidableEq

/-- Whether a character can start a name. -/
def isNameStart (c : Char) : Bool :=
  isAlphabetic c || c == '_'

/-- Whether a character can stand in a name. -/
def isNameChar (c : Char) : Bool :=
  isAlphanumeric c || c == '_' || c == '-'

/-- Whether a literal goes on with `c`: neither its delimiter nor the end of the line. -/
def Delimiter.goesOn (d : Delimiter) (c : Char) : Bool :=
  c != d.char && inLine c

/-- A literal after its opening delimiter.  Without a closing one on the same line, the rest of the
line is unknown. -/
def delimited (d : Delimiter) (text : List Char) : Lexeme :=
  let body := text.takeWhile d.goesOn
  match text.dropWhile d.goesOn with
  | [] => ⟨.unknown, body, []⟩
  | c :: rest => if c == d.char then ⟨d.kind, body ++ [c], rest⟩ else ⟨.unknown, body, c :: rest⟩

/-- A number after its first digit.  A point belongs to it only if a digit follows. -/
def number (text : List Char) : Lexeme :=
  let digits := text.takeWhile Char.isDigit
  match text.dropWhile Char.isDigit with
  | '.' :: d :: rest =>
    if d.isDigit then
      ⟨.number, digits ++ '.' :: d :: rest.takeWhile Char.isDigit, rest.dropWhile Char.isDigit⟩
    else ⟨.number, digits, '.' :: d :: rest⟩
  | rest => ⟨.number, digits, rest⟩

/-- A name after its first character. -/
def name (text : List Char) : Lexeme :=
  ⟨.name, text.takeWhile isNameChar, text.dropWhile isNameChar⟩

/-- The token that starts with `c`, where `text` follows `c`. -/
def lexeme (c : Char) (text : List Char) : Lexeme :=
  if c == '\n' then ⟨.newline, [], text⟩
  else if c == '[' then ⟨.openBracket, [], text⟩
  else if c == ']' then ⟨.closeBracket, [], text⟩
  else if c == '=' then ⟨.equals, [], text⟩
  else if c == '"' then delimited .quote text
  else if c == '|' then delimited .bar text
  else if c.isDigit then number text
  else if isNameStart c then name text
  else ⟨.unknown, [], text⟩

/-- What a delimiter encloses and what follows it are the whole text. -/
theorem delimited_append (d : Delimiter) (text : List Char) :
    (delimited d text).tail ++ (delimited d text).rest = text := by
  have h := List.takeWhile_append_dropWhile (p := d.goesOn) (l := text)
  unfold delimited
  split
  · next e => simpa [e] using h
  · next c rest e =>
    rw [e] at h
    split <;> simpa using h

/-- A number and what follows it are the whole text. -/
theorem number_append (text : List Char) : (number text).tail ++ (number text).rest = text := by
  have h := List.takeWhile_append_dropWhile (p := Char.isDigit) (l := text)
  unfold number
  split
  · next d rest e =>
    rw [e] at h
    split
    · simpa using h
    · simpa using h
  · exact h

/-- A token and the rest make up the text. -/
theorem lexeme_append (c : Char) (text : List Char) :
    (lexeme c text).tail ++ (lexeme c text).rest = text := by
  unfold lexeme
  repeat' split
  all_goals first
    | rfl
    | exact delimited_append _ _
    | exact number_append _
    | exact List.takeWhile_append_dropWhile

/-- A lexeme only takes characters away. -/
theorem length_lexeme_rest_le (c : Char) (text : List Char) :
    (lexeme c text).rest.length ≤ text.length := by
  have := congrArg List.length (lexeme_append c text)
  simp only [List.length_append] at this
  omega

/-! ### All tokens -/

/-- The tokens of a text that starts at byte `offset` of its source. -/
def scanFrom (offset : Nat) (text : List Char) : List Token :=
  let start := offset + byteLength (gap text)
  match _h : afterGap text with
  | [] => [⟨.eof, ⟨start, start⟩⟩]
  | c :: rest =>
    let found := lexeme c rest
    let stop := start + c.utf8Size + byteLength found.tail
    ⟨found.kind, ⟨start, stop⟩⟩ :: scanFrom stop found.rest
termination_by text.length
decreasing_by
  have h₁ := length_afterGap_le text
  have h₂ := length_lexeme_rest_le c rest
  simp only [_h, List.length_cons] at h₁
  omega

/-- The tokens of a source text. -/
def scan (source : List Char) : List Token :=
  scanFrom 0 source

end Gamelan.Notation
