namespace Gamelan.Notation

/-!
# Tokens of the notation

* `Span` — a range of byte offsets into the source.
* `Token` — a kind with the span of its text.
* `Delimiter` — the two signs that enclose literals.
-/

/-- A range of byte offsets: from `start` up to, and without, `stop`. -/
structure Span where
  start : Nat
  stop : Nat
deriving DecidableEq, Repr, Inhabited

/-- What a token is. -/
inductive TokenKind where
  /-- A letter or `_`, then letters, numbers, `_` and `-`. -/
  | name
  /-- Decimal digits, possibly with a fraction. -/
  | number
  /-- A text in double quotes. -/
  | string
  /-- The steps of a track, between bars. -/
  | code
  | openBracket
  | closeBracket
  | equals
  | newline
  /-- A stray character, or a literal that its line does not close. -/
  | unknown
  | eof
deriving DecidableEq, Repr, Inhabited

/-- A token and where it stands. -/
structure Token where
  kind : TokenKind
  span : Span
deriving DecidableEq, Repr, Inhabited

/-- A sign that opens and closes a literal. -/
inductive Delimiter where
  /-- The double quote of titles. -/
  | quote
  /-- The bar of tracks. -/
  | bar
deriving DecidableEq, Repr

namespace Delimiter

/-- The character of a delimiter. -/
def char : Delimiter → Char
  | quote => '"'
  | bar => '|'

/-- The kind of the literals that a delimiter encloses. -/
def kind : Delimiter → TokenKind
  | quote => .string
  | bar => .code

end Delimiter

end Gamelan.Notation
