import Gamelan.Notation.Scan
import Gamelan.Notation.Syntax

namespace Gamelan.Notation

/-!
# Statements

A list of tokens becomes a tree of statements.

    program   ::= (statement | newline)*
    statement ::= name '=' string?
                | name code
                | '[' string? number? ']'

Parsing never fails: a line, or the rest of one, that fits no statement becomes an error node, and
what a header holds beside its title and tempo becomes an error child.  Only the tokens before the
first `eof` count.

* `statement` — the statement that a token starts, and the tokens after it.
* `statements` — all statements of a list of tokens.
* `parseTokens`, `parseTree` — the tree of a list of tokens, and of a source text.
-/

/-- The kind of the leaf that a token becomes. -/
def leafKind : TokenKind → NodeKind
  | .name => .name
  | .number => .number
  | .string => .string
  | .code => .code
  | _ => .error

/-- A token as a leaf. -/
def Token.toLeaf (token : Token) : Node :=
  .leaf (leafKind token.kind) token.span

/-- The leaf of the first token if it is of the given kind, and the tokens after it. -/
def optional (kind : TokenKind) : List Token → List Node × List Token
  | [] => ([], [])
  | token :: rest => if token.kind == kind then ([token.toLeaf], rest) else ([], token :: rest)

/-- The error node of the tokens that start with `first` and go on with `more`. -/
def errorNode (first : Token) (more : List Token) : Node :=
  .leaf .error ⟨first.span.start, (more.getLast?.getD first).span.stop⟩

/-- Whether a token is on the line that goes on. -/
def Token.inLine (token : Token) : Bool :=
  token.kind != .newline

/-- Whether a token is before the end of its header. -/
def Token.inHeader (token : Token) : Bool :=
  token.kind != .closeBracket && token.inLine

/-- Tokens that fit no statement, up to the end of the line. -/
def recover (first : Token) (tokens : List Token) : Node × List Token :=
  (errorNode first (tokens.takeWhile Token.inLine), tokens.dropWhile Token.inLine)

/-- Metadata after its equals sign. -/
def metadata (label : Token) (tokens : List Token) : Node × List Token :=
  let (value, rest) := optional .string tokens
  (.branch .metadata (label.toLeaf :: value) ⟨label.span.start, label.span.start⟩, rest)

/-- The children of a header: its title, its tempo and, as one error, anything else. -/
def headerParts (tokens : List Token) : List Node × List Token :=
  let (title, afterTitle) := optional .string tokens
  let (tempo, afterTempo) := optional .number afterTitle
  let stray :=
    match afterTempo.takeWhile Token.inHeader with
    | [] => []
    | first :: more => [errorNode first more]
  (title ++ tempo ++ stray, afterTempo.dropWhile Token.inHeader)

/-- A header after its opening bracket.  It spans its brackets, or ends with its last part if it is
not closed. -/
def header (opening : Token) (tokens : List Token) : Node × List Token :=
  match headerParts tokens with
  | (parts, []) => (headerNode parts (lastStop parts), [])
  | (parts, token :: rest) =>
    if token.kind == .closeBracket then (headerNode parts token.span.stop, rest)
    else (headerNode parts (lastStop parts), token :: rest)
where
  /-- Where the last part ends, or the opening bracket. -/
  lastStop (parts : List Node) : Nat :=
    (parts.getLast?.map (·.span.stop)).getD opening.span.stop
  /-- The header that ends at `stop`. -/
  headerNode (parts : List Node) (stop : Nat) : Node :=
    .mk .header ⟨opening.span.start, stop⟩ parts

/-- A track: its label and its code. -/
def track (label code : Token) : Node :=
  .branch .track [label.toLeaf, code.toLeaf] ⟨label.span.start, label.span.start⟩

/-- What follows a name on its line. -/
def named (label : Token) : List Token → Node × List Token
  | [] => recover label []
  | next :: rest =>
    match next.kind with
    | .equals => metadata label rest
    | .code => (track label next, rest)
    | _ => recover label (next :: rest)

/-- The statement that starts with `first`, and the tokens after it. -/
def statement (first : Token) (tokens : List Token) : Node × List Token :=
  match first.kind with
  | .name => named first tokens
  | .openBracket => header first tokens
  | _ => recover first tokens

/-! ### Progress -/

/-- An optional part gives no tokens back. -/
theorem length_optional_le (kind : TokenKind) (tokens : List Token) :
    (optional kind tokens).2.length ≤ tokens.length := by
  cases tokens with
  | nil => simp [optional]
  | cons token rest => by_cases h : token.kind = kind <;> simp [optional, h]

/-- The parts of a header give no tokens back. -/
theorem length_headerParts_le (tokens : List Token) :
    (headerParts tokens).2.length ≤ tokens.length :=
  Nat.le_trans (List.dropWhile_sublist _).length_le
    (Nat.le_trans (length_optional_le _ _) (length_optional_le _ _))

/-- No statement gives tokens back. -/
theorem length_statement_le (first : Token) (tokens : List Token) :
    (statement first tokens).2.length ≤ tokens.length := by
  unfold statement
  split
  · cases tokens with
    | nil => simp [named, recover]
    | cons next rest =>
      simp only [named]
      split
      · have := length_optional_le .string rest
        simp only [metadata, List.length_cons]
        omega
      · simp
      · exact (List.dropWhile_sublist _).length_le
  · have h := length_headerParts_le tokens
    unfold header
    split
    · simp
    · next parts token rest e =>
      rw [e] at h
      simp only [List.length_cons] at h
      split <;> simp only [List.length_cons] <;> omega
  · exact (List.dropWhile_sublist _).length_le

/-! ### All statements -/

/-- The statements of a list of tokens without `eof`. -/
def statements : List Token → List Node
  | [] => []
  | token :: rest =>
    if token.kind == .newline then statements rest
    else
      let found := statement token rest
      found.1 :: statements found.2
termination_by tokens => tokens.length
decreasing_by
  · simp
  · have := length_statement_le token rest
    simp only [List.length_cons]
    omega

/-- Whether a token comes before the end of the source. -/
def Token.inSource (token : Token) : Bool :=
  token.kind != .eof

/-- The tree of a list of tokens. -/
def parseTokens (tokens : List Token) : Node :=
  .branch .program (statements (tokens.takeWhile Token.inSource))
    ⟨0, (tokens.getLast?.map (·.span.stop)).getD 0⟩

/-- The tree of a source text. -/
def parseTree (source : List Char) : Node :=
  parseTokens (scan source)

end Gamelan.Notation
