import Gamelan.Notation.Reading

namespace Gamelan.Notation

open Gamelan.Text

/-!
# Lines

Nothing in the notation reaches past the end of its line.  A text with a line break in it has the
tokens of both parts and the break between them, and the statements of both parts.

* `tokensFrom` — the tokens of a text, without the `eof` behind them.
* `tokens_induction` — a text token by token.
* `tokensFrom_append_newline`, `tokensFrom_add` — the tokens of two parts, and of a part elsewhere.
* `Node.moved`, `Node.shift` — a tree that stands somewhere else, or some bytes further on.
* `statements_append_newline`, `statements_map_moved`, `statements_map_shift` — the same for
  statements.
-/

/-! ### Up to a stop -/

section
variable {α : Type} {p : α → Bool} {stop : α}

/-- A prefix of characters that go on ends before a stop. -/
theorem takeWhile_append_stop (hstop : p stop = false) (text more : List α) :
    (text ++ stop :: more).takeWhile p = text.takeWhile p := by
  induction text with
  | nil => simp [hstop]
  | cons c text ih => cases hc : p c <;> simp [hc, ih]

/-- What follows a run is the rest of the text, the stop and all that is behind it. -/
theorem dropWhile_append_stop (hstop : p stop = false) (text more : List α) :
    (text ++ stop :: more).dropWhile p = text.dropWhile p ++ stop :: more := by
  induction text with
  | nil => simp [hstop]
  | cons c text ih => cases hc : p c <;> simp [hc, ih]

end

/-! ### Tokens of a line -/

/-- A comment ends with its line. -/
theorem comment_append_newline (text more : List Char) :
    comment (text ++ '\n' :: more) = comment text ∧
      afterComment (text ++ '\n' :: more) = afterComment text ++ '\n' :: more := by
  cases text with
  | nil => exact ⟨rfl, rfl⟩
  | cons c text =>
    by_cases hc : c = '/'
    · subst hc
      cases text with
      | nil => exact ⟨rfl, rfl⟩  -- A second slash would be on another line.
      | cons d text =>
        have hstop : inLine '\n' = false := rfl
        by_cases hd : d = '/'
        · subst hd
          simp [comment, afterComment, takeWhile_append_stop hstop, dropWhile_append_stop hstop]
        · simp [comment, afterComment, hd]
    · simp [comment, afterComment, hc]

/-- A gap ends with its line. -/
theorem gap_append_newline (text more : List Char) : gap (text ++ '\n' :: more) = gap text := by
  have hblank : isBlank '\n' = false := rfl
  rw [gap, takeWhile_append_stop hblank, dropWhile_append_stop hblank,
    (comment_append_newline _ _).1]
  rfl

/-- What follows a gap goes on beyond the line. -/
theorem afterGap_append_newline (text more : List Char) :
    afterGap (text ++ '\n' :: more) = afterGap text ++ '\n' :: more := by
  have hblank : isBlank '\n' = false := rfl
  rw [afterGap, dropWhile_append_stop hblank, (comment_append_newline _ _).2]
  rfl

/-- A lexeme with more text behind it. -/
def Lexeme.followedBy (l : Lexeme) (more : List Char) : Lexeme :=
  { l with rest := l.rest ++ more }

/-- What a delimiter encloses ends with its line. -/
theorem delimited_append_newline (d : Delimiter) (text more : List Char) :
    delimited d (text ++ '\n' :: more) = (delimited d text).followedBy ('\n' :: more) := by
  have hstop : d.goesOn '\n' = false := by cases d <;> rfl
  have hchar : ('\n' == d.char) = false := by cases d <;> rfl
  unfold delimited
  rw [takeWhile_append_stop hstop, dropWhile_append_stop hstop]
  -- A literal that is not closed ends with its line.
  cases text.dropWhile d.goesOn with
  | nil => simp [hchar, Lexeme.followedBy]
  | cons c rest => cases hc : c == d.char <;> simp [hc, Lexeme.followedBy]

/-- A number ends before what is neither a digit nor a point. -/
theorem number_append_stop {stop : Char} (hstop : stop.isDigit = false) (hpoint : stop ≠ '.')
    (text more : List Char) :
    number (text ++ stop :: more) = (number text).followedBy (stop :: more) := by
  unfold number
  rw [takeWhile_append_stop hstop, dropWhile_append_stop hstop]
  cases text.dropWhile Char.isDigit with
  | nil => simp [hpoint, Lexeme.followedBy]
  | cons c rest =>
    by_cases hc : c = '.'
    · subst hc
      cases rest with
      | nil => simp [hstop, Lexeme.followedBy]  -- A point with no digit behind it.
      | cons d rest =>
        cases hd : d.isDigit with
        | false => simp [hd, Lexeme.followedBy]
        | true =>
          simp [hd, Lexeme.followedBy, takeWhile_append_stop hstop, dropWhile_append_stop hstop]
    · simp [hc, Lexeme.followedBy]

/-- A name ends before a character that no name can have. -/
theorem name_append_stop {stop : Char} (hstop : isNameChar stop = false) (text more : List Char) :
    name (text ++ stop :: more) = (name text).followedBy (stop :: more) := by
  rw [name, takeWhile_append_stop hstop, dropWhile_append_stop hstop]
  rfl

/-- **A token ends with its line at the latest.** -/
theorem lexeme_append_newline (c : Char) (text more : List Char) :
    lexeme c (text ++ '\n' :: more) = (lexeme c text).followedBy ('\n' :: more) := by
  unfold lexeme
  repeat' split
  all_goals first
    | rfl
    | exact delimited_append_newline _ _ _
    | exact number_append_stop rfl (by decide) _ _
    | exact name_append_stop rfl _ _

/-! ### Tokens of a text -/

/-- The tokens of a text that starts at byte `offset` of its source, without the `eof` behind them. -/
def tokensFrom (offset : Nat) (text : List Char) : List Token :=
  (scanFrom offset text).takeWhile Token.inSource

/-- No lexeme is the end of the source. -/
theorem kind_lexeme_ne_eof (c : Char) (text : List Char) : (lexeme c text).kind ≠ .eof := by
  have hdelimited : ∀ d : Delimiter, (delimited d text).kind ≠ .eof := by
    intro d
    unfold delimited
    split
    · simp
    · split
      · cases d <;> simp [Delimiter.kind]
      · simp
  have hnumber : (number text).kind ≠ .eof := by
    unfold number
    split
    · split <;> simp
    · simp
  unfold lexeme
  repeat' split
  all_goals first
    | exact hdelimited _
    | exact hnumber
    | simp [name]

/-- A text with nothing but a gap has no tokens. -/
theorem tokensFrom_of_nil (offset : Nat) {text : List Char} (h : afterGap text = []) :
    tokensFrom offset text = [] := by
  rw [tokensFrom, scanFrom]
  split
  · rfl
  · next c rest hcons =>
    rw [h] at hcons
    cases hcons

/-- The first token of a text comes behind its gap, and the others follow it. -/
theorem tokensFrom_of_cons (offset : Nat) {text rest : List Char} {c : Char}
    (h : afterGap text = c :: rest) :
    let start := offset + byteLength (gap text)
    let stop := start + c.utf8Size + byteLength (lexeme c rest).tail
    tokensFrom offset text =
      ⟨(lexeme c rest).kind, ⟨start, stop⟩⟩ :: tokensFrom stop (lexeme c rest).rest := by
  intro start stop
  rw [tokensFrom, scanFrom]
  split
  · next hnil =>
    rw [h] at hnil
    cases hnil
  · next c' rest' hcons =>
    rw [h] at hcons
    cases hcons
    exact List.takeWhile_cons_of_pos (by simpa [Token.inSource] using kind_lexeme_ne_eof c rest)

/-- A text is its gap, its first token and the rest. -/
theorem append_of_cons {text rest : List Char} {c : Char} (h : afterGap text = c :: rest) :
    gap text ++ (c :: (lexeme c rest).tail) ++ (lexeme c rest).rest = text := by
  rw [List.append_assoc, List.cons_append, lexeme_append, ← h, gap_append]

/-- The bytes of a text are those of its first gap and of its first lexeme, and the rest. -/
theorem byteLength_of_cons {text rest : List Char} {c : Char} (h : afterGap text = c :: rest) :
    byteLength text = byteLength (gap text) + c.utf8Size + byteLength (lexeme c rest).tail +
      byteLength (lexeme c rest).rest := by
  have htext := congrArg byteLength (append_of_cons h)
  rw [byteLength_append, byteLength_append, byteLength_cons, ← Nat.add_assoc] at htext
  exact htext.symm

/-- What holds of a text without tokens, and of a text if it holds behind its first token, holds of
every text. -/
theorem tokens_induction {P : List Char → Prop} (nil : ∀ text, afterGap text = [] → P text)
    (cons : ∀ text c rest, afterGap text = c :: rest → P (lexeme c rest).rest → P text)
    (text : List Char) : P text := by
  induction hlength : text.length using Nat.strongRecOn generalizing text with
  | _ length ih =>
    cases htext : afterGap text with
    | nil => exact nil text htext
    | cons c rest =>
      refine cons text c rest htext (ih _ ?_ _ rfl)
      have hgap := length_afterGap_le text
      have hlexeme := length_lexeme_rest_le c rest
      rw [htext, List.length_cons] at hgap
      omega

/-- What a line break makes of a text: its token stands at byte `offset`. -/
def newlineAt (offset : Nat) : Token :=
  ⟨.newline, ⟨offset, offset + 1⟩⟩

/-- **A line break parts the tokens.**  Those before it are the tokens of the text before it, and those
behind it are the tokens of the text behind it. -/
theorem tokensFrom_append_newline (offset : Nat) (text more : List Char) :
    tokensFrom offset (text ++ '\n' :: more) =
      tokensFrom offset text ++ newlineAt (offset + byteLength text) ::
        tokensFrom (offset + byteLength text + 1) more := by
  -- The induction takes the tokens off the text before the break, one by one.
  induction text using tokens_induction generalizing offset with
  | nil text htext =>
    have hafter := afterGap_append_newline text more
    rw [htext, List.nil_append] at hafter
    have hgap : gap text = text := by
      have := gap_append text
      rwa [htext, List.append_nil] at this
    rw [tokensFrom_of_nil offset htext, tokensFrom_of_cons offset hafter, gap_append_newline, hgap]
    rfl
  | cons text c rest htext ih =>
    have hafter := afterGap_append_newline text more
    rw [htext, List.cons_append] at hafter
    rw [tokensFrom_of_cons offset hafter, tokensFrom_of_cons offset htext, gap_append_newline,
      lexeme_append_newline]
    simp only [Lexeme.followedBy, List.cons_append]
    rw [ih, byteLength_of_cons htext]
    simp only [Nat.add_assoc]

/-! ### Somewhere else -/

/-- A range whose two ends stand somewhere else. -/
def Span.moved (f g : Nat → Nat) (s : Span) : Span :=
  ⟨f s.start, g s.stop⟩

/-- A token whose two ends stand somewhere else. -/
def Token.moved (f g : Nat → Nat) (t : Token) : Token :=
  ⟨t.kind, t.span.moved f g⟩

mutual

/-- A tree whose spans have their two ends somewhere else. -/
def Node.moved (f g : Nat → Nat) : Node → Node
  | mk kind span children => mk kind (span.moved f g) (movedAll f g children)

/-- Some trees, all of them moved alike. -/
def Node.movedAll (f g : Nat → Nat) : List Node → List Node
  | [] => []
  | node :: rest => node.moved f g :: movedAll f g rest

end

section
variable (f g : Nat → Nat)

/-- The start moves by the first map. -/
@[simp] theorem Span.start_moved (s : Span) : (s.moved f g).start = f s.start := rfl

/-- The stop moves by the second one. -/
@[simp] theorem Span.stop_moved (s : Span) : (s.moved f g).stop = g s.stop := rfl

@[simp] theorem Token.kind_moved (t : Token) : (t.moved f g).kind = t.kind := rfl

@[simp] theorem Token.span_moved (t : Token) : (t.moved f g).span = t.span.moved f g := rfl

namespace Node

theorem movedAll_eq_map (nodes : List Node) : movedAll f g nodes = nodes.map (moved f g) := by
  induction nodes with
  | nil => rfl
  | cons node rest ih => rw [movedAll, ih, List.map_cons]

/-- A node keeps its kind. -/
@[simp] theorem kind_moved (node : Node) : (node.moved f g).kind = node.kind := by
  cases node
  rfl

/-- A node moves with its span. -/
@[simp] theorem span_moved (node : Node) : (node.moved f g).span = node.span.moved f g := by
  cases node
  rfl

/-- The children of a node move with it. -/
@[simp] theorem children_moved (node : Node) :
    (node.moved f g).children = node.children.map (moved f g) := by
  cases node
  exact movedAll_eq_map f g _

@[simp] theorem moved_leaf (kind : NodeKind) (span : Span) :
    (leaf kind span).moved f g = leaf kind (span.moved f g) := rfl

@[simp] theorem moved_mk (kind : NodeKind) (span : Span) (children : List Node) :
    (mk kind span children).moved f g = mk kind (span.moved f g) (children.map (moved f g)) := by
  rw [moved, movedAll_eq_map]

/-- A node with children stands where they stand. -/
theorem branch_cons (kind : NodeKind) (first : Node) (rest : List Node) (fallback : Span) :
    branch kind (first :: rest) fallback =
      mk kind ⟨first.span.start, (rest.getLast?.getD first).span.stop⟩ (first :: rest) := by
  rw [branch, List.getLast?_cons]
  rfl

end Node

/-- The leaf of a token moves with it. -/
@[simp] theorem Token.toLeaf_moved (t : Token) : (t.moved f g).toLeaf = t.toLeaf.moved f g := rfl

end

/-! ### Further on -/

/-- A range some bytes further on. -/
def Span.shift (k : Nat) (s : Span) : Span :=
  ⟨k + s.start, k + s.stop⟩

/-- A token some bytes further on. -/
def Token.shift (k : Nat) (t : Token) : Token :=
  ⟨t.kind, t.span.shift k⟩

/-- **The tokens of a text further on** are its tokens, each as much further on. -/
theorem tokensFrom_add (k offset : Nat) (text : List Char) :
    tokensFrom (k + offset) text = (tokensFrom offset text).map (Token.shift k) := by
  induction text using tokens_induction generalizing offset with
  | nil text htext => rw [tokensFrom_of_nil _ htext, tokensFrom_of_nil _ htext, List.map_nil]
  | cons text c rest htext ih =>
    rw [tokensFrom_of_cons _ htext, tokensFrom_of_cons _ htext, List.map_cons, ← ih]
    simp only [Token.shift, Span.shift, Nat.add_assoc]

mutual

/-- A tree some bytes further on. -/
def Node.shift (k : Nat) : Node → Node
  | mk kind span children => mk kind (span.shift k) (shiftAll k children)

/-- Some trees, all as many bytes further on. -/
def Node.shiftAll (k : Nat) : List Node → List Node
  | [] => []
  | node :: rest => node.shift k :: shiftAll k rest

end

/-- To shift a token is to move its start and its stop alike. -/
theorem Token.shift_eq_moved (k : Nat) : Token.shift k = Token.moved (k + ·) (k + ·) := rfl

namespace Node

mutual

/-- Further on is somewhere else. -/
theorem shift_eq_moved (k : Nat) : ∀ node : Node, node.shift k = node.moved (k + ·) (k + ·)
  | mk kind span children => by rw [shift, moved, shiftAll_eq_movedAll k children]; rfl

theorem shiftAll_eq_movedAll (k : Nat) :
    ∀ nodes : List Node, shiftAll k nodes = movedAll (k + ·) (k + ·) nodes
  | [] => rfl
  | node :: rest => by
    rw [shiftAll, movedAll, shift_eq_moved k node, shiftAll_eq_movedAll k rest]

end

end Node

/-! ### Statements of a line -/

/-- A reader of tokens that leaves a line break, and what is behind it, for later. -/
def EndsWithLine {α : Type} (read : List Token → α × List Token) : Prop :=
  ∀ (tokens later : List Token) (stop : Token), stop.kind = .newline →
    read (tokens ++ stop :: later) = ((read tokens).1, (read tokens).2 ++ stop :: later)

/-- An optional part ends with its line, unless it is a line break itself. -/
theorem endsWithLine_optional {kind : TokenKind} (hkind : kind ≠ .newline) :
    EndsWithLine (optional kind) := by
  intro tokens later stop hstop
  cases tokens with
  | nil =>
    have hne : (stop.kind == kind) = false := by simpa [hstop] using hkind.symm
    simp [optional, hne]
  | cons token rest => cases h : token.kind == kind <;> simp [optional, h]

theorem endsWithLine_recover (first : Token) : EndsWithLine (recover first) := by
  intro tokens later stop hstop
  have hline : stop.inLine = false := by simp [Token.inLine, hstop]
  rw [recover, takeWhile_append_stop hline, dropWhile_append_stop hline]
  rfl

theorem endsWithLine_headerParts : EndsWithLine headerParts := by
  intro tokens later stop hstop
  have hheader : stop.inHeader = false := by simp [Token.inHeader, Token.inLine, hstop]
  have hstring : EndsWithLine (optional .string) := endsWithLine_optional (by decide)
  have hnumber : EndsWithLine (optional .number) := endsWithLine_optional (by decide)
  unfold headerParts
  simp only [hstring _ _ stop hstop, hnumber _ _ stop hstop,
    takeWhile_append_stop hheader, dropWhile_append_stop hheader]

theorem endsWithLine_header (opening : Token) : EndsWithLine (header opening) := by
  intro tokens later stop hstop
  have hclose : (stop.kind == .closeBracket) = false := by simp [hstop]
  unfold header
  rw [endsWithLine_headerParts _ _ stop hstop]
  -- A header that is not closed ends with its line.
  match headerParts tokens with
  | (parts, []) => simp [hclose]
  | (parts, token :: rest) => cases h : token.kind == .closeBracket <;> simp [h]

theorem endsWithLine_named (label : Token) : EndsWithLine (named label) := by
  intro tokens later stop hstop
  cases tokens with
  | nil =>
    show named label (stop :: later) = _
    simp [named, hstop, recover, Token.inLine]
  | cons next rest =>
    have hmetadata : EndsWithLine (metadata label) := by
      intro tokens later stop hstop
      rw [metadata, endsWithLine_optional (by decide) _ _ stop hstop]
      rfl
    simp only [List.cons_append, named]
    cases next.kind with
    | equals => exact hmetadata rest later stop hstop
    | code => rfl
    | _ => exact endsWithLine_recover label (next :: rest) later stop hstop

/-- **A statement ends with its line at the latest.** -/
theorem endsWithLine_statement (first : Token) : EndsWithLine (statement first) := by
  intro tokens later stop hstop
  unfold statement
  split
  · exact endsWithLine_named first tokens later stop hstop
  · exact endsWithLine_header first tokens later stop hstop
  · exact endsWithLine_recover first tokens later stop hstop

/-- **A line break parts the statements.** -/
theorem statements_append_newline (tokens later : List Token) {stop : Token}
    (hstop : stop.kind = .newline) :
    statements (tokens ++ stop :: later) = statements tokens ++ statements later := by
  fun_induction statements tokens with
  | case1 =>
    rw [List.nil_append, statements]
    simp [hstop]
  | case2 token rest hnewline ih =>
    rw [List.cons_append, statements, if_pos hnewline, ih]
  | case3 token rest hnewline found ih =>
    rw [List.cons_append, statements, if_neg hnewline]
    simp only [endsWithLine_statement token rest later stop hstop]
    rw [ih]
    rfl

/-! ### Statements somewhere else -/

section
variable (f g : Nat → Nat)

/-- Where tokens stand has no say in how many of them come before a stop. -/
theorem takeWhile_map_moved {p : Token → Bool} (hp : p ∘ Token.moved f g = p)
    (tokens : List Token) :
    (tokens.map (Token.moved f g)).takeWhile p = (tokens.takeWhile p).map (Token.moved f g) := by
  rw [List.takeWhile_map, hp]

/-- Tokens behind a run move with it, if what makes the run does not depend on places. -/
theorem dropWhile_map_moved {p : Token → Bool} (hp : p ∘ Token.moved f g = p)
    (tokens : List Token) :
    (tokens.map (Token.moved f g)).dropWhile p = (tokens.dropWhile p).map (Token.moved f g) := by
  rw [List.dropWhile_map, hp]

/-- An optional part moves with its token. -/
theorem optional_moved (kind : TokenKind) (tokens : List Token) :
    optional kind (tokens.map (Token.moved f g)) =
      Prod.map (List.map (Node.moved f g)) (List.map (Token.moved f g)) (optional kind tokens) := by
  cases tokens with
  | nil => rfl
  | cons token rest => cases h : token.kind == kind <;> simp [optional, h]

theorem errorNode_moved (first : Token) (more : List Token) :
    errorNode (first.moved f g) (more.map (Token.moved f g)) = (errorNode first more).moved f g := by
  rw [errorNode, List.getLast?_map]
  cases h : more.getLast? <;> simp [errorNode, h, Span.moved]

theorem recover_moved (first : Token) (tokens : List Token) :
    recover (first.moved f g) (tokens.map (Token.moved f g)) =
      Prod.map (Node.moved f g) (List.map (Token.moved f g)) (recover first tokens) := by
  have hline : Token.inLine ∘ Token.moved f g = Token.inLine := rfl
  rw [recover, takeWhile_map_moved f g hline, dropWhile_map_moved f g hline, errorNode_moved]
  rfl

theorem metadata_moved (label : Token) (tokens : List Token) :
    metadata (label.moved f g) (tokens.map (Token.moved f g)) =
      Prod.map (Node.moved f g) (List.map (Token.moved f g)) (metadata label tokens) := by
  rw [metadata, optional_moved]
  cases h : (optional .string tokens).1.getLast? <;>
    simp [metadata, Node.branch_cons, h, Span.moved]

theorem headerParts_moved (tokens : List Token) :
    headerParts (tokens.map (Token.moved f g)) =
      Prod.map (List.map (Node.moved f g)) (List.map (Token.moved f g)) (headerParts tokens) := by
  have hheader : Token.inHeader ∘ Token.moved f g = Token.inHeader := rfl
  simp only [headerParts, optional_moved, Prod.map_fst, Prod.map_snd,
    takeWhile_map_moved f g hheader, dropWhile_map_moved f g hheader]
  -- What is left of the header is one error, or none.
  cases ((optional .number (optional .string tokens).2).2).takeWhile Token.inHeader with
  | nil => simp
  | cons first more => simp [errorNode_moved]

theorem header_moved (opening : Token) (tokens : List Token) :
    header (opening.moved f g) (tokens.map (Token.moved f g)) =
      Prod.map (Node.moved f g) (List.map (Token.moved f g)) (header opening tokens) := by
  have hstop : ∀ parts : List Node,
      header.lastStop (opening.moved f g) (parts.map (Node.moved f g)) =
        g (header.lastStop opening parts) := by
    intro parts
    rw [header.lastStop, List.getLast?_map]
    cases h : parts.getLast? <;> simp [header.lastStop, h]
  unfold header
  rw [headerParts_moved]
  match headerParts tokens with
  | (parts, []) => simp [hstop, header.headerNode, Span.moved]
  | (parts, token :: rest) =>
    cases h : token.kind == .closeBracket <;> simp [h, hstop, header.headerNode, Span.moved]

theorem named_moved (label : Token) (tokens : List Token) :
    named (label.moved f g) (tokens.map (Token.moved f g)) =
      Prod.map (Node.moved f g) (List.map (Token.moved f g)) (named label tokens) := by
  cases tokens with
  | nil => exact recover_moved f g label []
  | cons next rest =>
    simp only [List.map_cons, named, Token.kind_moved]
    cases next.kind with
    | equals => exact metadata_moved f g label rest
    | code => simp [track, Node.branch_cons, Span.moved]
    | _ => exact recover_moved f g label (next :: rest)

/-- **A statement moves with its tokens.** -/
theorem statement_moved (first : Token) (tokens : List Token) :
    statement (first.moved f g) (tokens.map (Token.moved f g)) =
      Prod.map (Node.moved f g) (List.map (Token.moved f g)) (statement first tokens) := by
  simp only [statement, Token.kind_moved]
  cases first.kind with
  | name => exact named_moved f g first tokens
  | openBracket => exact header_moved f g first tokens
  | _ => exact recover_moved f g first tokens

/-- **The statements of tokens somewhere else** are their statements, moved alike.  The grammar looks
at the kinds of tokens, and the spans of its nodes start where a token starts and stop where one
stops. -/
theorem statements_map_moved (tokens : List Token) :
    statements (tokens.map (Token.moved f g)) = (statements tokens).map (Node.moved f g) := by
  fun_induction statements tokens with
  | case1 => rw [List.map_nil, statements, List.map_nil]
  | case2 token rest hnewline ih =>
    rw [List.map_cons, statements, Token.kind_moved, if_pos hnewline, ih]
  | case3 token rest hnewline found ih =>
    rw [List.map_cons, statements, Token.kind_moved, if_neg hnewline, statement_moved, List.map_cons,
      ← ih]
    rfl

end

/-- **The statements of tokens further on** are their statements, each as much further on. -/
theorem statements_map_shift (k : Nat) (tokens : List Token) :
    statements (tokens.map (Token.shift k)) = (statements tokens).map (Node.shift k) := by
  rw [Token.shift_eq_moved, statements_map_moved]
  exact List.map_congr_left fun node _ => (node.shift_eq_moved k).symm

/-! ### Trees -/

namespace Node

/-- A branch has the children it was given. -/
@[simp] theorem children_branch (kind : NodeKind) (children : List Node) (fallback : Span) :
    (branch kind children fallback).children = children := by
  unfold branch
  split <;> rfl

/-- A branch has the kind it was given. -/
@[simp] theorem kind_branch (kind : NodeKind) (children : List Node) (fallback : Span) :
    (branch kind children fallback).kind = kind := by
  unfold branch
  split <;> rfl

/-- An error is found at the node itself or below it. -/
theorem hasError_eq (node : Node) :
    node.hasError = (node.kind == .error || anyError node.children) := by
  cases node
  rw [hasError]
  rfl

/-- Some nodes are without an error just if each of them is. -/
theorem anyError_eq_false_iff (nodes : List Node) :
    anyError nodes = false ↔ ∀ node ∈ nodes, node.hasError = false := by
  induction nodes with
  | nil => simp [anyError]
  | cons node rest ih => simp [anyError, ih]

end Node

/-- The statements of a source text. -/
theorem children_parseTree (source : List Char) :
    (parseTree source).children = statements (tokensFrom 0 source) :=
  Node.children_branch _ _ _

/-- **The statements of two texts with a line break between them** are those of the first, and those
of the second as much further on. -/
theorem children_parseTree_append_newline (text more : List Char) :
    (parseTree (text ++ '\n' :: more)).children =
      (parseTree text).children ++
        (parseTree more).children.map (Node.shift (byteLength text + 1)) := by
  have hmore := tokensFrom_add (byteLength text + 1) 0 more
  rw [children_parseTree, children_parseTree, children_parseTree, tokensFrom_append_newline,
    Nat.zero_add, statements_append_newline _ _ rfl, ← statements_map_shift, ← hmore]

end Gamelan.Notation
