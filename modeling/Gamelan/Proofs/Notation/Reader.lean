import Mathlib.Data.List.Basic
import Gamelan.Notation.Statement

namespace Gamelan.Notation

/-!
# Readers of tokens

A reader keeps all tokens and a place among them.  It looks at the token at its place, or at the last
one if its place is behind the end, and moves on by taking tokens.  Nothing in it says that it stays
within the tokens, or that it ever comes to an end: a look where there is no token leaves it without a
result, and so does a loop that has not ended after some number of turns.

* `Reader`, `ReadTokens` — a reader, and its steps.
* `Reader.ahead` — the tokens from its place up to the end of the source, as a list.
* `Reader.Takes` — a step that takes the first of them, one by one.
* `Takes.look`, `Takes.bind` — one step after another.
* `atEnd_eq`, `check_of_ahead`, … — what looking shows of the tokens ahead.
* `takes_take`, `takes_takeWhile`, … — what taking leaves of them.
-/

/-! ### Reading by place -/

/-- A reader of tokens. -/
structure Reader where
  tokens : List Token
  /-- The place of the next token. -/
  place : Nat
  /-- The places of the tokens taken so far, in order.  No step asks for it. -/
  taken : List Nat

/-- A step of a reader. -/
abbrev ReadTokens := StateT Reader Option

namespace Reader

/-- The place that a reader looks at: its own, or that of the last token. -/
def here? (r : Reader) : Option Nat :=
  if r.tokens.length = 0 then none else some (min r.place (r.tokens.length - 1))

/-- The token at the place. -/
def peek : ReadTokens Token := do
  let r ← get
  let place ← r.here?
  r.tokens[place]?

/-- The kind of the token behind the one at the place. -/
def nextKind? : ReadTokens (Option TokenKind) := do
  let r ← get
  return r.tokens[r.place + 1]?.map (·.kind)

/-- Take the token at the place. -/
def take : ReadTokens Token := do
  let r ← get
  let place ← r.here?
  let token ← r.tokens[place]?
  set { r with
    place := if r.place < r.tokens.length then r.place + 1 else r.place
    taken := r.taken ++ [place] : Reader }
  return token

/-- Whether the source ends at the place. -/
def atEnd : ReadTokens Bool := do
  let r ← get
  if r.tokens.length ≤ r.place then return true
  else return (← peek).kind == .eof

/-- Whether a token of some kind comes next. -/
def check (kind : TokenKind) : ReadTokens Bool := do
  if ← atEnd then return false
  else return (← peek).kind == kind

/-- Move on to the next token that breaks no line.  The number is that of the turns there may be. -/
def skipNewlines : Nat → ReadTokens Unit
  | 0 => failure
  | turns + 1 => do
    if ← check .newline then
      modify fun r => { r with place := r.place + 1 }
      skipNewlines turns

/-- Take the next token as a leaf. -/
def takeLeaf : ReadTokens Node := do
  return (← take).toLeaf

/-- Take the next token as a leaf if it is of some kind. -/
def takeOptional (kind : TokenKind) : ReadTokens (List Node) := do
  if ← check kind then return [← takeLeaf] else return []

/-- Whether the line goes on. -/
def lineGoesOn : ReadTokens Bool := do
  if ← atEnd then return false else return !(← check .newline)

/-- Whether the header goes on. -/
def headerGoesOn : ReadTokens Bool := do
  if ← atEnd then return false
  else if ← check .closeBracket then return false
  else return !(← check .newline)

/-- Take tokens for as long as something goes on.  The result is where the last of them ends, or
`stop?` if there is none. -/
def takeWhile (goesOn : ReadTokens Bool) : Nat → Option Nat → ReadTokens (Option Nat)
  | 0, _ => failure
  | turns + 1, stop? => do
    if ← goesOn then
      let token ← take
      takeWhile goesOn turns (some token.span.stop)
    else return stop?

/-! ### The tokens ahead -/

/-- The tokens from the place up to the end of the source. -/
def ahead (r : Reader) : List Token :=
  (r.tokens.drop r.place).takeWhile Token.inSource

/-- There are no more tokens ahead than there are tokens. -/
theorem length_ahead_lt {r : Reader} {turns : Nat} (h : r.tokens.length < turns) :
    r.ahead.length < turns :=
  Nat.lt_of_le_of_lt
    (Nat.le_trans (List.takeWhile_sublist _).length_le (List.drop_sublist _ _).length_le) h

/-- The reader after it has taken some tokens. -/
def after (r : Reader) (count : Nat) : Reader :=
  { r with place := r.place + count, taken := r.taken ++ List.range' r.place count }

@[simp] theorem after_zero (r : Reader) : r.after 0 = r := by
  simp [after]

/-- Tokens can be taken in two goes. -/
theorem after_after (r : Reader) (first second : Nat) :
    (r.after first).after second = r.after (first + second) := by
  simp [after, Nat.add_assoc, List.range'_append_1]

/-- The places of the tokens that a reader has taken since. -/
theorem drop_taken_after (r : Reader) (count : Nat) :
    (r.after count).taken.drop r.taken.length = List.range' r.place count := List.drop_left

/-- Behind the last token there is nothing ahead. -/
theorem ahead_of_le {r : Reader} (h : r.tokens.length ≤ r.place) : r.ahead = [] := by
  rw [ahead, List.drop_eq_nil_iff.2 h, List.takeWhile_nil]

/-- The token at the place is the first one ahead, unless the source ends there. -/
theorem ahead_of_getElem? {r : Reader} {token : Token} (h : r.tokens[r.place]? = some token) :
    r.ahead = if token.inSource then token :: (r.after 1).ahead else [] := by
  obtain ⟨hlt, htoken⟩ := List.getElem?_eq_some_iff.1 h
  rw [ahead, List.drop_eq_getElem_cons hlt, htoken, List.takeWhile_cons]
  rfl

/-- The first token ahead is at the place. -/
theorem of_ahead_eq_cons {r : Reader} {token : Token} {rest : List Token}
    (h : r.ahead = token :: rest) :
    r.tokens[r.place]? = some token ∧ token.inSource ∧ (r.after 1).ahead = rest := by
  cases hplace : r.tokens[r.place]? with
  | none =>
    rw [ahead_of_le (List.getElem?_eq_none_iff.1 hplace)] at h
    cases h
  | some found =>
    rw [ahead_of_getElem? hplace] at h
    split at h
    · next hsource =>
      obtain ⟨rfl, rfl⟩ := List.cons.inj h
      exact ⟨rfl, hsource, rfl⟩
    · cases h

/-- What is ahead of a reader that has taken some tokens. -/
theorem ahead_after {r : Reader} {own rest : List Token} (h : r.ahead = own ++ rest) :
    (r.after own.length).ahead = rest := by
  induction own generalizing r with
  | nil => simpa using h
  | cons token own ih =>
    have hrest := ih (of_ahead_eq_cons h).2.2
    rwa [after_after, Nat.add_comm] at hrest

/-! ### Steps that take tokens -/

/-- Whether a step has the result `found.1` and leaves the tokens `found.2` ahead.  The tokens before
them are taken one by one, and none of them breaks the line. -/
def Takes {α : Type} (step : ReadTokens α) (r : Reader) (found : α × List Token) : Prop :=
  ∃ own, (∀ token ∈ own, token.inLine) ∧ r.ahead = own ++ found.2 ∧
    step r = some (found.1, r.after own.length)

/-- A step that has a result hands it on, with the reader it leaves. -/
theorem bind_of_eq_some {α β : Type} {first : ReadTokens α} {second : α → ReadTokens β}
    {r r' : Reader} {a : α} (h : first r = some (a, r')) : (first >>= second) r = second a r' := by
  show (first r >>= fun found => second found.1 found.2) = _
  rw [h]
  rfl

namespace Takes

variable {α β : Type} {r : Reader}

theorem pure (a : α) {rest : List Token} (h : r.ahead = rest) : Takes (Pure.pure a) r (a, rest) :=
  ⟨[], by simp, h, by rw [List.length_nil, after_zero]; rfl⟩

/-- First a step that only looks. -/
theorem look {first : ReadTokens α} {second : α → ReadTokens β} {a : α} {final : β × List Token}
    (h : first r = some (a, r)) (hsecond : Takes (second a) r final) :
    Takes (first >>= second) r final := by
  obtain ⟨own, hown, hahead, hsecond⟩ := hsecond
  exact ⟨own, hown, hahead, by rw [bind_of_eq_some h, hsecond]⟩

/-- **One step after another** takes the tokens of both. -/
theorem bind {first : ReadTokens α} {second : α → ReadTokens β} {found : α × List Token}
    {final : β × List Token} (h : Takes first r found)
    (hsecond : ∀ r' : Reader, r'.tokens = r.tokens → r'.ahead = found.2 →
      Takes (second found.1) r' final) : Takes (first >>= second) r final := by
  obtain ⟨own, hown, hahead, hfirst⟩ := h
  obtain ⟨more, hmore, hahead', hsecond⟩ := hsecond (r.after own.length) rfl (ahead_after hahead)
  refine ⟨own ++ more, List.forall_mem_append.2 ⟨hown, hmore⟩, ?_, ?_⟩
  · rw [hahead, ← ahead_after hahead, hahead', List.append_assoc]
  · rw [bind_of_eq_some hfirst, hsecond, after_after, List.length_append]

end Takes

/-! ### Looking -/

theorem get_eq (r : Reader) : (get : ReadTokens Reader) r = some (r, r) := rfl

theorem liftM_eq {α : Type} {found? : Option α} {a : α} (h : found? = some a) (r : Reader) :
    (liftM found? : ReadTokens α) r = some (a, r) := by
  rw [h]
  rfl

/-- A reader within its tokens looks at its own place. -/
theorem here?_of_lt {r : Reader} (h : r.place < r.tokens.length) : r.here? = some r.place := by
  rw [here?, if_neg (by omega), Nat.min_eq_left (by omega)]

/-- A look shows the token at the place looked at. -/
theorem peek_of_getElem? {r : Reader} {place : Nat} {token : Token} (hhere : r.here? = some place)
    (h : r.tokens[place]? = some token) : peek r = some (token, r) := by
  rw [peek, bind_of_eq_some (get_eq r), bind_of_eq_some (liftM_eq hhere r)]
  exact liftM_eq h r

/-- With any tokens at all, there is one to look at. -/
theorem exists_peek {r : Reader} (h : r.tokens ≠ []) : ∃ token, peek r = some (token, r) := by
  have hlength := List.length_pos_iff.2 h
  obtain ⟨token, htoken⟩ : ∃ token, r.tokens[min r.place (r.tokens.length - 1)]? = some token :=
    ⟨_, List.getElem?_eq_getElem (by omega)⟩
  exact ⟨token, peek_of_getElem? (by rw [here?, if_neg (by omega)]) htoken⟩

/-- Without tokens, a look has no result. -/
example : peek ⟨[], 0, []⟩ = none := rfl

/-- A look shows the first token ahead. -/
theorem peek_of_ahead {r : Reader} {token : Token} {rest : List Token}
    (h : r.ahead = token :: rest) : peek r = some (token, r) := by
  have htoken := (of_ahead_eq_cons h).1
  exact peek_of_getElem? (here?_of_lt (List.getElem?_eq_some_iff.1 htoken).1) htoken

/-- The source ends where nothing is ahead. -/
theorem atEnd_eq (r : Reader) : atEnd r = some (r.ahead.isEmpty, r) := by
  rw [atEnd, bind_of_eq_some (get_eq r)]
  cases htoken : r.tokens[r.place]? with
  | none =>
    have hle := List.getElem?_eq_none_iff.1 htoken
    rw [if_pos hle, ahead_of_le hle]
    rfl
  | some token =>
    have hlt := (List.getElem?_eq_some_iff.1 htoken).1
    have hpeek := peek_of_getElem? (here?_of_lt hlt) htoken
    rw [if_neg (by omega), bind_of_eq_some hpeek, ahead_of_getElem? htoken, Token.inSource]
    cases token.kind <;> rfl

/-- Where the source ends, no token comes next. -/
theorem check_of_nil (kind : TokenKind) {r : Reader} (h : r.ahead = []) :
    check kind r = some (false, r) := by
  rw [check, bind_of_eq_some (atEnd_eq r), h]
  rfl

/-- What comes next is the first token ahead. -/
theorem check_of_ahead (kind : TokenKind) {r : Reader} {token : Token} {rest : List Token}
    (h : r.ahead = token :: rest) : check kind r = some (token.kind == kind, r) := by
  rw [check, bind_of_eq_some (atEnd_eq r), h]
  exact bind_of_eq_some (peek_of_ahead h)

/-- A line goes on just if the first token ahead breaks no line. -/
theorem lineGoesOn_eq (r : Reader) :
    lineGoesOn r = some (r.ahead.head?.any Token.inLine, r) := by
  rw [lineGoesOn, bind_of_eq_some (atEnd_eq r)]
  cases hahead : r.ahead with
  | nil => rfl
  | cons token rest => exact bind_of_eq_some (check_of_ahead .newline hahead)

/-- A header goes on just if the first token ahead is neither its closing bracket nor a line
break. -/
theorem headerGoesOn_eq (r : Reader) :
    headerGoesOn r = some (r.ahead.head?.any Token.inHeader, r) := by
  rw [headerGoesOn, bind_of_eq_some (atEnd_eq r)]
  cases hahead : r.ahead with
  | nil => rfl
  | cons token rest =>
    refine (bind_of_eq_some (check_of_ahead .closeBracket hahead)).trans ?_
    rw [List.head?_cons, Option.any_some, Token.inHeader, bne]
    cases token.kind == .closeBracket with
    | true => rfl
    | false => exact bind_of_eq_some (check_of_ahead .newline hahead)

/-! ### Taking -/

/-- Taking a token takes the first one ahead. -/
theorem takes_take {r : Reader} {token : Token} {rest : List Token} (h : r.ahead = token :: rest)
    (hline : token.inLine) : Takes take r (token, rest) := by
  have htoken := (of_ahead_eq_cons h).1
  have hlt := (List.getElem?_eq_some_iff.1 htoken).1
  refine ⟨[token], by simpa using hline, h, ?_⟩
  rw [take, bind_of_eq_some (get_eq r), bind_of_eq_some (liftM_eq (here?_of_lt hlt) r),
    bind_of_eq_some (liftM_eq htoken r), if_pos hlt]
  rfl

theorem takes_takeLeaf {r : Reader} {token : Token} {rest : List Token} (h : r.ahead = token :: rest)
    (hline : token.inLine) : Takes takeLeaf r (token.toLeaf, rest) :=
  (takes_take h hline).bind fun _ _ hahead => .pure _ hahead

/-- An optional part takes its token if that is the first one ahead, and nothing otherwise. -/
theorem takes_takeOptional {kind : TokenKind} (hline : kind ≠ .newline) (r : Reader) :
    Takes (takeOptional kind) r (optional kind r.ahead) := by
  cases hahead : r.ahead with
  | nil => exact .look (check_of_nil kind hahead) (.pure [] hahead)
  | cons token rest =>
    refine .look (check_of_ahead kind hahead) ?_
    by_cases hkind : token.kind = kind
    · rw [optional, if_pos (beq_iff_eq.2 hkind), if_pos (beq_iff_eq.2 hkind)]
      exact (takes_takeLeaf hahead (by simp [Token.inLine, hkind, hline])).bind
        fun _ _ hrest => .pure _ hrest
    · rw [optional, if_neg (by simpa using hkind), if_neg (by simpa using hkind)]
      exact .pure [] hahead

/-- A loop takes the tokens that it goes on for, which are on one line. -/
theorem takes_takeWhile {goesOn : ReadTokens Bool} {p : Token → Bool}
    (hgoesOn : ∀ r, goesOn r = some (r.ahead.head?.any p, r)) (hline : ∀ token, p token → token.inLine)
    {turns : Nat} (stop? : Option Nat) {r : Reader} (hturns : r.ahead.length < turns) :
    Takes (takeWhile goesOn turns stop?) r
      (((r.ahead.takeWhile p).getLast?.map (·.span.stop)).or stop?, r.ahead.dropWhile p) := by
  induction turns generalizing r stop? with
  | zero => exact absurd hturns (Nat.not_lt_zero _)
  | succ turns ih =>
    rw [takeWhile]
    refine .look (hgoesOn r) ?_
    cases hahead : r.ahead with
    | nil => exact .pure _ hahead
    | cons token rest =>
      rw [List.head?_cons, Option.any_some, List.takeWhile_cons, List.dropWhile_cons]
      cases htoken : p token with
      | false => exact .pure _ hahead
      | true =>
        refine (takes_take hahead (hline token htoken)).bind fun r' _ hrest => ?_
        -- The loop ends where its last token does, or, without one, where it was told to.
        have hstop : ((token :: rest.takeWhile p).getLast?.map (·.span.stop)).or stop? =
            ((rest.takeWhile p).getLast?.map (·.span.stop)).or (some token.span.stop) := by
          rw [List.getLast?_cons]
          cases (rest.takeWhile p).getLast? <;> rfl
        have hless : rest.length < turns := by
          rw [hahead, List.length_cons] at hturns
          omega
        have hloop := ih (some token.span.stop) (r := r') (by rw [hrest]; exact hless)
        rw [hrest] at hloop
        rw [if_pos rfl, if_pos rfl, hstop]
        exact hloop

end Reader

end Gamelan.Notation
