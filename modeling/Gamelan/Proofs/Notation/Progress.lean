import Gamelan.Proofs.Notation.Reader

namespace Gamelan.Notation.Reader

/-!
# Progress of the grammar

Statement by statement, a reader gets through any list of tokens: it never looks outside of them, and
no loop takes more turns than there are tokens, and one to find the end.  Every statement takes at
least one token, and of the tokens before the end of the source none is passed over but line breaks,
and none is taken twice.

* `takeStatement`, `takeStatements` — the statements, read by place.
* `takes_takeStatement` — one statement takes the tokens that it is made of.
* `exists_takeStatements` — all of them take all tokens ahead.
* `progress_of_parse` — the tree of a list of tokens, and the tokens that each statement takes.
-/

/-! ### Statements by place -/

/-- Take the rest of the line as an error. -/
def takeLine (turns : Nat) : ReadTokens Node := do
  let start := (← peek).span.start
  let stop? ← takeWhile lineGoesOn turns none
  return .leaf .error ⟨start, stop?.getD start⟩

/-- Take metadata: its label, the equals sign and perhaps a value. -/
def takeMetadata : ReadTokens Node := do
  let start := (← peek).span.start
  let label ← takeLeaf
  let _ ← take
  let value ← takeOptional .string
  return .branch .metadata (label :: value) ⟨start, start⟩

/-- Take a track: its label and its code. -/
def takeTrack : ReadTokens Node := do
  let start := (← peek).span.start
  let label ← takeLeaf
  let code ← takeLeaf
  return .branch .track [label, code] ⟨start, start⟩

/-- Take what a header holds beside its title and tempo, as one error. -/
def takeStray (turns : Nat) : ReadTokens (List Node) := do
  let start := (← peek).span.start
  match ← takeWhile headerGoesOn turns none with
  | some stop => return [.leaf .error ⟨start, stop⟩]
  | none => return []

/-- Take the parts of a header. -/
def takeParts (turns : Nat) : ReadTokens (List Node) := do
  let title ← takeOptional .string
  let tempo ← takeOptional .number
  let stray ← takeStray turns
  return title ++ tempo ++ stray

/-- Take a header up to its closing bracket or the end of its line. -/
def takeHeader (turns : Nat) : ReadTokens Node := do
  let opening ← take
  let parts ← takeParts turns
  if ← check .closeBracket then
    return header.headerNode opening parts (← take).span.stop
  else return header.headerNode opening parts (header.lastStop opening parts)

/-- Take a statement that starts with a name. -/
def takeNamed (turns : Nat) : ReadTokens Node := do
  match ← nextKind? with
  | some .equals => takeMetadata
  | some .code => takeTrack
  | _ => takeLine turns

/-- Take the statement at the place, with some turns at most in each loop. -/
def takeStatement (turns : Nat) : ReadTokens Node := do
  match (← peek).kind with
  | .name => takeNamed turns
  | .openBracket => takeHeader turns
  | _ => takeLine turns

/-- A statement with the places of the tokens taken for it. -/
structure Taking where
  node : Node
  places : List Nat

/-- Take all statements up to the end of the source. -/
def takeStatements (turns : Nat) : Nat → ReadTokens (List Taking)
  | 0 => failure
  | left + 1 => do
    skipNewlines turns
    if ← atEnd then return []
    else
      let before := (← get).taken.length
      let node ← takeStatement turns
      let places := (← get).taken.drop before
      return ⟨node, places⟩ :: (← takeStatements turns left)

/-- The tree of a list of tokens and the statements taken for it, with some turns at most in each
loop. -/
def parse (turns : Nat) (tokens : List Token) : Option (Node × List Taking) := do
  let (takings, _) ← takeStatements turns turns ⟨tokens, 0, []⟩
  return (.branch .program (takings.map (·.node))
    ⟨0, (tokens.getLast?.map (·.span.stop)).getD 0⟩, takings)

/-! ### One statement -/

variable {turns : Nat} {r : Reader}

/-- An error takes the tokens of its line. -/
theorem takes_takeLine {first : Token} {tokens : List Token} (hturns : r.tokens.length < turns)
    (h : r.ahead = first :: tokens) (hline : first.inLine) :
    Takes (takeLine turns) r (recover first tokens) := by
  refine .look (peek_of_ahead h) ?_
  have hloop := takes_takeWhile lineGoesOn_eq (fun _ ht => ht) none (length_ahead_lt hturns)
  rw [h, List.takeWhile_cons_of_pos hline, List.dropWhile_cons_of_pos hline, List.getLast?_cons]
    at hloop
  exact hloop.bind fun _ _ hrest => .pure _ hrest

theorem takes_takeMetadata {label equals : Token} {tokens : List Token}
    (h : r.ahead = label :: equals :: tokens) (hlabel : label.kind = .name)
    (hequals : equals.kind = .equals) : Takes takeMetadata r (metadata label tokens) := by
  refine .look (peek_of_ahead h) ?_
  refine (takes_takeLeaf h (by simp [Token.inLine, hlabel])).bind fun r₁ _ h₁ => ?_
  refine (takes_take h₁ (by simp [Token.inLine, hequals])).bind fun r₂ _ h₂ => ?_
  have hvalue : Takes (takeOptional .string) r₂ (optional .string r₂.ahead) :=
    takes_takeOptional (by decide) r₂
  rw [h₂] at hvalue
  exact hvalue.bind fun _ _ hrest => .pure _ hrest

theorem takes_takeTrack {label code : Token} {tokens : List Token}
    (h : r.ahead = label :: code :: tokens) (hlabel : label.kind = .name)
    (hcode : code.kind = .code) : Takes takeTrack r (track label code, tokens) := by
  refine .look (peek_of_ahead h) ?_
  refine (takes_takeLeaf h (by simp [Token.inLine, hlabel])).bind fun r₁ _ h₁ => ?_
  exact (takes_takeLeaf h₁ (by simp [Token.inLine, hcode])).bind fun _ _ hrest => .pure _ hrest

/-- What is in a header beside its title and tempo. -/
theorem takes_takeStray (hturns : r.tokens.length < turns) (hsome : r.tokens ≠ []) :
    Takes (takeStray turns) r
      (match r.ahead.takeWhile Token.inHeader with
        | [] => []
        | first :: more => [errorNode first more], r.ahead.dropWhile Token.inHeader) := by
  have hloop := takes_takeWhile headerGoesOn_eq (fun token ht => (Bool.and_eq_true_iff.1 ht).2) none
    (length_ahead_lt hturns)
  cases hahead : r.ahead with
  | nil =>
    -- The place is behind the last token or at the end of the source, but there is a token to look at.
    obtain ⟨token, hpeek⟩ := exists_peek hsome
    rw [hahead] at hloop
    exact .look hpeek (hloop.bind fun _ _ hrest => .pure _ hrest)
  | cons token rest =>
    refine .look (peek_of_ahead hahead) ?_
    rw [hahead] at hloop
    cases htoken : token.inHeader with
    | false =>
      rw [List.takeWhile_cons_of_neg (by simp [htoken])] at hloop ⊢
      exact hloop.bind fun _ _ hrest => .pure _ hrest
    | true =>
      rw [List.takeWhile_cons_of_pos htoken] at hloop ⊢
      rw [List.getLast?_cons] at hloop
      exact hloop.bind fun _ _ hrest => .pure _ hrest

/-- The parts of a header take their own tokens. -/
theorem takes_takeParts (hturns : r.tokens.length < turns) (hsome : r.tokens ≠ []) :
    Takes (takeParts turns) r (headerParts r.ahead) := by
  refine (takes_takeOptional (by decide) r).bind fun r₁ htokens₁ h₁ => ?_
  refine (takes_takeOptional (by decide) r₁).bind fun r₂ htokens₂ h₂ => ?_
  have htokens : r₂.tokens = r.tokens := htokens₂.trans htokens₁
  have hstray := takes_takeStray (r := r₂) (by rwa [htokens]) (by rwa [htokens])
  rw [h₂, h₁] at hstray
  refine hstray.bind fun _ _ hrest => ?_
  rw [h₁]
  exact .pure _ hrest

/-- A header takes all tokens from its opening bracket to its closing one, or to the end of its
line. -/
theorem takes_takeHeader {opening : Token} {tokens : List Token} (hturns : r.tokens.length < turns)
    (h : r.ahead = opening :: tokens) (hopening : opening.kind = .openBracket) :
    Takes (takeHeader turns) r (header opening tokens) := by
  -- There is the opening bracket, so there are tokens to read.
  have hsome : r.tokens ≠ [] := by
    intro hnil
    rw [ahead_of_le (by simp [hnil])] at h
    cases h
  refine (takes_take h (by simp [Token.inLine, hopening])).bind fun r₁ htokens h₁ => ?_
  have hparts := takes_takeParts (r := r₁) (by rwa [htokens]) (by rwa [htokens])
  rw [h₁] at hparts
  unfold header
  split
  · next parts hread =>
    rw [hread] at hparts
    refine hparts.bind fun r₂ _ h₂ => ?_
    exact .look (check_of_nil .closeBracket h₂) (.pure _ h₂)
  · next parts token rest hread =>
    rw [hread] at hparts
    refine hparts.bind fun r₂ _ h₂ => .look (check_of_ahead .closeBracket h₂) ?_
    cases hclosing : token.kind == .closeBracket with
    | false => exact .pure _ h₂
    | true =>
      have hline : token.inLine := by rw [Token.inLine, eq_of_beq hclosing]; rfl
      exact (takes_take h₂ hline).bind fun _ _ hrest => .pure _ hrest

/-- The kind behind the token at the place, where the source may end. -/
theorem exists_nextKind? {first : Token} {tokens : List Token} (h : r.ahead = first :: tokens) :
    ∃ kind?, nextKind? r = some (kind?, r) ∧
      match tokens with
      | [] => kind? = none ∨ kind? = some .eof
      | next :: _ => kind? = some next.kind := by
  refine ⟨_, rfl, ?_⟩
  have hnext := (of_ahead_eq_cons h).2.2
  cases tokens with
  | cons next rest => exact congrArg (Option.map _) (of_ahead_eq_cons hnext).1
  | nil =>
    cases htoken : (r.after 1).tokens[(r.after 1).place]? with
    | none => exact .inl (congrArg (Option.map _) htoken)
    | some token =>
      rw [ahead_of_getElem? htoken] at hnext
      have hkind : token.kind = .eof := by
        by_contra hkind
        rw [if_pos (by simpa [Token.inSource] using hkind)] at hnext
        cases hnext
      refine .inr ((congrArg (Option.map _) htoken).trans ?_)
      rw [Option.map_some, hkind]

/-- What follows a name decides which tokens its statement takes. -/
theorem takes_takeNamed {label : Token} {tokens : List Token} (hturns : r.tokens.length < turns)
    (h : r.ahead = label :: tokens) (hlabel : label.kind = .name) :
    Takes (takeNamed turns) r (named label tokens) := by
  have hline : label.inLine := by simp [Token.inLine, hlabel]
  obtain ⟨kind?, hnext, hkind?⟩ := exists_nextKind? h
  refine .look hnext ?_
  cases tokens with
  | nil => rcases hkind? with rfl | rfl <;> exact takes_takeLine hturns h hline
  | cons next rest =>
    obtain rfl := hkind?
    rw [named]
    cases hnext : next.kind with
    | equals => exact takes_takeMetadata h hlabel hnext
    | code => exact takes_takeTrack h hlabel hnext
    | _ => exact takes_takeLine hturns h hline

/-- **A statement** takes the tokens that it is made of, one by one, and no line break. -/
theorem takes_takeStatement {first : Token} {tokens : List Token} (hturns : r.tokens.length < turns)
    (h : r.ahead = first :: tokens) (hline : first.inLine) :
    Takes (takeStatement turns) r (statement first tokens) := by
  refine .look (peek_of_ahead h) ?_
  rw [statement]
  cases hkind : first.kind with
  | name => exact takes_takeNamed hturns h hkind
  | openBracket => exact takes_takeHeader hturns h hkind
  | _ => exact takes_takeLine hturns h hline

/-- A statement takes some token: it leaves fewer ahead than there were. -/
theorem exists_takeStatement {first : Token} {tokens : List Token} (hturns : r.tokens.length < turns)
    (h : r.ahead = first :: tokens) (hline : first.inLine) :
    ∃ own ≠ [], (∀ token ∈ own, token.inLine) ∧ first :: tokens = own ++ (statement first tokens).2 ∧
      takeStatement turns r = some ((statement first tokens).1, r.after own.length) ∧
      (r.after own.length).ahead = (statement first tokens).2 := by
  obtain ⟨own, hown, hsplit, hstep⟩ := takes_takeStatement hturns h hline
  refine ⟨own, ?_, hown, h.symm.trans hsplit, hstep, ahead_after hsplit⟩
  rintro rfl
  have hless := length_statement_le first tokens
  have hall := congrArg List.length (h.symm.trans hsplit)
  rw [List.nil_append, List.length_cons] at hall
  omega

/-! ### Line breaks between statements -/

/-- Line breaks are passed over, up to the first token that is none. -/
theorem exists_skipNewlines (hturns : r.ahead.length < turns) :
    ∃ breaks rest, (∀ token ∈ breaks, token.kind = .newline) ∧
      (∀ token ∈ rest.head?, token.inLine) ∧ r.ahead = breaks ++ rest ∧
      skipNewlines turns r = some ((), { r with place := r.place + breaks.length }) := by
  induction turns generalizing r with
  | zero => exact absurd hturns (Nat.not_lt_zero _)
  | succ turns ih =>
    rw [skipNewlines]
    cases hahead : r.ahead with
    | nil => exact ⟨[], [], by simp, by simp, rfl, bind_of_eq_some (check_of_nil .newline hahead)⟩
    | cons token more =>
      have hcheck := check_of_ahead .newline hahead
      by_cases hnewline : token.kind = .newline
      -- Behind a break, the loop goes on with one turn less.
      · have hmore : ({ r with place := r.place + 1 } : Reader).ahead = more :=
          (of_ahead_eq_cons hahead).2.2
        obtain ⟨breaks, rest, hbreaks, hrest, hsplit, hskip⟩ :=
          ih (r := { r with place := r.place + 1 }) (by
            rw [hahead, List.length_cons] at hturns
            rw [hmore]
            omega)
        refine ⟨token :: breaks, rest, List.forall_mem_cons.2 ⟨hnewline, hbreaks⟩, hrest, ?_, ?_⟩
        · rw [← hmore, hsplit, List.cons_append]
        · rw [bind_of_eq_some hcheck, hnewline, List.length_cons, Nat.add_comm _ 1, ← Nat.add_assoc]
          exact hskip
      · have hline : token.inLine := by simpa [Token.inLine] using hnewline
        refine ⟨[], token :: more, by simp, by simpa using hline, rfl, ?_⟩
        rw [bind_of_eq_some hcheck, if_neg (by simpa using hnewline)]
        rfl

/-- Line breaks are no statements. -/
theorem statements_append_of_newline {breaks : List Token}
    (h : ∀ token ∈ breaks, token.kind = .newline) (rest : List Token) :
    statements (breaks ++ rest) = statements rest := by
  induction breaks with
  | nil => rfl
  | cons token breaks ih =>
    obtain ⟨htoken, hbreaks⟩ := List.forall_mem_cons.1 h
    rw [List.cons_append, statements, if_pos (beq_iff_eq.2 htoken), ih hbreaks]

/-- There is nothing to take among line breaks. -/
theorem findIdxs_append_of_newline {breaks : List Token}
    (h : ∀ token ∈ breaks, token.kind = .newline) (rest : List Token) (place : Nat) :
    (breaks ++ rest).findIdxs Token.inLine place =
      rest.findIdxs Token.inLine (place + breaks.length) := by
  have hnone : breaks.findIdxs Token.inLine place = [] :=
    List.findIdxs_eq_nil_iff.2 fun token ht => by simp [Token.inLine, h token ht]
  rw [List.findIdxs_append, hnone, List.nil_append]

/-- The places of tokens on one line. -/
theorem findIdxs_of_inLine {own : List Token} (h : ∀ token ∈ own, token.inLine) (place : Nat) :
    own.findIdxs Token.inLine place = List.range' place own.length := by
  induction own generalizing place with
  | nil => rfl
  | cons token own ih =>
    obtain ⟨htoken, hown⟩ := List.forall_mem_cons.1 h
    rw [List.findIdxs_cons, if_pos htoken, ih hown, List.length_cons, List.range'_succ]

/-! ### All statements -/

/-- **All statements.**  Reading them comes to an end.  Each of them takes some token, and together
they take all tokens ahead that break no line, in order. -/
theorem exists_takeStatements {left : Nat} (hturns : r.tokens.length < turns)
    (hleft : r.ahead.length < left) :
    ∃ takings r', takeStatements turns left r = some (takings, r') ∧
      takings.map (·.node) = statements r.ahead ∧ (∀ taking ∈ takings, taking.places ≠ []) ∧
      takings.flatMap (·.places) = r.ahead.findIdxs Token.inLine r.place := by
  -- The induction is on the turns left: a statement leaves fewer tokens ahead.
  induction left generalizing r with
  | zero => exact absurd hleft (Nat.not_lt_zero _)
  | succ left ih =>
    obtain ⟨breaks, rest, hbreaks, hrest, hsplit, hskip⟩ :=
      exists_skipNewlines (length_ahead_lt hturns)
    obtain ⟨r₁, hr₁⟩ : ∃ r₁ : Reader, { r with place := r.place + breaks.length } = r₁ := ⟨_, rfl⟩
    have hahead₁ : r₁.ahead = rest := by rw [← hr₁]; exact ahead_after hsplit
    have hplace₁ : r₁.place = r.place + breaks.length := by rw [← hr₁]
    have htokens₁ : r₁.tokens = r.tokens := by rw [← hr₁]
    rw [hr₁] at hskip
    rw [hsplit, statements_append_of_newline hbreaks, findIdxs_append_of_newline hbreaks, ← hplace₁,
      takeStatements, bind_of_eq_some hskip, bind_of_eq_some (atEnd_eq r₁), hahead₁]
    cases rest with
    | nil => exact ⟨[], r₁, rfl, by rw [statements]; rfl, by simp, by simp⟩
    | cons first tokens =>
      have hline : first.inLine := hrest first rfl
      obtain ⟨own, hsome, hown, hrest, hfirst, hahead₂⟩ :=
        exists_takeStatement (by rwa [htokens₁]) hahead₁ hline
      obtain ⟨takings, r', htake, hnodes, hall, hplaces⟩ :=
        ih (r := r₁.after own.length) (by rwa [after, htokens₁]) (by
          have hless := List.length_pos_iff.2 hsome
          have hsum := congrArg List.length hrest
          have hbound := congrArg List.length hsplit
          rw [List.length_append] at hsum hbound
          rw [hahead₂]
          omega)
      refine ⟨⟨(statement first tokens).1, List.range' r₁.place own.length⟩ :: takings, r',
        ?_, ?_, ?_, ?_⟩
      · show ((get : ReadTokens Reader) >>= fun _ => _) r₁ = _
        rw [bind_of_eq_some (get_eq r₁), bind_of_eq_some hfirst, bind_of_eq_some (get_eq _),
          bind_of_eq_some htake, drop_taken_after]
        rfl
      · have hnot : ¬(first.kind == .newline) = true := by simpa [Token.inLine] using hline
        rw [List.map_cons, hnodes, hahead₂, statements, if_neg hnot]
      · exact List.forall_mem_cons.2 ⟨by simpa using hsome, hall⟩
      · rw [List.flatMap_cons, hplaces, hahead₂, hrest, List.findIdxs_append,
          findIdxs_of_inLine hown]
        rfl

/-- Where a token before the end of the source breaks no line. -/
theorem exists_of_mem_findIdxs {tokens : List Token} {place : Nat}
    (h : place ∈ (tokens.takeWhile Token.inSource).findIdxs Token.inLine) :
    ∃ token, tokens[place]? = some token ∧ token.kind ≠ .newline ∧ token.kind ≠ .eof := by
  obtain ⟨hlt, hline⟩ := List.mem_findIdxs_iff_exists_getElem_pos.1 h
  have hsource := List.all_eq_true.1 List.all_takeWhile _ (List.getElem_mem hlt)
  refine ⟨_, List.prefix_iff_getElem?.1 (List.takeWhile_prefix _) place hlt, ?_, ?_⟩
  · simpa [Token.inLine] using hline
  · simpa [Token.inSource] using hsource

/-- **The grammar makes progress.**  Whatever the tokens are, reading them comes to an end without a
look outside of them, and the tree is theirs: no loop takes more turns than there are tokens, and one
to find the end.  Each statement takes at least one token, and takes no line break and no end of the
source.  One statement after the other, the tokens before the first end of the source are all taken
just once, in order, except for line breaks. -/
theorem progress_of_parse (tokens : List Token) :
    ∃ takings, parse (tokens.length + 1) tokens = some (parseTokens tokens, takings) ∧
      (∀ taking ∈ takings, taking.places ≠ [] ∧ ∀ place ∈ taking.places,
        ∃ token, tokens[place]? = some token ∧ token.kind ≠ .newline ∧ token.kind ≠ .eof) ∧
      takings.flatMap (·.places) = (tokens.takeWhile Token.inSource).findIdxs Token.inLine := by
  obtain ⟨r, hr⟩ : ∃ r : Reader, ⟨tokens, 0, []⟩ = r := ⟨_, rfl⟩
  have hahead : r.ahead = tokens.takeWhile Token.inSource := by rw [← hr]; rfl
  have hturns : r.tokens.length < tokens.length + 1 := by rw [← hr]; exact Nat.lt_succ_self _
  obtain ⟨takings, r', htake, hnodes, hsome, hplaces⟩ :=
    exists_takeStatements hturns (length_ahead_lt hturns)
  rw [hahead] at hnodes hplaces
  rw [show r.place = 0 by rw [← hr]] at hplaces
  refine ⟨takings, ?_, fun taking htaking => ⟨hsome taking htaking, fun place hplace => ?_⟩, hplaces⟩
  · rw [parse, hr, htake, parseTokens, ← hnodes]
    rfl
  · have hmem : place ∈ takings.flatMap (·.places) := List.mem_flatMap.2 ⟨taking, htaking, hplace⟩
    rw [hplaces] at hmem
    exact exists_of_mem_findIdxs hmem

/-- A track, and a header that the end of the source leaves open. -/
example :
    let kinds : List TokenKind := [.name, .code, .newline, .openBracket, .string, .eof, .name]
    (parse 8 (kinds.map fun kind => ⟨kind, ⟨0, 0⟩⟩)).map (fun found => found.2.map (·.places)) =
      some [[0, 1], [3, 4]] := rfl

end Gamelan.Notation.Reader
