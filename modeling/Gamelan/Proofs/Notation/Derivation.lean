import Gamelan.Proofs.Notation.Parts

namespace Gamelan.Notation

/-!
# The language of the notation

    program   ::= (statement | newline)*
    statement ::= name '=' string?
                | name code
                | '[' string? number? ']'
                | '[' string? number?         at the end of a line

Statements may share a line.  A header that is not closed ends with its line.

* `IsStatement`, `Derives` — the grammar, as relations on tokens.
* `Phrase.node` — the node of a statement: a part for each token but punctuation.
* `statements_of_derives` — what is derived is read as it is derived.
* `Derives.unique` — tokens have one derivation at most.
* `exists_derives` — what is read without an error is derived.
* `clean_iff_derives` — so the trees without an error are those of the language.
-/

/-! ### The grammar -/

/-- Whether a line ends before some tokens: there are none, or a line break comes first. -/
def EndsLine (later : List Token) : Prop :=
  ∀ token ∈ later.head?, token.kind = .newline

/-- The tokens of a statement, by its kind, with `later` behind it. -/
inductive IsStatement (later : List Token) : NodeKind → List Token → Prop where
  | metadata {label equals : Token} {value : Option Token} (hlabel : label.kind = .name)
      (hequals : equals.kind = .equals) (hvalue : ∀ token ∈ value, token.kind = .string) :
      IsStatement later .metadata (label :: equals :: value.toList)
  | track {label code : Token} (hlabel : label.kind = .name) (hcode : code.kind = .code) :
      IsStatement later .track [label, code]
  | closedHeader {opening closing : Token} {title tempo : Option Token}
      (hopening : opening.kind = .openBracket) (htitle : ∀ token ∈ title, token.kind = .string)
      (htempo : ∀ token ∈ tempo, token.kind = .number) (hclosing : closing.kind = .closeBracket) :
      IsStatement later .header (opening :: (title.toList ++ tempo.toList ++ [closing]))
  | openHeader {opening : Token} {title tempo : Option Token}
      (hopening : opening.kind = .openBracket) (htitle : ∀ token ∈ title, token.kind = .string)
      (htempo : ∀ token ∈ tempo, token.kind = .number) (hend : EndsLine later) :
      IsStatement later .header (opening :: (title.toList ++ tempo.toList))

/-- A statement as it is derived: its kind and its tokens. -/
structure Phrase where
  kind : NodeKind
  tokens : List Token
deriving DecidableEq, Repr

/-- The statements that tokens are derived from, in order. -/
inductive Derives : List Token → List Phrase → Prop where
  | nil : Derives [] []
  | newline {token : Token} {later : List Token} {phrases : List Phrase}
      (hnewline : token.kind = .newline) (hlater : Derives later phrases) :
      Derives (token :: later) phrases
  | statement {kind : NodeKind} {tokens later : List Token} {phrases : List Phrase}
      (hstatement : IsStatement later kind tokens) (hlater : Derives later phrases) :
      Derives (tokens ++ later) (⟨kind, tokens⟩ :: phrases)

/-! ### Nodes of statements -/

namespace Phrase

/-- The range of a statement: a header spans its brackets, and metadata ends with its label if it has
no value. -/
def span (phrase : Phrase) : Span where
  start := (phrase.tokens.head?.map (·.span.start)).getD 0
  stop := ((phrase.tokens.filter (·.kind != .equals)).getLast?.map (·.span.stop)).getD 0

/-- The node of a statement, with a part for each name, string, number and code. -/
def node (phrase : Phrase) : Node :=
  .mk phrase.kind phrase.span ((phrase.tokens.filter Token.isPart).map Token.toLeaf)

end Phrase

/-! ### What is derived is read -/

/-- An optional part is read if it is there. -/
theorem optional_append {kind : TokenKind} {part : Option Token} {later : List Token}
    (hpart : ∀ token ∈ part, token.kind = kind) (hlater : ∀ token ∈ later.head?, token.kind ≠ kind) :
    optional kind (part.toList ++ later) = (part.toList.map Token.toLeaf, later) := by
  cases part with
  | some token =>
    have hkind := hpart token rfl
    simp [optional, hkind]
  | none =>
    cases later with
    | nil => rfl
    | cons token rest =>
      have hkind := hlater token rfl
      simp [optional, hkind]

/-- The parts of a header with nothing behind them that could belong to it. -/
theorem headerParts_append {title tempo : Option Token} {later : List Token}
    (htitle : ∀ token ∈ title, token.kind = .string) (htempo : ∀ token ∈ tempo, token.kind = .number)
    (hlater : ∀ token ∈ later.head?, token.inHeader = false ∧ token.kind ≠ .string ∧
      token.kind ≠ .number) :
    headerParts (title.toList ++ (tempo.toList ++ later)) =
      ((title.toList ++ tempo.toList).map Token.toLeaf, later) := by
  have hnext : ∀ token ∈ (tempo.toList ++ later).head?, token.kind ≠ .string := by
    cases tempo with
    | none => exact fun token htoken => (hlater token htoken).2.1
    | some number =>
      intro token htoken
      obtain rfl : number = token := Option.some.inj htoken
      rw [htempo number rfl]
      exact TokenKind.noConfusion
  have hstray : later.takeWhile Token.inHeader = [] ∧ later.dropWhile Token.inHeader = later := by
    cases later with
    | nil => exact ⟨rfl, rfl⟩
    | cons token rest => simp [(hlater token rfl).1]
  have hnumber := optional_append htempo fun token htoken => (hlater token htoken).2.2
  simp [headerParts, optional_append htitle hnext, hnumber, hstray]

/-- The last of some parts of a header, or its bracket, is its last token. -/
theorem lastStop_map_toLeaf (opening : Token) (parts : List Token) :
    header.lastStop opening (parts.map Token.toLeaf) =
      (((opening :: parts).getLast?).map (·.span.stop)).getD 0 := by
  rw [header.lastStop, List.getLast?_map, List.getLast?_cons]
  cases parts.getLast? <;> rfl

/-- Metadata with its value, if it has one. -/
theorem metadata_append {label equals : Token} {value : Option Token} {later : List Token}
    (hlabel : label.kind = .name) (hequals : equals.kind = .equals)
    (hvalue : ∀ token ∈ value, token.kind = .string)
    (hlater : ∀ token ∈ later.head?, token.kind ≠ .string) :
    metadata label (value.toList ++ later) =
      (Phrase.node ⟨.metadata, label :: equals :: value.toList⟩, later) := by
  rw [metadata, optional_append hvalue hlater]
  cases value with
  | none =>
    simp [Phrase.node, Phrase.span, Node.branch, Token.isPart, Token.toLeaf, leafKind, hlabel,
      hequals, Node.span, Node.leaf]
  | some token =>
    simp [Phrase.node, Phrase.span, Node.branch, Token.isPart, Token.toLeaf, leafKind, hlabel,
      hequals, hvalue token rfl, Node.span, Node.leaf]

/-- A track is the node of its phrase. -/
theorem track_eq {label code : Token} (hlabel : label.kind = .name) (hcode : code.kind = .code) :
    track label code = Phrase.node ⟨.track, [label, code]⟩ := by
  simp [track, Phrase.node, Phrase.span, Node.branch, Token.isPart, Token.toLeaf, leafKind, hlabel,
    hcode, Node.span, Node.leaf]

/-- Of an opening bracket, a title and a tempo, all but the bracket become parts. -/
theorem filter_header {opening : Token} {title tempo : Option Token}
    (hopening : opening.kind = .openBracket) (htitle : ∀ token ∈ title, token.kind = .string)
    (htempo : ∀ token ∈ tempo, token.kind = .number) :
    (opening :: (title.toList ++ tempo.toList)).filter Token.isPart =
        title.toList ++ tempo.toList ∧
      (opening :: (title.toList ++ tempo.toList)).filter (·.kind != .equals) =
        opening :: (title.toList ++ tempo.toList) := by
  have hkind : ∀ token ∈ title.toList ++ tempo.toList,
      token.kind = .string ∨ token.kind = .number := by
    intro token h
    rcases List.mem_append.1 h with h | h
    · exact .inl (htitle token (Option.mem_toList.1 h))
    · exact .inr (htempo token (Option.mem_toList.1 h))
  constructor
  · rw [List.filter_cons_of_neg (by simp [Token.isPart, leafKind, hopening]), List.filter_eq_self]
    intro token h
    rcases hkind token h with h | h <;> simp [Token.isPart, leafKind, h]
  · rw [List.filter_eq_self, List.forall_mem_cons]
    refine ⟨by simp [hopening], fun token h => ?_⟩
    rcases hkind token h with h | h <;> simp [h]

/-- A header that is closed. -/
theorem header_append {opening closing : Token} {title tempo : Option Token} {later : List Token}
    (hopening : opening.kind = .openBracket) (htitle : ∀ token ∈ title, token.kind = .string)
    (htempo : ∀ token ∈ tempo, token.kind = .number) (hclosing : closing.kind = .closeBracket) :
    header opening (title.toList ++ tempo.toList ++ [closing] ++ later) =
      (Phrase.node ⟨.header, opening :: (title.toList ++ tempo.toList ++ [closing])⟩, later) := by
  have hparts : headerParts (title.toList ++ tempo.toList ++ [closing] ++ later) =
      ((title.toList ++ tempo.toList).map Token.toLeaf, closing :: later) := by
    rw [List.append_assoc, List.append_assoc, List.singleton_append]
    exact headerParts_append htitle htempo (by simp [Token.inHeader, hclosing])
  obtain ⟨hfilter, hsigns⟩ := filter_header hopening htitle htempo
  have hnode : Phrase.node ⟨.header, opening :: (title.toList ++ tempo.toList ++ [closing])⟩ =
      .mk .header ⟨opening.span.start, closing.span.stop⟩
        ((title.toList ++ tempo.toList).map Token.toLeaf) := by
    have hbracket : [closing].filter Token.isPart = [] ∧
        [closing].filter (·.kind != .equals) = [closing] := by
      simp [Token.isPart, leafKind, hclosing]
    rw [Phrase.node, Phrase.span, ← List.cons_append, List.filter_append, List.filter_append,
      hfilter, hsigns, hbracket.1, hbracket.2, List.append_nil, List.getLast?_concat]
    rfl
  rw [header, hparts, hnode]
  simp [hclosing, header.headerNode]

/-- A header that its line ends. -/
theorem header_of_endsLine {opening : Token} {title tempo : Option Token} {later : List Token}
    (hopening : opening.kind = .openBracket) (htitle : ∀ token ∈ title, token.kind = .string)
    (htempo : ∀ token ∈ tempo, token.kind = .number) (hend : EndsLine later) :
    header opening (title.toList ++ tempo.toList ++ later) =
      (Phrase.node ⟨.header, opening :: (title.toList ++ tempo.toList)⟩, later) := by
  have hparts : headerParts (title.toList ++ tempo.toList ++ later) =
      ((title.toList ++ tempo.toList).map Token.toLeaf, later) := by
    rw [List.append_assoc]
    refine headerParts_append htitle htempo fun token htoken => ?_
    simp [Token.inHeader, Token.inLine, hend token htoken]
  obtain ⟨hfilter, hsigns⟩ := filter_header hopening htitle htempo
  have hnode : Phrase.node ⟨.header, opening :: (title.toList ++ tempo.toList)⟩ =
      header.headerNode opening ((title.toList ++ tempo.toList).map Token.toLeaf)
        (header.lastStop opening ((title.toList ++ tempo.toList).map Token.toLeaf)) := by
    rw [lastStop_map_toLeaf, Phrase.node, Phrase.span, hfilter, hsigns]
    rfl
  rw [header, hparts, hnode]
  cases later with
  | nil => rfl
  | cons token rest => simp [hend token rfl]

/-- **A statement is read as it is derived**, unless a string behind it would be taken for a value. -/
theorem statement_of_isStatement {later : List Token} {kind : NodeKind} {tokens : List Token}
    (h : IsStatement later kind tokens) (hlater : ∀ token ∈ later.head?, token.kind ≠ .string) :
    ∃ first more, tokens = first :: more ∧ first.kind ≠ .newline ∧
      statement first (more ++ later) = (Phrase.node ⟨kind, tokens⟩, later) := by
  cases h with
  | @metadata label equals value hlabel hequals hvalue =>
    refine ⟨label, equals :: value.toList, rfl, by simp [hlabel], ?_⟩
    rw [← metadata_append hlabel hequals hvalue hlater]
    simp [statement, named, hlabel, hequals]
  | @track label code hlabel hcode =>
    refine ⟨label, [code], rfl, by simp [hlabel], ?_⟩
    rw [← track_eq hlabel hcode]
    simp [statement, named, hlabel, hcode]
  | @closedHeader opening closing title tempo hopening htitle htempo hclosing =>
    refine ⟨opening, _, rfl, by simp [hopening], ?_⟩
    rw [← header_append hopening htitle htempo hclosing]
    simp [statement, hopening]
  | @openHeader opening title tempo hopening htitle htempo hend =>
    refine ⟨opening, _, rfl, by simp [hopening], ?_⟩
    rw [← header_of_endsLine hopening htitle htempo hend]
    simp [statement, hopening]

/-- What can come first in what is derived. -/
theorem Derives.kind_of_head {tokens : List Token} {phrases : List Phrase}
    (h : Derives tokens phrases) :
    ∀ token ∈ tokens.head?, token.kind = .newline ∨ token.kind = .name ∨
      token.kind = .openBracket := by
  cases h with
  | nil => simp
  | newline hnewline hlater => simp [hnewline]
  | statement hstatement hlater =>
    cases hstatement with
    | metadata hlabel => simp [hlabel]
    | track hlabel => simp [hlabel]
    | closedHeader hopening => simp [hopening]
    | openHeader hopening => simp [hopening]

/-- No string starts what is derived. -/
theorem Derives.head_ne_string {tokens : List Token} {phrases : List Phrase}
    (h : Derives tokens phrases) : ∀ token ∈ tokens.head?, token.kind ≠ .string := by
  intro token htoken
  rcases h.kind_of_head token htoken with hkind | hkind | hkind <;> simp [hkind]

/-- **What is derived is read as it is derived**, statement by statement. -/
theorem statements_of_derives {tokens : List Token} {phrases : List Phrase}
    (h : Derives tokens phrases) : statements tokens = phrases.map Phrase.node := by
  induction h with
  | nil => rw [statements, List.map_nil]
  | newline hnewline hlater ih => rw [statements, if_pos (by simp [hnewline]), ih]
  | statement hstatement hlater ih =>
    obtain ⟨first, more, rfl, hfirst, hread⟩ :=
      statement_of_isStatement hstatement hlater.head_ne_string
    rw [List.cons_append, statements, if_neg (by simpa using hfirst)]
    simp only [hread, ih, List.map_cons]

/-- **A derivation is the only one of its tokens.** -/
theorem Derives.unique {tokens : List Token} {phrases others : List Phrase}
    (h : Derives tokens phrases) (hothers : Derives tokens others) : others = phrases := by
  -- Both derivations are read the same way, so the first statement of each has the same rest.
  induction h generalizing others with
  | nil =>
    generalize htokens : ([] : List Token) = tokens at hothers
    cases hothers with
    | nil => rfl
    | newline => cases htokens
    | statement hstatement hlater =>
      obtain ⟨first, more, rfl, -⟩ :=
        statement_of_isStatement hstatement hlater.head_ne_string
      cases htokens
  | @newline token later phrases hnewline hlater ih =>
    generalize htokens : token :: later = tokens at hothers
    cases hothers with
    | nil => cases htokens
    | newline hnewline' hlater' =>
      cases htokens
      exact ih hlater'
    | statement hstatement hlater' =>
      obtain ⟨first, more, rfl, hfirst, -⟩ :=
        statement_of_isStatement hstatement hlater'.head_ne_string
      cases htokens
      exact absurd hnewline hfirst
  | @statement kind tokens later phrases hstatement hlater ih =>
    obtain ⟨first, more, rfl, hfirst, hread⟩ :=
      statement_of_isStatement hstatement hlater.head_ne_string
    generalize htokens : first :: more ++ later = tokens at hothers
    cases hothers with
    | nil => cases htokens
    | newline hnewline' hlater' =>
      cases htokens
      exact absurd hnewline' hfirst
    | @statement kind' tokens' later' phrases' hstatement' hlater' =>
      obtain ⟨first', more', rfl, -, hread'⟩ :=
        statement_of_isStatement hstatement' hlater'.head_ne_string
      obtain ⟨rfl, hmore⟩ : first = first' ∧ more ++ later = more' ++ later' := List.cons.inj htokens
      rw [hmore, hread', Prod.mk.injEq] at hread
      obtain ⟨hnode, rfl⟩ := hread
      obtain rfl := List.append_cancel_right hmore
      obtain rfl : kind' = kind := congrArg Node.kind hnode
      rw [ih hlater']

/-! ### What is read is derived -/

theorem hasError_errorNode (first : Token) (more : List Token) :
    (errorNode first more).hasError = true := by
  rw [Node.hasError_eq]
  rfl

/-- The parts of a header without an error are a title and a tempo, with nothing more in the
header. -/
theorem exists_headerParts {tokens : List Token}
    (hclean : ∀ node ∈ (headerParts tokens).1, node.hasError = false) :
    ∃ title tempo : Option Token, (∀ token ∈ title, token.kind = .string) ∧
      (∀ token ∈ tempo, token.kind = .number) ∧
      tokens = title.toList ++ tempo.toList ++ (headerParts tokens).2 ∧
      ∀ token ∈ (headerParts tokens).2.head?, token.inHeader = false := by
  obtain ⟨title, htitle, hafterTitle, -⟩ := exists_optional .string tokens
  obtain ⟨tempo, htempo, hafterTempo, -⟩ := exists_optional .number (optional .string tokens).2
  refine ⟨title, tempo, htitle, htempo, ?_, fun token htoken => ?_⟩
  · -- What else is in the header would be an error.
    have hstray : (optional .number (optional .string tokens).2).2.takeWhile Token.inHeader = [] := by
      cases h : (optional .number (optional .string tokens).2).2.takeWhile Token.inHeader with
      | nil => rfl
      | cons first more =>
        have herror := hclean (errorNode first more) (by simp [headerParts, h])
        rw [hasError_errorNode] at herror
        cases herror
    have hrest := List.takeWhile_append_dropWhile (p := Token.inHeader)
      (l := (optional .number (optional .string tokens).2).2)
    rw [hstray, List.nil_append] at hrest
    show tokens = _ ++ (optional .number (optional .string tokens).2).2.dropWhile Token.inHeader
    rw [hrest, List.append_assoc, ← hafterTempo, ← hafterTitle]
  · have hend := List.head?_dropWhile_not Token.inHeader
      (optional .number (optional .string tokens).2).2
    have hrest : ((optional .number (optional .string tokens).2).2.dropWhile
      Token.inHeader).head? = some token := htoken
    rw [hrest] at hend
    exact hend

/-- **A statement without an error is derived** from the first of its tokens. -/
theorem exists_isStatement {first : Token} {tokens : List Token}
    (hclean : (statement first tokens).1.hasError = false) :
    ∃ kind own, IsStatement (statement first tokens).2 kind own ∧
      first :: tokens = own ++ (statement first tokens).2 := by
  have hrecover : ∀ next, (recover first next).1.hasError ≠ false := by
    intro next
    rw [recover, hasError_errorNode]
    exact Bool.noConfusion
  unfold statement at hclean ⊢
  split at hclean
  · next hlabel =>
    cases tokens with
    | nil => exact absurd hclean (hrecover [])
    | cons next rest =>
      simp only [named] at hclean ⊢
      split at hclean
      · next hequals =>
        obtain ⟨value, hvalue, hrest, -⟩ := exists_optional .string rest
        refine ⟨_, _, .metadata hlabel hequals hvalue, ?_⟩
        show first :: next :: rest = first :: next :: (value.toList ++ (optional .string rest).2)
        rw [← hrest]
      · next hcode => exact ⟨_, _, .track hlabel hcode, rfl⟩
      · exact absurd hclean (hrecover _)
  · next hopening =>
    have hparts : ∀ node ∈ (headerParts tokens).1, node.hasError = false := by
      rw [← Node.anyError_eq_false_iff]
      unfold header at hclean
      split at hclean
      · next parts hread =>
        rw [hread]
        exact hclean
      · next parts token rest hread =>
        rw [hread]
        split at hclean <;> exact hclean
    obtain ⟨title, tempo, htitle, htempo, htokens, hend⟩ := exists_headerParts hparts
    unfold header
    split
    · next parts hread =>
      rw [hread] at htokens
      refine ⟨_, _, .openHeader hopening htitle htempo (by simp [EndsLine]), ?_⟩
      rw [htokens, List.cons_append]
    · next parts token rest hread =>
      rw [hread] at htokens hend
      split
      · next hclosing =>
        refine ⟨_, _, .closedHeader hopening htitle htempo (eq_of_beq hclosing), ?_⟩
        rw [htokens, List.cons_append, List.append_assoc _ [token], List.singleton_append]
      · next hclosing =>
        -- What ends a header, and does not close it, is a line break.
        have hnewline : token.kind = .newline := by
          have hout : token.inHeader = false := hend token rfl
          have hopen : token.kind ≠ .closeBracket := fun h => hclosing (beq_iff_eq.2 h)
          simpa [Token.inHeader, Token.inLine, hopen] using hout
        refine ⟨_, _, .openHeader hopening htitle htempo (by simp [EndsLine, hnewline]), ?_⟩
        rw [htokens, List.cons_append]
  · exact absurd hclean (hrecover tokens)

/-- **What is read without an error is derived.** -/
theorem exists_derives {tokens : List Token}
    (hclean : ∀ node ∈ statements tokens, node.hasError = false) :
    ∃ phrases, Derives tokens phrases := by
  fun_induction statements tokens with
  | case1 => exact ⟨[], .nil⟩
  | case2 token rest hnewline ih =>
    obtain ⟨phrases, hrest⟩ := ih hclean
    exact ⟨phrases, .newline (eq_of_beq hnewline) hrest⟩
  | case3 token rest hnewline found ih =>
    obtain ⟨hfound, hrest⟩ := List.forall_mem_cons.1 hclean
    obtain ⟨kind, own, hstatement, htokens⟩ := exists_isStatement hfound
    obtain ⟨phrases, hlater⟩ := ih hrest
    rw [htokens]
    exact ⟨_, .statement hstatement hlater⟩

/-! ### The two together -/

/-- The kinds of statements are no errors. -/
theorem IsStatement.kind_ne {later : List Token} {kind : NodeKind} {tokens : List Token}
    (h : IsStatement later kind tokens) : kind ≠ .error := by
  cases h <;> exact NodeKind.noConfusion

/-- The node of a statement has no error in it. -/
theorem Phrase.hasError_node {phrase : Phrase} (h : phrase.kind ≠ .error) :
    phrase.node.hasError = false := by
  have hparts : Node.anyError ((phrase.tokens.filter Token.isPart).map Token.toLeaf) = false := by
    rw [Node.anyError_eq_false_iff, List.forall_mem_map]
    intro token htoken
    have hpart : (leafKind token.kind != .error) = true := (List.mem_filter.1 htoken).2
    simpa [Node.hasError_eq, Token.toLeaf, Node.leaf, Node.kind, Node.children, Node.anyError]
      using hpart
  simp [Node.hasError_eq, node, Node.kind, Node.children, h, hparts]

/-- Tokens that derive give statements without errors. -/
theorem Derives.hasError_statements {tokens : List Token} {phrases : List Phrase}
    (h : Derives tokens phrases) : ∀ node ∈ statements tokens, node.hasError = false := by
  rw [statements_of_derives h, List.forall_mem_map]
  intro phrase hphrase
  refine Phrase.hasError_node ?_
  induction h with
  | nil => cases hphrase
  | newline hnewline hlater ih => exact ih hphrase
  | statement hstatement hlater ih =>
    rcases List.mem_cons.1 hphrase with rfl | hphrase
    · exact hstatement.kind_ne
    · exact ih hphrase

/-- Some tokens are read without an error just if they are derived. -/
theorem hasError_parseTokens_eq_false_iff (tokens : List Token) :
    (parseTokens tokens).hasError = false ↔
      ∃ phrases, Derives (tokens.takeWhile Token.inSource) phrases := by
  have hkind : (parseTokens tokens).kind = .program := Node.kind_branch ..
  have hchildren : (parseTokens tokens).children = statements (tokens.takeWhile Token.inSource) :=
    Node.children_branch ..
  rw [Node.hasError_eq, hkind, hchildren, Bool.or_eq_false_iff, Node.anyError_eq_false_iff]
  constructor
  · exact fun h => exists_derives h.2
  · rintro ⟨phrases, h⟩
    exact ⟨rfl, h.hasError_statements⟩

namespace Node

mutual

/-- A tree has an error if one of its nodes is one. -/
theorem hasError_iff_preorder :
    ∀ node : Node, node.hasError = true ↔ ∃ n ∈ node.preorder, n.kind = .error
  | mk kind span children => by
    rw [hasError, preorder, Bool.or_eq_true, beq_iff_eq, anyError_iff_preorderAll children]
    simp [Node.kind]

/-- There is an error in some nodes just if it is one of them or one below them. -/
theorem anyError_iff_preorderAll :
    ∀ nodes : List Node, anyError nodes = true ↔ ∃ n ∈ preorderAll nodes, n.kind = .error
  | [] => by simp [anyError, preorderAll]
  | node :: rest => by
    rw [anyError, preorderAll, Bool.or_eq_true, hasError_iff_preorder node,
      anyError_iff_preorderAll rest]
    simp only [List.mem_append, or_and_right, exists_or]

end

end Node

/-- **The language of the notation.**  Whatever tokens there are, those before the first `eof` are
read without an error node just if they are statements and line breaks.  Then they are so in one way
only, and the tree has the nodes of these statements, in order and with a part for each name, string,
number and code.  Otherwise the tree is known to have an error. -/
theorem clean_iff_derives (tokens : List Token) :
    let source := tokens.takeWhile Token.inSource
    let tree := parseTokens tokens
    ((∀ node ∈ tree.preorder, node.kind ≠ .error) ↔ ∃ phrases, Derives source phrases) ∧
      (∀ phrases, Derives source phrases → tree.children = phrases.map Phrase.node ∧
        ∀ others, Derives source others → others = phrases) ∧
      (tree.hasError = true ↔ ¬∃ phrases, Derives source phrases) := by
  intro source tree
  have hderives := hasError_parseTokens_eq_false_iff tokens
  have herror : tree.hasError = true ↔ ¬∃ phrases, Derives source phrases := by
    rw [← hderives, Bool.not_eq_false]
  refine ⟨?_, fun phrases h => ⟨?_, fun others hothers => h.unique hothers⟩, herror⟩
  · rw [← hderives, ← Bool.not_eq_true, Node.hasError_iff_preorder, not_exists]
    exact forall_congr' fun node => not_and.symm
  · rw [← statements_of_derives h]
    exact Node.children_branch ..

/-- Metadata without a value and a header without a bracket on one line, and a track behind them.  What
comes after the `eof` does not count. -/
def unfinishedLine : List Token :=
  [⟨.name, ⟨0, 5⟩⟩, ⟨.equals, ⟨6, 7⟩⟩, ⟨.openBracket, ⟨8, 9⟩⟩, ⟨.number, ⟨9, 12⟩⟩,
    ⟨.newline, ⟨12, 13⟩⟩, ⟨.name, ⟨13, 15⟩⟩, ⟨.code, ⟨16, 19⟩⟩, ⟨.eof, ⟨19, 19⟩⟩,
    ⟨.unknown, ⟨19, 20⟩⟩]

/-- Metadata without a value, an open header and a track derive. -/
theorem derives_unfinishedLine : Derives (unfinishedLine.takeWhile Token.inSource)
    [⟨.metadata, [⟨.name, ⟨0, 5⟩⟩, ⟨.equals, ⟨6, 7⟩⟩]⟩,
      ⟨.header, [⟨.openBracket, ⟨8, 9⟩⟩, ⟨.number, ⟨9, 12⟩⟩]⟩,
      ⟨.track, [⟨.name, ⟨13, 15⟩⟩, ⟨.code, ⟨16, 19⟩⟩]⟩] := by
  have htrack : Derives [⟨.name, ⟨13, 15⟩⟩, ⟨.code, ⟨16, 19⟩⟩]
      [⟨.track, [⟨.name, ⟨13, 15⟩⟩, ⟨.code, ⟨16, 19⟩⟩]⟩] :=
    .statement (.track rfl rfl) .nil
  have hheader : IsStatement [⟨.newline, ⟨12, 13⟩⟩, ⟨.name, ⟨13, 15⟩⟩, ⟨.code, ⟨16, 19⟩⟩] .header
      [⟨.openBracket, ⟨8, 9⟩⟩, ⟨.number, ⟨9, 12⟩⟩] :=
    @IsStatement.openHeader _ _ none (some ⟨.number, ⟨9, 12⟩⟩) rfl (by simp) (by simp)
      (by simp [EndsLine])
  exact .statement (@IsStatement.metadata _ _ _ none rfl rfl (by simp))
    (.statement hheader (.newline rfl htrack))

/-- So these lines are read without an error, and their statements are those of the phrases. -/
theorem clean_iff_derives_unfinishedLine :
    (∃ phrases, Derives (unfinishedLine.takeWhile Token.inSource) phrases) ∧
      (parseTokens unfinishedLine).children =
        [.mk .metadata ⟨0, 5⟩ [.leaf .name ⟨0, 5⟩], .mk .header ⟨8, 12⟩ [.leaf .number ⟨9, 12⟩],
          .mk .track ⟨13, 19⟩ [.leaf .name ⟨13, 15⟩, .leaf .code ⟨16, 19⟩]] :=
  ⟨⟨_, derives_unfinishedLine⟩,
    ((clean_iff_derives unfinishedLine).2.1 _ derives_unfinishedLine).1⟩

end Gamelan.Notation
