import Gamelan.Proofs.Notation.Rows

namespace Gamelan.Notation

open Gamelan.Text

/-!
# What a tree covers

Every node of the tree of a text lies inside its parent and behind the nodes before it, and has some
text.  The leaves share the tokens out: a name, number, string or code is a leaf of its own or part of
an error, and so is every other token but line breaks, the signs of statements and the end.

* `Leaves.row`, `Leaves.covers` — what leaves cover.
* `Token.IsPunctuation` — the tokens that have no leaf.
* `row_statements`, `leaves_statements` — the statements and the leaves of a text.
* `Node.leavesAround`, `tokensIn` — the leaves around a range, and the tokens inside it.
* `spans_nest_and_cover` — the whole tree.
-/

/-! ### Leaves in a row -/

section
variable {sign : Token → Prop} {tokens : List Token} {leaves : List Node}

/-- **The leaves of tokens in a row are a row.** -/
theorem Leaves.row {text : List Char} {start stop : Nat} (h : Leaves sign tokens leaves)
    (hrow : Row text start (tokens.map Token.span) stop) :
    Row text start (leaves.map Node.span) stop := by
  induction h generalizing start with
  | nil => exact hrow
  | part ht hrest ih => exact ⟨hrow.1, hrow.2.1, ih hrow.2.2⟩
  | error first more hrest ih =>
    rw [List.map_cons, List.map_append] at hrow
    obtain ⟨middle, ⟨hstart, hsome, hmiddle⟩, -, hlater⟩ := hrow.run
    rw [List.map_cons, span_errorNode]
    exact ⟨hstart, hsome, ih (hlater.from_le hmiddle)⟩
  | sign ht hrest ih => exact ih hrow.tail

/-- **A token is a sign, a leaf, or part of an error.** -/
theorem Leaves.covers {text : List Char} {start stop : Nat} (h : Leaves sign tokens leaves)
    (hrow : Row text start (tokens.map Token.span) stop) :
    ∀ t ∈ tokens, sign t ∨ ∃ leaf ∈ leaves, t.span.Within leaf.span ∧
      (t.isPart ∧ leaf = t.toLeaf ∨ leaf.kind = .error) := by
  induction h generalizing start with
  | nil => simp
  | @part t tokens leaves ht hrest ih =>
    refine List.forall_mem_cons.2 ⟨.inr ?_, fun t' h' => ?_⟩
    · exact ⟨t.toLeaf, List.mem_cons_self, ⟨Nat.le_refl _, Nat.le_refl _⟩, .inl ⟨ht, rfl⟩⟩
    · exact (ih hrow.2.2 t' h').imp_right (.imp fun _ => .imp_left (List.mem_cons_of_mem _))
  | @error first more tokens leaves hrest ih =>
    rw [List.map_cons, List.map_append] at hrow
    obtain ⟨middle, -, hfill, hlater⟩ := hrow.run
    intro t ht
    rw [← List.cons_append, List.mem_append] at ht
    obtain ht | ht := ht
    · -- The error spans its run from end to end.
      rw [← span_errorNode] at hfill
      obtain ⟨hstart, -, hstop⟩ := hfill.of_mem (List.mem_map_of_mem ht)
      exact .inr ⟨_, List.mem_cons_self, ⟨hstart, hstop⟩, .inr rfl⟩
    · exact (ih hlater t ht).imp_right (.imp fun _ => .imp_left (List.mem_cons_of_mem _))
  | sign ht hrest ih => exact List.forall_mem_cons.2 ⟨.inl ht, ih hrow.2.2⟩

end

/-! ### Tokens without a leaf -/

/-- Whether a token ends a line or is a sign of one of some statements. -/
def Token.IsPunctuation (tokens : List Token) (nodes : List Node) (t : Token) : Prop :=
  t.kind = .newline ∨ ∃ node ∈ nodes, t.IsEqualsOf tokens node ∨
    t.IsBracketOf node ∧ t.span.Within node.span

theorem Token.IsPunctuation.mono {tokens tokens' : List Token} {nodes nodes' : List Node} {t : Token}
    (h : t.IsPunctuation tokens nodes) (htokens : tokens <:+: tokens') (hnodes : nodes ⊆ nodes') :
    t.IsPunctuation tokens' nodes' := by
  refine h.imp_right ?_
  rintro ⟨node, hnode, hsign⟩
  exact ⟨node, hnodes hnode, hsign.imp_left (·.mono htokens)⟩

/-- Punctuation is of one of four kinds. -/
theorem Token.IsPunctuation.kind {tokens : List Token} {nodes : List Node} {t : Token}
    (h : t.IsPunctuation tokens nodes) :
    t.kind = .newline ∨ t.kind = .equals ∨ t.kind = .openBracket ∨ t.kind = .closeBracket := by
  obtain hnewline | ⟨node, -, ⟨-, hequals, -⟩ | ⟨⟨-, ⟨hopen, -⟩ | ⟨hclose, -⟩⟩, -⟩⟩ := h
  · exact .inl hnewline
  · exact .inr (.inl hequals)
  · exact .inr (.inr (.inl hopen))
  · exact .inr (.inr (.inr hclose))

/-! ### Statements in a row -/

section
variable {text : List Char} {start stop : Nat}

/-- A statement takes the place of its tokens, and they fill it. -/
theorem Node.IsMadeOf.row {node : Node} {first : Token} {more later : List Token}
    (h : node.IsMadeOf first more later)
    (hrow : Row text start ((first :: (more ++ later)).map Token.span) stop) :
    Row text start [node.span] stop ∧
      Row text node.span.start ((first :: more).map Token.span) node.span.stop := by
  rw [List.map_cons, List.map_append] at hrow
  obtain ⟨middle, hplace, hfill, hlater⟩ := hrow.run
  rw [h.span]
  exact ⟨hplace.up_to hlater.le, hfill⟩

/-- The leaves of a statement stand for its tokens but its signs. -/
theorem Node.IsMadeOf.leaves_own {node : Node} {first : Token} {more later : List Token}
    (h : node.IsMadeOf first more later)
    (hrow : Row text start ((first :: (more ++ later)).map Token.span) stop) :
    Leaves (Token.IsPunctuation (first :: (more ++ later)) [node]) (first :: (more ++ later))
      node.leaves := by
  have hfill := (h.row hrow).2
  have hspanned : Leaves (Token.IsPunctuation (first :: (more ++ later)) [node]) (first :: more)
      node.leaves := by
    -- A bracket is among the tokens that the header spans, an equals sign may be behind its node.
    refine h.leaves.mono fun t ht hsign => .inr ⟨node, List.mem_singleton_self node, ?_⟩
    have hinside := hfill.of_mem (List.mem_map_of_mem ht)
    exact hsign.imp_right fun hbracket => ⟨hbracket, hinside.1, hinside.2.2⟩
  rw [← List.cons_append]
  exact hspanned.append_signs fun t ht =>
    .inr ⟨node, List.mem_singleton_self node, .inl (h.later t ht)⟩

/-- **The statements of tokens in a row are a row**, and each is made of its own tokens. -/
theorem row_statements {tokens : List Token} (hrow : Row text start (tokens.map Token.span) stop) :
    Row text start ((statements tokens).map Node.span) stop ∧
      ∀ node ∈ statements tokens, ∃ first more later, node.IsMadeOf first more later ∧
        Row text node.span.start ((first :: more).map Token.span) node.span.stop := by
  fun_induction statements tokens generalizing start with
  | case1 => exact ⟨hrow, by simp⟩
  | case2 token rest hnewline ih => exact ih hrow.tail
  | case3 token rest hnewline found =>
    rename_i ih
    obtain ⟨more, later, hrest, hmade⟩ := isMadeOf_statement token rest
    rw [hrest, ← List.cons_append, List.map_append] at hrow
    obtain ⟨middle, hown, hbehind⟩ := Row.append_iff.1 hrow
    obtain ⟨⟨hstart, hsome, hstop⟩, hfill⟩ := hmade.row hown
    obtain ⟨hnodes, hall⟩ := ih (hbehind.from_le hstop)
    exact ⟨⟨hstart, hsome, hnodes⟩,
      List.forall_mem_cons.2 ⟨⟨token, more, later, hmade, hfill⟩, hall⟩⟩

/-- **The leaves of the statements stand for all tokens** but the line breaks and the signs of
statements. -/
theorem leaves_statements {tokens : List Token}
    (hrow : Row text start (tokens.map Token.span) stop) :
    Leaves (Token.IsPunctuation tokens (statements tokens)) tokens
      ((statements tokens).flatMap Node.leaves) := by
  fun_induction statements tokens generalizing start with
  | case1 => exact .nil
  | case2 token rest hnewline ih =>
    exact .sign (.inl (eq_of_beq hnewline)) ((ih hrow.tail).mono fun t _ hsign =>
      hsign.mono (List.suffix_cons token rest).isInfix (List.Subset.refl _))
  | case3 token rest hnewline found =>
    rename_i ih
    obtain ⟨more, later, hrest, hmade⟩ := isMadeOf_statement token rest
    have htokens : token :: rest = token :: (more ++ later) ++ found.2 := by
      rw [List.cons_append, ← hrest]
    have hrow' := hrow
    rw [htokens, List.map_append] at hrow'
    obtain ⟨middle, hown, hbehind⟩ := Row.append_iff.1 hrow'
    -- The equals sign behind a label is behind it among all tokens, too.
    have hprefix : token :: (more ++ later) <:+: token :: rest :=
      htokens ▸ (List.prefix_append _ _).isInfix
    have hsuffix : found.2 <:+: token :: rest := htokens ▸ (List.suffix_append _ _).isInfix
    have hfirst := (hmade.leaves_own hown).mono fun t _ hsign =>
      hsign.mono hprefix (by simp : [found.1] ⊆ found.1 :: statements found.2)
    have hall := hfirst.append ((ih hbehind).mono fun t _ hsign =>
      hsign.mono hsuffix (List.subset_cons_self found.1 _))
    rwa [← htokens] at hall

end

/-! ### Whole trees -/

section
variable (source : List Char)

/-- The leaves of a tree that a range lies inside of. -/
def Node.leavesAround (tree : Node) (s : Span) : List Node :=
  tree.leaves.filter fun leaf => decide (s.Within leaf.span)

/-- The tokens of a text inside a range, the end of the text apart. -/
def tokensIn (s : Span) : List Token :=
  (scan source).filter fun t => t.inSource && decide (t.span.Within s)

/-- The leaves of a tree are those of its statements, in order. -/
theorem leaves_parseTree :
    (parseTree source).leaves = (statements (tokensFrom 0 source)).flatMap Node.leaves := by
  have hkind : (parseTree source).kind = .program := Node.kind_branch ..
  rw [Node.leaves, Node.preorder_eq, List.filter_cons_of_neg (by rw [hkind]; exact Bool.noConfusion),
    children_parseTree, Node.preorderAll_eq_flatMap, List.filter_flatMap]
  rfl

/-- Every node below the root has some text, and its children stand in a row inside it. -/
theorem row_of_mem_preorderAll {node : Node}
    (h : node ∈ Node.preorderAll (parseTree source).children) :
    node.span.CoversSome source ∧
      Row source node.span.start (node.children.map Node.span) node.span.stop := by
  rw [children_parseTree, Node.preorderAll_eq_flatMap, List.mem_flatMap] at h
  obtain ⟨statement, hstatement, hnode⟩ := h
  obtain ⟨hrow, hmade⟩ := row_statements (row_tokensFrom source)
  obtain ⟨first, more, later, hmade, hfill⟩ := hmade statement hstatement
  have hparts := (hmade.leaves.row hfill).sublist (hmade.children.map Node.span)
  rw [hmade.preorder, List.mem_cons] at hnode
  obtain rfl | hnode := hnode
  · exact ⟨(hrow.of_mem (List.mem_map_of_mem hstatement)).2.1, hparts⟩
  · -- A part of a statement has no parts.
    have hsome := (hparts.of_mem (List.mem_map_of_mem hnode)).2.1
    rw [(hmade.leaves.isLeaf node (hmade.children.subset hnode)).2]
    exact ⟨hsome, Nat.le_of_lt hsome.lt⟩

/-- The statements stand in a row inside the root. -/
theorem row_parseTree :
    Row source (parseTree source).span.start ((parseTree source).children.map Node.span)
      (parseTree source).span.stop := by
  have hrow := (row_statements (row_tokensFrom source)).1
  rw [children_parseTree]
  have hroot : ∃ stop, parseTree source =
      .branch .program (statements (tokensFrom 0 source)) ⟨0, stop⟩ := ⟨_, rfl⟩
  obtain ⟨stop, hroot⟩ := hroot
  rw [hroot]
  cases hstatements : statements (tokensFrom 0 source) with
  | nil => exact Nat.zero_le stop
  | cons first more =>
    rw [hstatements] at hrow
    rw [Node.span_branch]
    exact hrow.hull.2

/-- The children of any node stand in a row inside it. -/
theorem row_of_mem_preorder {node : Node} (h : node ∈ (parseTree source).preorder) :
    Row source node.span.start (node.children.map Node.span) node.span.stop := by
  rw [Node.preorder_eq, List.mem_cons] at h
  obtain rfl | h := h
  · exact row_parseTree source
  · exact (row_of_mem_preorderAll source h).2

/-- The leaves of a tree stand in a row. -/
theorem row_leaves_parseTree :
    Row source 0 ((parseTree source).leaves.map Node.span) (byteLength source) := by
  rw [leaves_parseTree]
  exact (leaves_statements (row_tokensFrom source)).row (row_tokensFrom source)

/-- Around a range with some text there is one leaf at most. -/
theorem leavesAround_eq {leaf : Node} {s : Span} (hleaf : leaf ∈ (parseTree source).leaves)
    (hs : s.start < s.stop) (hwithin : s.Within leaf.span) :
    (parseTree source).leavesAround s = [leaf] := by
  refine (row_leaves_parseTree source).filter_eq hleaf (decide_eq_true hwithin) fun other _ h => ?_
  obtain ⟨hstart, hstop⟩ := hwithin
  refine decide_eq_false ?_
  rintro ⟨hstart', hstop'⟩
  omega

/-- A token is the only one inside its range. -/
theorem tokensIn_eq {t : Token} (ht : t ∈ tokensFrom 0 source) : tokensIn source t.span = [t] := by
  have hsource : t.inSource := List.all_eq_true.1 List.all_takeWhile t ht
  have hend : Token.inSource ⟨.eof, ⟨byteLength source, byteLength source⟩⟩ = false := rfl
  rw [tokensIn, scan_eq, List.filter_append, List.filter_cons_of_neg (by simp [hend]), List.filter_nil,
    List.append_nil]
  refine (row_tokensFrom source).filter_eq ht ?_ fun other hsome h => ?_
  · simp [hsource, Span.Within]
  · have hlt := hsome.lt
    rw [decide_eq_false, Bool.and_false]
    rintro ⟨hstart, hstop⟩
    omega

/-- **The tree of a text nests and covers.**  Its nodes lie inside their parents, one behind the
other, and all but the root have some text.  Every name, number, string, code and unknown token lies
inside one leaf and no other.  A leaf that is no error is one token of its kind.  Any other token is
the end, a line break, the equals sign of metadata, a bracket of the header around it, or lies inside
one error. -/
theorem spans_nest_and_cover :
    let tree : Node := parseTree source
    (∀ node ∈ tree.preorder, (∀ child ∈ node.children, child.span.Within node.span) ∧
      node.children.Pairwise fun child next => child.span.stop ≤ next.span.start) ∧
    (∀ node ∈ Node.preorderAll tree.children, node.span.start < node.span.stop ∧
      ∃ word, word ≠ [] ∧ node.span.Covers source word ∧ node.text source = word) ∧
    (∀ t ∈ scan source, t.kind ∈ [.name, .number, .string, .code, .unknown] →
      ∃ leaf, tree.leavesAround t.span = [leaf]) ∧
    (∀ leaf ∈ tree.leaves, leaf.kind ≠ .error →
      ∃ t, tokensIn source leaf.span = [t] ∧ t.span = leaf.span ∧ leafKind t.kind = leaf.kind) ∧
    ∀ t ∈ scan source, t.kind ∉ [.name, .number, .string, .code, .unknown] →
      t.kind = .eof ∨ t.IsPunctuation (scan source) tree.children ∨
        ∃ leaf, tree.leavesAround t.span = [leaf] ∧ leaf.kind = .error := by
  intro tree
  have hrow := row_tokensFrom source
  have hleaves := leaves_statements hrow
  rw [← leaves_parseTree] at hleaves
  -- A token is the end, or a sign, or inside one leaf.
  have hcover : ∀ t ∈ tokensFrom 0 source,
      t.IsPunctuation (tokensFrom 0 source) (statements (tokensFrom 0 source)) ∨
        ∃ leaf, tree.leavesAround t.span = [leaf] ∧ (t.isPart ∧ leaf = t.toLeaf ∨
          leaf.kind = .error) := by
    intro t ht
    refine (hleaves.covers hrow t ht).imp_right ?_
    rintro ⟨leaf, hleaf, hwithin, hkind⟩
    have hsome := (hrow.of_mem (List.mem_map_of_mem ht)).2.1
    exact ⟨leaf, leavesAround_eq source hleaf hsome.lt hwithin, hkind⟩
  -- All tokens but the end are those before it.
  have hsource : ∀ t ∈ scan source, t.kind = .eof ∨ t ∈ tokensFrom 0 source := by
    intro t ht
    rw [scan_eq, List.mem_append, List.mem_singleton] at ht
    obtain ht | rfl := ht
    · exact .inr ht
    · exact .inl rfl
  refine ⟨fun node hnode => ?_, fun node hnode => ?_, fun t ht hkind => ?_,
    fun leaf hleaf hkind => ?_, fun t ht hkind => ?_⟩
  · have hchildren := row_of_mem_preorder source hnode
    refine ⟨fun child hchild => ?_, List.pairwise_map.1 hchildren.pairwise⟩
    obtain ⟨hstart, -, hstop⟩ := hchildren.of_mem (List.mem_map_of_mem hchild)
    exact ⟨hstart, hstop⟩
  · have hsome := (row_of_mem_preorderAll source hnode).1
    obtain ⟨word, hword, hcovers⟩ := id hsome
    exact ⟨hsome.lt, word, hword, hcovers, by rw [Node.text, hcovers.slice?, Option.getD_some]⟩
  · obtain heof | ht := hsource t ht
    · simp [heof] at hkind
    · obtain hsign | ⟨leaf, hleaf, -⟩ := hcover t ht
      · obtain h | h | h | h := hsign.kind <;> simp [h] at hkind
      · exact ⟨leaf, hleaf⟩
  · obtain ⟨span, rfl⟩ | ⟨t, ht, rfl⟩ := hleaves.isPart leaf hleaf
    · exact absurd rfl hkind
    · exact ⟨t, tokensIn_eq source ht, rfl, rfl⟩
  · refine (hsource t ht).imp_right fun ht => (hcover t ht).imp (fun hsign => ?_) ?_
    · rw [children_parseTree]
      refine hsign.mono ?_ (List.Subset.refl _)
      rw [scan_eq]
      exact (List.prefix_append _ _).isInfix
    · -- A token that is a leaf of its own would be a name, a number, a string or a code.
      rintro ⟨leaf, hleaf, ⟨hpart, -⟩ | herror⟩
      · obtain ⟨kind, span⟩ := t
        cases kind <;> simp_all [Token.isPart, leafKind]
      · exact ⟨leaf, hleaf, herror⟩

/-- What is neither title nor tempo of a header is one error, and its brackets have no leaf. -/
example : (parseTree "[\"a\" = ] b |x|".toList).leaves.map Node.span =
    [⟨1, 4⟩, ⟨5, 6⟩, ⟨9, 10⟩, ⟨11, 14⟩] := by cbv

end

end Gamelan.Notation
