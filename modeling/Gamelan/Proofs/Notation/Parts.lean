import Gamelan.Proofs.Notation.Lines

namespace Gamelan.Notation

/-!
# Statements and their tokens

A statement takes some tokens off a list, and its node stands for them.  A name, number, string or code
becomes a part as it is, a run of tokens that fits nothing becomes an error, and the signs of a statement
become nothing.  That is so for every statement, whether it has an error in it or not.

* `IsPart` — the parts that tokens can make.
* `Node.leaves` — the nodes of a tree that stand for tokens.
* `hull` — the range of a run.
* `Leaves` — how leaves stand for tokens.
* `Token.IsEqualsOf`, `Token.IsBracketOf` — the signs of statements.
* `Node.IsMadeOf`, `isMadeOf_statement` — how a statement is made of its tokens.
* `statement_suffix`, `isPart_of_mem_statement` — what it leaves, and what its parts are.
-/

/-! ### Parts -/

/-- Whether a token becomes a part of its statement. -/
def Token.isPart (token : Token) : Bool :=
  leafKind token.kind != .error

/-- Whether a node is a part that some tokens can make: one of them, or an error. -/
def IsPart (tokens : List Token) (node : Node) : Prop :=
  (∃ span, node = .leaf .error span) ∨ ∃ t ∈ tokens, node = t.toLeaf

theorem IsPart.mono {tokens more : List Token} {node : Node} (h : IsPart tokens node)
    (hsub : tokens ⊆ more) : IsPart more node := by
  obtain h | ⟨t, ht, rfl⟩ := h
  · exact .inl h
  · exact .inr ⟨t, hsub ht, rfl⟩

/-- An optional part is there if it was read. -/
theorem exists_optional (kind : TokenKind) (tokens : List Token) :
    ∃ part : Option Token, (∀ token ∈ part, token.kind = kind) ∧
      tokens = part.toList ++ (optional kind tokens).2 ∧
      (optional kind tokens).1 = part.toList.map Token.toLeaf := by
  cases tokens with
  | nil => exact ⟨none, by simp, rfl, rfl⟩
  | cons token rest =>
    by_cases hkind : token.kind = kind
    · exact ⟨some token, by simp [hkind], by simp [optional, hkind], by simp [optional, hkind]⟩
    · exact ⟨none, by simp, by simp [optional, hkind], by simp [optional, hkind]⟩

/-! ### Runs -/

/-- The range from one range to the last of some more. -/
def hull (first : Span) (more : List Span) : Span :=
  ⟨first.start, (more.getLast?.getD first).stop⟩

theorem hull_cons (first second : Span) (more : List Span) :
    hull first (second :: more) = ⟨first.start, (hull second more).stop⟩ := by
  rw [hull, List.getLast?_cons]
  rfl

/-! ### Leaves of a tree -/

/-- Whether a node of a kind stands for tokens. -/
def NodeKind.isLeaf : NodeKind → Bool
  | .name | .number | .string | .code | .error => true
  | .program | .metadata | .header | .track => false

namespace Node

/-- The nodes of a tree that stand for tokens. -/
def leaves (tree : Node) : List Node :=
  tree.preorder.filter (·.kind.isLeaf)

/-- Whether a node is a leaf. -/
def IsLeaf (node : Node) : Prop :=
  node.kind.isLeaf ∧ node.children = []

/-- Going through some nodes is going through one after the other. -/
theorem preorderAll_eq_flatMap (nodes : List Node) :
    preorderAll nodes = nodes.flatMap preorder := by
  induction nodes with
  | nil => rfl
  | cons node rest ih => rw [preorderAll, ih, List.flatMap_cons]

/-- Going through a node starts with the node itself. -/
theorem preorder_eq (node : Node) : node.preorder = node :: preorderAll node.children := by
  cases node
  rw [preorder]
  rfl

/-- There is nothing below a leaf. -/
theorem IsLeaf.preorder_eq {node : Node} (h : node.IsLeaf) : node.preorder = [node] := by
  rw [Node.preorder_eq, h.2, preorderAll]

theorem IsLeaf.leaves_eq {node : Node} (h : node.IsLeaf) : node.leaves = [node] := by
  simp [leaves, h.preorder_eq, h.1]

/-- A node of leaves has no other nodes below it. -/
theorem preorder_of_isLeaf {node : Node} (h : ∀ part ∈ node.children, part.IsLeaf) :
    node.preorder = node :: node.children := by
  have hparts : ∀ parts : List Node, (∀ part ∈ parts, part.IsLeaf) → preorderAll parts = parts := by
    intro parts hparts
    induction parts with
    | nil => rfl
    | cons part rest ih =>
      obtain ⟨hpart, hrest⟩ := List.forall_mem_cons.1 hparts
      rw [preorderAll, hpart.preorder_eq, ih hrest, List.singleton_append]
  rw [preorder_eq, hparts node.children h]

/-- If the children of a node are leaves, they are its leaves. -/
theorem leaves_of_isLeaf {node : Node} (hkind : node.kind.isLeaf = false)
    (h : ∀ part ∈ node.children, part.IsLeaf) : node.leaves = node.children := by
  rw [leaves, preorder_of_isLeaf h, List.filter_cons_of_neg (by simp [hkind]),
    List.filter_eq_self.2 fun part hpart => (h part hpart).1]

/-- A node from its first child to its last spans the run of them. -/
theorem span_branch (kind : NodeKind) (first : Node) (more : List Node) (fallback : Span) :
    (branch kind (first :: more) fallback).span = hull first.span (more.map Node.span) := by
  rw [hull, List.getLast?_map]
  cases more with
  | nil => rfl
  | cons second more =>
    rw [branch, List.head?_cons, List.getLast?_cons, List.getLast?_cons]
    rfl

end Node

/-- A part is a leaf. -/
theorem IsPart.isLeaf {tokens : List Token} {part : Node} (h : IsPart tokens part) :
    part.IsLeaf := by
  obtain ⟨span, rfl⟩ | ⟨t, -, rfl⟩ := h
  · exact ⟨rfl, rfl⟩
  · obtain ⟨kind, span⟩ := t
    cases kind <;> exact ⟨rfl, rfl⟩

/-- An error reaches from its first token to its last one. -/
theorem span_errorNode (first : Token) (more : List Token) :
    (errorNode first more).span = hull first.span (more.map Token.span) := by
  rw [hull, List.getLast?_map]
  cases h : more.getLast? <;> simp [errorNode, h, Node.span, Node.leaf]

/-! ### What leaves stand for -/

/-- How leaves stand for tokens: a part for a token, an error for a run of tokens, and none for a
sign. -/
inductive Leaves (sign : Token → Prop) : List Token → List Node → Prop where
  | nil : Leaves sign [] []
  | part {t : Token} {tokens : List Token} {leaves : List Node} (ht : t.isPart)
      (hrest : Leaves sign tokens leaves) : Leaves sign (t :: tokens) (t.toLeaf :: leaves)
  | error (first : Token) (more : List Token) {tokens : List Token} {leaves : List Node}
      (hrest : Leaves sign tokens leaves) :
      Leaves sign (first :: (more ++ tokens)) (errorNode first more :: leaves)
  | sign {t : Token} {tokens : List Token} {leaves : List Node} (ht : sign t)
      (hrest : Leaves sign tokens leaves) : Leaves sign (t :: tokens) leaves

namespace Leaves

variable {sign : Token → Prop} {tokens : List Token} {leaves : List Node}

/-- Leaves that stand for tokens can be put one behind the other. -/
theorem append {tokens' : List Token} {leaves' : List Node} (h : Leaves sign tokens leaves)
    (h' : Leaves sign tokens' leaves') : Leaves sign (tokens ++ tokens') (leaves ++ leaves') := by
  induction h with
  | nil => exact h'
  | part ht hrest ih => exact .part ht ih
  | error first more hrest ih =>
    rw [List.cons_append, List.append_assoc]
    exact .error first more ih
  | sign ht hrest ih => exact .sign ht ih

/-- Signs behind the tokens have no leaves. -/
theorem append_signs {signs : List Token} (h : Leaves sign tokens leaves)
    (hsigns : ∀ t ∈ signs, sign t) : Leaves sign (tokens ++ signs) leaves := by
  have hnone : Leaves sign signs [] := by
    induction signs with
    | nil => exact .nil
    | cons t rest ih =>
      obtain ⟨ht, hrest⟩ := List.forall_mem_cons.1 hsigns
      exact .sign ht (ih hrest)
  have hlast := h.append hnone
  rwa [List.append_nil] at hlast

/-- More tokens may count as signs. -/
theorem mono {sign' : Token → Prop} (h : Leaves sign tokens leaves)
    (hsign : ∀ t ∈ tokens, sign t → sign' t) : Leaves sign' tokens leaves := by
  induction h with
  | nil => exact .nil
  | part ht hrest ih => exact .part ht (ih (List.forall_mem_cons.1 hsign).2)
  | error first more hrest ih =>
    have hrun := (List.forall_mem_cons.1 hsign).2
    exact .error first more (ih fun t h => hrun t (List.mem_append_right more h))
  | sign ht hrest ih =>
    obtain ⟨hfirst, hrest⟩ := List.forall_mem_cons.1 hsign
    exact .sign (hfirst ht) (ih hrest)

/-- Names, numbers, strings and codes are leaves as they are. -/
theorem of_parts (h : ∀ t ∈ tokens, t.isPart) : Leaves sign tokens (tokens.map Token.toLeaf) := by
  induction tokens with
  | nil => exact .nil
  | cons t rest ih =>
    obtain ⟨ht, hrest⟩ := List.forall_mem_cons.1 h
    exact .part ht (ih hrest)

/-- An error stands for all tokens of its line. -/
theorem of_error (first : Token) (more : List Token) :
    Leaves sign (first :: more) [errorNode first more] := by
  have h : Leaves sign (first :: (more ++ [])) [errorNode first more] := .error first more .nil
  rwa [List.append_nil] at h

/-- What stands for tokens are parts that they make. -/
theorem isPart (h : Leaves sign tokens leaves) : ∀ leaf ∈ leaves, IsPart tokens leaf := by
  induction h with
  | nil => simp
  | @part t tokens leaves ht hrest ih =>
    refine List.forall_mem_cons.2 ⟨.inr ⟨t, List.mem_cons_self, rfl⟩, fun leaf h => ?_⟩
    exact (ih leaf h).mono (List.subset_cons_self t tokens)
  | @error first more tokens leaves hrest ih =>
    refine List.forall_mem_cons.2 ⟨.inl ⟨_, rfl⟩, fun leaf h => ?_⟩
    exact (ih leaf h).mono (List.subset_append_right (first :: more) tokens)
  | @sign t tokens leaves ht hrest ih =>
    exact fun leaf h => (ih leaf h).mono (List.subset_cons_self t tokens)

/-- What stands for tokens are leaves. -/
theorem isLeaf (h : Leaves sign tokens leaves) : ∀ leaf ∈ leaves, leaf.IsLeaf :=
  fun leaf hleaf => (h.isPart leaf hleaf).isLeaf

/-- Where tokens without a sign end, their leaves end. -/
theorem getLast_stop (h : Leaves (fun _ => False) tokens leaves) (start : Nat) :
    (leaves.getLast?.map (·.span.stop)).getD start =
      (tokens.getLast?.map (·.span.stop)).getD start := by
  induction h generalizing start with
  | nil => rfl
  | @part t tokens leaves ht hrest ih =>
    have hlast := ih t.span.stop
    rw [List.getLast?_cons, List.getLast?_cons]
    simp only [Option.map_some, Option.getD_some]
    rw [← Option.getD_map fun leaf : Node => leaf.span.stop,
      ← Option.getD_map fun token : Token => token.span.stop]
    exact hlast
  | @error first more tokens leaves hrest ih =>
    -- An error node ends with the last of its tokens.
    have hlast := ih (hull first.span (more.map Token.span)).stop
    rw [List.getLast?_cons, List.getLast?_cons, List.getLast?_append]
    simp only [Option.map_some, Option.getD_some]
    rw [← Option.getD_map fun leaf : Node => leaf.span.stop,
      ← Option.getD_map fun token : Token => token.span.stop, span_errorNode, hlast]
    cases tokens.getLast? with
    | none => simp [hull, List.getLast?_map, Option.getD_map]
    | some last => rfl
  | sign ht hrest ih => exact ht.elim

end Leaves

/-! ### Signs of statements -/

/-- Whether a token is the equals sign of metadata: the token behind its label. -/
def Token.IsEqualsOf (tokens : List Token) (t : Token) (node : Node) : Prop :=
  node.kind = .metadata ∧ t.kind = .equals ∧
    ∃ label, node.child? .name = some label.toLeaf ∧ [label, t] <:+: tokens

/-- Whether a token is a bracket of a header: it opens the header at its start or closes it at its
end. -/
def Token.IsBracketOf (t : Token) (node : Node) : Prop :=
  node.kind = .header ∧ (t.kind = .openBracket ∧ t.span.start = node.span.start ∨
    t.kind = .closeBracket ∧ t.span.stop = node.span.stop)

theorem Token.IsEqualsOf.mono {tokens more : List Token} {t : Token} {node : Node}
    (h : t.IsEqualsOf tokens node) (hmore : tokens <:+: more) : t.IsEqualsOf more node := by
  obtain ⟨hnode, ht, label, hlabel, hinfix⟩ := h
  exact ⟨hnode, ht, label, hlabel, hinfix.trans hmore⟩

/-! ### Statements of their tokens -/

/-- How a statement is made: it spans the tokens from `first` on, except signs that come `later`, and
its leaves stand for what it spans. -/
structure Node.IsMadeOf (node : Node) (first : Token) (more later : List Token) : Prop where
  span : node.span = hull first.span (more.map Token.span)
  leaves : Leaves (fun t => t.IsEqualsOf (first :: (more ++ later)) node ∨ t.IsBracketOf node)
    (first :: more) node.leaves
  later : ∀ t ∈ later, t.IsEqualsOf (first :: (more ++ later)) node
  preorder : node.preorder = node :: node.children
  children : List.Sublist node.children node.leaves

/-- A statement of some leaves. -/
theorem Node.IsMadeOf.of_leaves {node : Node} {first : Token} {more later : List Token}
    (hkind : node.kind.isLeaf = false) (hspan : node.span = hull first.span (more.map Token.span))
    (hleaves : Leaves (fun t => t.IsEqualsOf (first :: (more ++ later)) node ∨ t.IsBracketOf node)
      (first :: more) node.children)
    (hlater : ∀ t ∈ later, t.IsEqualsOf (first :: (more ++ later)) node) :
    node.IsMadeOf first more later := by
  have heq := leaves_of_isLeaf hkind hleaves.isLeaf
  exact ⟨hspan, heq.symm ▸ hleaves, hlater, preorder_of_isLeaf hleaves.isLeaf,
    heq.symm ▸ List.Sublist.refl _⟩

theorem isMadeOf_errorNode (first : Token) (more : List Token) :
    (errorNode first more).IsMadeOf first more [] := by
  have hleaf : (errorNode first more).IsLeaf := ⟨rfl, rfl⟩
  refine ⟨span_errorNode first more, ?_, by simp, hleaf.preorder_eq, List.nil_sublist _⟩
  rw [hleaf.leaves_eq]
  exact .of_error first more

/-- What does not fit is an error up to the end of its line. -/
theorem isMadeOf_recover (first : Token) (tokens : List Token) :
    ∃ more later, tokens = more ++ later ++ (recover first tokens).2 ∧
      (recover first tokens).1.IsMadeOf first more later := by
  refine ⟨tokens.takeWhile Token.inLine, [], ?_, isMadeOf_errorNode _ _⟩
  rw [List.append_nil]
  exact List.takeWhile_append_dropWhile.symm

/-- Metadata is made of its label and its value, and the equals sign is its own. -/
theorem isMadeOf_metadata {label equals : Token} (hlabel : label.kind = .name)
    (hequals : equals.kind = .equals) (tokens : List Token) :
    ∃ more later, equals :: tokens = more ++ later ++ (metadata label tokens).2 ∧
      (metadata label tokens).1.IsMadeOf label more later := by
  obtain ⟨value, hvalue, hafter, hread⟩ := exists_optional .string tokens
  obtain ⟨fallback, hmetadata⟩ : ∃ fallback, metadata label tokens =
      (.branch .metadata (label.toLeaf :: value.toList.map Token.toLeaf) fallback,
        (optional .string tokens).2) := by
    rw [← hread]
    exact ⟨_, rfl⟩
  rw [hmetadata]
  generalize hnode : Node.branch .metadata (label.toLeaf :: value.toList.map Token.toLeaf)
    fallback = node
  have hkind : node.kind = .metadata := by rw [← hnode, Node.kind_branch]
  have hchildren : node.children = label.toLeaf :: value.toList.map Token.toLeaf := by
    rw [← hnode, Node.children_branch]
  have hspan : node.span = hull label.span (value.toList.map Token.span) := by
    rw [← hnode, Node.span_branch, List.map_map]
    rfl
  have hpart : label.isPart := by simp [Token.isPart, leafKind, hlabel]
  have hsign : ∀ later, equals.IsEqualsOf (label :: equals :: later) node := by
    intro later
    refine ⟨hkind, hequals, label, ?_, (List.prefix_append [label, equals] later).isInfix⟩
    rw [Node.child?, hchildren]
    simp [Token.toLeaf, leafKind, hlabel, Node.kind, Node.leaf]
  -- Without a value, the equals sign is behind the node.
  cases value with
  | none =>
    refine ⟨[], [equals], congrArg (List.cons equals) hafter,
      .of_leaves (by rw [hkind]; rfl) hspan ?_ ?_⟩
    · rw [hchildren]
      exact .part hpart .nil
    · simpa using hsign []
  | some token =>
    have htoken : token.isPart := by simp [Token.isPart, leafKind, hvalue token rfl]
    refine ⟨[equals, token], [], congrArg (List.cons equals) hafter,
      .of_leaves (by rw [hkind]; rfl) hspan ?_ (by simp)⟩
    rw [hchildren]
    exact .part hpart (.sign (.inl (hsign [token])) (.part htoken .nil))

/-- A track is made of its label and its code. -/
theorem isMadeOf_track {label code : Token} (hlabel : label.kind = .name)
    (hcode : code.kind = .code) : (track label code).IsMadeOf label [code] [] := by
  have hparts : ∀ t ∈ [label, code], t.isPart := by simp [Token.isPart, leafKind, hlabel, hcode]
  refine .of_leaves ?_ (Node.span_branch ..) ?_ (by simp)
  · rw [track, Node.kind_branch]
    rfl
  · rw [track, Node.children_branch]
    exact .of_parts hparts

/-- The parts of a header stand for the tokens before its end. -/
theorem leaves_headerParts (tokens : List Token) :
    ∃ own, tokens = own ++ (headerParts tokens).2 ∧
      Leaves (fun _ => False) own (headerParts tokens).1 := by
  obtain ⟨title, htitle, hafterTitle, hreadTitle⟩ := exists_optional .string tokens
  obtain ⟨tempo, htempo, hafterTempo, hreadTempo⟩ :=
    exists_optional .number (optional .string tokens).2
  have hrest := List.takeWhile_append_dropWhile (p := Token.inHeader)
    (l := (optional .number (optional .string tokens).2).2)
  refine ⟨title.toList ++ tempo.toList ++
    (optional .number (optional .string tokens).2).2.takeWhile Token.inHeader, ?_, ?_⟩
  · show tokens = _ ++ (optional .number (optional .string tokens).2).2.dropWhile Token.inHeader
    rw [List.append_assoc _ (List.takeWhile ..), hrest, List.append_assoc, ← hafterTempo,
      ← hafterTitle]
  · unfold headerParts
    simp only [hreadTitle, hreadTempo]
    refine ((Leaves.of_parts fun t ht => ?_).append (.of_parts fun t ht => ?_)).append ?_
    · simp [Token.isPart, leafKind, htitle t (Option.mem_toList.1 ht)]
    · simp [Token.isPart, leafKind, htempo t (Option.mem_toList.1 ht)]
    · -- What else is in the header is one error.
      cases (optional .number (optional .string tokens).2).2.takeWhile Token.inHeader with
      | nil => exact .nil
      | cons first more => exact .of_error first more

/-- A header up to the end of its last part. -/
theorem isMadeOf_openHeader {opening : Token} (hopening : opening.kind = .openBracket)
    {own : List Token} {parts : List Node} (hparts : Leaves (fun _ => False) own parts) :
    (header.headerNode opening parts (header.lastStop opening parts)).IsMadeOf opening own [] := by
  refine .of_leaves rfl ?_ (.sign (.inr ⟨rfl, .inl ⟨hopening, rfl⟩⟩) (hparts.mono ?_)) (by simp)
  · show (⟨_, header.lastStop opening parts⟩ : Span) = _
    rw [header.lastStop, hparts.getLast_stop, hull, List.getLast?_map]
    cases own.getLast? <;> rfl
  · exact fun t _ hsign => hsign.elim

/-- A header up to its closing bracket. -/
theorem isMadeOf_closedHeader {opening closing : Token} (hopening : opening.kind = .openBracket)
    (hclosing : closing.kind = .closeBracket) {own : List Token} {parts : List Node}
    (hparts : Leaves (fun _ => False) own parts) :
    (header.headerNode opening parts closing.span.stop).IsMadeOf opening (own ++ [closing]) [] := by
  refine .of_leaves rfl ?_ (.sign (.inr ⟨rfl, .inl ⟨hopening, rfl⟩⟩) ?_) (by simp)
  · rw [hull, List.map_append, List.map_singleton, List.getLast?_concat]
    rfl
  · refine (hparts.mono fun t _ hsign => hsign.elim).append_signs ?_
    simp [Token.IsBracketOf, hclosing, header.headerNode, Node.kind, Node.span]

/-- A header is made of what stands between its brackets. -/
theorem isMadeOf_header {opening : Token} (hopening : opening.kind = .openBracket)
    (tokens : List Token) :
    ∃ more later, tokens = more ++ later ++ (header opening tokens).2 ∧
      (header opening tokens).1.IsMadeOf opening more later := by
  obtain ⟨own, htokens, hparts⟩ := leaves_headerParts tokens
  unfold header
  split
  · next parts hread =>
    rw [hread] at htokens hparts
    exact ⟨own, [], by simpa using htokens, isMadeOf_openHeader hopening hparts⟩
  · next parts token rest hread =>
    rw [hread] at htokens hparts
    split
    · next hclosing =>
      exact ⟨own ++ [token], [], by simpa using htokens,
        isMadeOf_closedHeader hopening (eq_of_beq hclosing) hparts⟩
    · exact ⟨own, [], by simpa using htokens, isMadeOf_openHeader hopening hparts⟩

/-- **A statement is made of the tokens that it takes.** -/
theorem isMadeOf_statement (first : Token) (tokens : List Token) :
    ∃ more later, tokens = more ++ later ++ (statement first tokens).2 ∧
      (statement first tokens).1.IsMadeOf first more later := by
  unfold statement
  split
  · next hlabel =>
    cases tokens with
    | nil => exact isMadeOf_recover first []
    | cons next rest =>
      simp only [named]
      split
      · next hequals => exact isMadeOf_metadata hlabel hequals rest
      · next hcode => exact ⟨[next], [], rfl, isMadeOf_track hlabel hcode⟩
      · exact isMadeOf_recover first (next :: rest)
  · next hopening => exact isMadeOf_header hopening tokens
  · exact isMadeOf_recover first tokens

/-- What a statement leaves comes last. -/
theorem statement_suffix (first : Token) (tokens : List Token) :
    (statement first tokens).2 <:+ tokens := by
  obtain ⟨more, later, htokens, -⟩ := isMadeOf_statement first tokens
  exact ⟨more ++ later, htokens.symm⟩

/-- The parts of a statement are made of its tokens. -/
theorem isPart_of_mem_statement {first : Token} {tokens : List Token} {node : Node}
    (h : node ∈ (statement first tokens).1.children) : IsPart (first :: tokens) node := by
  obtain ⟨more, later, htokens, hmade⟩ := isMadeOf_statement first tokens
  refine (hmade.leaves.isPart node (hmade.children.subset h)).mono ?_
  rw [htokens, List.append_assoc, ← List.cons_append]
  exact List.subset_append_left _ _

end Gamelan.Notation
