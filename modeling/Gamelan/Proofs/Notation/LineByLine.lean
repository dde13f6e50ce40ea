import Gamelan.Proofs.Notation.Spelling

namespace Gamelan.Notation

open Gamelan.Text

/-!
# Line by line

A source text is read line by line: each line adds its statements to the score built so far, and
what it holds is nobody else's business.

* `readText` — the score after some more text.
* `parse_eq_readText` — a source text is what is read after nothing.
* `readText_append_newline` — a text with a line break in it is read part by part.
* `parse_line_by_line` — the statements and the score of a text, from its lines.
-/

/-! ### Reading statements -/

/-- The score after some more nodes, their children apart. -/
def readAll (source : List Char) (score : Score) (nodes : List Node) : Score :=
  nodes.foldl (fun score node => (readNode source score node).1) score

@[simp] theorem readAll_nil (source : List Char) (score : Score) :
    readAll source score [] = score := rfl

@[simp] theorem readAll_cons (source : List Char) (score : Score) (node : Node) (rest : List Node) :
    readAll source score (node :: rest) = readAll source (readNode source score node).1 rest := rfl

/-- Nodes one behind the other are read one after the other. -/
theorem readAll_append (source : List Char) (score : Score) (nodes more : List Node) :
    readAll source score (nodes ++ more) = readAll source (readAll source score nodes) more :=
  List.foldl_append

/-- Beside what it reports, reading some nodes is going through them. -/
theorem readNodes_fst (source : List Char) (score : Score) (nodes : List Node) :
    (readNodes source score nodes).1 = readAll source score nodes := by
  induction nodes generalizing score with
  | nil => rfl
  | cons node rest ih => exact ih _

/-- The score after some more text: its statements are added one by one. -/
def readText (score : Score) (text : List Char) : Score :=
  readAll text score (parseTree text).children

/-- A part of a statement means nothing on its own. -/
theorem IsPart.readNode_fst {tokens : List Token} {part : Node} (h : IsPart tokens part)
    (source : List Char) (score : Score) : (readNode source score part).1 = score := by
  obtain ⟨span, rfl⟩ | ⟨t, -, rfl⟩ := h
  · rfl
  · obtain ⟨kind, span⟩ := t
    cases kind <;> rfl

/-- The parts of a statement add nothing to the statement. -/
theorem readAll_preorderAll_parts {tokens : List Token} (source : List Char) (score : Score)
    {parts : List Node} (h : ∀ part ∈ parts, IsPart tokens part) :
    readAll source score (Node.preorderAll parts) = score := by
  induction parts with
  | nil => rfl
  | cons part rest ih =>
    obtain ⟨hpart, hrest⟩ := List.forall_mem_cons.1 h
    rw [Node.preorderAll, hpart.isLeaf.preorder_eq, List.singleton_append, readAll_cons,
      hpart.readNode_fst]
    exact ih hrest

/-- Going through all nodes below some statements reads the statements only. -/
theorem readAll_preorderAll {tokens : List Token} (source : List Char) (score : Score)
    {nodes : List Node} (h : ∀ node ∈ nodes, ∀ part ∈ node.children, IsPart tokens part) :
    readAll source score (Node.preorderAll nodes) = readAll source score nodes := by
  induction nodes generalizing score with
  | nil => rfl
  | cons node rest ih =>
    obtain ⟨kind, span, parts⟩ := node
    have hparts := readAll_preorderAll_parts source
      (readNode source score (.mk kind span parts)).1 (h _ List.mem_cons_self)
    rw [Node.preorderAll, Node.preorder, readAll_append, readAll_cons, readAll_cons]
    rw [Node.children] at hparts
    rw [hparts]
    exact ih _ fun node hnode => h node (List.mem_cons_of_mem _ hnode)

/-- A source text is read as what comes after nothing. -/
theorem parse_eq_readText (source : List Char) : parse source = readText .empty source := by
  have hkind : ∃ span, parseTree source = .mk .program span (parseTree source).children := by
    unfold parseTree parseTokens Node.branch
    split <;> exact ⟨_, rfl⟩
  obtain ⟨span, hspan⟩ := hkind
  have hparts : ∀ node ∈ (parseTree source).children, ∀ part ∈ node.children,
      IsPart (tokensFrom 0 source) part := by
    intro node hnode part hpart
    rw [children_parseTree] at hnode
    exact isPart_of_mem_statements hnode hpart
  rw [parse, parseWithRemarks, readTree, readNodes_fst, hspan, Node.preorder, readAll_cons]
  exact readAll_preorderAll source .empty hparts

/-! ### Reading elsewhere -/

/-- A child that is found is one of the children, and of the kind asked for. -/
theorem mem_children_of_child? {node part : Node} {kind : NodeKind}
    (h : node.child? kind = some part) : part ∈ node.children ∧ part.kind = kind :=
  ⟨List.mem_of_find?_eq_some h, by simpa using List.find?_some h⟩

/-- The first child of a kind moves with its node. -/
theorem child?_moved (f g : Nat → Nat) (node : Node) (kind : NodeKind) :
    (node.moved f g).child? kind = (node.child? kind).map (Node.moved f g) := by
  have hkind : (fun part : Node => part.kind == kind) ∘ Node.moved f g = (·.kind == kind) := by
    funext part
    simp
  rw [Node.child?, Node.children_moved, List.find?_map, hkind]
  rfl

/-- **A statement reads the same wherever its parts have the same texts**, errors apart. -/
theorem readNode_moved {f g : Nat → Nat} {source source' : List Char} {node : Node}
    (h : ∀ part ∈ node.children, part.kind ≠ .error →
      (part.moved f g).text source' = part.text source) (score : Score) :
    (readNode source' score (node.moved f g)).1 = (readNode source score node).1 := by
  have htext : ∀ {kind part}, node.child? kind = some part → kind ≠ .error →
      (part.moved f g).text source' = part.text source := by
    intro kind part hpart hkind
    obtain ⟨hmem, rfl⟩ := mem_children_of_child? hpart
    exact h part hmem hkind
  unfold readNode
  rw [Node.kind_moved]
  -- One case for each kind of statement; anything else leaves the score as it is.
  split
  · simp only [readMetadata, child?_moved]
    cases hname : node.child? .name with
    | none => rfl
    | some name =>
      cases hvalue : node.child? .string with
      | none => rfl
      | some value =>
        simp only [Option.map_some, inside, htext hname (by decide), htext hvalue (by decide)]
  · have htitle : ((node.child? .string).map (Node.moved f g)).map (inside source') =
        (node.child? .string).map (inside source) := by
      rw [Option.map_map]
      exact Option.map_congr fun part hpart => congrArg unwrap (htext hpart (by decide))
    have htempo : ((node.child? .number).map (Node.moved f g)).map
        (fun part => readTempo (part.text source')) =
          (node.child? .number).map fun part => readTempo (part.text source) := by
      rw [Option.map_map]
      exact Option.map_congr fun part hpart => congrArg readTempo (htext hpart (by decide))
    simp only [readHeader, child?_moved, htitle, htempo]
  · simp only [readTrack, child?_moved]
    cases hlabel : node.child? .name with
    | none => rfl
    | some label =>
      cases hcode : node.child? .code with
      | none => rfl
      | some code =>
        simp only [Option.map_some, inside, htext hlabel (by decide), htext hcode (by decide)]
        split <;> rfl
  · rfl
  · rfl

/-- Nodes are read the same at another place, if the texts of their parts are the same there. -/
theorem readAll_moved {f g : Nat → Nat} {source source' : List Char} {nodes : List Node}
    (h : ∀ node ∈ nodes, ∀ part ∈ node.children, part.kind ≠ .error →
      (part.moved f g).text source' = part.text source) (score : Score) :
    readAll source' score (nodes.map (Node.moved f g)) = readAll source score nodes := by
  induction nodes generalizing score with
  | nil => rfl
  | cons node rest ih =>
    obtain ⟨hnode, hrest⟩ := List.forall_mem_cons.1 h
    rw [List.map_cons, readAll_cons, readAll_cons, readNode_moved hnode, ih hrest]

/-! ### A part of a text -/

/-- A part of a statement reads the same wherever its line stands. -/
theorem text_shift {line : List Char} {node part : Node} (h : node ∈ (parseTree line).children)
    (hpart : part ∈ node.children) (hkind : part.kind ≠ .error) (before after : List Char) :
    (part.shift (byteLength before)).text (before ++ line ++ after) = part.text line := by
  obtain ⟨word, hword, -⟩ := spelled_of_mem_children h hpart hkind
  rw [Node.text, Node.text, Node.shift_eq_moved, Node.span_moved, hword.slice?]
  exact congrArg (Option.getD · []) (hword.within before after).slice?

/-- **Statements read the same wherever their line stands.** -/
theorem readAll_shift (line before after : List Char) (score : Score) :
    readAll (before ++ line ++ after) score
        ((parseTree line).children.map (Node.shift (byteLength before))) =
      readText score line := by
  have hshift : Node.shift (byteLength before) =
      Node.moved (byteLength before + ·) (byteLength before + ·) :=
    funext (Node.shift_eq_moved _)
  rw [hshift]
  refine readAll_moved (fun node hnode part hpart hkind => ?_) score
  rw [← hshift]
  exact text_shift hnode hpart hkind before after

/-- The statements of a text that starts at byte `offset` of its source. -/
theorem map_shift_children_parseTree (offset : Nat) (text : List Char) :
    (parseTree text).children.map (Node.shift offset) = statements (tokensFrom offset text) := by
  rw [children_parseTree, ← statements_map_shift, ← tokensFrom_add, Nat.add_zero]

/-- **A text with a line break in it is read part by part.** -/
theorem readText_append_newline (score : Score) (text more : List Char) :
    readText score (text ++ '\n' :: more) = readText (readText score text) more := by
  have hfirst := readAll_shift text [] ('\n' :: more) score
  have hsecond := readAll_shift more (text ++ ['\n']) [] (readText score text)
  have hstart : (parseTree text).children.map (Node.shift (byteLength [])) =
      (parseTree text).children := by
    rw [map_shift_children_parseTree, children_parseTree]
    rfl
  have hbreak : byteLength (text ++ ['\n']) = byteLength text + 1 := byteLength_append text ['\n']
  rw [List.nil_append, hstart] at hfirst
  rw [List.append_nil, List.append_assoc, List.singleton_append, hbreak] at hsecond
  rw [readText, children_parseTree_append_newline, readAll_append, hfirst, hsecond]

/-! ### All lines -/

/-- The statements of some lines, each line behind a line break, the first at byte `offset`. -/
def statementsFrom (offset : Nat) : List (List Char) → List Node
  | [] => []
  | line :: rest =>
    (parseTree line).children.map (Node.shift offset) ++
      statementsFrom (offset + byteLength line + 1) rest

/-- The statements of a text are those of its lines, one line after the other. -/
theorem statements_of_lines (offset : Nat) (line : List Char) (rest : List (List Char)) :
    statements (tokensFrom offset (['\n'].intercalate (line :: rest))) =
      statementsFrom offset (line :: rest) := by
  induction rest generalizing offset line with
  | nil =>
    rw [List.intercalate_singleton, statementsFrom, statementsFrom, List.append_nil,
      map_shift_children_parseTree]
  | cons next rest ih =>
    rw [List.intercalate_cons_cons, List.append_assoc, List.singleton_append,
      tokensFrom_append_newline, statements_append_newline _ _ rfl, ih,
      ← map_shift_children_parseTree]
    rfl

/-- A text is read line by line. -/
theorem readText_of_lines (score : Score) (line : List Char) (rest : List (List Char)) :
    readText score (['\n'].intercalate (line :: rest)) = (line :: rest).foldl readText score := by
  induction rest generalizing score line with
  | nil => rw [List.intercalate_singleton, List.foldl_cons, List.foldl_nil]
  | cons next rest ih =>
    rw [List.intercalate_cons_cons, List.append_assoc, List.singleton_append,
      readText_append_newline, ih]
    rfl

/-- **Lines have nothing to do with each other.**  The statements of two texts joined by a line break
are those of the first and those of the second, every span as many bytes further on as the second
starts.  So the statements of a text are those of its lines, each where its line stands, and its score
is built line by line: each step takes the score so far and the text of one line. -/
theorem parse_line_by_line :
    (∀ text more : List Char,
      (parseTree (text ++ '\n' :: more)).children =
        (parseTree text).children ++
          (parseTree more).children.map (Node.shift (byteLength text + 1))) ∧
    ∀ source : List Char,
      (parseTree source).children = statementsFrom 0 (source.splitOn '\n') ∧
      parse source = (source.splitOn '\n').foldl readText .empty := by
  refine ⟨children_parseTree_append_newline, fun source => ?_⟩
  have hjoin : ['\n'].intercalate (source.splitOn '\n') = source := List.intercalate_splitOn '\n'
  obtain ⟨line, rest, hlines⟩ := List.exists_cons_of_ne_nil (List.splitOn_ne_nil '\n' source)
  rw [hlines] at hjoin ⊢
  constructor
  · rw [children_parseTree, ← statements_of_lines, hjoin]
  · rw [parse_eq_readText, ← readText_of_lines, hjoin]

end Gamelan.Notation
