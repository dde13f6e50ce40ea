import Gamelan.Notation.Token
import Gamelan.Text.Bytes

namespace Gamelan.Notation

open Gamelan.Text

/-!
# Syntax trees

A node carries its kind, its span and its meaningful parts; punctuation has no node.

* `Node` — the trees.
* `Node.branch` — a node that spans its children.
* `Node.text` — the source text of a node.
* `Node.hasError` — whether there is input in the tree that fits no statement.
* `Node.preorder` — all nodes, each before its children.
-/

/-- What a node stands for. -/
inductive NodeKind where
  | program
  /-- `name = "value"` -/
  | metadata
  /-- `["title" tempo]` -/
  | header
  /-- `label |code|` -/
  | track
  | name
  | number
  | string
  | code
  /-- Input that fits no statement. -/
  | error
deriving DecidableEq, Repr, Inhabited

/-- A node of a syntax tree. -/
inductive Node where
  | mk (kind : NodeKind) (span : Span) (children : List Node)
deriving Inhabited

namespace Node

def kind : Node → NodeKind
  | mk k _ _ => k

def span : Node → Span
  | mk _ s _ => s

def children : Node → List Node
  | mk _ _ ns => ns

/-- A node without children. -/
def leaf (kind : NodeKind) (span : Span) : Node :=
  mk kind span []

/-- A node from the start of its first child to the end of its last; `fallback` is the span of a node
without children. -/
def branch (kind : NodeKind) (children : List Node) (fallback : Span) : Node :=
  match children.head?, children.getLast? with
  | some first, some last => mk kind ⟨first.span.start, last.span.stop⟩ children
  | _, _ => mk kind fallback children

/-- The first child of a kind. -/
def child? (node : Node) (kind : NodeKind) : Option Node :=
  node.children.find? (·.kind == kind)

/-- The text of a node, empty if its span is no part of the source. -/
def text (source : List Char) (node : Node) : List Char :=
  (slice? source node.span.start node.span.stop).getD []

/-! ### Whole trees -/

mutual

/-- Whether a tree holds an error node. -/
def hasError : Node → Bool
  | mk kind _ children => kind == .error || anyError children

/-- Whether one of several trees holds an error node. -/
def anyError : List Node → Bool
  | [] => false
  | node :: rest => node.hasError || anyError rest

end

mutual

/-- The nodes of a tree, each before its children. -/
def preorder : Node → List Node
  | mk kind span children => mk kind span children :: preorderAll children

/-- The nodes of several trees, one tree after the other. -/
def preorderAll : List Node → List Node
  | [] => []
  | node :: rest => node.preorder ++ preorderAll rest

end

end Node

end Gamelan.Notation
