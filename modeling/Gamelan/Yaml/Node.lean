import Gamelan.Yaml.Token.Scan

namespace Gamelan.Yaml

/-!
# Nodes

The tokens of a text make up a tree of scalars, sequences and mappings.  A node with an anchor can be
referred to by an alias.

* `Node` — the trees.
* `readDocument?` — the tree of a text that holds one document at most.
* `Node.resolve` — what an alias refers to.
-/

/-- A tree.  Anchors and aliases are numbers, one for every name in use. -/
inductive Node where
  | scalar (anchor : Option Nat) (tag : Option (List Char)) (style : Style) (text : List Char)
  | sequence (anchor : Option Nat) (items : List Node)
  | mapping (anchor : Option Nat) (entries : List (Node × Node))
  | reference (number : Nat)

namespace Node

/-- The scalar that stands where nothing is written. -/
def empty : Node :=
  scalar none none .plain []

/-! ### Aliases -/

def anchor? : Node → Option Nat
  | scalar anchor .. => anchor
  | sequence anchor _ => anchor
  | mapping anchor _ => anchor
  | reference _ => none

mutual

/-- A tree and the trees in it, in the order of the text. -/
def preorder : Node → List Node
  | sequence anchor items => sequence anchor items :: preorderItems items
  | mapping anchor entries => mapping anchor entries :: preorderEntries entries
  | leaf => [leaf]

def preorderItems : List Node → List Node
  | [] => []
  | item :: rest => item.preorder ++ preorderItems rest

def preorderEntries : List (Node × Node) → List Node
  | [] => []
  | (key, value) :: rest => key.preorder ++ value.preorder ++ preorderEntries rest

end

/-- What an alias in a tree refers to, the last anchor of its number; any other node is itself. -/
def resolve (root : Node) : Node → Node
  | reference number => (root.preorder.reverse.find? (·.anchor? == some number)).getD (reference number)
  | node => node

end Node

/-! ### The state of the reading -/

/-- What is left to read, and the names that have been introduced. -/
structure NodeReader where
  tokens : List Token
  /-- What the handles of tags stand for. -/
  handles : List (List Char × List Char) := []
  /-- The numbers of anchors, the latest first. -/
  anchors : List (List Char × Nat) := []

/-- A reading that can fail. -/
abbrev ReadNodes := StateT NodeReader Option

/-- The next token. -/
def nextToken? : ReadNodes (Option Token) :=
  return (← get).tokens.head?

/-- Pass over the next token. -/
def passToken : ReadNodes Unit :=
  modify fun r => { r with tokens := r.tokens.tail }

/-- Pass over a token that has to be there. -/
def expectToken (t : Token) : ReadNodes Unit := do
  if (← nextToken?) == some t then passToken else failure

/-- Pass over a token if it is there. -/
def acceptToken (t : Token) : ReadNodes Bool := do
  if (← nextToken?) == some t then
    passToken
    return true
  else return false

/-- Whether the next token is one of some. -/
def isNext (ts : List Token) : ReadNodes Bool := do
  return (← nextToken?).any (ts.contains ·)

/-! ### Properties of nodes -/

/-- The anchor ahead. -/
def readAnchor : ReadNodes (Option (List Char)) := do
  match ← nextToken? with
  | some (.anchor name) =>
    passToken
    return some name
  | _ => return none

/-- The tag ahead, its handle replaced by what it stands for. -/
def readTag : ReadNodes (Option (List Char)) := do
  match ← nextToken? with
  | some (.tag handle suffix) =>
    passToken
    if handle.isEmpty then return some suffix
    else
      match (← get).handles.lookup handle with
      | some start => return some (start ++ suffix)
      | none => failure
  | _ => return none

/-- The anchor and the tag ahead, in either order. -/
def readProperties : ReadNodes (Option (List Char) × Option (List Char)) := do
  match ← readAnchor with
  | some name => return (some name, ← readTag)
  | none =>
    let tag ← readTag
    if tag.isSome then return (← readAnchor, tag) else return (none, none)

/-- The number of an anchor from here on: the count of the names known so far. -/
def introduce (name : List Char) : ReadNodes Nat := do
  let r ← get
  let number := r.anchors.length
  set { r with anchors := (name, number) :: r.anchors.filter (·.1 != name) }
  return number

/-- The alias of a known name. -/
def referenceTo (name : List Char) : ReadNodes Node := do
  match (← get).anchors.lookup name with
  | some number => return .reference number
  | none => failure

/-! ### Nodes from tokens -/

mutual

/-- The node ahead: in a block or in a flow collection, and perhaps where a sequence need not be
indented. -/
def readNode (inBlock sequenceAllowed : Bool) : Nat → ReadNodes Node
  | 0 => failure
  | fuel + 1 => do
    match ← nextToken? with
    | some (.reference name) =>
      passToken
      referenceTo name
    | _ =>
      let (name, tag) ← readProperties
      let anchor ← name.mapM introduce
      match ← nextToken?, inBlock with
      | some (.scalar style text), _ =>
        passToken
        return .scalar anchor tag style text
      | some .flowSequence, _ =>
        passToken
        return .sequence anchor (← readFlowItems true fuel)
      | some .flowMapping, _ =>
        passToken
        return .mapping anchor (← readFlowEntries true fuel)
      | some .blockSequence, true =>
        passToken
        return .sequence anchor (← readBlockItems fuel)
      | some .blockMapping, true =>
        passToken
        return .mapping anchor (← readBlockEntries fuel)
      | some .blockEntry, _ =>
        if sequenceAllowed then return .sequence anchor (← readSameIndentItems fuel)
        else if name.isSome || tag.isSome then return .scalar anchor tag .plain []
        else failure
      | _, _ =>
        if name.isSome || tag.isSome then return .scalar anchor tag .plain [] else failure

/-- A node, or the empty one before some tokens. -/
def readNodeUnless (ends : List Token) (inBlock sequenceAllowed : Bool) : Nat → ReadNodes Node
  | 0 => failure
  | fuel + 1 => do
    if ← isNext ends then return .empty else readNode inBlock sequenceAllowed fuel

/-- The items of a block sequence. -/
def readBlockItems : Nat → ReadNodes (List Node)
  | 0 => failure
  | fuel + 1 => do
    if ← acceptToken .blockEnd then return []
    else
      expectToken .blockEntry
      let item ← readNodeUnless [.blockEntry, .blockEnd] true false fuel
      return item :: (← readBlockItems fuel)

/-- The items of a sequence at the indentation of the mapping around it. -/
def readSameIndentItems : Nat → ReadNodes (List Node)
  | 0 => failure
  | fuel + 1 => do
    if ← acceptToken .blockEntry then
      let item ← readNodeUnless [.blockEntry, .key, .value, .blockEnd] true false fuel
      return item :: (← readSameIndentItems fuel)
    else return []

/-- The entries of a block mapping. -/
def readBlockEntries : Nat → ReadNodes (List (Node × Node))
  | 0 => failure
  | fuel + 1 => do
    if ← acceptToken .blockEnd then return []
    else
      expectToken .key
      let key ← readNodeUnless [.key, .value, .blockEnd] true true fuel
      let value ←
        if ← acceptToken .value then readNodeUnless [.key, .value, .blockEnd] true true fuel
        else pure .empty
      return (key, value) :: (← readBlockEntries fuel)

/-- The items of a flow sequence; a pair is a mapping of its own.  An empty key takes the token behind
it along. -/
def readFlowItems (first : Bool) : Nat → ReadNodes (List Node)
  | 0 => failure
  | fuel + 1 => do
    if ← acceptToken .flowSequenceEnd then return []
    else
      if !first then expectToken .flowEntry
      if ← acceptToken .flowSequenceEnd then return []
      else if ← acceptToken .key then
        let keyless ← isNext [.value, .flowEntry, .flowSequenceEnd]
        let key ← if keyless then pure .empty else readNode false false fuel
        if keyless then passToken
        let value ←
          if ← acceptToken .value then
            readNodeUnless [.flowEntry, .flowSequenceEnd] false false fuel
          else pure .empty
        return .mapping none [(key, value)] :: (← readFlowItems false fuel)
      else
        let item ← readNode false false fuel
        return item :: (← readFlowItems false fuel)

/-- The entries of a flow mapping; a key may stand without a value. -/
def readFlowEntries (first : Bool) : Nat → ReadNodes (List (Node × Node))
  | 0 => failure
  | fuel + 1 => do
    if ← acceptToken .flowMappingEnd then return []
    else
      if !first then expectToken .flowEntry
      if ← acceptToken .flowMappingEnd then return []
      else if ← acceptToken .key then
        let key ← readNodeUnless [.value, .flowEntry, .flowMappingEnd] false false fuel
        let value ←
          if ← acceptToken .value then
            readNodeUnless [.flowEntry, .flowMappingEnd] false false fuel
          else pure .empty
        return (key, value) :: (← readFlowEntries false fuel)
      else
        let key ← readNode false false fuel
        return (key, .empty) :: (← readFlowEntries false fuel)

end

/-! ### Documents -/

/-- The handles that need no directive. -/
def standardHandles : List (List Char × List Char) :=
  [(['!'], ['!']), (['!', '!'], "tag:yaml.org,2002:".toList)]

/-- The directives ahead: at most one version, a known one, and no handle twice. -/
def readDirectives (versionSeen : Bool) : Nat → ReadNodes Unit
  | 0 => failure
  | fuel + 1 => do
    match ← nextToken? with
    | some (.versionDirective major minor) =>
      if versionSeen || major != 1 || !(minor == 1 || minor == 2) then failure
      else
        passToken
        readDirectives true fuel
    | some (.tagDirective handle start) =>
      if ((← get).handles.lookup handle).isSome then failure
      else
        passToken
        modify fun r => { r with handles := r.handles ++ [(handle, start)] }
        readDirectives versionSeen fuel
    | _ => return

/-- Pass over the marks that end a document. -/
def passDocumentEnds : ReadNodes Unit :=
  modify fun r => { r with tokens := r.tokens.dropWhile (· == .documentEnd) }

/-- Whether the document ahead starts with a directive or a mark. -/
def isExplicit : ReadNodes Bool := do
  match ← nextToken? with
  | some (.versionDirective ..) | some (.tagDirective ..) | some .documentStart => return true
  | _ => return false

/-- The document ahead, with its directives and marks. -/
def readExplicitDocument (fuel : Nat) : ReadNodes Node := do
  readDirectives false fuel
  modify fun r => { r with handles := r.handles ++ standardHandles }
  expectToken .documentStart
  if (← isExplicit) || (← isNext [.documentEnd]) || (← nextToken?).isNone then return .empty
  else readNode true false fuel

/-- The document ahead; `none` where no tokens are left. -/
def readDocument (fuel : Nat) : ReadNodes (Option Node) := do
  if (← nextToken?).isNone then return none
  else if ← isExplicit then return some (← readExplicitDocument fuel)
  else
    modify fun r => { r with handles := standardHandles }
    return some (← readNode true false fuel)

/-- The document of some tokens and nothing behind it. -/
def readOnlyDocument (fuel : Nat) : ReadNodes (Option Node) := do
  let document ← readDocument fuel
  passDocumentEnds
  if (← nextToken?).isNone then return document else failure

/-- The document of a text: `none` if the text is not well formed or holds more than one, `some none`
if it holds none.  Three readings at most are nested before one of them passes a token, which bounds
the depth of all. -/
def readDocument? (text : String) : Option (Option Node) := do
  let tokens ← tokens? text.toList
  let (document, _) ← (readOnlyDocument (3 * tokens.length + 3)).run { tokens := tokens }
  return document

end Gamelan.Yaml
