import Gamelan.Yaml.Token.Quoted

namespace Gamelan.Yaml

/-!
# Plain scalars

A plain scalar ends at a colon or a comment, in a flow collection also at a bracket or a comma, and at
a line that is not indented deeper than the block around it.
-/

/-- Where a plain scalar stands. -/
structure Surroundings where
  /-- Whether it is part of a flow collection. -/
  inFlow : Bool
  /-- The least column of its lines. -/
  indent : Nat

/-- The characters that set parts of flow collections off. -/
def isFlowSeparator (c : Char) : Bool :=
  c == ',' || c == '[' || c == ']' || c == '\x7b' || c == '\x7d'

/-- Whether a plain scalar ends before a text, wherever the text stands. -/
def endsPlain (s : Surroundings) : List Char → Bool
  | [] => true
  | c :: rest => (c == ':' && spaceAhead rest) || (s.inFlow && isFlowSeparator c)

/-- Whether a plain scalar ends before a text that follows a gap. -/
def endsPlainAfterGap (s : Surroundings) (p : Position) (text : List Char) : Bool :=
  text.head? == some '#' || (p.column == 0 && startsWithMark text)
    || (!s.inFlow && p.column < s.indent)

/-- Whether a text starts with a colon that has no meaning in a flow collection. -/
def hasStrayColon (s : Surroundings) : List Char → Bool
  | ':' :: c :: _ => s.inFlow && (isFlowSeparator c || c == '?')
  | _ => false

/-- The text of a plain scalar after a gap, and whether a line ends behind it. -/
def readPlain (s : Surroundings) (gap : Gap) (p : Position) :
    List Char → Option ((List Char × Cursor) × Bool)
  | [] => some (([], ⟨[], p⟩), gap.isBroken)
  | c :: rest =>
    if isBlank c || isBreak c then
      if c == '\t' && gap.isBroken && p.column < s.indent then none
      else readPlain s (gap.add c) (p.after c) rest
    else if gap != .empty && endsPlainAfterGap s p (c :: rest) then
      some (([], ⟨c :: rest, p⟩), gap.isBroken)
    else if hasStrayColon s (c :: rest) then none
    else if endsPlain s (c :: rest) then some (([], ⟨c :: rest, p⟩), gap.isBroken)
    else
      (readPlain s .empty (p.after c) rest).map fun ((text, cursor), broken) =>
        ((gap.text ++ c :: text, cursor), broken)

end Gamelan.Yaml
