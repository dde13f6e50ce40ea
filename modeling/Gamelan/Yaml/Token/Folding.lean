import Gamelan.Yaml.Character

namespace Gamelan.Yaml

/-!
# Folding

Between two words of a scalar that runs over several lines, the space around the breaks goes; a single
break becomes a space, and of several the first goes.
-/

/-- What stands between two words. -/
inductive Gap where
  /-- White space on one line. -/
  | blanks (text : List Char)
  /-- Line breaks: the first, unless it is escaped, and more. -/
  | breaks (first : Option Char) (more : List Char)
deriving DecidableEq, Repr

namespace Gap

/-- Nothing between two words. -/
def empty : Gap :=
  blanks []

/-- A gap that goes on with a blank or a break. -/
def add (c : Char) : Gap → Gap
  | blanks text => if isBreak c then breaks (some c) [] else blanks (text ++ [c])
  | breaks first more => if isBreak c then breaks first (more ++ [c]) else breaks first more

/-- What is read for a gap. -/
def text : Gap → List Char
  | blanks text => text
  | breaks (some '\n') [] => [' ']
  | breaks (some '\n') more => more
  | breaks (some first) more => first :: more
  | breaks none more => more

/-- Whether a gap reaches over the end of a line. -/
def isBroken : Gap → Bool
  | blanks _ => false
  | breaks .. => true

end Gap

end Gamelan.Yaml
