namespace Gamelan.Yaml

/-!
# Characters of YAML

The classes of characters that the rules for scalars and tokens speak of.
-/

/-- Whether a character is white space within a line. -/
def isBlank (c : Char) : Bool :=
  c == ' ' || c == '\t'

/-- Whether a character ends a line. -/
def isBreak (c : Char) : Bool :=
  c == '\n' || c == '\r' || c == '\u0085' || c == '\u2028' || c == '\u2029'

/-- Whether a text starts with white space, or is at its end. -/
def spaceAhead : List Char → Bool
  | [] => true
  | c :: _ => isBlank c || isBreak c

/-- The mark that can start a text to tell its encoding. -/
def byteOrderMark : Char := '\ufeff'

/-- Whether a character may stand in a text. -/
def isAllowed (c : Char) : Bool :=
  c == '\t' || c == '\n' || c == '\r' || c == '\u0085' || (' ' ≤ c && c ≤ '~')
    || ('\u00a0' ≤ c && c != '\ufffe' && c != '\uffff')

/-- Whether a character may be written as it is: one that shows, or a separator of lines or
paragraphs. -/
def isPrintable (c : Char) : Bool :=
  isAllowed c && c != byteOrderMark && c != '\t' && c != '\n' && c != '\r' && c != '\u0085'

/-- Whether a character may stand in the name of an anchor, a tag handle or a directive. -/
def isNameCharacter (c : Char) : Bool :=
  c.isAlphanum || c == '_' || c == '-'

/-- Whether a text starts with one of the two marks between documents. -/
def startsLikeMark (text : List Char) : Bool :=
  text.take 3 == ['-', '-', '-'] || text.take 3 == ['.', '.', '.']

/-- Whether a text starts with a mark between documents that stands alone. -/
def startsWithMark (text : List Char) : Bool :=
  startsLikeMark text && spaceAhead (text.drop 3)

end Gamelan.Yaml
