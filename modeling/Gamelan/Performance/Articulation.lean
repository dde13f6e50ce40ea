import Gamelan.Text.BaseLetter

namespace Gamelan

open Gamelan.Text

/-!
# Accents

On every instrument but the drums, an accented vowel is played late and as its plain letter.

* `isAccented` — whether a symbol counts as accented on a label.
* `articulate` — the symbol that is played, and whether it is late.
-/

/-- The symbols that carry an accent. -/
def accentedSymbols : List Char :=
  ['Í', 'Ó', 'É', 'Ú', 'Á', 'í', 'ó', 'é', 'ú', 'á', 'ć']

/-- The labels on which accents mean nothing. -/
def unaccentedLabels : List String :=
  ["kkr", "krw", "krl"]

/-- How a symbol is played. -/
structure Articulation where
  symbol : Char
  delayed : Bool
deriving DecidableEq, Repr

/-- Whether a symbol counts as accented on a label. -/
def isAccented (label : String) (symbol : Char) : Bool :=
  !unaccentedLabels.contains label && accentedSymbols.contains symbol

/-- How a symbol is played on a label: late and without its accent if it is accented. -/
def articulate (label : String) (symbol : Char) : Articulation :=
  if isAccented label symbol then ⟨baseLetter symbol, true⟩ else ⟨symbol, false⟩

end Gamelan
