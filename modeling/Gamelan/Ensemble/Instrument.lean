import Gamelan.Ensemble.Pitch

namespace Gamelan

/-!
# Instruments

An atomic instrument has an alphabet of its own, with one sample file for each symbol.  A composite
instrument is a label for several atomic ones.
-/

/-- An instrument with its own symbols. -/
structure Atomic where
  id : String
  /-- Its symbols; the position of a symbol is the slot it plays. -/
  alphabet : List Char
  /-- File names, one for each symbol. -/
  samples : List String
  /-- The output level in decibels. -/
  level : Float32
deriving Repr

/-- A label for several atomic instruments. -/
structure Composite where
  id : String
  members : List String
deriving DecidableEq, Repr

/-- An instrument of either kind. -/
inductive Instrument where
  | atomic (a : Atomic)
  | composite (c : Composite)
deriving Repr

/-- The slot that a symbol plays: its first position in the alphabet. -/
def Atomic.slot? (a : Atomic) (symbol : Char) : Option Slot :=
  a.alphabet.findIdx? (· == symbol)

def Instrument.id : Instrument → String
  | atomic a => a.id
  | composite c => c.id

end Gamelan
