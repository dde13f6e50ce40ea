namespace Gamelan

/-!
# Pitches

Every instrument plays on the same ten pitch slots.  The position of a symbol in an instrument's
alphabet is the slot it plays, whatever the symbol is.
-/

/-- A pitch: its name and its MIDI note number. -/
structure Pitch where
  name : String
  midi : Nat
deriving DecidableEq, Repr, Inhabited

/-- A position in the list of pitches. -/
abbrev Slot := Nat

namespace Pitch

/-- The pitches by slot. -/
def all : List Pitch :=
  [⟨"D4", 62⟩, ⟨"E4", 64⟩, ⟨"G#4", 68⟩, ⟨"A4", 69⟩, ⟨"C#4", 61⟩,
   ⟨"D5", 74⟩, ⟨"E5", 76⟩, ⟨"G#5", 80⟩, ⟨"A5", 81⟩, ⟨"C#6", 85⟩]

/-- The pitch of a slot. -/
def ofSlot? (slot : Slot) : Option Pitch :=
  all[slot]?

/-- The frequency in hertz, in equal temperament with A4 at 440 Hz. -/
def frequency (p : Pitch) : Float :=
  440.0 * Float.pow 2.0 ((Float.ofNat p.midi - 69.0) / 12.0)

/-- There are ten pitches. -/
theorem length_all : all.length = 10 := rfl

end Pitch

end Gamelan
