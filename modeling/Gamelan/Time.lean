namespace Gamelan

/-!
# Time

Times, lengths of time and tempos are numbers of one type `τ`, which is left open: whatever has sums,
quotients and whole numbers will do.  A program runs with `Float`; laws are stated for exact numbers.

* `beatLength` — the length of a beat at a tempo.
* `Subdivision` — a fraction of a beat.
-/

/-- Whole numbers as floating-point numbers, rounded to nearest. -/
instance natCastFloat : NatCast Float := ⟨Float.ofNat⟩

variable {τ : Type} [NatCast τ] [Div τ]

/-- The length of a beat in seconds, at a tempo in beats per minute. -/
def beatLength (tempo : τ) : τ :=
  ((60 : Nat) : τ) / tempo

/-- A fraction of a beat. -/
structure Subdivision where
  /-- How many of it make up a beat. -/
  perBeat : Nat
deriving DecidableEq, Repr

namespace Subdivision

def quarter : Subdivision := ⟨1⟩

def sixteenth : Subdivision := ⟨4⟩

def thirtySecond : Subdivision := ⟨8⟩

/-- The length of a subdivision in seconds. -/
def seconds (s : Subdivision) (tempo : τ) : τ :=
  beatLength tempo / ((s.perBeat : Nat) : τ)

end Subdivision

end Gamelan
