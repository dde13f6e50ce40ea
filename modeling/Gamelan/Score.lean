namespace Gamelan

/-!
# Scores

A score holds sections in order; a section has one tempo and holds tracks that run in parallel.
The tracks of a section share one grid of steps but may differ in length.
-/

/-- One instrument's row of steps. -/
structure Track where
  /-- The instrument it is written for. -/
  label : String
  /-- One character a step; a space is a rest. -/
  steps : List Char
deriving DecidableEq, Repr, Inhabited

/-- Tracks that sound together at one tempo. -/
structure Section where
  /-- The position of the section in its score. -/
  id : Nat
  title : String
  /-- Beats per minute; 0 stands for the default. -/
  tempo : Nat
  tracks : List Track
deriving DecidableEq, Repr, Inhabited

/-- A piece. -/
structure Score where
  title : String
  composer : String
  sections : List Section
deriving DecidableEq, Repr, Inhabited

/-- The score of an empty source. -/
def Score.empty : Score where
  title := ""
  composer := ""
  sections := []

/-- The tempo that counts where none is declared. -/
def defaultTempo : Nat := 120

/-- The number of steps of the longest track. -/
def Section.length (s : Section) : Nat :=
  (s.tracks.map (·.steps.length)).foldl max 0

/-- The tempo a section is played at. -/
def Section.effectiveTempo (s : Section) : Nat :=
  if s.tempo = 0 then defaultTempo else s.tempo

/-- The tempo a section is played at is never zero. -/
theorem Section.effectiveTempo_pos (s : Section) : 0 < s.effectiveTempo := by
  unfold effectiveTempo
  split
  · decide
  · omega

end Gamelan
