import Gamelan.Ensemble.Registry
import Gamelan.Text.Column
import Gamelan.Text.FixedPoint
import Gamelan.Timeline
import Gamelan.Yaml.Value

namespace Gamelan

/-!
# Reports

What a person gets to see of a score and of an ensemble, as text.

* `Score.report` — a score as a YAML document, and a table of its timeline.
* `Registry.report` — a table of the instruments.
-/

open Text

/-- Lines, each with its end. -/
def joinLines (lines : List String) : String :=
  String.join (lines.map (· ++ "\n"))

/-! ### Scores -/

def Track.outline (t : Track) : Yaml.Value :=
  .record [("label", .string t.label), ("value", .string (String.ofList t.steps))]

def Section.outline (s : Section) : Yaml.Value :=
  .record [("id", .number s.id), ("title", .string s.title), ("tempo", .number s.tempo),
    ("tracks", .list (s.tracks.map Track.outline))]

def Score.outline (s : Score) : Yaml.Value :=
  .record [("title", .string s.title), ("composer", .string s.composer),
    ("sections", .list (s.sections.map Section.outline))]

/-- An action as its label and its symbol. -/
def Action.report (a : Action) : String :=
  a.label ++ ":" ++ String.singleton a.symbol

/-- The row of a point: its index, section, step, time, tempo and actions. -/
def Point.report (p : Point Float) : String :=
  alignRight 5 (toString p.index) ++ "  " ++ alignRight 3 (toString p.sectionId) ++ ":" ++
    alignLeft 4 (toString p.sectionStep) ++ " " ++ alignRight 8 (fixedPoint 3 p.time) ++ "s " ++
    alignRight 4 (toString p.tempo) ++ "bpm  " ++ " ".intercalate (p.actions.map Action.report)

/-- The head and the rows of a timeline. -/
def Timeline.report (t : Timeline Float) : List String :=
  s!"{t.length} points, {fixedPoint 2 t.duration}s" :: t.points.map Point.report

/-- The report on a score. -/
def Score.report (s : Score) : String :=
  s.outline.write ++ joinLines ("---" :: (Timeline.ofScore s).report)

/-! ### Ensembles -/

/-- The row of an instrument: its symbols and level, or its members. -/
def Instrument.report : Instrument → String
  | atomic a =>
    alignLeft 5 a.id ++ " " ++ alignLeft 12 (String.ofList a.alphabet) ++ " " ++
      alignRight 6 (fixedPoint 1 a.level.toFloat) ++ " dB"
  | composite c => alignLeft 5 c.id ++ " = " ++ " + ".intercalate c.members

/-- The report on the instruments of an ensemble. -/
def Registry.report (r : Registry) : String :=
  joinLines (r.instruments.map Instrument.report)

end Gamelan
