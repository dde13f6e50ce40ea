import Gamelan.Score
import Gamelan.Time

namespace Gamelan

/-!
# Timelines

A timeline is a score laid out in time: one point for every step of every section, rests included.
Time runs on from section to section, each section spacing its points by its own tempo.

* `Action` — a symbol on an instrument.
* `Point` — one step, with its place in the score, its time and its actions.
* `Timeline.ofScore` — the layout.
* `Timeline.position?` — where the point of a section and a step stands.
-/

/-- A symbol that a track has for an instrument. -/
structure Action where
  label : String
  symbol : Char
deriving DecidableEq, Repr, Inhabited

/-- The symbol that silences an instrument. -/
def muteSymbol : Char := '.'

/-- The symbol of a rest. -/
def restSymbol : Char := ' '

/-- Whether an action silences its instrument. -/
def Action.isMute (a : Action) : Bool :=
  a.symbol == muteSymbol

/-- One step of a piece. -/
structure Point (τ : Type) where
  /-- The position in the timeline. -/
  index : Nat
  sectionId : Nat
  /-- The position in the section. -/
  sectionStep : Nat
  /-- Seconds from the start of the piece. -/
  time : τ
  tempo : Nat
  /-- What sounds, in the order of the tracks. -/
  actions : List Action
deriving Repr

/-- A piece laid out in time. -/
structure Timeline (τ : Type) where
  points : List (Point τ)
deriving Repr

/-! ### The steps of a section -/

/-- The action of a track at a step: none after its end or at a rest. -/
def Track.action? (t : Track) (step : Nat) : Option Action :=
  match t.steps[step]? with
  | some symbol => if symbol == restSymbol then none else some ⟨t.label, symbol⟩
  | none => none

/-- The actions of a section at a step, in the order of its tracks. -/
def Section.actions (s : Section) (step : Nat) : List Action :=
  s.tracks.filterMap (·.action? step)

namespace Timeline

variable {τ : Type} [NatCast τ] [Add τ] [Div τ]

/-- Some points of a section from a step on, and the time after them. -/
def sectionPoints (s : Section) (index step : Nat) (time : τ) : Nat → List (Point τ) × τ
  | 0 => ([], time)
  | count + 1 =>
    let point : Point τ := ⟨index, s.id, step, time, s.effectiveTempo, s.actions step⟩
    let next := time + beatLength ((s.effectiveTempo : Nat) : τ)
    let (rest, stop) := sectionPoints s (index + 1) (step + 1) next count
    (point :: rest, stop)

/-- The points of some sections, the first of them at an index and a time. -/
def pointsFrom (index : Nat) (time : τ) : List Section → List (Point τ)
  | [] => []
  | s :: rest =>
    let (points, stop) := sectionPoints s index 0 time s.length
    points ++ pointsFrom (index + s.length) stop rest

/-- The timeline of a score. -/
def ofScore (score : Score) : Timeline τ :=
  ⟨pointsFrom 0 ((0 : Nat) : τ) score.sections⟩

/-- How long a timeline lasts: its last point sounds for a beat. -/
def duration (t : Timeline τ) : τ :=
  match t.points.getLast? with
  | some last => last.time + beatLength ((last.tempo : Nat) : τ)
  | none => ((0 : Nat) : τ)

end Timeline

/-! ### Looking up points -/

namespace Timeline

variable {τ : Type}

def length (t : Timeline τ) : Nat :=
  t.points.length

def get? (t : Timeline τ) (index : Nat) : Option (Point τ) :=
  t.points[index]?

/-- The index of step `step` of section `sectionId`, if there is such a point.  Indices are words of
64 bits. -/
def position? (t : Timeline τ) (sectionId step : Nat) : Option Nat :=
  match t.points.findIdx? (·.sectionId == sectionId) with
  | none => none
  | some first =>
    let index := (first + step) % Nat.pow 2 64
    match t.get? index with
    | some p => if p.sectionId == sectionId then some index else none
    | none => none

end Timeline

end Gamelan
