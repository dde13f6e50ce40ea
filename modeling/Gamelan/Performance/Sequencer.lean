import Gamelan.Ensemble.Registry
import Gamelan.Performance.Articulation
import Gamelan.Performance.Transport
import Gamelan.Performance.VoiceCall
import Gamelan.Timeline

namespace Gamelan

/-!
# The sequencer

The sequencer walks a timeline on the ticks of its transport.

    idle ──play──▶ priming ──voices ready──▶ ready ◀──▶ playing

It is polled with the time up to which ticks are to be sent, which may lie ahead of the clock.  Every
due tick plays the point under the cursor and moves the cursor on; the last point ends the playback
and takes the cursor back to the start.  A stop leaves the cursor at the first point whose tick is
still to come.

A step of the sequencer is a function of its state, the request and, where it asks for it, whether
the voices are ready.  What it wants done is a list of effects.

* `Sequencer` — the states.
* `Effect`, `Notice` — what a step asks for, and what it reports.
* `Request` — what can be asked of a sequencer.
* `Sequencer.act` — one step.
-/

/-- Whether a sequencer plays. -/
inductive Playback where
  /-- The voices have not been asked for. -/
  | idle
  /-- The voices are loading. -/
  | priming
  /-- At rest. -/
  | ready
  | playing
deriving DecidableEq, Repr, Inhabited

/-- A point that was handed to the voices, possibly ahead of the clock. -/
structure SentPoint (τ : Type) where
  index : Nat
  /-- The time of its tick. -/
  time : τ
  /-- The tempo of the transport before it. -/
  tempo : τ
deriving Repr

/-- What a sequencer reports. -/
inductive Notice (τ : Type) where
  | playback (old new : Playback)
  | started (cursor points : Nat)
  | stopped (cursor : Nat)
  | finished
  | tempo (old new : τ)
  /-- The cursor went back to the first point that was not heard. -/
  | rewound (old new : Nat)
  | unknownInstrument (label : String)
deriving Repr

/-- What a sequencer asks for. -/
inductive Effect (τ : Type) where
  /-- Load the voices. -/
  | prime
  | call (c : VoiceCall τ)
  | notice (n : Notice τ)
deriving Repr

/-- The call of an effect. -/
def Effect.call? {τ : Type} : Effect τ → Option (VoiceCall τ)
  | call c => some c
  | _ => none

/-- The calls among some effects. -/
def calls {τ : Type} (effects : List (Effect τ)) : List (VoiceCall τ) :=
  effects.filterMap Effect.call?

/-- The state of a sequencer. -/
structure Sequencer (τ : Type) where
  timeline : Timeline τ
  registry : Registry
  transport : Transport τ
  playback : Playback
  /-- The index of the next point to play. -/
  cursor : Nat
  /-- The labels that are skipped, in ascending order. -/
  muted : List String
  /-- The points sent since the start, in order. -/
  sent : List (SentPoint τ)
  /-- Whether to start once the voices are ready. -/
  startPending : Bool

namespace Sequencer

/-! ### Constants of playing -/

/-- The length of a tick. -/
def pulse : Subdivision := .sixteenth

/-- How late an accented symbol is. -/
def accentDelay : Subdivision := .thirtySecond

variable {τ : Type}

/-- An idle sequencer at the start of a timeline. -/
def new [NatCast τ] (timeline : Timeline τ) (registry : Registry) : Sequencer τ where
  timeline := timeline
  registry := registry
  transport := .ofTempo ((defaultTempo : Nat) : τ)
  playback := .idle
  cursor := 0
  muted := []
  sent := []
  startPending := false

/-! ### Queries -/

def isPlaying (s : Sequencer τ) : Bool :=
  s.playback == .playing

/-- The point under the cursor. -/
def current? (s : Sequencer τ) : Option (Point τ) :=
  s.timeline.get? s.cursor

def isMuted (s : Sequencer τ) (label : String) : Bool :=
  s.muted.contains label

/-! ### Steps -/

/-- A state and the effects on the way to it. -/
abbrev Step (τ : Type) := Sequencer τ × List (Effect τ)

/-- One step after another. -/
def Step.andThen (first : Step τ) (second : Sequencer τ → Step τ) : Step τ :=
  let next := second first.1
  (next.1, first.2 ++ next.2)

/-- A report that changes nothing. -/
def report (n : Notice τ) (s : Sequencer τ) : Step τ :=
  (s, [.notice n])

def setPlayback (p : Playback) (s : Sequencer τ) : Step τ :=
  ({ s with playback := p }, [.notice (.playback s.playback p)])

def setCursor (cursor : Nat) (s : Sequencer τ) : Step τ :=
  ({ s with cursor := cursor }, [])

/-- Releases of everything that a label stands for. -/
def releases (registry : Registry) (label : String) (time : τ) : List (VoiceCall τ) :=
  (registry.members label).map fun a => .release a.id time

/-- Releases of everything, label by label. -/
def sweep (registry : Registry) (time : τ) : List (VoiceCall τ) :=
  registry.ids.flatMap fun label => releases registry label time

/-- No more ticks; what is queued past `time` is forgotten, and everything is released then. -/
def silence (time : τ) (s : Sequencer τ) : Step τ :=
  ({ s with transport := s.transport.cancel },
    (.cancel time :: sweep s.registry time).map .call)

/-- End the playback at `time`. -/
def halt (time : τ) (s : Sequencer τ) : Step τ :=
  (s.silence time).andThen (setPlayback .ready)

/-- Start the playback at `now`. -/
def start (now : τ) (s : Sequencer τ) : Step τ :=
  (s.silence now).andThen fun s =>
    let s := { s with sent := [], transport := (s.transport.schedule pulse now).start }
    (setPlayback .playing s).andThen fun s => report (.started s.cursor s.timeline.length) s

/-- Set the levels of all instruments if the voices are ready, and start if that was asked for. -/
def finishPriming (ready : Bool) (now : τ) (s : Sequencer τ) : Step τ :=
  if ready then
    let levels := s.registry.atomics.map fun a => Effect.call (.setLevel a.id a.level)
    Step.andThen (s, levels) fun s => (setPlayback .ready s).andThen fun s =>
      if s.startPending then start now { s with startPending := false } else (s, [])
  else (s, [])

/-- Play: the first request loads the voices, and playing begins as soon as they are ready. -/
def play (ready : Bool) (now : τ) (s : Sequencer τ) : Step τ :=
  match s.playback with
  | .idle =>
    (setPlayback .priming s).andThen fun s =>
      Step.andThen ({ s with startPending := true }, [.prime]) (finishPriming ready now)
  | .priming => ({ s with startPending := true }, [])
  | .ready => s.start now
  | .playing => (s, [])

section
variable [LT τ] [DecidableLT τ]

/-- Go back to the first point whose tick is after `now`. -/
def rewindUnplayed (now : τ) (s : Sequencer τ) : Step τ :=
  match s.sent.find? (now < ·.time) with
  | some first =>
    ({ s with cursor := first.index, transport := s.transport.setTempo first.tempo, sent := [] },
      [.notice (.rewound s.cursor first.index)])
  | none => ({ s with sent := [] }, [])

/-- Stop, silencing every instrument.  The points sent for ticks after `now` will be played again. -/
def stop (now : τ) (s : Sequencer τ) : Step τ :=
  match s.playback with
  | .playing =>
    (s.halt now).andThen fun s => (s.rewindUnplayed now).andThen fun s =>
      report (.stopped s.cursor) s
  | .priming => ({ s with startPending := false }, [])
  | .idle => (s, [])
  | .ready => (s, [])

/-- Stop if playing, play otherwise. -/
def toggle (ready : Bool) (now : τ) (s : Sequencer τ) : Step τ :=
  if s.isPlaying then s.stop now else s.play ready now

end

/-! ### Playing a point -/

section
variable [NatCast τ] [Add τ] [Div τ]

/-- When an action sounds, for a tick at `time`. -/
def soundingTime (tempo time : τ) (a : Articulation) : τ :=
  if a.delayed then time + accentDelay.seconds tempo else time

/-- The calls of an articulated symbol on a label.  A new stroke chokes the one before. -/
def strokes (registry : Registry) (label : String) (symbol : Char) (time : τ) :
    List (VoiceCall τ) :=
  if symbol == muteSymbol then releases registry label time
  else (registry.resolve label symbol).flatMap fun (instrument, slot) =>
    [.release instrument time, .trigger instrument slot time]

/-- The effects of an action at a tick. -/
def perform (registry : Registry) (muted : List String) (tempo time : τ) (a : Action) :
    List (Effect τ) :=
  if muted.contains a.label then []
  else if registry.contains a.label then
    let how := articulate a.label a.symbol
    (strokes registry a.label how.symbol (soundingTime tempo time how)).map .call
  else [.notice (.unknownInstrument a.label)]

/-- The tempo of a point, from the next tick on. -/
def followTempo [BEq τ] (tempo : τ) (s : Sequencer τ) : Step τ :=
  if tempo != s.transport.tempo then
    ({ s with transport := s.transport.setTempo tempo },
      [.notice (.tempo s.transport.tempo tempo)])
  else (s, [])

/-- Move past a point whose tick was at `time`.  The last point sounds for one more pulse. -/
def advance (time : τ) (s : Sequencer τ) : Step τ :=
  if s.cursor + 1 < s.timeline.length then s.setCursor (s.cursor + 1)
  else
    (s.halt (time + pulse.seconds s.transport.tempo)).andThen fun s =>
      (s.setCursor 0).andThen (report .finished)

/-- Play the point under the cursor at `time`. -/
def tick [BEq τ] (time : τ) (s : Sequencer τ) : Step τ :=
  match s.current? with
  | none => (s.halt time).andThen (setCursor 0)
  | some point =>
    let tempo := s.transport.tempo
    let sent : SentPoint τ := ⟨s.cursor, time, tempo⟩
    Step.andThen ({ s with sent := s.sent ++ [sent] },
        point.actions.flatMap (perform s.registry s.muted tempo time)) fun s =>
      (s.followTempo ((point.tempo : Nat) : τ)).andThen (advance time)

/-- A tick, after which the transport goes on to the next one. -/
def completeTick [BEq τ] (time : τ) (s : Sequencer τ) : Step τ :=
  (s.tick time).andThen fun s => ({ s with transport := s.transport.completeTick }, [])

/-! ### Polling -/

/-- How many ticks are left at most: one is left even for an empty timeline. -/
def ticksLeft (s : Sequencer τ) : Nat :=
  if s.isPlaying then max 1 (s.timeline.length - s.cursor) else 0

/-- A tick leaves fewer ticks to a playback, so a poll comes to an end. -/
theorem ticksLeft_completeTick_lt [BEq τ] (time : τ) (s : Sequencer τ) (h : s.isPlaying = true) :
    (s.completeTick time).1.ticksLeft < s.ticksLeft := by
  have hs : 0 < s.ticksLeft := by simp only [ticksLeft, h, if_true]; omega
  rw [completeTick, Step.andThen, tick]
  split
  · simpa [Step.andThen, halt, silence, setPlayback, setCursor, ticksLeft, isPlaying] using hs
  · next point hpoint =>
    have hcursor : ∀ tempo : τ, ∀ s' : Sequencer τ,
        (s'.followTempo tempo).1.cursor = s'.cursor ∧
        (s'.followTempo tempo).1.timeline = s'.timeline ∧
        (s'.followTempo tempo).1.playback = s'.playback := by
      intro tempo s'
      unfold followTempo
      split <;> simp
    simp only [Step.andThen, advance, hcursor]
    split
    · next hlt =>
      simp only [isPlaying] at h
      simp only [setCursor, ticksLeft, isPlaying, hcursor, h, if_true]
      omega
    · simpa [Step.andThen, halt, silence, setPlayback, setCursor, report, ticksLeft, isPlaying]
        using hs

/-- Run the ticks due at `horizon`. -/
def runDue [BEq τ] [LE τ] [DecidableLE τ] (horizon : τ) (s : Sequencer τ) : Step τ :=
  if _h : s.isPlaying then
    match s.transport.due? horizon with
    | none => (s, [])
    | some time =>
      let ticked := s.completeTick time
      let rest := runDue horizon ticked.1
      (rest.1, ticked.2 ++ rest.2)
  else (s, [])
termination_by s.ticksLeft
decreasing_by all_goals exact ticksLeft_completeTick_lt time s _h

/-- Run the ticks due at `horizon`, after looking whether the voices are ready. -/
def poll [BEq τ] [LE τ] [DecidableLE τ] (ready : Bool) (horizon : τ) (s : Sequencer τ) : Step τ :=
  Step.andThen (if s.playback = .priming then s.finishPriming ready horizon else (s, []))
    (runDue horizon)

end

/-! ### Muting, seeking and new timelines -/

/-- A list in ascending order with one more label. -/
def insertLabel (label : String) : List String → List String
  | [] => [label]
  | other :: rest => if label < other then label :: other :: rest else other :: insertLabel label rest

/-- Mute a label, or sound it again if it is muted. -/
def toggleMute (label : String) (s : Sequencer τ) : Sequencer τ :=
  { s with muted := if s.isMuted label then s.muted.erase label else insertLabel label s.muted }

/-- Move the cursor to a step of a section, if there is such a point. -/
def seek? (sectionId step : Nat) (s : Sequencer τ) : Option (Sequencer τ) :=
  (s.timeline.position? sectionId step).map fun index => { s with cursor := index, sent := [] }

/-- Play another timeline.  A cursor past its end goes back to the start. -/
def setTimeline (timeline : Timeline τ) (s : Sequencer τ) : Sequencer τ :=
  { s with
    timeline := timeline
    sent := []
    cursor := if timeline.length ≤ s.cursor then 0 else s.cursor }

end Sequencer

/-! ### Requests -/

/-- What can be asked of a sequencer. -/
inductive Request (τ : Type) where
  | play (now : τ)
  | stop (now : τ)
  | toggle (now : τ)
  | poll (horizon : τ)
  | toggleMute (label : String)
  | seek (sectionId step : Nat)
  | setTimeline (timeline : Timeline τ)

namespace Sequencer

variable {τ : Type} [NatCast τ] [Add τ] [Div τ] [BEq τ] [LE τ] [DecidableLE τ] [LT τ] [DecidableLT τ]

/-- The step of a request, where `ready` is what the voices answer when asked.  A seek to a point
that does not exist changes nothing. -/
def act (ready : Bool) (request : Request τ) (s : Sequencer τ) : Step τ :=
  match request with
  | .play now => s.play ready now
  | .stop now => s.stop now
  | .toggle now => s.toggle ready now
  | .poll horizon => s.poll ready horizon
  | .toggleMute label => (s.toggleMute label, [])
  | .seek sectionId step => ((s.seek? sectionId step).getD s, [])
  | .setTimeline timeline => (s.setTimeline timeline, [])

/-- The result of a request that has one, in the state after it. -/
def result? (request : Request τ) (before after : Sequencer τ) : Option Bool :=
  match request with
  | .toggleMute label => some (after.isMuted label)
  | .seek sectionId step => some (before.timeline.position? sectionId step).isSome
  | _ => none

end Sequencer

end Gamelan
