import Gamelan.Proofs.Performance.Polling

namespace Gamelan.Sequencer

/-!
# A full pass, call for call

A playback that is left alone makes one fixed sequence of calls, however it is polled: a sweep when
it starts, the strokes of each point in its turn, and a sweep when the last point has sounded.

* `strokeCalls` — the calls of one action.
* `calls_of_full_pass` — the calls of a playback from its start to its end.
-/

/-- The calls of an action on a tick at `time`, where the tempo before it is `tempo`.  Labels that
are muted or unknown have none; an accent is late by a thirty-second; a mute symbol releases all
members of the label, and every stroke chokes the one before it. -/
def strokeCalls (registry : Registry) (muted : List String) (tempo time : ℚ) (a : Action) :
    List (VoiceCall ℚ) :=
  if a.label ∈ muted ∨ ¬registry.contains a.label then []
  else
    let how := articulate a.label a.symbol
    let x := if how.delayed then time + 15 / 2 / tempo else time
    if how.symbol = muteSymbol then (registry.members a.label).map fun m => .release m.id x
    else (registry.resolve a.label how.symbol).flatMap fun (instrument, slot) =>
      [.release instrument x, .trigger instrument slot x]

/-- The calls of a sweep: everything that any label stands for is released. -/
def sweepCalls (registry : Registry) (time : ℚ) : List (VoiceCall ℚ) :=
  registry.ids.flatMap fun label => (registry.members label).map fun m => .release m.id time

/-- An accent is late by half a pulse. -/
theorem accentDelay_seconds (tempo : ℚ) : accentDelay.seconds tempo = 15 / 2 / tempo := by
  show ((60 : Nat) : ℚ) / tempo / ((8 : Nat) : ℚ) = 15 / 2 / tempo
  rw [div_div, mul_comm, ← div_div]
  norm_num

/-- An action calls for its strokes. -/
theorem calls_perform (registry : Registry) (muted : List String) (tempo time : ℚ) (a : Action) :
    calls (perform registry muted tempo time a) = strokeCalls registry muted tempo time a := by
  by_cases hmuted : a.label ∈ muted
  · simp [perform, strokeCalls, hmuted]
  · by_cases hknown : registry.contains a.label = true
    · simp [perform, strokeCalls, hmuted, hknown, strokes, releases, soundingTime,
        accentDelay_seconds]
    · simp [perform, strokeCalls, hmuted, hknown]

/-- The calls of a point are those of its actions, in order. -/
theorem Played.calls_eq (registry : Registry) (p : Played ℚ) :
    p.calls registry =
      p.point.actions.flatMap (strokeCalls registry p.muted p.tick.tempo p.tick.time) := by
  rw [Played.calls, calls_flatMap]
  simp only [calls_perform]

theorem callsOf_map_played (registry : Registry) (ps : List (Played ℚ)) :
    callsOf registry (ps.map .played) = ps.flatMap (Played.calls registry) := by
  rw [callsOf, List.flatMap_map]
  rfl

/-- All through a pass, the same labels are muted. -/
theorem muted_of_mem_pass {muted : List String} {index : Nat} {time tempo : ℚ}
    {points : List (Point ℚ)} {p : Played ℚ} (hp : p ∈ pass muted index time tempo points) :
    p.muted = muted := by
  induction points generalizing index time tempo with
  | nil => simp [pass] at hp
  | cons q rest ih =>
    rcases List.mem_cons.1 hp with rfl | hp
    · rfl
    · exact ih hp

/-- **The history of a full pass.** -/
theorem history_of_full_pass (s : Sequencer ℚ) (ready : Bool) (t₀ : ℚ) (polls : List (Bool × ℚ))
    (hready : s.playback = .ready)
    (hreach : ∃ q ∈ polls, t₀ ≤ q.2 ∧ ∀ p ∈ s.passOver t₀ s.ahead, p.tick.time ≤ q.2) :
    history ((ready, .play t₀) :: pollRequests polls) s =
        .started t₀ :: (s.passOver t₀ s.ahead).map .played ++
          [.finished (passEnd t₀ s.ahead)] ∧
      (run ((ready, .play t₀) :: pollRequests polls) s).1 = (s.started t₀).ended t₀ s.ahead := by
  obtain ⟨hact, hevents⟩ := act_play_of_ready ready t₀ hready
  obtain ⟨hhistory, hstate⟩ := history_polls polls (ticking_started t₀ s) hreach
  rw [history, run, andThen_fst, hact, hevents, hhistory, hstate]
  exact ⟨rfl, rfl⟩

/-- **The calls of a full pass**, from the start at `t₀` to the end, whatever the polls are as long
as one looks as far as the last tick.  The piece itself is played in a quarter of its written
time, for steps are sixteenths. -/
theorem calls_of_full_pass (s : Sequencer ℚ) (ready : Bool) (t₀ : ℚ) (polls : List (Bool × ℚ))
    (hready : s.playback = .ready)
    (hreach : ∃ q ∈ polls, t₀ ≤ q.2 ∧ ∀ p ∈ s.passOver t₀ s.ahead, p.tick.time ≤ q.2) :
    let outcome := run ((ready, .play t₀) :: pollRequests polls) s
    calls outcome.2 =
        .cancel t₀ :: sweepCalls s.registry t₀ ++
          (s.passOver t₀ s.ahead).flatMap (fun p => p.point.actions.flatMap
            (strokeCalls s.registry s.muted p.tick.tempo p.tick.time)) ++
          .cancel (passEnd t₀ s.ahead) :: sweepCalls s.registry (passEnd t₀ s.ahead) ∧
      outcome.1.playback = .ready ∧ outcome.1.cursor = 0 ∧
      outcome.1.transport.isScheduled = false ∧
      ∀ score, s.timeline = .ofScore score → ∀ first, s.current? = some first →
        ∀ p ∈ s.passOver t₀ s.ahead, p.tick.time = t₀ + (p.point.time - first.time) / 4 := by
  intro outcome
  obtain ⟨hhistory, hstate⟩ := history_of_full_pass s ready t₀ polls hready hreach
  refine ⟨?_, ?_, ?_, ?_, ?_⟩
  -- Nothing mutes a label on the way, so every point is played with the labels muted at the start.
  · have hstrokes : (s.passOver t₀ s.ahead).flatMap (Played.calls s.registry) =
        (s.passOver t₀ s.ahead).flatMap fun p => p.point.actions.flatMap
          (strokeCalls s.registry s.muted p.tick.tempo p.tick.time) := by
      refine List.flatMap_congr fun p hp => ?_
      rw [Played.calls_eq, muted_of_mem_pass hp]
    show calls (run _ s).2 = _
    rw [calls_run, hhistory, callsOf_append, callsOf_cons, callsOf_map_played, hstrokes]
    simp [Event.calls, cut, sweep, releases, sweepCalls]
  · rw [show outcome.1 = _ from hstate]
    rfl
  · rw [show outcome.1 = _ from hstate]
    rfl
  · rw [show outcome.1 = _ from hstate]
    rfl
  · intro score hscore first hfirst p hp
    -- A timeline of a score runs on from point to point, so also from the first one of the pass.
    obtain ⟨stop, hstop⟩ := Timeline.runsOn_ofScore (τ := ℚ) score
    rw [← hscore] at hstop
    have hahead := ahead_of_current? hfirst
    have hruns := hstop.drop hahead
    rw [← hahead] at hruns
    exact time_of_mem_pass s.muted hruns hp

/-- The short piece, polled twice: the first poll looks less far than the start. -/
theorem calls_of_full_pass_shortPiece :
    let s := { duoSequencer with playback := .ready }
    s.playback = .ready ∧
      (∃ q ∈ [(true, (1 : ℚ)), (false, 5)], (2 : ℚ) ≤ q.2 ∧
        ∀ p ∈ s.passOver 2 s.ahead, p.tick.time ≤ q.2) ∧
      calls (run ((true, .play 2) :: pollRequests [(true, 1), (false, 5)]) s).2 =
        [.cancel 2, .release "r1" 2, .release "r2" 2, .release "r1" 2, .release "r2" 2,
          .release "r1" (33 / 16), .trigger "r1" 0 (33 / 16),
          .release "r2" (33 / 16), .trigger "r2" 0 (33 / 16),
          .release "r1" (9 / 4), .trigger "r1" 1 (9 / 4),
          .release "r1" (19 / 8),
          .release "r1" (19 / 8), .trigger "r1" 0 (19 / 8),
          .release "r2" (19 / 8), .trigger "r2" 0 (19 / 8),
          .cancel (5 / 2), .release "r1" (5 / 2), .release "r2" (5 / 2),
          .release "r1" (5 / 2), .release "r2" (5 / 2)] := by
  have hreach : ∃ q ∈ [(true, (1 : ℚ)), (false, 5)], (2 : ℚ) ≤ q.2 ∧
      ∀ p ∈ ({ duoSequencer with playback := .ready } : Sequencer ℚ).passOver 2
        duoSequencer.ahead, p.tick.time ≤ q.2 := by decide +kernel
  refine ⟨rfl, hreach, ?_⟩
  rw [(calls_of_full_pass { duoSequencer with playback := .ready } true 2 _ rfl hreach).1]
  cbv

end Gamelan.Sequencer
