import Gamelan.Proofs.Performance.History

namespace Gamelan.Sequencer

/-!
# Moves of a sequencer

A request makes a sequencer move some times.  The relation `Move` lists all that a move can do, so
that what holds of every run is shown move by move.

* `Move` — a move with its events.
* `moves_act` — a request is a sequence of moves.
* `history_induction` — what moves keep, runs keep.
-/

variable {τ : Type}

/-- The instant that a request gives as the present one.  A poll gives none: it may look ahead. -/
def clock? : Request τ → Option τ
  | .play now => some now
  | .stop now => some now
  | .toggle now => some now
  | _ => none

section
variable [NatCast τ] [Add τ] [Div τ] [LE τ] [DecidableLE τ] [LT τ] [DecidableLT τ]

/-- A move within a request: the state before it, its events, and the state after it. -/
inductive Move (request : Request τ) :
    Sequencer τ → List (Event τ) → Sequencer τ → Prop where
  /-- The voices are asked for. -/
  | prime {s : Sequencer τ} (h : s.playback = .idle) :
      Move request s [] { s with playback := .priming, startPending := true }
  /-- A request to play or to stop is kept until the voices are ready. -/
  | pend {s : Sequencer τ} (pending : Bool) (h : s.playback = .priming) :
      Move request s [] { s with startPending := pending }
  /-- The voices are ready, and nothing waits for them. -/
  | level {s : Sequencer τ} (h : s.playback = .priming) (hpending : s.startPending = false) :
      Move request s [.levelled] { s with playback := .ready }
  /-- The voices are ready, and the playback that waits for them starts. -/
  | levelAndStart {s : Sequencer τ} (now : τ) (h : s.playback = .priming)
      (hpending : s.startPending = true) :
      Move request s [.levelled, .started now] (started now { s with startPending := false })
  | start {s : Sequencer τ} (now : τ) (h : s.playback = .ready) (hnow : clock? request = some now) :
      Move request s [.started now] (s.started now)
  /-- A tick on a point with another one behind it. -/
  | play {s : Sequencer τ} {horizon time : τ} {point : Point τ} (hrequest : request = .poll horizon)
      (h : s.playback = .playing) (hdue : s.transport.due? horizon = some time)
      (hpoint : s.current? = some point) (hlt : s.cursor + 1 < s.timeline.length) :
      Move request s [.played (s.playedAt time point)]
        { s with
          cursor := s.cursor + 1
          sent := s.sent ++ [(s.playedAt time point).tick]
          transport := (s.transport.setTempo ((point.tempo : Nat) : τ)).completeTick }
  /-- A tick on the last point. -/
  | playLast {s : Sequencer τ} {horizon time : τ} {point : Point τ}
      (hrequest : request = .poll horizon) (h : s.playback = .playing)
      (hdue : s.transport.due? horizon = some time) (hpoint : s.current? = some point)
      (hlt : ¬s.cursor + 1 < s.timeline.length) :
      Move request s
        [.played (s.playedAt time point),
          .finished (time + pulse.seconds ((point.tempo : Nat) : τ))]
        { s with
          cursor := 0
          sent := s.sent ++ [(s.playedAt time point).tick]
          transport := (s.transport.setTempo ((point.tempo : Nat) : τ)).cancel
          playback := .ready }
  /-- A tick with no point to play. -/
  | runOut {s : Sequencer τ} {horizon time : τ} (hrequest : request = .poll horizon)
      (h : s.playback = .playing) (hdue : s.transport.due? horizon = some time)
      (hpoint : s.current? = none) :
      Move request s [.finished time] { s.halted with cursor := 0 }
  | stop {s : Sequencer τ} (now : τ) (h : s.playback = .playing)
      (hnow : clock? request = some now) :
      Move request s [.stopped now] (s.halted.rewindUnplayed now).1
  | toggleMute {s : Sequencer τ} (label : String) (hrequest : request = .toggleMute label) :
      Move request s [] (s.toggleMute label)
  | seek {s : Sequencer τ} {sectionId step index : Nat} (hrequest : request = .seek sectionId step)
      (hindex : s.timeline.position? sectionId step = some index) :
      Move request s [.forgotten] { s with cursor := index, sent := [] }
  | setTimeline {s : Sequencer τ} (timeline : Timeline τ)
      (hrequest : request = .setTimeline timeline) :
      Move request s [.forgotten] (s.setTimeline timeline)

/-- Some moves within a request, one after another. -/
inductive Moves (request : Request τ) :
    Sequencer τ → List (Event τ) → Sequencer τ → Prop where
  | nil (s : Sequencer τ) : Moves request s [] s
  | cons {s s' s'' : Sequencer τ} {H K : List (Event τ)} (first : Move request s H s')
      (rest : Moves request s' K s'') : Moves request s (H ++ K) s''

theorem Move.moves {request : Request τ} {s s' : Sequencer τ} {H : List (Event τ)}
    (h : Move request s H s') : Moves request s H s' := by
  have := Moves.cons h (.nil s')
  rwa [List.append_nil] at this

/-- Moves can be made one after the other. -/
theorem Moves.trans {request : Request τ} {s s' s'' : Sequencer τ} {H K : List (Event τ)}
    (h : Moves request s H s') (h' : Moves request s' K s'') :
    Moves request s (H ++ K) s'' := by
  induction h with
  | nil => exact h'
  | cons first _ ih =>
    rw [List.append_assoc]
    exact .cons first (ih h')

/-! ### Requests as moves -/

/-- Voices that get ready make the moves of these events. -/
theorem moves_finishPriming (request : Request τ) (ready : Bool) (now : τ) {s : Sequencer τ}
    (h : s.playback = .priming) :
    Moves request s (s.primingEvents ready now) (s.finishPriming ready now).1 := by
  cases ready with
  | false => exact .nil s
  | true =>
    cases hpending : s.startPending with
    | false =>
      have hmove : Moves request s _ _ := (Move.level h hpending).moves
      simpa [primingEvents, finishPriming, setPlayback, hpending] using hmove
    | true =>
      have hmove : Moves request s _ _ := (Move.levelAndStart now h hpending).moves
      simpa [primingEvents, finishPriming, setPlayback, hpending, started] using hmove

theorem moves_play (request : Request τ) (ready : Bool) {now : τ} (s : Sequencer τ)
    (hnow : clock? request = some now) :
    Moves request s (s.playEvents ready now) (s.play ready now).1 := by
  cases h : s.playback with
  | idle =>
    have hmoves := Moves.cons (.prime h) (moves_finishPriming request ready now
      (s := { s with playback := .priming, startPending := true }) rfl)
    simpa [play, playEvents, h, setPlayback, primingEvents] using hmoves
  | priming =>
    have hmove : Moves request s _ _ := (Move.pend true h).moves
    simpa [play, playEvents, h] using hmove
  | ready =>
    have hmove : Moves request s _ _ := (Move.start now h hnow).moves
    simpa [play, playEvents, h] using hmove
  | playing => simpa [play, playEvents, h] using Moves.nil s

theorem moves_stop (request : Request τ) {now : τ} (s : Sequencer τ)
    (hnow : clock? request = some now) :
    Moves request s (s.stopEvents now) (s.stop now).1 := by
  cases h : s.playback with
  | idle => simpa [stop, stopEvents, isPlaying, h] using Moves.nil s
  | priming =>
    have hmove : Moves request s _ _ := (Move.pend false h).moves
    simpa [stop, stopEvents, isPlaying, h] using hmove
  | ready => simpa [stop, stopEvents, isPlaying, h] using Moves.nil s
  | playing =>
    have hmove : Moves request s _ _ := (Move.stop now h hnow).moves
    rw [stop_fst now h]
    simpa [stopEvents, isPlaying, h] using hmove

variable [BEq τ]

/-- A tick is one move. -/
theorem move_completeTick [LawfulBEq τ] {horizon time : τ} {s : Sequencer τ}
    (h : s.playback = .playing) (hdue : s.transport.due? horizon = some time) :
    Move (.poll horizon) s (s.tickEvents time) (s.completeTick time).1 := by
  cases hpoint : s.current? with
  | none =>
    rw [completeTick_of_none time hpoint, tickEvents, hpoint]
    exact .runOut rfl h hdue hpoint
  | some point =>
    by_cases hlt : s.cursor + 1 < s.timeline.length
    · rw [completeTick_of_lt time hpoint hlt, tickEvents, hpoint]
      simpa only [hlt, if_true] using Move.play rfl h hdue hpoint hlt
    · rw [completeTick_of_not_lt time hpoint hlt, tickEvents, hpoint]
      simpa only [hlt, if_false] using Move.playLast rfl h hdue hpoint hlt

/-- Due ticks make the moves of their events. -/
theorem moves_runDue [LawfulBEq τ] (horizon : τ) (s : Sequencer τ) :
    Moves (.poll horizon) s (s.dueEvents horizon) (s.runDue horizon).1 := by
  fun_induction runDue horizon s with
  | case1 s hplaying hdue =>
    rw [dueEvents]
    simpa [hplaying, hdue] using Moves.nil s
  | case2 s hplaying time hdue ticked rest ih =>
    have h : s.playback = .playing := by simpa [isPlaying] using hplaying
    rw [dueEvents]
    simpa [hplaying, hdue] using Moves.cons (move_completeTick h hdue) ih
  | case3 s hplaying =>
    rw [dueEvents]
    simpa [hplaying] using Moves.nil s

/-- **A request is a sequence of moves**, with the events of the request. -/
theorem moves_act [LawfulBEq τ] (ready : Bool) (request : Request τ) (s : Sequencer τ) :
    Moves request s (s.events ready request) (s.act ready request).1 := by
  cases request with
  | play now => exact moves_play _ ready s rfl
  | stop now => exact moves_stop _ s rfl
  | toggle now =>
    by_cases h : s.isPlaying
    · simpa [act, events, toggle, h] using moves_stop (.toggle now) s rfl
    · simpa [act, events, toggle, h] using moves_play (.toggle now) ready s rfl
  | poll horizon =>
    by_cases h : s.playback = .priming
    · simpa [act, events, poll, pollEvents, h] using
        (moves_finishPriming (.poll horizon) ready horizon h).trans (moves_runDue horizon _)
    · simpa [act, events, poll, pollEvents, h] using moves_runDue horizon s
  | toggleMute label => exact Move.moves (.toggleMute label rfl)
  | seek sectionId step =>
    cases h : s.timeline.position? sectionId step with
    | none => simpa [act, events, seek?, h] using Moves.nil s
    | some index => simpa [act, events, seek?, h] using Move.moves (.seek rfl h)
  | setTimeline timeline => exact Move.moves (.setTimeline timeline rfl)

/-! ### Runs -/

/-- **What moves keep, runs keep.**  `motive` may look at the state and at the history so far. -/
theorem history_induction [LawfulBEq τ] {motive : Sequencer τ → List (Event τ) → Prop}
    (steps : List (Bool × Request τ)) (s₀ : Sequencer τ) (start : motive s₀ [])
    (move : ∀ s H q K s', q ∈ steps → motive s H → Move q.2 s K s' → motive s' (H ++ K)) :
    motive (run steps s₀).1 (history steps s₀) := by
  have hmoves : ∀ q ∈ steps, ∀ s K s', Moves q.2 s K s' →
      ∀ H, motive s H → motive s' (H ++ K) := by
    intro q hq s K s' hK
    induction hK with
    | nil => intro H h; rwa [List.append_nil]
    | cons first _ ih =>
      intro H h
      rw [← List.append_assoc]
      exact ih _ (move _ _ _ _ _ hq h first)
  -- The history so far is generalized, so that the first request can be moved into it.
  have hrun : ∀ rest s H, (∀ q ∈ rest, q ∈ steps) → motive s H →
      motive (run rest s).1 (H ++ history rest s) := by
    intro rest
    induction rest with
    | nil => intro s H _ h; rwa [history, List.append_nil]
    | cons q rest ih =>
      intro s H hrest h
      rw [history, ← List.append_assoc]
      refine ih _ _ (fun q' hq' => hrest q' (List.mem_cons_of_mem _ hq')) ?_
      exact hmoves q (hrest q (by simp)) _ _ _ (moves_act q.1 q.2 s) _ h
  exact hrun steps s₀ [] (fun _ hq => hq) start

end

end Gamelan.Sequencer
