import Gamelan.Proofs.Performance.Move
import Gamelan.Proofs.Performance.Stages

namespace Gamelan.Sequencer

/-!
# Asking for the voices

A sequencer asks for its voices when it stops being idle, and never again.

* `primings` — how often some effects ask for the voices.
* `primings_act` — the requests that do.
* `primings_run` — a run asks once if it leaves a sequencer other than idle, and not otherwise.
-/

/-! ### Counting -/

section
variable {τ : Type}

/-- How often some effects ask for the voices. -/
def primings (effects : List (Effect τ)) : Nat :=
  effects.countP fun
    | .prime => true
    | _ => false

/-- The loadings of effects one after the other add up. -/
@[simp] theorem primings_append (first second : List (Effect τ)) :
    primings (first ++ second) = primings first + primings second :=
  List.countP_append

@[simp] theorem primings_nil : primings ([] : List (Effect τ)) = 0 := rfl

@[simp] theorem primings_prime (rest : List (Effect τ)) :
    primings (.prime :: rest) = primings rest + 1 :=
  List.countP_cons_of_pos rfl

@[simp] theorem primings_notice (n : Notice τ) (rest : List (Effect τ)) :
    primings (.notice n :: rest) = primings rest :=
  List.countP_cons_of_neg (by simp)

@[simp] theorem primings_call (c : VoiceCall τ) (rest : List (Effect τ)) :
    primings (.call c :: rest) = primings rest :=
  List.countP_cons_of_neg (by simp)

/-- No call loads the voices. -/
@[simp] theorem primings_map_call (cs : List (VoiceCall τ)) : primings (cs.map Effect.call) = 0 := by
  induction cs with
  | nil => rfl
  | cons c cs ih => rw [List.map_cons, primings_call, ih]

/-- Voices are loaded just if they are loaded some number of times. -/
theorem prime_mem_iff {effects : List (Effect τ)} : .prime ∈ effects ↔ primings effects ≠ 0 := by
  rw [primings, Ne, List.countP_eq_zero]
  constructor
  · exact fun h hnone => hnone _ h rfl
  · refine fun h => Classical.byContradiction fun hnot => h fun e he => ?_
    cases e with
    | prime => exact absurd he hnot
    | call c => simp
    | notice n => simp

/-- Where no part loads the voices, all of them together do not. -/
theorem primings_flatMap {α : Type} {f : α → List (Effect τ)} (xs : List α)
    (h : ∀ x, primings (f x) = 0) : primings (xs.flatMap f) = 0 := by
  induction xs with
  | nil => rfl
  | cons x xs ih => rw [List.flatMap_cons, primings_append, h, ih]

@[simp] theorem primings_start (now : τ) (s : Sequencer τ) : primings (s.start now).2 = 0 := by
  simp [start, silence, setPlayback, report]

@[simp] theorem primings_halt (time : τ) (s : Sequencer τ) : primings (s.halt time).2 = 0 := by
  simp [halt, silence, setPlayback]

theorem primings_finishPriming (ready : Bool) (now : τ) (s : Sequencer τ) :
    primings (s.finishPriming ready now).2 = 0 := by
  have hlevels : primings (s.registry.atomics.map fun a =>
      (Effect.call (.setLevel a.id a.level) : Effect τ)) = 0 := by
    rw [← primings_map_call (s.registry.atomics.map fun a => .setLevel a.id a.level), List.map_map]
    rfl
  cases ready with
  | false => rfl
  | true =>
    cases hpending : s.startPending <;> simp [finishPriming, setPlayback, hpending, hlevels]

/-- A request to play asks for the voices if no other has. -/
theorem primings_play (ready : Bool) (now : τ) (s : Sequencer τ) :
    primings (s.play ready now).2 = if s.playback = .idle then 1 else 0 := by
  cases h : s.playback <;> simp [play, h, setPlayback, primings_finishPriming]

theorem primings_stop [LT τ] [DecidableLT τ] (now : τ) (s : Sequencer τ) :
    primings (s.stop now).2 = 0 := by
  have hrewind : ∀ s : Sequencer τ, primings (s.rewindUnplayed now).2 = 0 := by
    intro s
    unfold rewindUnplayed
    split <;> rfl
  cases h : s.playback <;> simp [stop, h, hrewind, report]

/-! ### Ticks and polls -/

variable [NatCast τ] [Add τ] [Div τ]

theorem primings_perform (registry : Registry) (muted : List String) (tempo time : τ) (a : Action) :
    primings (perform registry muted tempo time a) = 0 := by
  unfold perform
  split
  · rfl
  · split <;> simp

variable [BEq τ]

theorem primings_completeTick (time : τ) (s : Sequencer τ) :
    primings (s.completeTick time).2 = 0 := by
  have hfollow : ∀ tempo : τ, ∀ s : Sequencer τ, primings (s.followTempo tempo).2 = 0 := by
    intro tempo s
    unfold followTempo
    split <;> rfl
  have hadvance : ∀ s : Sequencer τ, primings (s.advance time).2 = 0 := by
    intro s
    unfold advance
    split <;> simp [setCursor, report]
  rw [completeTick, tick]
  split
  · simp [setCursor]
  · simp [hfollow, hadvance, primings_flatMap, primings_perform]

variable [LE τ] [DecidableLE τ]

theorem primings_runDue (horizon : τ) (s : Sequencer τ) : primings (s.runDue horizon).2 = 0 := by
  fun_induction runDue horizon s with
  | case1 => rfl
  | case2 s hplaying time hdue ticked rest ih =>
    rw [primings_append, ih, primings_completeTick]
  | case3 => rfl

theorem primings_poll (ready : Bool) (horizon : τ) (s : Sequencer τ) :
    primings (s.poll ready horizon).2 = 0 := by
  unfold poll
  split <;> simp [primings_finishPriming, primings_runDue]

/-! ### Requests and runs -/

variable [LT τ] [DecidableLT τ]

omit [BEq τ] in
/-- A sequencer that is not idle does not become so. -/
theorem Move.ne_idle {request : Request τ} {s s' : Sequencer τ} {K : List (Event τ)}
    (hmove : Move request s K s') (h : s.playback ≠ .idle) : s'.playback ≠ .idle := by
  cases hmove with
  | pend pending hpriming => exact h
  | play hrequest hplaying hdue hpoint hlt => exact h
  | toggleMute label hrequest => exact h
  | seek hrequest hindex => exact h
  | setTimeline timeline hrequest => exact h
  | stop now hplaying hnow => simp [halted]
  | _ => simp [started, halted]

/-- No request leads back to the idle state. -/
theorem act_ne_idle (ready : Bool) (request : Request τ) {s : Sequencer τ}
    (h : s.playback ≠ .idle) : (s.act ready request).1.playback ≠ .idle :=
  (leads_act ready request s).ne_idle h

/-- A sequencer that has played a point is no longer idle. -/
theorem ne_idle_of_played [LawfulBEq τ] (steps : List (Bool × Request τ)) (s₀ : Sequencer τ) {p : Played τ}
    (hp : .played p ∈ history steps s₀) : (run steps s₀).1.playback ≠ .idle := by
  refine history_induction (motive := fun s H => .played p ∈ H → s.playback ≠ .idle) steps s₀
    (fun h => absurd h List.not_mem_nil) ?_ hp
  intro s H q K s' _ ih hmove hmem
  rcases List.mem_append.1 hmem with hmem | hmem
  · exact hmove.ne_idle (ih hmem)
  · -- Only ticks play points, and they are those of a playback.
    cases hmove with
    | play hrequest hplaying hdue hpoint hlt =>
      show s.playback ≠ .idle
      rw [hplaying]
      decide
    | playLast hrequest hplaying hdue hpoint hlt => simp
    | _ => simp at hmem

omit [NatCast τ] [Add τ] [Div τ] [BEq τ] [LE τ] [DecidableLE τ] [LT τ] [DecidableLT τ] in
/-- After a request to play, a sequencer is not idle. -/
theorem play_ne_idle (ready : Bool) (now : τ) (s : Sequencer τ) :
    (s.play ready now).1.playback ≠ .idle := by
  cases h : s.playback with
  | idle => cases ready <;> simp [play, h, setPlayback, finishPriming, started]
  | priming => simp [play, h]
  | ready => simp [play, h, started]
  | playing => simp [play, h]

/-- Of the requests to an idle sequencer, only those to play do anything about the voices. -/
theorem act_of_idle (ready : Bool) (request : Request τ) {s : Sequencer τ}
    (hidle : s.playback = .idle) :
    (∃ now, s.act ready request = s.play ready now) ∨
      primings (s.act ready request).2 = 0 ∧ (s.act ready request).1.playback = .idle := by
  have hplaying : s.isPlaying = false := by simp [isPlaying, hidle]
  have hdue : ∀ horizon, s.runDue horizon = (s, []) := by
    intro horizon
    rw [runDue]
    simp [hplaying]
  cases request with
  | play now => exact .inl ⟨now, rfl⟩
  | toggle now => exact .inl ⟨now, by simp [act, toggle, hplaying]⟩
  | stop now => right; simp [act, stop, hidle]
  | poll horizon => right; simp [act, poll, hidle, hdue]
  | toggleMute label => right; simp [act, toggleMute, hidle]
  | seek sectionId step =>
    right
    cases h : s.timeline.position? sectionId step <;> simp [act, seek?, h, hidle]
  | setTimeline timeline => right; simp [act, setTimeline, hidle]

/-- A request asks for the voices if it finds a sequencer idle and does not leave it so. -/
theorem primings_act (ready : Bool) (request : Request τ) (s : Sequencer τ) :
    primings (s.act ready request).2 =
      if s.playback = .idle ∧ (s.act ready request).1.playback ≠ .idle then 1 else 0 := by
  by_cases hidle : s.playback = .idle
  · rcases act_of_idle ready request hidle with ⟨now, hplay⟩ | ⟨hnone, hleft⟩
    · rw [hplay, primings_play, if_pos hidle, if_pos ⟨hidle, play_ne_idle ready now s⟩]
    · rw [hnone, if_neg fun h => h.2 hleft]
  · -- Only a sequencer that is idle asks.
    rw [if_neg fun h => hidle h.1]
    cases request with
    | play now => rw [act, primings_play, if_neg hidle]
    | stop now => exact primings_stop now s
    | toggle now =>
      rw [act, toggle]
      split
      · exact primings_stop now s
      · rw [primings_play, if_neg hidle]
    | poll horizon => exact primings_poll ready horizon s
    | toggleMute label => rfl
    | seek sectionId step => rfl
    | setTimeline timeline => rfl

/-- A request asks for the voices before it makes any call, if it asks for them at all. -/
theorem primings_act_cases (ready : Bool) (request : Request τ) (s : Sequencer τ) :
    primings (s.act ready request).2 = 0 ∨ ∃ n rest,
      (s.act ready request).2 = .notice n :: .prime :: rest ∧ primings rest = 0 := by
  by_cases hidle : s.playback = .idle
  · rcases act_of_idle ready request hidle with ⟨now, hplay⟩ | ⟨hnone, -⟩
    · right
      rw [hplay, play, hidle]
      exact ⟨_, _, rfl, primings_finishPriming ready now _⟩
    · exact .inl hnone
  · left
    rw [primings_act, if_neg fun h => hidle h.1]

/-- Once left, the idle state does not come again. -/
theorem run_ne_idle (steps : List (Bool × Request τ)) {s : Sequencer τ} (h : s.playback ≠ .idle) :
    (run steps s).1.playback ≠ .idle :=
  (leads_run steps s).ne_idle h

/-- **The voices are asked for once**, by the run that first leaves a sequencer other than idle. -/
theorem primings_run (steps : List (Bool × Request τ)) (s : Sequencer τ) :
    primings (run steps s).2 =
      if s.playback = .idle ∧ (run steps s).1.playback ≠ .idle then 1 else 0 := by
  induction steps generalizing s with
  | nil => simp [run]
  | cons q rest ih =>
    rw [run, andThen_snd, andThen_fst, primings_append, ih, primings_act]
    -- The first request leaves the sequencer idle, or all later ones find it otherwise.
    by_cases hidle : (s.act q.1 q.2).1.playback = .idle
    · have hbefore : s.playback = .idle :=
        Decidable.byContradiction fun hne => act_ne_idle q.1 q.2 hne hidle
      simp [hidle, hbefore]
    · simp [hidle, run_ne_idle rest hidle]

end

end Gamelan.Sequencer
