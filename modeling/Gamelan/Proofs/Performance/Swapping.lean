import Gamelan.Proofs.Performance.Consistency

namespace Gamelan.Sequencer

/-!
# Swapping in the same timeline

A new timeline makes a sequencer forget which points it has sent, also if it is the timeline that it
has already.  Only a stop looks at these points, and whatever else makes a sequencer forget them
comes to the same.  So a swap for the same timeline shows just if a stop comes first, and early
enough to take points back that were sent before the swap.  Such a stop has the voices forget those
points all the same, so after a swap they are lost.

* `Observation`, `observed` — what a sequencer shows in a run.
* `Event.forgets`, `TakesBack` — what makes a sequencer forget, and that a stop comes first.
* `recalling` — the same sequencer, remembering more points.
* `act_recalling` — what comes of the points remembered in one request.
* `observed_recalling_iff` — when it shows in a run that more points are remembered.
* `observed_swap_iff` — when a swap for the same timeline shows.

Nothing here asks anything of the times: they may be floating-point numbers.
-/

variable {τ : Type}

/-! ### What a run shows -/

/-- What a sequencer shows after a request: the calls it has made, and all of its state that can be
looked up. -/
structure Observation (τ : Type) where
  calls : List (VoiceCall τ)
  playback : Playback
  cursor : Nat
  /-- The point under the cursor. -/
  point? : Option (Point τ)
  /-- The tempo, and the tick that is scheduled. -/
  transport : Transport τ

/-- What a step shows. -/
def observe (step : Step τ) : Observation τ where
  calls := calls step.2
  playback := step.1.playback
  cursor := step.1.cursor
  point? := step.1.current?
  transport := step.1.transport

/-- Whether a sequencer no longer remembers, after an event, what it has sent before. -/
def Event.forgets : Event τ → Bool
  | started _ => true
  | stopped _ => true
  | forgotten => true
  | levelled => false
  | played _ => false
  | finished _ => false

section
variable [NatCast τ] [Add τ] [Div τ] [BEq τ] [LE τ] [DecidableLE τ] [LT τ] [DecidableLT τ]

/-- What a sequencer shows in a run, request by request. -/
def observed : List (Bool × Request τ) → Sequencer τ → List (Observation τ)
  | [], _ => []
  | (ready, request) :: rest, s =>
    observe (s.act ready request) :: observed rest (s.act ready request).1

/-- In a run, the first thing to make a sequencer forget is a stop, and one of some points has its
tick after it. -/
def TakesBack (old : List (SentPoint τ)) (steps : List (Bool × Request τ)) (s : Sequencer τ) :
    Prop :=
  ∃ now, (history steps s).find? Event.forgets = some (.stopped now) ∧
    ∃ tick ∈ old, now < tick.time

end

/-! ### More points remembered -/

/-- The same sequencer, remembering some points more from earlier. -/
def recalling (old : List (SentPoint τ)) (s : Sequencer τ) : Sequencer τ :=
  { s with sent := old ++ s.sent }

/-- The same step, remembering some points more from earlier. -/
def Step.recalling (old : List (SentPoint τ)) (step : Step τ) : Step τ :=
  (step.1.recalling old, step.2)

/-- What a sequencer remembers, it does not show. -/
@[simp] theorem observe_recalling (old : List (SentPoint τ)) (step : Step τ) :
    observe (step.recalling old) = observe step := rfl

section
variable (old : List (SentPoint τ))

/-- Steps that only remember more do so together. -/
theorem andThen_recalling (first : Step τ) {second : Sequencer τ → Step τ}
    (h : ∀ s, second (s.recalling old) = (second s).recalling old) :
    (first.recalling old).andThen second = (first.andThen second).recalling old := by
  rw [Step.andThen, Step.andThen, Step.recalling, h]
  rfl

/-- A halt does not look at the points remembered. -/
theorem halt_recalling (time : τ) (s : Sequencer τ) :
    (s.recalling old).halt time = (s.halt time).recalling old := rfl

/-- Loading the voices forgets if a playback starts. -/
theorem finishPriming_recalling (ready : Bool) (now : τ) (s : Sequencer τ) :
    (s.recalling old).finishPriming ready now =
      if ready && s.startPending then s.finishPriming ready now
      else (s.finishPriming ready now).recalling old := by
  obtain ⟨timeline, registry, transport, playback, cursor, muted, sent, startPending⟩ := s
  cases ready <;> cases startPending <;> rfl

section
variable [NatCast τ] [Add τ] [Div τ] [BEq τ]

omit [NatCast τ] [Add τ] [Div τ] in
theorem followTempo_recalling (tempo : τ) (s : Sequencer τ) :
    (s.recalling old).followTempo tempo = (s.followTempo tempo).recalling old := by
  rw [followTempo, followTempo, show (s.recalling old).transport = s.transport from rfl]
  split <;> rfl

omit [BEq τ] in
theorem advance_recalling (time : τ) (s : Sequencer τ) :
    (s.recalling old).advance time = (s.advance time).recalling old := by
  rw [advance, advance, show (s.recalling old).cursor = s.cursor from rfl,
    show (s.recalling old).timeline = s.timeline from rfl]
  split <;> rfl

/-- A tick remembers one more point, behind those from earlier. -/
theorem completeTick_recalling (time : τ) (s : Sequencer τ) :
    (s.recalling old).completeTick time = (s.completeTick time).recalling old := by
  have htick : (s.recalling old).tick time = (s.tick time).recalling old := by
    rw [tick, tick, show (s.recalling old).current? = s.current? from rfl]
    cases s.current? with
    | none => rfl
    | some point =>
      let sent : SentPoint τ := ⟨s.cursor, time, s.transport.tempo⟩
      have hsent :
          ({ s.recalling old with sent := (s.recalling old).sent ++ [sent] } : Sequencer τ) =
            recalling old { s with sent := s.sent ++ [sent] } := by
        simp only [recalling, List.append_assoc]
      refine Eq.trans (congrArg (fun s' => Step.andThen (s', _) _) hsent)
        (andThen_recalling old (_, _) fun s' => ?_)
      rw [followTempo_recalling]
      exact andThen_recalling old _ (advance_recalling old time)
  rw [completeTick, completeTick, htick]
  exact andThen_recalling old _ fun _ => rfl

variable [LE τ] [DecidableLE τ]

/-- Due ticks do not look at the points remembered. -/
theorem runDue_recalling (horizon : τ) (s : Sequencer τ) :
    (s.recalling old).runDue horizon = (s.runDue horizon).recalling old := by
  fun_induction runDue horizon s with
  | case1 s hplaying hdue =>
    have hplaying' : (s.recalling old).isPlaying = true := hplaying
    have hdue' : (s.recalling old).transport.due? horizon = none := hdue
    rw [runDue]
    simp [hplaying', hdue', Step.recalling]
  | case2 s hplaying time hdue ticked rest ih =>
    have hplaying' : (s.recalling old).isPlaying = true := hplaying
    have hdue' : (s.recalling old).transport.due? horizon = some time := hdue
    rw [runDue_of_due hplaying' hdue', completeTick_recalling, Step.recalling, ih]
    rfl
  | case3 s hplaying =>
    have hplaying' : (s.recalling old).isPlaying = false := Bool.eq_false_iff.2 hplaying
    exact (runDue_of_not_playing horizon hplaying').1

omit [BEq τ] [LE τ] [DecidableLE τ] in
/-- A tick does not forget. -/
theorem find?_forgets_tickEvents (time : τ) (s : Sequencer τ) :
    (s.tickEvents time).find? Event.forgets = none := by
  unfold tickEvents
  split
  · rfl
  · split <;> rfl

/-- Ticks do not forget. -/
theorem find?_forgets_dueEvents (horizon : τ) (s : Sequencer τ) :
    (s.dueEvents horizon).find? Event.forgets = none := by
  fun_induction dueEvents horizon s with
  | case1 s hplaying hdue => rfl
  | case2 s hplaying time hdue ih =>
    rw [List.find?_append, find?_forgets_tickEvents, ih]
    rfl
  | case3 s hplaying => rfl

end

end

/-! ### What comes of the points remembered -/

section
variable [NatCast τ] [Add τ] [Div τ] [BEq τ] [LE τ] [DecidableLE τ] [LT τ] [DecidableLT τ]

/-- What comes of points remembered from earlier in a request. -/
inductive Recollection (old : List (SentPoint τ)) (ready : Bool) (request : Request τ)
    (s : Sequencer τ) : Prop where
  /-- They are remembered still, and nothing looks at them. -/
  | kept (hevents : ((s.recalling old).events ready request).find? Event.forgets = none)
      (hact : (s.recalling old).act ready request = (s.act ready request).recalling old)
  /-- They are forgotten, and nothing looks at them. -/
  | dropped {e : Event τ} (hne : ∀ now, e ≠ .stopped now)
      (hevents : ((s.recalling old).events ready request).find? Event.forgets = some e)
      (hact : (s.recalling old).act ready request = s.act ready request)
  /-- A stop looks at them. -/
  | searched {now : τ} (hplaying : s.playback = .playing)
      (hevents : ((s.recalling old).events ready request).find? Event.forgets =
        some (.stopped now))
      (hact : s.act ready request = s.stop now)
      (hact' : (s.recalling old).act ready request = (s.recalling old).stop now)

namespace Recollection

variable (old : List (SentPoint τ)) (ready : Bool) (now : τ) (s : Sequencer τ)

/-- A request to play forgets if a playback starts. -/
theorem play : Recollection old ready (.play now) s := by
  obtain ⟨timeline, registry, transport, playback, cursor, muted, sent, startPending⟩ := s
  cases playback with
  | idle =>
    cases ready with
    | false => exact .kept rfl rfl
    | true => exact .dropped (e := .started now) (fun _ h => by cases h) rfl rfl
  | priming => exact .kept rfl rfl
  | ready => exact .dropped (e := .started now) (fun _ h => by cases h) rfl rfl
  | playing => exact .kept rfl rfl

/-- A stop looks at the points remembered if there is a playback. -/
theorem stop : Recollection old ready (.stop now) s := by
  obtain ⟨timeline, registry, transport, playback, cursor, muted, sent, startPending⟩ := s
  cases playback with
  | playing => exact .searched rfl rfl rfl rfl
  | _ => exact .kept rfl rfl

theorem toggle : Recollection old ready (.toggle now) s := by
  obtain ⟨timeline, registry, transport, playback, cursor, muted, sent, startPending⟩ := s
  cases playback with
  | idle =>
    cases ready with
    | false => exact .kept rfl rfl
    | true => exact .dropped (e := .started now) (fun _ h => by cases h) rfl rfl
  | priming => exact .kept rfl rfl
  | ready => exact .dropped (e := .started now) (fun _ h => by cases h) rfl rfl
  | playing => exact .searched rfl rfl rfl rfl

/-- A poll forgets if a playback starts in it. -/
theorem poll (horizon : τ) : Recollection old ready (.poll horizon) s := by
  by_cases hpriming : s.playback = .priming
  · have hpriming' : (s.recalling old).playback = .priming := hpriming
    have hfinish := finishPriming_recalling old ready horizon s
    cases hstart : ready && s.startPending with
    | false =>
      rw [hstart, if_neg Bool.false_ne_true] at hfinish
      refine .kept ?_ ?_
      · rw [events, pollEvents, if_pos hpriming', List.find?_append, find?_forgets_dueEvents,
          Option.or_none, primingEvents]
        cases ready with
        | false => rfl
        | true =>
          rw [show (s.recalling old).startPending = false from hstart]
          rfl
      · rw [act, act, Sequencer.poll, Sequencer.poll, if_pos hpriming, if_pos hpriming', hfinish]
        exact andThen_recalling old _ (runDue_recalling old horizon)
    | true =>
      rw [hstart, if_pos rfl] at hfinish
      obtain ⟨rfl, hpending⟩ := Bool.and_eq_true_iff.1 hstart
      refine .dropped (e := .started horizon) (fun _ h => by cases h) ?_ ?_
      · rw [events, pollEvents, if_pos hpriming', primingEvents,
          show (s.recalling old).startPending = true from hpending]
        rfl
      · rw [act, act, Sequencer.poll, Sequencer.poll, if_pos hpriming, if_pos hpriming', hfinish]
  · have hpriming' : ¬(s.recalling old).playback = .priming := hpriming
    refine .kept ?_ ?_
    · rw [events, pollEvents, if_neg hpriming', find?_forgets_dueEvents]
    · rw [act, act, Sequencer.poll, Sequencer.poll, if_neg hpriming, if_neg hpriming']
      exact andThen_recalling old (s, []) (runDue_recalling old horizon)

/-- A seek forgets if it finds its point. -/
theorem seek (sectionId step : Nat) : Recollection old ready (.seek sectionId step) s := by
  cases hindex : s.timeline.position? sectionId step with
  | none =>
    have hindex' : (s.recalling old).timeline.position? sectionId step = none := hindex
    refine .kept ?_ ?_
    · simp [events, hindex']
    · simp [act, seek?, hindex, hindex', Step.recalling]
  | some index =>
    have hindex' : (s.recalling old).timeline.position? sectionId step = some index := hindex
    refine .dropped (e := .forgotten) (fun _ h => by cases h) ?_ ?_
    · simp [events, hindex', Event.forgets]
    · simp [act, seek?, hindex, recalling]

end Recollection

/-- **What comes of the points remembered in one request**: nothing but a stop looks at them. -/
theorem act_recalling (old : List (SentPoint τ)) (ready : Bool) (request : Request τ)
    (s : Sequencer τ) : Recollection old ready request s := by
  cases request with
  | play now => exact .play old ready now s
  | stop now => exact .stop old ready now s
  | toggle now => exact .toggle old ready now s
  | poll horizon => exact .poll old ready s horizon
  | toggleMute label => exact .kept rfl rfl
  | seek sectionId step => exact .seek old ready s sectionId step
  | setTimeline timeline => exact .dropped (e := .forgotten) (fun _ h => by cases h) rfl rfl

end

/-! ### Stops -/

section
variable [LT τ] [DecidableLT τ]

/-- A stop behind all ticks of some points does not show whether they are remembered. -/
theorem stop_recalling {old : List (SentPoint τ)} {now : τ}
    (hold : ¬∃ tick ∈ old, now < tick.time) (s : Sequencer τ) (hplaying : s.playback = .playing) :
    (s.recalling old).stop now = s.stop now := by
  have hnone : old.find? (now < ·.time) = none := by
    rw [List.find?_eq_none]
    exact fun tick htick hlt => hold ⟨tick, htick, of_decide_eq_true hlt⟩
  have hrewind : (s.halted.recalling old).rewindUnplayed now = s.halted.rewindUnplayed now := by
    rw [rewindUnplayed, rewindUnplayed,
      show (s.halted.recalling old).sent = old ++ s.halted.sent from rfl, List.find?_append, hnone]
    rfl
  have hstop : ∀ s : Sequencer τ, s.playback = .playing →
      s.stop now = (s.halt now).andThen fun s =>
        (s.rewindUnplayed now).andThen fun s => report (.stopped s.cursor) s := by
    intro s h
    rw [stop, h]
  rw [hstop (s.recalling old) hplaying, hstop s hplaying, halt_recalling]
  simp only [Step.andThen, Step.recalling, halt_fst, hrewind]

/-- A stop leaves the cursor where it is, or at a point that is remembered. -/
theorem cursor_stop_mem (now : τ) {s : Sequencer τ} (hplaying : s.playback = .playing) :
    (s.stop now).1.cursor ∈ s.sent.map (·.index) ++ [s.cursor] := by
  rw [stop_fst now hplaying, rewindUnplayed]
  split
  · next first hfirst =>
    exact List.mem_append_left _ (List.mem_map_of_mem (List.mem_of_find?_eq_some hfirst))
  · exact List.mem_append_right _ (List.mem_singleton_self _)

/-- A stop before the tick of a point from earlier takes back more if that point is remembered. -/
theorem cursor_stop_recalling_lt {old : List (SentPoint τ)} {now : τ} {s : Sequencer τ}
    (hrow : InRow (s.recalling old)) (hplaying : s.playback = .playing)
    (hold : ∃ tick ∈ old, now < tick.time) :
    ((s.recalling old).stop now).1.cursor < (s.stop now).1.cursor := by
  obtain ⟨tick, htick, hlt⟩ := hold
  obtain ⟨first, hfirst⟩ : ∃ first, old.find? (now < ·.time) = some first :=
    Option.isSome_iff_exists.1 (List.find?_isSome.2 ⟨tick, htick, decide_eq_true hlt⟩)
  have hcursor : ((s.recalling old).stop now).1.cursor = first.index := by
    rw [stop_fst now (s := s.recalling old) hplaying, rewindUnplayed,
      show (s.recalling old).halted.sent = old ++ s.sent from rfl, List.find?_append, hfirst]
    rfl
  have hascending := hrow.ascending hplaying
  rw [show (s.recalling old).sent = old ++ s.sent from rfl, List.map_append, List.append_assoc]
    at hascending
  rw [hcursor]
  exact (List.pairwise_append.1 hascending).2.2 _
    (List.mem_map_of_mem (List.mem_of_find?_eq_some hfirst)) _ (cursor_stop_mem now hplaying)

end

/-! ### Runs -/

section
variable [NatCast τ] [Add τ] [Div τ] [BEq τ] [LE τ] [DecidableLE τ] [LT τ] [DecidableLT τ]

/-- While nothing makes a sequencer forget, it remembers points from earlier. -/
theorem run_recalling {old : List (SentPoint τ)} {steps : List (Bool × Request τ)}
    {s : Sequencer τ} (h : (history steps (s.recalling old)).find? Event.forgets = none) :
    (run steps (s.recalling old)).1 = (run steps s).1.recalling old := by
  induction steps generalizing s with
  | nil => rfl
  | cons q rest ih =>
    rw [history, List.find?_append, Option.or_eq_none_iff] at h
    rw [run, andThen_fst, run, andThen_fst]
    cases act_recalling old q.1 q.2 s with
    | kept hevents hact =>
      rw [hact] at h ⊢
      exact ih h.2
    | dropped hne hevents hact =>
      rw [hevents] at h
      cases h.1
    | searched hplaying hevents hact hact' =>
      rw [hevents] at h
      cases h.1

/-- **When it shows in a run that points from earlier are remembered**: just if a stop takes some of
them back before they are forgotten. -/
theorem observed_recalling_iff (old : List (SentPoint τ)) (steps : List (Bool × Request τ))
    {s : Sequencer τ} (hrow : InRow (s.recalling old)) :
    observed steps s = observed steps (s.recalling old) ↔
      ¬TakesBack old steps (s.recalling old) := by
  induction steps generalizing s with
  | nil =>
    refine iff_of_true rfl ?_
    rintro ⟨now, hnow, -⟩
    cases hnow
  | cons q rest ih =>
    have hnext := hrow.act q.1 q.2
    rw [observed, observed, TakesBack, history, List.find?_append, List.cons.injEq]
    cases act_recalling old q.1 q.2 s with
    | kept hevents hact =>
      -- The request shows the same, and the states differ in the same points as before.
      rw [hact] at hnext ⊢
      rw [hevents, Option.none_or, observe_recalling]
      exact (and_iff_right rfl).trans (ih hnext)
    | dropped hne hevents hact =>
      -- From here on the states are the same, so no stop can tell.
      rw [hact, hevents]
      refine iff_of_true ⟨rfl, rfl⟩ ?_
      rintro ⟨now, hnow, -⟩
      exact hne now (Option.some.inj hnow)
    | @searched now hplaying hevents hact hact' =>
      rw [hact, hact', hevents]
      by_cases hold : ∃ tick ∈ old, now < tick.time
      · refine iff_of_false ?_ (not_not_intro ⟨now, rfl, hold⟩)
        rintro ⟨hobserve, -⟩
        have hcursor : (s.stop now).1.cursor = ((s.recalling old).stop now).1.cursor :=
          congrArg Observation.cursor hobserve
        exact (cursor_stop_recalling_lt hrow hplaying hold).ne hcursor.symm
      · rw [stop_recalling hold s hplaying]
        refine iff_of_true ⟨rfl, rfl⟩ ?_
        rintro ⟨now', hnow, hold'⟩
        cases hnow
        exact hold hold'

/-- Before the stop that takes points back, they are still remembered. -/
theorem exists_stop_of_takesBack {old : List (SentPoint τ)} {before : List (Bool × Request τ)}
    {q : Bool × Request τ} {s : Sequencer τ} (hnot : ¬TakesBack old before (s.recalling old))
    (htakes : TakesBack old (before ++ [q]) (s.recalling old)) :
    ∃ now, (∃ tick ∈ old, now < tick.time) ∧
      (run before (s.recalling old)).1 = (run before s).1.recalling old ∧
      (run before s).1.playback = .playing ∧
      (run before s).1.act q.1 q.2 = (run before s).1.stop now ∧
      ((run before s).1.recalling old).act q.1 q.2 = ((run before s).1.recalling old).stop now := by
  obtain ⟨now, hnow, hold⟩ := htakes
  rw [history_append, List.find?_append] at hnow
  -- Nothing before the last request has made the sequencer forget, or it would have taken back
  -- before.
  have hnone : (history before (s.recalling old)).find? Event.forgets = none := by
    by_contra hsome
    obtain ⟨e, he⟩ := Option.ne_none_iff_exists'.1 hsome
    rw [he, Option.some_or] at hnow
    exact hnot ⟨now, he.trans hnow, hold⟩
  have hrun := run_recalling hnone
  rw [hnone, Option.none_or, hrun, history, history, List.append_nil] at hnow
  cases act_recalling old q.1 q.2 (run before s).1 with
  | kept hevents hact =>
    rw [hevents] at hnow
    cases hnow
  | dropped hne hevents hact =>
    rw [hevents] at hnow
    exact absurd (Option.some.inj hnow) (hne now)
  | searched hplaying hevents hact hact' =>
    rw [hevents] at hnow
    cases hnow
    exact ⟨now, hold, hrun, hplaying, hact, hact'⟩

omit [NatCast τ] [Add τ] [Div τ] [BEq τ] [LE τ] [DecidableLE τ] [LT τ] [DecidableLT τ] in
/-- A swap for the same timeline changes nothing but what is remembered. -/
theorem setTimeline_recalling {s : Sequencer τ} (hplace : InPlace s) :
    (s.setTimeline s.timeline).recalling s.sent = s := by
  have hcursor : (if s.timeline.length ≤ s.cursor then 0 else s.cursor) = s.cursor := by
    have := hplace.cursor_lt
    split <;> omega
  simp only [setTimeline, recalling, hcursor, List.append_nil]

/-- **When a swap for the same timeline shows.**  A sequencer that was asked for anything goes on in
some way, and it goes on in the same way after its timeline was put in place once more.  Both show
the same after every request, unless the first thing in the run to make the sequencer forget the
points it has sent is a stop, and one of the points sent before the swap and still remembered has
its tick after the stop.  Up to such a stop, both show the same; at the stop, both make the same
calls and come to rest, but without the swap the cursor goes back further. -/
theorem observed_swap_iff (timeline : Timeline τ) (registry : Registry)
    (earlier steps : List (Bool × Request τ)) :
    let s := (run earlier (new timeline registry)).1
    let swapped := s.setTimeline s.timeline
    (observed steps swapped = observed steps s ↔ ¬TakesBack s.sent steps s) ∧
    ∀ before q, ¬TakesBack s.sent before s → TakesBack s.sent (before ++ [q]) s →
      let outcome := (run before s).1.act q.1 q.2
      let outcome' := (run before swapped).1.act q.1 q.2
      observed before swapped = observed before s ∧
      calls outcome.2 = calls outcome'.2 ∧
      outcome.1.playback = .ready ∧ outcome'.1.playback = .ready ∧
      outcome.1.cursor < outcome'.1.cursor := by
  intro s swapped
  have hrow : InRow s := inRow_run timeline registry earlier
  -- To swap is to forget the points sent: with them, the sequencer is what it was before.
  have hswapped : swapped.recalling s.sent = s := setTimeline_recalling hrow.toInPlace
  have hiff : ∀ steps, observed steps swapped = observed steps s ↔ ¬TakesBack s.sent steps s := by
    intro steps
    have := observed_recalling_iff s.sent steps (s := swapped) (by rwa [hswapped])
    rwa [hswapped] at this
  refine ⟨hiff steps, fun before q hnot htakes => ?_⟩
  have hnot' : ¬TakesBack s.sent before (swapped.recalling s.sent) := by rwa [hswapped]
  have htakes' : TakesBack s.sent (before ++ [q]) (swapped.recalling s.sent) := by rwa [hswapped]
  -- Up to the last request, both runs are the same but for what they remember, and that is a stop.
  obtain ⟨now, hold, hrun, hplaying, hact, hact'⟩ := exists_stop_of_takesBack hnot' htakes'
  rw [hswapped] at hrun
  have hrow' := hrow.run before
  rw [hrun] at hrow'
  intro outcome outcome'
  have houtcome : outcome = ((run before swapped).1.recalling s.sent).stop now := by
    rw [show outcome = _ from congrArg (Sequencer.act q.1 q.2) hrun, hact']
  rw [houtcome, show outcome' = _ from hact]
  refine ⟨(hiff before).2 hnot, ?_, ?_, ?_, cursor_stop_recalling_lt hrow' hplaying hold⟩
  · rw [calls_stop now hplaying,
      calls_stop now (s := (run before swapped).1.recalling s.sent) hplaying]
    rfl
  · rw [stop_fst now (s := (run before swapped).1.recalling s.sent) hplaying,
      playback_rewindUnplayed]
    rfl
  · rw [stop_fst now hplaying, playback_rewindUnplayed]
    rfl

end

/-- The short piece, polled up to its second point and stopped before it.  That point is sent
already: the cursor goes back to it, but not if the timeline was put in place once more. -/
theorem swap_shows_shortPiece :
    let s := (run [(true, .play 0), (true, .poll (1 / 4))] duoSequencer).1
    (s.act true (.stop (1 / 8))).1.cursor = 1 ∧
      ((s.setTimeline s.timeline).act true (.stop (1 / 8))).1.cursor = 2 ∧
      observed [(true, .stop (1 / 8))] (s.setTimeline s.timeline) ≠
        observed [(true, .stop (1 / 8))] s := by
  have hcursor : ((run [(true, .play 0), (true, .poll (1 / 4))] duoSequencer).1.act true
      (.stop (1 / 8))).1.cursor = 1 := by cbv
  have hcursor' : (((run [(true, .play 0), (true, .poll (1 / 4))] duoSequencer).1.setTimeline
      (run [(true, .play 0), (true, .poll (1 / 4))] duoSequencer).1.timeline).act true
      (.stop (1 / 8))).1.cursor = 2 := by cbv
  intro s
  refine ⟨hcursor, hcursor', fun h => ?_⟩
  have hobserve := congrArg Observation.cursor (List.cons.inj h).1
  simp only [observe] at hobserve
  rw [show (s.act true (.stop (1 / 8))).1.cursor = 1 from hcursor,
    show ((s.setTimeline s.timeline).act true (.stop (1 / 8))).1.cursor = 2 from hcursor']
    at hobserve
  exact absurd hobserve (by decide)

/-- The same stop is the first thing to make the sequencer forget, and the second point has its tick
after it. -/
theorem observed_swap_iff_shortPiece :
    let s := (run [(true, .play 0), (true, .poll (1 / 4))] duoSequencer).1
    TakesBack s.sent [(true, .stop (1 / 8))] s ∧
      (s.act true (.stop (1 / 8))).1.cursor <
        ((s.setTimeline s.timeline).act true (.stop (1 / 8))).1.cursor := by
  have hsent : (run [(true, .play 0), (true, .poll (1 / 4))] duoSequencer).1.sent =
      [⟨0, 0, 120⟩, ⟨1, 1 / 4, 60⟩] := by cbv
  have hhistory : (history [(true, .stop (1 / 8))]
      (run [(true, .play 0), (true, .poll (1 / 4))] duoSequencer).1).find? Event.forgets =
      some (.stopped (1 / 8)) := by cbv
  have htakes : TakesBack (run [(true, .play 0), (true, .poll (1 / 4))] duoSequencer).1.sent
      [(true, .stop (1 / 8))] (run [(true, .play 0), (true, .poll (1 / 4))] duoSequencer).1 := by
    refine ⟨1 / 8, hhistory, ⟨1, 1 / 4, 60⟩, ?_, by norm_num⟩
    rw [hsent]
    exact List.mem_cons_of_mem _ (List.mem_singleton_self _)
  have hnot : ¬TakesBack (run [(true, .play 0), (true, .poll (1 / 4))] duoSequencer).1.sent []
      (run [(true, .play 0), (true, .poll (1 / 4))] duoSequencer).1 := by
    rintro ⟨now, hnow, -⟩
    cases hnow
  obtain ⟨-, hstop⟩ := observed_swap_iff (.ofScore shortPiece) duo
    [(true, .play (0 : ℚ)), (true, .poll (1 / 4))] []
  exact ⟨htakes, (hstop [] (true, .stop (1 / 8)) hnot htakes).2.2.2.2⟩

end Gamelan.Sequencer
