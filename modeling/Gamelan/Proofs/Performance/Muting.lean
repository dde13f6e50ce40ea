import Gamelan.Proofs.Performance.History

namespace Gamelan.Sequencer

/-!
# Muting

Muting a label takes the strokes on it away and changes nothing else.  To say so, every call is
logged as it would be made with nothing muted, together with the label whose action makes it and the
labels muted then; the voices hear the part of the log that is not muted.

* `LoggedCall`, `log` — the log of a run.
* `calls_run_eq_heard` — the voices hear what the log has of labels that are not muted.
* `act_muting` — what is muted changes neither the log nor the course of a sequencer.

Nothing here asks anything of the times: they may be floating-point numbers.
-/

variable {τ : Type}

/-! ### Other labels muted -/

/-- The same sequencer with other labels muted. -/
def muting (labels : List String) (s : Sequencer τ) : Sequencer τ :=
  { s with muted := labels }

/-- Only the labels muted last count. -/
@[simp] theorem muting_muting (labels more : List String) (s : Sequencer τ) :
    (s.muting labels).muting more = s.muting more := rfl

/-- Muting the labels that are muted changes nothing. -/
@[simp] theorem muting_muted (s : Sequencer τ) : s.muting s.muted = s := rfl

/-- The same step with other labels muted. -/
def Step.muting (labels : List String) (step : Step τ) : Step τ :=
  (step.1.muting labels, step.2)

/-- The label of a request to mute it or to sound it again. -/
def toggledLabel? : Request τ → Option String
  | .toggleMute label => some label
  | _ => none

/-- Only a request to toggle a label toggles it. -/
theorem eq_toggleMute_of_toggledLabel? {request : Request τ} {label : String}
    (h : toggledLabel? request = some label) : request = .toggleMute label := by
  cases request with
  | toggleMute other => exact congrArg _ (Option.some.inj h)
  | _ => cases h

/-! ### The log -/

/-- A call as it is made unless its label is muted. -/
structure LoggedCall (τ : Type) where
  call : VoiceCall τ
  /-- The label of the action that makes it.  Levels and sweeps are of no action. -/
  label? : Option String
  /-- The labels muted then. -/
  muted : List String

namespace LoggedCall

/-- Whether a call is made: it is of no action, or of one whose label is not muted. -/
def heard (c : LoggedCall τ) : Bool :=
  !c.label?.any fun label => c.muted.contains label

/-- The same call with other labels muted. -/
def muting (labels : List String) (c : LoggedCall τ) : LoggedCall τ :=
  { c with muted := labels }

end LoggedCall

/-- The calls of a log that are made. -/
def heardCalls (cs : List (LoggedCall τ)) : List (VoiceCall τ) :=
  (cs.filter LoggedCall.heard).map (·.call)

@[simp] theorem heardCalls_nil : heardCalls ([] : List (LoggedCall τ)) = [] := rfl

/-- The heard calls of a log in two parts. -/
@[simp] theorem heardCalls_append (first second : List (LoggedCall τ)) :
    heardCalls (first ++ second) = heardCalls first ++ heardCalls second := by
  simp [heardCalls]

theorem heardCalls_flatMap {α : Type} (f : α → List (LoggedCall τ)) (xs : List α) :
    heardCalls (xs.flatMap f) = xs.flatMap fun x => heardCalls (f x) := by
  induction xs with
  | nil => rfl
  | cons x xs ih => rw [List.flatMap_cons, heardCalls_append, ih, List.flatMap_cons]

/-- Of the calls under one label, all are made or none. -/
theorem heardCalls_map (label? : Option String) (muted : List String) (cs : List (VoiceCall τ)) :
    heardCalls (cs.map fun c => ⟨c, label?, muted⟩) =
      if label?.any fun label => muted.contains label then [] else cs := by
  rw [heardCalls, List.filter_map, List.map_map]
  show (cs.filter fun _ => !label?.any fun label => muted.contains label).map id = _
  cases label?.any fun label => muted.contains label <;> simp

/-- The calls of some effects that are of no action. -/
def unlabelled (effects : List (Effect τ)) (s : Sequencer τ) : List (LoggedCall τ) :=
  (calls effects).map fun c => ⟨c, none, s.muted⟩

/-- Calls of no action are always made. -/
@[simp] theorem heardCalls_unlabelled (effects : List (Effect τ)) (s : Sequencer τ) :
    heardCalls (s.unlabelled effects) = calls effects :=
  heardCalls_map none s.muted _

/-- Calls of no action are the same whatever is muted. -/
theorem unlabelled_muting (labels : List String) (effects : List (Effect τ)) (s : Sequencer τ) :
    (s.muting labels).unlabelled effects =
      (s.unlabelled effects).map (LoggedCall.muting labels) := by
  rw [unlabelled, unlabelled, List.map_map]
  rfl

section
variable [NatCast τ] [Add τ] [Div τ]

/-- What an action at a tick adds to the log. -/
def actionLog (time : τ) (s : Sequencer τ) (a : Action) : List (LoggedCall τ) :=
  (calls (perform s.registry [] s.transport.tempo time a)).map fun c => ⟨c, some a.label, s.muted⟩

/-- An action is heard unless its label is muted. -/
theorem heardCalls_actionLog (time : τ) (s : Sequencer τ) (a : Action) :
    heardCalls (s.actionLog time a) =
      calls (perform s.registry s.muted s.transport.tempo time a) := by
  rw [actionLog, heardCalls_map, Option.any_some]
  by_cases hmuted : a.label ∈ s.muted
  · simp [perform, hmuted]
  · simp [perform, hmuted]

/-- What an action adds to the log is the same whatever is muted. -/
theorem actionLog_muting (labels : List String) (time : τ) (s : Sequencer τ) (a : Action) :
    (s.muting labels).actionLog time a =
      (s.actionLog time a).map (LoggedCall.muting labels) := by
  rw [actionLog, actionLog, List.map_map]
  rfl

variable [BEq τ]

/-- What a tick adds to the log: the actions of its point, and the sweep if it is the last one. -/
def tickLog (time : τ) (s : Sequencer τ) : List (LoggedCall τ) :=
  match s.current? with
  | none => s.unlabelled (s.halt time).2
  | some point =>
    point.actions.flatMap (s.actionLog time) ++
      s.unlabelled ((s.followTempo ((point.tempo : Nat) : τ)).1.advance time).2

variable [LE τ] [DecidableLE τ]

/-- What the ticks due at `horizon` add to the log. -/
def dueLog (horizon : τ) (s : Sequencer τ) : List (LoggedCall τ) :=
  if _h : s.isPlaying then
    match s.transport.due? horizon with
    | none => []
    | some time => s.tickLog time ++ dueLog horizon (s.completeTick time).1
  else []
termination_by s.ticksLeft
decreasing_by exact ticksLeft_completeTick_lt time s _h

/-- What a poll adds to the log. -/
def pollLog (ready : Bool) (horizon : τ) (s : Sequencer τ) : List (LoggedCall τ) :=
  if s.playback = .priming then
    let primed := s.finishPriming ready horizon
    s.unlabelled primed.2 ++ primed.1.dueLog horizon
  else s.dueLog horizon

variable [LT τ] [DecidableLT τ]

/-- What a request adds to the log.  Only polls play points. -/
def requestLog (ready : Bool) (request : Request τ) (s : Sequencer τ) : List (LoggedCall τ) :=
  match request with
  | .poll horizon => s.pollLog ready horizon
  | _ => s.unlabelled (s.act ready request).2

/-- The log of a run. -/
def log : List (Bool × Request τ) → Sequencer τ → List (LoggedCall τ)
  | [], _ => []
  | (ready, request) :: rest, s =>
    s.requestLog ready request ++ log rest (s.act ready request).1

end

/-! ### What is heard of a tick -/

section
variable [NatCast τ] [Add τ] [Div τ] [BEq τ]

/-- Moving on has the same effects whatever points are remembered. -/
theorem calls_advance_followTempo (tempo time : τ) (sent : List (SentPoint τ)) (s : Sequencer τ) :
    ((({ s with sent := sent } : Sequencer τ).followTempo tempo).1.advance time).2 =
      ((s.followTempo tempo).1.advance time).2 := by
  unfold followTempo advance
  split <;> dsimp only <;> split <;> rfl

/-- The calls of a tick are those of its log that are heard. -/
theorem calls_completeTick_eq_heard (time : τ) (s : Sequencer τ) :
    calls (s.completeTick time).2 = heardCalls (s.tickLog time) := by
  cases hpoint : s.current? with
  | none => simp [completeTick, tick, tickLog, hpoint, setCursor]
  | some point =>
    simp only [completeTick, tick, tickLog, hpoint, andThen_snd, calls_append, calls_followTempo,
      List.append_nil, List.nil_append, heardCalls_append, heardCalls_unlabelled,
      calls_flatMap, heardCalls_flatMap, heardCalls_actionLog]
    rw [calls_advance_followTempo]

variable [LE τ] [DecidableLE τ]

/-- Due ticks make the calls of their log that are heard. -/
theorem calls_runDue_eq_heard (horizon : τ) (s : Sequencer τ) :
    calls (s.runDue horizon).2 = heardCalls (s.dueLog horizon) := by
  fun_induction runDue horizon s with
  | case1 s hplaying hdue => rw [dueLog]; simp [hplaying, hdue]
  | case2 s hplaying time hdue ticked rest ih =>
    rw [dueLog]
    simp only [hplaying, hdue, dite_true, calls_append, heardCalls_append]
    rw [calls_completeTick_eq_heard, ih]
  | case3 s hplaying => rw [dueLog]; simp [hplaying]

variable [LT τ] [DecidableLT τ]

/-- **A request makes the calls of its log that are heard.** -/
theorem calls_act_eq_heard (ready : Bool) (request : Request τ) (s : Sequencer τ) :
    calls (s.act ready request).2 = heardCalls (s.requestLog ready request) := by
  cases request with
  | poll horizon =>
    by_cases h : s.playback = .priming
    · simp [act, poll, requestLog, pollLog, h, calls_runDue_eq_heard]
    · simp [act, poll, requestLog, pollLog, h, calls_runDue_eq_heard]
  | _ => exact (heardCalls_unlabelled _ s).symm

/-- **The voices hear what the log has of labels that are not muted**, and all of its sweeps and
levels. -/
theorem calls_run_eq_heard (steps : List (Bool × Request τ)) (s : Sequencer τ) :
    calls (run steps s).2 = heardCalls (log steps s) := by
  induction steps generalizing s with
  | nil => rfl
  | cons q rest ih =>
    rw [run, log, andThen_snd, calls_append, heardCalls_append, calls_act_eq_heard, ih]

end

/-! ### The course of a sequencer does not depend on what is muted -/

section
variable (labels : List String)

/-- Steps one after the other do the same whatever is muted. -/
theorem andThen_muting (first : Step τ) {second : Sequencer τ → Step τ}
    (h : ∀ s, second (s.muting labels) = (second s).muting labels) :
    (first.muting labels).andThen second = (first.andThen second).muting labels := by
  rw [Step.andThen, Step.andThen, Step.muting, h]
  rfl

/-- A halt does the same whatever is muted. -/
theorem halt_muting (time : τ) (s : Sequencer τ) :
    (s.muting labels).halt time = (s.halt time).muting labels := rfl

theorem finishPriming_muting (ready : Bool) (now : τ) (s : Sequencer τ) :
    (s.muting labels).finishPriming ready now = (s.finishPriming ready now).muting labels := by
  obtain ⟨timeline, registry, transport, playback, cursor, muted, sent, startPending⟩ := s
  cases ready <;> cases startPending <;> rfl

theorem play_muting (ready : Bool) (now : τ) (s : Sequencer τ) :
    (s.muting labels).play ready now = (s.play ready now).muting labels := by
  obtain ⟨timeline, registry, transport, playback, cursor, muted, sent, startPending⟩ := s
  cases playback with
  | idle => cases ready <;> rfl
  | _ => rfl

section
variable [LT τ] [DecidableLT τ]

theorem rewindUnplayed_muting (now : τ) (s : Sequencer τ) :
    (s.muting labels).rewindUnplayed now = (s.rewindUnplayed now).muting labels := by
  rw [rewindUnplayed, rewindUnplayed, show (s.muting labels).sent = s.sent from rfl]
  cases s.sent.find? (now < ·.time) <;> rfl

theorem stop_muting (now : τ) (s : Sequencer τ) :
    (s.muting labels).stop now = (s.stop now).muting labels := by
  rw [stop, stop, show (s.muting labels).playback = s.playback from rfl]
  cases s.playback with
  | playing =>
    dsimp only
    rw [halt_muting]
    refine andThen_muting labels _ fun s' => ?_
    rw [rewindUnplayed_muting]
    exact andThen_muting labels _ fun _ => rfl
  | _ => rfl

theorem toggle_muting (ready : Bool) (now : τ) (s : Sequencer τ) :
    (s.muting labels).toggle ready now = (s.toggle ready now).muting labels := by
  rw [toggle, toggle, show (s.muting labels).isPlaying = s.isPlaying from rfl]
  split
  · exact stop_muting labels now s
  · exact play_muting labels ready now s

end

section
variable [NatCast τ] [Add τ] [Div τ] [BEq τ]

omit [NatCast τ] [Add τ] [Div τ] in
theorem followTempo_muting (tempo : τ) (s : Sequencer τ) :
    (s.muting labels).followTempo tempo = (s.followTempo tempo).muting labels := by
  rw [followTempo, followTempo, show (s.muting labels).transport = s.transport from rfl]
  split <;> rfl

omit [BEq τ] in
theorem advance_muting (time : τ) (s : Sequencer τ) :
    (s.muting labels).advance time = (s.advance time).muting labels := by
  rw [advance, advance, show (s.muting labels).cursor = s.cursor from rfl,
    show (s.muting labels).timeline = s.timeline from rfl]
  split <;> rfl

/-- A tick moves on in the same way, whatever it has its voices do. -/
theorem completeTick_muting (time : τ) (s : Sequencer τ) :
    ((s.muting labels).completeTick time).1 = (s.completeTick time).1.muting labels := by
  -- Only the effects of the actions look at what is muted, and these are left out here.
  rw [completeTick, completeTick, tick, tick, show (s.muting labels).current? = s.current? from rfl]
  cases s.current? with
  | none => rfl
  | some point =>
    simp only [andThen_fst]
    rw [show ∀ sent, ({ s.muting labels with sent := sent } : Sequencer τ) =
      ({ s with sent := sent } : Sequencer τ).muting labels from fun _ => rfl,
      followTempo_muting, Step.muting, advance_muting]
    rfl

/-- The log of a tick is the same whatever is muted. -/
theorem tickLog_muting (time : τ) (s : Sequencer τ) :
    (s.muting labels).tickLog time = (s.tickLog time).map (LoggedCall.muting labels) := by
  rw [tickLog, tickLog, show (s.muting labels).current? = s.current? from rfl]
  cases s.current? with
  | none => exact unlabelled_muting labels _ s
  | some point =>
    dsimp only
    rw [List.map_append, List.map_flatMap, followTempo_muting, Step.muting, advance_muting,
      Step.muting, unlabelled_muting, funext (actionLog_muting labels time s)]

variable [LE τ] [DecidableLE τ]

/-- The log of due ticks is the same whatever is muted, and so is what they leave. -/
theorem runDue_muting (horizon : τ) (s : Sequencer τ) :
    ((s.muting labels).runDue horizon).1 = (s.runDue horizon).1.muting labels ∧
      (s.muting labels).dueLog horizon =
        (s.dueLog horizon).map (LoggedCall.muting labels) := by
  -- The same ticks are due, since the transport is the same after each of them.
  fun_induction runDue horizon s with
  | case1 s hplaying hdue =>
    have hplaying' : (s.muting labels).isPlaying = true := hplaying
    have hdue' : (s.muting labels).transport.due? horizon = none := hdue
    rw [runDue, dueLog, dueLog]
    simp [hplaying, hdue, hplaying', hdue']
  | case2 s hplaying time hdue ticked rest ih =>
    have hplaying' : (s.muting labels).isPlaying = true := hplaying
    have hdue' : (s.muting labels).transport.due? horizon = some time := hdue
    rw [runDue_of_due hplaying' hdue', completeTick_muting, dueLog, dueLog]
    simp only [hplaying, hdue, hplaying', hdue', dite_true, List.map_append]
    rw [tickLog_muting, completeTick_muting]
    exact ⟨ih.1, congrArg _ ih.2⟩
  | case3 s hplaying =>
    have hplaying' : ¬(s.muting labels).isPlaying = true := hplaying
    rw [runDue, dueLog, dueLog]
    simp [hplaying, hplaying']

variable [LT τ] [DecidableLT τ]

/-- **What is muted changes neither the course of a sequencer nor its log**, but for the labels
noted there. -/
theorem act_muting (ready : Bool) {request : Request τ} (h : toggledLabel? request = none)
    (s : Sequencer τ) :
    ((s.muting labels).act ready request).1 = (s.act ready request).1.muting labels ∧
      (s.muting labels).requestLog ready request =
        (s.requestLog ready request).map (LoggedCall.muting labels) := by
  -- But for polls, the effects are the same too.
  have hstep : ∀ {step step' : Step τ}, step' = step.muting labels →
      step'.1 = step.1.muting labels ∧ (s.muting labels).unlabelled step'.2 =
        (s.unlabelled step.2).map (LoggedCall.muting labels) := by
    rintro step _ rfl
    exact ⟨rfl, unlabelled_muting labels _ s⟩
  cases request with
  | play now => exact hstep (play_muting labels ready now s)
  | stop now => exact hstep (stop_muting labels now s)
  | toggle now => exact hstep (toggle_muting labels ready now s)
  | poll horizon =>
    by_cases hpriming : s.playback = .priming
    · have hpriming' : (s.muting labels).playback = .priming := hpriming
      simp only [act, poll, requestLog, pollLog, hpriming, hpriming', if_true, andThen_fst,
        List.map_append]
      rw [finishPriming_muting, Step.muting, unlabelled_muting]
      obtain ⟨hstate, hlog⟩ := runDue_muting labels horizon (s.finishPriming ready horizon).1
      exact ⟨hstate, congrArg _ hlog⟩
    · have hpriming' : ¬(s.muting labels).playback = .priming := hpriming
      simp only [act, poll, requestLog, pollLog, hpriming, hpriming', if_false, andThen_fst]
      exact runDue_muting labels horizon s
  | toggleMute label => cases h
  | seek sectionId step =>
    refine hstep ?_
    show (((s.muting labels).seek? sectionId step).getD _, []) = _
    rw [seek?, show (s.muting labels).timeline = s.timeline from rfl, act, seek?]
    cases s.timeline.position? sectionId step <;> rfl
  | setTimeline timeline => exact hstep rfl

/-- No request but a toggle changes what is muted. -/
theorem muted_act (ready : Bool) {request : Request τ} (h : toggledLabel? request = none)
    (s : Sequencer τ) : (s.act ready request).1.muted = s.muted := by
  rw [← s.muting_muted, (act_muting s.muted ready h s).1]
  rfl

/-- The log of a request notes the labels muted at it. -/
theorem muted_of_mem_requestLog {ready : Bool} {request : Request τ} {s : Sequencer τ}
    {c : LoggedCall τ} (hc : c ∈ s.requestLog ready request) : c.muted = s.muted := by
  cases h : toggledLabel? request with
  | none =>
    rw [← s.muting_muted, (act_muting s.muted ready h s).2] at hc
    obtain ⟨c', -, rfl⟩ := List.mem_map.1 hc
    rfl
  | some label =>
    obtain rfl := eq_toggleMute_of_toggledLabel? h
    cases hc

end

end

end Gamelan.Sequencer
