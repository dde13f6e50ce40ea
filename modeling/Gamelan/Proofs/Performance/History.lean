import Gamelan.Performance.Sequencer

namespace Gamelan.Sequencer

/-!
# Histories of a sequencer

Whatever a sequencer has its voices do belongs to one of few events: the levels are set, a playback
starts, a point is played, a playback ends by itself or is stopped.  The history of a run lists them
in order.

* `Event`, `Played` — the events.
* `events` — the events of one request.
* `run`, `history` — a run through some requests, and its events.
* `calls_run` — the calls of a run are those of its history, call for call.

Requests come with the answer that the voices give if they are asked whether they are ready, so a
run may have any voices.
-/

variable {τ : Type}

/-! ### The calls among effects -/

/-- The calls of effects one after the other. -/
@[simp] theorem calls_append (first second : List (Effect τ)) :
    calls (first ++ second) = calls first ++ calls second :=
  List.filterMap_append

@[simp] theorem calls_nil : calls ([] : List (Effect τ)) = [] := rfl

@[simp] theorem calls_prime (rest : List (Effect τ)) : calls (.prime :: rest) = calls rest := rfl

@[simp] theorem calls_notice (n : Notice τ) (rest : List (Effect τ)) :
    calls (.notice n :: rest) = calls rest := rfl

@[simp] theorem calls_call (c : VoiceCall τ) (rest : List (Effect τ)) :
    calls (.call c :: rest) = c :: calls rest := rfl

/-- Effects that are calls are just these calls. -/
@[simp] theorem calls_map_call (cs : List (VoiceCall τ)) : calls (cs.map Effect.call) = cs := by
  induction cs with
  | nil => rfl
  | cons c cs ih => rw [List.map_cons, calls_call, ih]

theorem calls_flatMap {α : Type} (f : α → List (Effect τ)) (xs : List α) :
    calls (xs.flatMap f) = xs.flatMap fun x => calls (f x) := by
  induction xs with
  | nil => rfl
  | cons x xs ih => rw [List.flatMap_cons, calls_append, ih, List.flatMap_cons]

@[simp] theorem andThen_fst (first : Step τ) (second : Sequencer τ → Step τ) :
    (first.andThen second).1 = (second first.1).1 := rfl

@[simp] theorem andThen_snd (first : Step τ) (second : Sequencer τ → Step τ) :
    (first.andThen second).2 = first.2 ++ (second first.1).2 := rfl

/-! ### Starting, halting and stopping -/

/-- The calls of a cut: what is queued past `time` is forgotten, and everything is released. -/
def cut (registry : Registry) (time : τ) : List (VoiceCall τ) :=
  .cancel time :: sweep registry time

/-- The state in which a playback starts. -/
def started (now : τ) (s : Sequencer τ) : Sequencer τ :=
  { s with
    transport := ⟨s.transport.tempo, true, some ⟨pulse, now⟩⟩
    playback := .playing
    sent := [] }

/-- The state in which a playback has just ended. -/
def halted (s : Sequencer τ) : Sequencer τ :=
  { s with transport := s.transport.cancel, playback := .ready }

@[simp] theorem start_fst (now : τ) (s : Sequencer τ) : (s.start now).1 = s.started now := rfl

/-- A start calls for a cut. -/
@[simp] theorem calls_start (now : τ) (s : Sequencer τ) :
    calls (s.start now).2 = cut s.registry now := by
  simp [start, silence, setPlayback, report, cut]

@[simp] theorem halt_fst (time : τ) (s : Sequencer τ) : (s.halt time).1 = s.halted := rfl

/-- A halt calls for a cut. -/
@[simp] theorem calls_halt (time : τ) (s : Sequencer τ) :
    calls (s.halt time).2 = cut s.registry time := by
  simp [halt, silence, setPlayback, cut]

section
variable [LT τ] [DecidableLT τ]

/-- Taking points back calls for nothing. -/
@[simp] theorem calls_rewindUnplayed (now : τ) (s : Sequencer τ) :
    calls (s.rewindUnplayed now).2 = [] := by
  unfold rewindUnplayed
  split <;> rfl

/-- Taking points back leaves the timeline. -/
@[simp] theorem timeline_rewindUnplayed (now : τ) (s : Sequencer τ) :
    (s.rewindUnplayed now).1.timeline = s.timeline := by
  unfold rewindUnplayed
  split <;> rfl

/-- Taking points back leaves the instruments. -/
@[simp] theorem registry_rewindUnplayed (now : τ) (s : Sequencer τ) :
    (s.rewindUnplayed now).1.registry = s.registry := by
  unfold rewindUnplayed
  split <;> rfl

/-- Taking points back leaves what the sequencer does. -/
@[simp] theorem playback_rewindUnplayed (now : τ) (s : Sequencer τ) :
    (s.rewindUnplayed now).1.playback = s.playback := by
  unfold rewindUnplayed
  split <;> rfl

/-- A stop while playing halts the sequencer and takes back the points after it. -/
theorem stop_fst (now : τ) {s : Sequencer τ} (h : s.playback = .playing) :
    (s.stop now).1 = (s.halted.rewindUnplayed now).1 := by
  simp [stop, h, report]

/-- A stop while playing calls for a cut. -/
theorem calls_stop (now : τ) {s : Sequencer τ} (h : s.playback = .playing) :
    calls (s.stop now).2 = cut s.registry now := by
  simp [stop, h, report]

/-- A stop at any other time calls for nothing. -/
theorem calls_stop_of_ne (now : τ) {s : Sequencer τ} (h : s.playback ≠ .playing) :
    calls (s.stop now).2 = [] := by
  cases hplayback : s.playback with
  | playing => exact absurd hplayback h
  | _ => simp [stop, hplayback]

end

/-! ### Events -/

/-- A point as it was played: the tick it was played on, and the labels muted then. -/
structure Played (τ : Type) where
  tick : SentPoint τ
  point : Point τ
  muted : List String

/-- What a sequencer has its voices do. -/
inductive Event (τ : Type) where
  /-- The levels of all instruments are set. -/
  | levelled
  /-- A playback starts. -/
  | started (now : τ)
  | played (p : Played τ)
  /-- A playback ends by itself, its last point having sounded until `time`. -/
  | finished (time : τ)
  /-- A playback is stopped. -/
  | stopped (now : τ)
  /-- A seek or a new timeline: the points sent so far are no longer remembered. -/
  | forgotten

/-- The point of an event. -/
def Event.played? : Event τ → Option (Played τ)
  | played p => some p
  | _ => none

section
variable [NatCast τ] [Add τ] [Div τ]

/-- The calls of a point that is played. -/
def Played.calls (registry : Registry) (p : Played τ) : List (VoiceCall τ) :=
  Gamelan.calls
    (p.point.actions.flatMap (perform registry p.muted p.tick.tempo p.tick.time))

/-- The calls of an event. -/
def Event.calls (registry : Registry) : Event τ → List (VoiceCall τ)
  | levelled => registry.atomics.map fun a => .setLevel a.id a.level
  | started now => cut registry now
  | played p => p.calls registry
  | finished time => cut registry time
  | stopped now => cut registry now
  | forgotten => []

/-- The calls of some events. -/
def callsOf (registry : Registry) (H : List (Event τ)) : List (VoiceCall τ) :=
  H.flatMap (Event.calls registry)

/-- The calls of events one after the other. -/
@[simp] theorem callsOf_append (registry : Registry) (H K : List (Event τ)) :
    callsOf registry (H ++ K) = callsOf registry H ++ callsOf registry K :=
  List.flatMap_append

@[simp] theorem callsOf_nil (registry : Registry) :
    callsOf registry ([] : List (Event τ)) = [] := rfl

@[simp] theorem callsOf_cons (registry : Registry) (e : Event τ) (H : List (Event τ)) :
    callsOf registry (e :: H) = e.calls registry ++ callsOf registry H := rfl

end

/-! ### The events of a request -/

/-- The events of a sequencer that leaves priming. -/
def primingEvents (ready : Bool) (now : τ) (s : Sequencer τ) : List (Event τ) :=
  if ready then .levelled :: if s.startPending then [.started now] else [] else []

/-- The events of a request to play. -/
def playEvents (ready : Bool) (now : τ) (s : Sequencer τ) : List (Event τ) :=
  match s.playback with
  | .idle => primingEvents ready now { s with startPending := true }
  | .priming => []
  | .ready => [.started now]
  | .playing => []

/-- The events of a request to stop. -/
def stopEvents (now : τ) (s : Sequencer τ) : List (Event τ) :=
  if s.isPlaying then [.stopped now] else []

section
variable [NatCast τ] [Add τ] [Div τ]

/-- The point under the cursor, as it is played on a tick at `time`. -/
def playedAt (time : τ) (s : Sequencer τ) (point : Point τ) : Played τ :=
  ⟨⟨s.cursor, time, s.transport.tempo⟩, point, s.muted⟩

/-- The events of a tick: a point, and the end of the playback if it is the last one. -/
def tickEvents (time : τ) (s : Sequencer τ) : List (Event τ) :=
  match s.current? with
  | none => [.finished time]
  | some point =>
    .played (s.playedAt time point) ::
      if s.cursor + 1 < s.timeline.length then []
      else [.finished (time + pulse.seconds ((point.tempo : Nat) : τ))]

variable [BEq τ] [LE τ] [DecidableLE τ]

/-- The events of the ticks due at `horizon`. -/
def dueEvents (horizon : τ) (s : Sequencer τ) : List (Event τ) :=
  if _h : s.isPlaying then
    match s.transport.due? horizon with
    | none => []
    | some time => s.tickEvents time ++ dueEvents horizon (s.completeTick time).1
  else []
termination_by s.ticksLeft
decreasing_by exact ticksLeft_completeTick_lt time s _h

/-- The events of a request to poll. -/
def pollEvents (ready : Bool) (horizon : τ) (s : Sequencer τ) : List (Event τ) :=
  if s.playback = .priming then
    s.primingEvents ready horizon ++ dueEvents horizon (s.finishPriming ready horizon).1
  else s.dueEvents horizon

/-- The events of a request. -/
def events (ready : Bool) (request : Request τ) (s : Sequencer τ) : List (Event τ) :=
  match request with
  | .play now => s.playEvents ready now
  | .stop now => s.stopEvents now
  | .toggle now => if s.isPlaying then s.stopEvents now else s.playEvents ready now
  | .poll horizon => s.pollEvents ready horizon
  | .toggleMute _ => []
  | .seek sectionId step =>
    if (s.timeline.position? sectionId step).isSome then [.forgotten] else []
  | .setTimeline _ => [.forgotten]

/-- Without a playback, a poll does nothing. -/
theorem runDue_of_not_playing {s : Sequencer τ} (horizon : τ) (h : s.isPlaying = false) :
    s.runDue horizon = (s, []) ∧ s.dueEvents horizon = [] := by
  rw [runDue, dueEvents]
  simp [h]

/-- What a poll does once the next tick is due. -/
theorem runDue_of_due {horizon time : τ} {s : Sequencer τ} (h : s.isPlaying = true)
    (hdue : s.transport.due? horizon = some time) :
    s.runDue horizon = (((s.completeTick time).1.runDue horizon).1,
      (s.completeTick time).2 ++ ((s.completeTick time).1.runDue horizon).2) := by
  rw [runDue]
  simp [h, hdue]

variable [LT τ] [DecidableLT τ]

/-- A run through some requests, each with the answer of the voices. -/
def run : List (Bool × Request τ) → Sequencer τ → Step τ
  | [], s => (s, [])
  | (ready, request) :: rest, s => (s.act ready request).andThen (run rest)

/-- The events of a run. -/
def history : List (Bool × Request τ) → Sequencer τ → List (Event τ)
  | [], _ => []
  | (ready, request) :: rest, s => s.events ready request ++ history rest (s.act ready request).1

end

/-! ### Ticks -/

section
variable [BEq τ]

/-- A change of tempo calls for nothing. -/
@[simp] theorem calls_followTempo (tempo : τ) (s : Sequencer τ) :
    calls (s.followTempo tempo).2 = [] := by
  unfold followTempo
  split <;> rfl

/-- The transport follows a tempo, whether it is a new one or not. -/
theorem followTempo_fst [LawfulBEq τ] (tempo : τ) (s : Sequencer τ) :
    (s.followTempo tempo).1 = { s with transport := s.transport.setTempo tempo } := by
  unfold followTempo
  split
  · rfl
  · next h =>
    have htempo : tempo = s.transport.tempo := by simpa using h
    rw [htempo]
    rfl

/-- Following a tempo changes nothing but the transport. -/
theorem followTempo_frame (tempo : τ) (s : Sequencer τ) :
    (s.followTempo tempo).1 = { s with transport := (s.followTempo tempo).1.transport } := by
  unfold followTempo
  split <;> rfl

variable [NatCast τ] [Add τ] [Div τ]

/-- A tick leaves the registry alone. -/
@[simp] theorem registry_completeTick (time : τ) (s : Sequencer τ) :
    (s.completeTick time).1.registry = s.registry := by
  rw [completeTick, tick]
  split
  · rfl
  · next point hpoint =>
    simp only [andThen_fst, advance]
    rw [followTempo_frame]
    split <;> rfl

/-- A tick past the end of the timeline. -/
theorem completeTick_of_none (time : τ) {s : Sequencer τ} (h : s.current? = none) :
    (s.completeTick time).1 = { s.halted with cursor := 0 } := by
  simp [completeTick, tick, h, setCursor, halted, Transport.cancel, Transport.completeTick]

/-- A tick on a point with another one behind it, whatever tempo it leaves. -/
theorem exists_completeTick_of_lt (time : τ) {s : Sequencer τ} {point : Point τ}
    (h : s.current? = some point) (hlt : s.cursor + 1 < s.timeline.length) :
    ∃ transport, (s.completeTick time).1 =
      { s with
        cursor := s.cursor + 1
        sent := s.sent ++ [(s.playedAt time point).tick]
        transport := transport } := by
  refine ⟨(s.completeTick time).1.transport, ?_⟩
  simp only [completeTick, tick, h, andThen_fst, advance]
  rw [followTempo_frame]
  simp [hlt, setCursor, playedAt]

/-- A tick on the last point, whatever tempo it leaves. -/
theorem exists_completeTick_of_not_lt (time : τ) {s : Sequencer τ} {point : Point τ}
    (h : s.current? = some point) (hlt : ¬s.cursor + 1 < s.timeline.length) :
    ∃ transport, (s.completeTick time).1 =
      { s with
        cursor := 0
        sent := s.sent ++ [(s.playedAt time point).tick]
        transport := transport
        playback := .ready } := by
  refine ⟨(s.completeTick time).1.transport, ?_⟩
  simp only [completeTick, tick, h, andThen_fst, advance]
  rw [followTempo_frame]
  simp [hlt, setCursor, playedAt, halted, report]

variable [LawfulBEq τ]

/-- A tick on a point with another one behind it. -/
theorem completeTick_of_lt (time : τ) {s : Sequencer τ} {point : Point τ}
    (h : s.current? = some point) (hlt : s.cursor + 1 < s.timeline.length) :
    (s.completeTick time).1 =
      { s with
        cursor := s.cursor + 1
        sent := s.sent ++ [(s.playedAt time point).tick]
        transport := (s.transport.setTempo ((point.tempo : Nat) : τ)).completeTick } := by
  simp [completeTick, tick, h, advance, followTempo_fst, hlt, setCursor, playedAt]

/-- A tick on the last point. -/
theorem completeTick_of_not_lt (time : τ) {s : Sequencer τ} {point : Point τ}
    (h : s.current? = some point) (hlt : ¬s.cursor + 1 < s.timeline.length) :
    (s.completeTick time).1 =
      { s with
        cursor := 0
        sent := s.sent ++ [(s.playedAt time point).tick]
        transport := (s.transport.setTempo ((point.tempo : Nat) : τ)).cancel
        playback := .ready } := by
  simp [completeTick, tick, h, advance, followTempo_fst, hlt, setCursor, playedAt, halted, report,
    Transport.cancel, Transport.completeTick]

/-- The calls of a tick are those of its events. -/
theorem calls_completeTick (time : τ) (s : Sequencer τ) :
    calls (s.completeTick time).2 = callsOf s.registry (s.tickEvents time) := by
  cases h : s.current? with
  | none => simp [completeTick, tick, h, setCursor, tickEvents, Event.calls]
  | some point =>
    by_cases hlt : s.cursor + 1 < s.timeline.length
    · simp [completeTick, tick, h, advance, followTempo_fst, hlt, setCursor, tickEvents,
        Event.calls, Played.calls, playedAt]
    · simp [completeTick, tick, h, advance, followTempo_fst, hlt, setCursor, tickEvents,
        Event.calls, Played.calls, playedAt, report, Transport.setTempo]

end

/-! ### The calls of a run -/

section
variable [NatCast τ] [Add τ] [Div τ]

/-- When voices get ready, the calls are those of the events. -/
theorem calls_finishPriming (ready : Bool) (now : τ) (s : Sequencer τ) :
    calls (s.finishPriming ready now).2 = callsOf s.registry (s.primingEvents ready now) := by
  have hlevels : calls (s.registry.atomics.map fun a => Effect.call (.setLevel a.id a.level)) =
      s.registry.atomics.map fun a => (VoiceCall.setLevel a.id a.level : VoiceCall τ) := by
    rw [← calls_map_call (s.registry.atomics.map _), List.map_map]
    rfl
  cases ready with
  | false => rfl
  | true =>
    cases hpending : s.startPending <;>
      simp [finishPriming, primingEvents, setPlayback, Event.calls, hpending, hlevels]

omit [NatCast τ] [Add τ] [Div τ] in
/-- Voices that get ready change no instrument. -/
@[simp] theorem registry_finishPriming (ready : Bool) (now : τ) (s : Sequencer τ) :
    (s.finishPriming ready now).1.registry = s.registry := by
  unfold finishPriming
  cases ready with
  | false => rfl
  | true => cases hpending : s.startPending <;> simp [setPlayback, hpending, started]

theorem calls_play (ready : Bool) (now : τ) (s : Sequencer τ) :
    calls (s.play ready now).2 = callsOf s.registry (s.playEvents ready now) := by
  cases h : s.playback with
  | idle => simp [play, playEvents, h, setPlayback, calls_finishPriming, primingEvents]
  | priming => simp [play, playEvents, h]
  | ready => simp [play, playEvents, h, Event.calls]
  | playing => simp [play, playEvents, h]

variable [BEq τ] [LawfulBEq τ] [LE τ] [DecidableLE τ]

/-- The calls of due ticks are those of their events. -/
theorem calls_runDue (horizon : τ) (s : Sequencer τ) :
    calls (s.runDue horizon).2 = callsOf s.registry (s.dueEvents horizon) := by
  fun_induction runDue horizon s with
  | case1 s hplaying hdue => rw [dueEvents]; simp [hplaying, hdue]
  | case2 s hplaying time hdue ticked rest ih =>
    rw [dueEvents]
    simp only [hplaying, hdue, dite_true, calls_append, callsOf_append]
    rw [calls_completeTick, ih, registry_completeTick]
  | case3 s hplaying => rw [dueEvents]; simp [hplaying]

omit [LawfulBEq τ] in
/-- Ticks change no instrument. -/
@[simp] theorem registry_runDue (horizon : τ) (s : Sequencer τ) :
    (s.runDue horizon).1.registry = s.registry := by
  fun_induction runDue horizon s with
  | case1 s hplaying hdue => rfl
  | case2 s hplaying time hdue ticked rest ih => rw [ih, registry_completeTick]
  | case3 s hplaying => rfl

theorem calls_poll (ready : Bool) (horizon : τ) (s : Sequencer τ) :
    calls (s.poll ready horizon).2 = callsOf s.registry (s.pollEvents ready horizon) := by
  by_cases h : s.playback = .priming
  · simp [poll, pollEvents, h, calls_finishPriming, calls_runDue]
  · simp [poll, pollEvents, h, calls_runDue]

variable [LT τ] [DecidableLT τ]

/-- The calls of a request are those of its events. -/
theorem calls_act (ready : Bool) (request : Request τ) (s : Sequencer τ) :
    calls (s.act ready request).2 = callsOf s.registry (s.events ready request) := by
  have hstop : ∀ now, calls (s.stop now).2 = callsOf s.registry (s.stopEvents now) := by
    intro now
    by_cases h : s.playback = .playing
    · simp [stopEvents, isPlaying, h, Event.calls, calls_stop]
    · simp [stopEvents, isPlaying, h, calls_stop_of_ne]
  cases request with
  | play now => exact calls_play ready now s
  | stop now => exact hstop now
  | toggle now =>
    by_cases h : s.isPlaying
    · simp [act, events, toggle, h, hstop]
    · simp [act, events, toggle, h, calls_play]
  | poll horizon => exact calls_poll ready horizon s
  | toggleMute label => rfl
  | seek sectionId step =>
    by_cases h : (s.timeline.position? sectionId step).isSome <;>
      simp [act, events, h, Event.calls]
  | setTimeline timeline => rfl

omit [LawfulBEq τ] in
/-- No request changes the registry. -/
@[simp] theorem registry_act (ready : Bool) (request : Request τ) (s : Sequencer τ) :
    (s.act ready request).1.registry = s.registry := by
  have hplay : ∀ now, (s.play ready now).1.registry = s.registry := by
    intro now
    cases h : s.playback <;> simp [play, h, setPlayback, started]
  have hstop : ∀ now, (s.stop now).1.registry = s.registry := by
    intro now
    cases h : s.playback <;> simp [stop, h, report, halted]
  cases request with
  | play now => exact hplay now
  | stop now => exact hstop now
  | toggle now =>
    by_cases h : s.isPlaying
    · simp [act, toggle, h, hstop]
    · simp [act, toggle, h, hplay]
  | poll horizon =>
    by_cases h : s.playback = .priming <;> simp [act, poll, h]
  | toggleMute label => rfl
  | seek sectionId step => cases h : s.timeline.position? sectionId step <;> simp [act, seek?, h]
  | setTimeline timeline => rfl

omit [LawfulBEq τ] in
/-- No requests change the instruments. -/
@[simp] theorem registry_run (steps : List (Bool × Request τ)) (s : Sequencer τ) :
    (run steps s).1.registry = s.registry := by
  induction steps generalizing s with
  | nil => rfl
  | cons q rest ih => rw [run, andThen_fst, ih, registry_act]

omit [LawfulBEq τ] in
/-- Requests can be made in two goes. -/
theorem run_append (steps more : List (Bool × Request τ)) (s : Sequencer τ) :
    run (steps ++ more) s = (run steps s).andThen (run more) := by
  induction steps generalizing s with
  | nil => rfl
  | cons q rest ih =>
    simp only [List.cons_append, run, Step.andThen, ih, List.append_assoc]

omit [LawfulBEq τ] in
/-- A run to the last request, which sees the state that the others leave. -/
theorem run_concat_fst (steps : List (Bool × Request τ)) (q : Bool × Request τ) (s : Sequencer τ) :
    (run (steps ++ [q]) s).1 = ((run steps s).1.act q.1 q.2).1 := by
  rw [run_append]
  rfl

omit [LawfulBEq τ] in
/-- The history of more requests goes on where the one before ends. -/
theorem history_append (steps more : List (Bool × Request τ)) (s : Sequencer τ) :
    history (steps ++ more) s = history steps s ++ history more (run steps s).1 := by
  induction steps generalizing s with
  | nil => rfl
  | cons q rest ih =>
    rw [List.cons_append, history, ih, history, List.append_assoc]
    rfl

/-- **The calls of a run are those of its history.** -/
theorem calls_run (steps : List (Bool × Request τ)) (s : Sequencer τ) :
    calls (run steps s).2 = callsOf s.registry (history steps s) := by
  induction steps generalizing s with
  | nil => rfl
  | cons q rest ih =>
    rw [run, history, andThen_snd, calls_append, callsOf_append, calls_act, ih, registry_act]

end

end Gamelan.Sequencer
