import Gamelan.Proofs.Performance.Priming
import Gamelan.Proofs.Performance.Silence

namespace Gamelan.Sequencer

/-!
# Waiting for the voices

The first request to play asks for the voices, and whether they are ready is looked up at once and
then by every poll, until they are.  While they are not, requests to play and to stop only set what
is to happen then.

* `Asks` — the requests that look whether the voices are ready.
* `act_of_waiting` — what requests do until the voices are ready.
* `act_of_sees` — what the request does that first sees them ready.
* `startPending_run` — whether a playback waits is up to the last order.
* `LoadsVoices`, `loads_voices` — how a run loads its voices.
-/

variable {τ : Type}

/-! ### Orders -/

/-- A request to play or to stop. -/
def isOrder : Request τ → Bool
  | .play _ => true
  | .stop _ => true
  | .toggle _ => true
  | _ => false

/-- The last request to play or to stop. -/
def lastOrder? (steps : List (Bool × Request τ)) : Option (Request τ) :=
  ((steps.map (·.2)).filter isOrder).getLast?

/-- The last order is the last request if that is one. -/
theorem lastOrder?_concat (steps : List (Bool × Request τ)) (q : Bool × Request τ) :
    lastOrder? (steps ++ [q]) = if isOrder q.2 then some q.2 else lastOrder? steps := by
  rw [lastOrder?, List.map_append, List.filter_append, List.map_singleton]
  cases h : isOrder q.2 <;> simp [lastOrder?, h]

/-! ### Looking whether the voices are ready -/

/-- A request looks whether the voices are ready. -/
def Asks (s : Sequencer τ) : Request τ → Prop
  | .play _ => s.playback = .idle
  | .toggle _ => s.playback = .idle
  | .poll _ => s.playback = .priming
  | _ => False

/-- A request sees that the voices are ready. -/
def Sees (s : Sequencer τ) (q : Bool × Request τ) : Prop :=
  q.1 = true ∧ s.Asks q.2

/-- Whether the voices are ready is asked only before they are loaded. -/
theorem Asks.not_loaded {s : Sequencer τ} {request : Request τ} (h : s.Asks request) :
    ¬s.playback.Loaded := by
  rw [Playback.loaded_iff]
  cases request with
  | play now => exact fun hloaded => hloaded.1 h
  | toggle now => exact fun hloaded => hloaded.1 h
  | poll horizon => exact fun hloaded => hloaded.2 h
  | _ => exact h.elim

/-- A playback starts. -/
abbrev startNotice : Effect τ := .notice (.playback .ready .playing)

/-- A sequencer whose voices have become ready starts if a playback waits. -/
theorem start_mem_onLoaded (now : τ) (s : Sequencer τ) :
    startNotice ∈ (s.onLoaded now).2 ↔ s.startPending = true := by
  unfold onLoaded
  split
  · next h => simp [h, start, setPlayback, report, silence]
  · next h => simp [h]

/-- No call is the start of a playback. -/
theorem start_notMem_map_call (cs : List (VoiceCall τ)) : startNotice ∉ cs.map Effect.call := by
  intro h
  obtain ⟨c, -, hc⟩ := List.mem_map.1 h
  cases hc

theorem start_notMem_halt (time : τ) (s : Sequencer τ) (h : s.playback = .playing) :
    startNotice ∉ (s.halt time).2 := by
  simp [halt, silence, setPlayback, h]

section
variable [NatCast τ] [Add τ] [Div τ] [BEq τ]

/-- No tick starts a playback: it is one of a playback. -/
theorem start_notMem_completeTick (time : τ) {s : Sequencer τ} (h : s.playback = .playing) :
    startNotice ∉ (s.completeTick time).2 := by
  have hperform : ∀ a tempo, startNotice ∉ perform s.registry s.muted tempo time a := by
    intro a tempo
    unfold perform
    split
    · exact List.not_mem_nil
    · split
      · exact start_notMem_map_call _
      · simp
  have hfollow : ∀ tempo : τ, ∀ s : Sequencer τ, startNotice ∉ (s.followTempo tempo).2 := by
    intro tempo s
    unfold followTempo
    split <;> simp
  have hadvance : ∀ s : Sequencer τ, s.playback = .playing → startNotice ∉ (s.advance time).2 := by
    intro s hs
    unfold advance
    split
    · exact List.not_mem_nil
    · simp [setCursor, report, start_notMem_halt, hs]
  -- A tick performs the actions of its point, follows its tempo, and moves on.
  rw [completeTick, tick]
  split
  · simp [setCursor, start_notMem_halt, h]
  · simp only [andThen_snd, List.mem_append, List.mem_flatMap, List.append_nil]
    rintro (⟨a, -, ha⟩ | htempo | hend)
    · exact hperform a _ ha
    · exact hfollow _ _ htempo
    · refine hadvance _ ?_ hend
      rw [followTempo_frame]
      exact h

variable [LE τ] [DecidableLE τ]

theorem start_notMem_runDue (horizon : τ) (s : Sequencer τ) :
    startNotice ∉ (s.runDue horizon).2 := by
  fun_induction runDue horizon s with
  | case1 s hplaying hdue => exact List.not_mem_nil
  | case2 s hplaying time hdue ticked rest ih =>
    have htick := start_notMem_completeTick time (s := s) (by simpa [isPlaying] using hplaying)
    exact fun hmem => (List.mem_append.1 hmem).elim htick ih
  | case3 s hplaying => exact List.not_mem_nil

/-! ### Until the voices are ready -/

variable [LT τ] [DecidableLT τ]

/-- **Until the voices are seen to be ready, nothing is called**: an order sets what is to happen
then, and any other request leaves it. -/
theorem act_of_waiting {q : Bool × Request τ} {s : Sequencer τ} (h : ¬s.playback.Loaded)
    (hunseen : ¬s.Sees q) :
    calls (s.act q.1 q.2).2 = [] ∧ ¬(s.act q.1 q.2).1.playback.Loaded ∧
      ((s.act q.1 q.2).1.playback = .priming →
        if isOrder q.2 then
          (s.act q.1 q.2).1.startPending = true ↔ ∀ now, q.2 ≠ .stop now
        else s.playback = .priming ∧ (s.act q.1 q.2).1.startPending = s.startPending) := by
  obtain ⟨ready, request⟩ := q
  have hplaying : s.isPlaying = false := by
    cases hs : s.playback with
    | playing => exact absurd (hs ▸ .playing) h
    | _ => simp [isPlaying, hs]
  have hdue : ∀ horizon, s.runDue horizon = (s, []) :=
    fun horizon => (runDue_of_not_playing horizon hplaying).1
  rw [Playback.loaded_iff] at h ⊢
  -- The stage tells which requests look: those to play while idle, and polls while priming.
  cases hs : s.playback with
  | idle =>
    cases request with
    | play now =>
      have hready : ready = false := by simpa [Sees, Asks, hs] using hunseen
      simp [act, play, hs, hready, setPlayback, finishPriming, isOrder]
    | toggle now =>
      have hready : ready = false := by simpa [Sees, Asks, hs] using hunseen
      simp [act, toggle, hplaying, play, hs, hready, setPlayback, finishPriming, isOrder]
    | stop now => simp [act, stop, hs]
    | poll horizon => simp [act, poll, hs, hdue]
    | toggleMute label => simp [act, toggleMute, hs]
    | seek sectionId step =>
      cases hseek : s.timeline.position? sectionId step <;> simp [act, seek?, hseek, hs]
    | setTimeline timeline => simp [act, setTimeline, hs]
  | priming =>
    cases request with
    | play now => simp [act, play, hs, isOrder]
    | toggle now => simp [act, toggle, hplaying, play, hs, isOrder]
    | stop now => simp [act, stop, hs, isOrder]
    | poll horizon =>
      have hready : ready = false := by simpa [Sees, Asks, hs] using hunseen
      simp [act, poll, hs, hready, finishPriming, hdue, isOrder]
    | toggleMute label => simp [act, toggleMute, hs, isOrder]
    | seek sectionId step =>
      cases hseek : s.timeline.position? sectionId step <;> simp [act, seek?, hseek, hs, isOrder]
    | setTimeline timeline => simp [act, setTimeline, hs, isOrder]
  | ready => simp [hs] at h
  | playing => simp [hs] at h

/-- **The request that sees the voices ready sets the levels**, and then starts the playback that
waits, if one does or the request itself is to play. -/
theorem act_of_sees {q : Bool × Request τ} {s : Sequencer τ} (h : s.Sees q) :
    ∃ before after,
      (s.act q.1 q.2).2 = before ++ ((levels s.registry).map .call ++
        .notice (.playback .priming .ready) :: after) ∧
      calls before = [] ∧ startNotice ∉ before ∧
      (startNotice ∈ after ↔ s.playback = .idle ∨ s.startPending = true) := by
  obtain ⟨ready, request⟩ := q
  obtain ⟨rfl, hasks⟩ : ready = true ∧ s.Asks request := h
  -- An idle sequencer is left with a playback that waits.
  have hplay : ∀ now, s.playback = .idle → ∃ before after,
      (s.play true now).2 = before ++ ((levels s.registry).map .call ++
        .notice (.playback .priming .ready) :: after) ∧
      calls before = [] ∧ startNotice ∉ before ∧
      (startNotice ∈ after ↔ s.playback = .idle ∨ s.startPending = true) := by
    intro now hs
    refine ⟨[.notice (.playback .idle .priming), .prime],
      (onLoaded now { s with playback := .priming, startPending := true }).2, ?_, rfl, by simp, ?_⟩
    · simp [play, hs, setPlayback, finishPriming_true]
    · simp [start_mem_onLoaded, hs]
  cases request with
  | play now => exact hplay now hasks
  | toggle now =>
    have hs : s.playback = .idle := hasks
    simpa [act, toggle, isPlaying, hs] using hplay now hs
  | poll horizon =>
    have hs : s.playback = .priming := hasks
    refine ⟨[], (s.onLoaded horizon).2 ++ (runDue horizon (s.onLoaded horizon).1).2, ?_, rfl,
      List.not_mem_nil, ?_⟩
    · simp [act, poll, hs, finishPriming_true]
    · simp [start_mem_onLoaded, start_notMem_runDue, hs]
  | _ => exact hasks.elim

/-- A sequencer that sees its voices ready is loaded. -/
theorem loaded_act_of_sees {q : Bool × Request τ} {s : Sequencer τ} (h : s.Sees q) :
    (s.act q.1 q.2).1.playback.Loaded := by
  obtain ⟨before, after, heffects, -⟩ := act_of_sees h
  have hleads := leads_act q.1 q.2 s
  rw [heffects] at hleads
  cases hleads.of_append.2.of_append.2 with
  | cons hfirst hmore => exact hmore.loaded .ready

/-- The answer of the voices matters to the requests that ask for it, and to no other. -/
theorem asks_iff (request : Request τ) (s : Sequencer τ) :
    s.Asks request ↔ s.act true request ≠ s.act false request := by
  constructor
  · intro hasks heq
    have hunseen : ¬s.Sees (false, request) := fun h => by simpa using h.1
    refine (act_of_waiting hasks.not_loaded hunseen).2.1 ?_
    rw [← heq]
    exact loaded_act_of_sees (q := (true, request)) ⟨rfl, hasks⟩
  · refine fun hne => Classical.byContradiction fun hasks => hne ?_
    have hplay : s.playback ≠ .idle → ∀ now, s.play true now = s.play false now := by
      intro hs now
      cases h : s.playback with
      | idle => exact absurd h hs
      | _ => simp [play, h]
    cases request with
    | play now => exact hplay hasks now
    | toggle now => simp [act, toggle, hplay hasks now]
    | poll horizon =>
      have hs : s.playback ≠ .priming := hasks
      simp [act, poll, hs]
    | _ => rfl

/-! ### Runs -/

/-- As long as the voices are not ready, nothing is called. -/
theorem calls_run_of_not_loaded (steps : List (Bool × Request τ)) {s : Sequencer τ}
    (h : ¬(run steps s).1.playback.Loaded) : calls (run steps s).2 = [] := by
  induction steps generalizing s with
  | nil => rfl
  | cons q rest ih =>
    have hrest : ¬(run rest (s.act q.1 q.2).1).1.playback.Loaded := h
    have hact : ¬(s.act q.1 q.2).1.playback.Loaded := fun hloaded => hrest (loaded_run rest hloaded)
    have hs : ¬s.playback.Loaded := fun hloaded =>
      hact ((leads_act q.1 q.2 s).loaded hloaded)
    have hunseen : ¬s.Sees q := fun hsees => hact (loaded_act_of_sees hsees)
    rw [run, andThen_snd, calls_append, (act_of_waiting hs hunseen).1, ih hrest, List.nil_append]

/-- The voices become ready only to a request that sees it. -/
theorem not_loaded_run {steps : List (Bool × Request τ)} {s : Sequencer τ}
    (h : ¬s.playback.Loaded)
    (hunseen : ∀ before q after, steps = before ++ q :: after → ¬(run before s).1.Sees q) :
    ¬(run steps s).1.playback.Loaded := by
  induction steps generalizing s with
  | nil => exact h
  | cons q rest ih =>
    refine ih (act_of_waiting h (hunseen [] q rest rfl)).2.1 fun before q' after hsplit => ?_
    rw [hsplit] at hunseen
    exact hunseen (q :: before) q' after rfl

/-- **Whether a playback waits for the voices is up to the last order.** -/
theorem startPending_run {steps : List (Bool × Request τ)} {s : Sequencer τ}
    (h : s.playback = .idle) (hafter : (run steps s).1.playback = .priming) :
    (run steps s).1.startPending = true ↔ ∀ now, lastOrder? steps ≠ some (.stop now) := by
  induction steps using List.reverseRecOn with
  | nil => exact absurd (h.symm.trans hafter) (by decide)
  | append_singleton steps q ih =>
    rw [run_concat_fst] at hafter ⊢
    generalize hs : (run steps s).1 = s' at hafter ih ⊢
    -- The last request left the sequencer priming, so it found it waiting and did not see the
    -- voices ready.
    have hact : ¬(s'.act q.1 q.2).1.playback.Loaded := by
      rw [hafter]
      rintro (_ | _)
    have hwait : ¬s'.playback.Loaded := fun hloaded =>
      hact ((leads_act q.1 q.2 s').loaded hloaded)
    have hunseen : ¬s'.Sees q := fun hsees => hact (loaded_act_of_sees hsees)
    have hpending := (act_of_waiting hwait hunseen).2.2 hafter
    rw [lastOrder?_concat]
    cases horder : isOrder q.2 with
    | true => simpa [horder] using hpending
    | false =>
      obtain ⟨hpriming, hkept⟩ : s'.playback = .priming ∧ _ := by simpa [horder] using hpending
      rw [hkept]
      exact ih hpriming

/-- Only polls strike. -/
theorem poll_of_trigger {q : Bool × Request τ} {s : Sequencer τ} {instrument : String} {slot : Slot}
    {time : τ} (h : .trigger instrument slot time ∈ calls (s.act q.1 q.2).2) :
    ∃ horizon, q.2 = .poll horizon := by
  -- A start and a stop only set levels, cancel and release.
  have hplay : ∀ now, .trigger instrument slot time ∉ calls (s.play q.1 now).2 := by
    intro now hmem
    rw [calls_play] at hmem
    obtain ⟨⟨p, hp⟩, -⟩ := trigger_mem_callsOf hmem
    grind [playEvents, primingEvents]
  have hstop : ∀ now, .trigger instrument slot time ∉ calls (s.stop now).2 := by
    intro now
    by_cases hs : s.playback = .playing
    · rw [calls_stop now hs]
      exact trigger_not_mem_cut _ _ _ _ _
    · rw [calls_stop_of_ne now hs]
      exact List.not_mem_nil
  obtain ⟨ready, request⟩ := q
  cases request with
  | poll horizon => exact ⟨horizon, rfl⟩
  | play now => exact absurd h (hplay now)
  | stop now => exact absurd h (hstop now)
  | toggle now =>
    simp only [act, toggle] at h
    split at h
    · exact absurd h (hstop now)
    · exact absurd h (hplay now)
  | _ => exact absurd h List.not_mem_nil

/-! ### Loading -/

/-- How a run loads its voices. -/
structure LoadsVoices (steps : List (Bool × Request τ)) (s₀ : Sequencer τ) : Prop where
  /-- Every change of the stage is one from the stage it is in to a next one. -/
  stages : ∀ before after old new,
    (run steps s₀).2 = before ++ .notice (.playback old new) :: after →
      old = s₀.playback.afterAll before ∧ old.Next new
  /-- No change of the stage goes unreported. -/
  playback_eq : (run steps s₀).1.playback = s₀.playback.afterAll (run steps s₀).2
  /-- The voices are asked for once if the sequencer was ever other than idle. -/
  primings_eq_one : ∀ before, before <+: steps → (run before s₀).1.playback ≠ .idle →
    primings (run steps s₀).2 = 1
  /-- They are not asked for if it was idle all the time. -/
  primings_eq_zero : (∀ before, before <+: steps → (run before s₀).1.playback = .idle) →
    primings (run steps s₀).2 = 0
  /-- Until the voices are seen to be ready, nothing is called. -/
  calls_eq_nil : (∀ before q after, steps = before ++ q :: after → ¬(run before s₀).1.Sees q) →
    calls (run steps s₀).2 = []
  /-- The request that sees it sets the levels of all instruments in their order, ahead of all other
  calls; no level is set by any other. -/
  calls_of_sees : ∀ before q after, steps = before ++ q :: after → (run before s₀).1.Sees q →
    calls (run before s₀).2 = [] ∧
      ∃ rest, calls ((run before s₀).1.act q.1 q.2).2 = levels s₀.registry ++ rest ∧
        ∀ instrument level, .setLevel instrument level ∉
          rest ++ calls (run after ((run before s₀).1.act q.1 q.2).1).2
  /-- Strokes are struck while playing. -/
  playing_of_trigger : ∀ before after instrument slot time,
    (run steps s₀).2 = before ++ .call (.trigger instrument slot time) :: after →
      s₀.playback.afterAll before = .playing
  /-- Only polls strike. -/
  poll_of_trigger : ∀ before q after instrument slot time, steps = before ++ q :: after →
    .trigger instrument slot time ∈ calls ((run before s₀).1.act q.1 q.2).2 →
      ∃ horizon, q.2 = .poll horizon
  /-- The request that sees the voices ready starts a playback unless the last order since the
  sequencer was idle is to stop. -/
  start_iff : ∀ before q after, steps = before ++ q :: after → (run before s₀).1.Sees q →
    ∀ asleep since, before ++ [q] = asleep ++ since → (run asleep s₀).1.playback = .idle →
      (.notice (.playback .ready .playing) ∈ ((run before s₀).1.act q.1 q.2).2 ↔
        ∀ now, lastOrder? since ≠ some (.stop now))

/-- A request that sees the voices ready starts a playback unless the last order is to stop. -/
theorem start_iff_of_sees {steps : List (Bool × Request τ)} {q : Bool × Request τ}
    {s : Sequencer τ} (h : s.playback = .idle) (hsees : (run steps s).1.Sees q) :
    startNotice ∈ ((run steps s).1.act q.1 q.2).2 ↔
      ∀ now, lastOrder? (steps ++ [q]) ≠ some (.stop now) := by
  obtain ⟨before, after, heffects, -, hbefore, hafter⟩ := act_of_sees hsees
  have hstart : startNotice ∈ ((run steps s).1.act q.1 q.2).2 ↔ startNotice ∈ after := by
    rw [heffects]
    simp [hbefore, start_notMem_map_call]
  rw [hstart, hafter, lastOrder?_concat]
  obtain ⟨ready, request⟩ := q
  have hasks := hsees.2
  cases request with
  | play now => simp [isOrder, show (run steps s).1.playback = .idle from hasks]
  | toggle now => simp [isOrder, show (run steps s).1.playback = .idle from hasks]
  | poll horizon =>
    have hpriming : (run steps s).1.playback = .priming := hasks
    simpa [isOrder, hpriming] using startPending_run h hpriming
  | _ => exact hasks.elim

/-- **A run loads its voices once**, whatever they answer and whatever is asked for meanwhile. -/
theorem loads_voices (timeline : Timeline τ) (registry : Registry)
    (steps : List (Bool × Request τ)) : LoadsVoices steps (new timeline registry) := by
  have hleads := leads_run steps (new timeline registry)
  have hwait : ∀ before q, (run before (new timeline registry)).1.Sees q →
      calls (run before (new timeline registry)).2 = [] :=
    fun before q hsees => calls_run_of_not_loaded before hsees.2.not_loaded
  constructor
  case stages =>
    intro before after old new heffects
    rw [heffects] at hleads
    obtain ⟨hold, hnext⟩ := hleads.fits
    exact ⟨hold, hold ▸ hnext⟩
  case playback_eq => exact hleads.afterAll_eq.symm
  case primings_eq_one =>
    rintro before ⟨after, rfl⟩ hne
    rw [primings_run, run_append, andThen_fst, if_pos ⟨rfl, run_ne_idle after hne⟩]
  case primings_eq_zero =>
    intro hidle
    rw [primings_run, if_neg fun h => h.2 (hidle steps (List.prefix_refl steps))]
  case calls_eq_nil =>
    exact fun hunseen => calls_run_of_not_loaded steps (not_loaded_run (by rintro ⟨⟩) hunseen)
  case calls_of_sees =>
    intro before q after hsplit hsees
    refine ⟨hwait before q hsees, ?_⟩
    obtain ⟨first, rest, heffects, hfirst, -⟩ := act_of_sees hsees
    refine ⟨calls rest, ?_, fun instrument level hmem => ?_⟩
    · rw [heffects]
      simp [hfirst]
    · have hact := leads_act q.1 q.2 (run before (new timeline registry)).1
      rw [heffects] at hact
      cases hact.of_append.2.of_append.2 with
      | cons hstage hmore =>
        rw [← calls_append] at hmem
        exact (hmore.append (leads_run after _)).setLevel_notMem .ready _ _ hmem
  case playing_of_trigger =>
    intro before after instrument slot time heffects
    rw [heffects] at hleads
    exact hleads.fits
  case poll_of_trigger => exact fun before q after _ _ _ _ htrigger => poll_of_trigger htrigger
  case start_iff =>
    intro before q after hsplit hsees asleep since hsince hidle
    cases since using List.reverseRecOn with
    | nil =>
      -- The run is not idle any more behind a request that sees the voices ready.
      rw [List.append_nil] at hsince
      rw [← hsince, run_concat_fst] at hidle
      have hloaded := loaded_act_of_sees hsees
      rw [hidle] at hloaded
      cases hloaded
    | append_singleton since q' =>
      rw [← List.append_assoc] at hsince
      obtain ⟨rfl, hq⟩ := List.append_inj' hsince rfl
      obtain rfl : q = q' := List.singleton_inj.1 hq
      rw [run_append, andThen_fst] at hsees ⊢
      exact start_iff_of_sees hidle hsees

end

end Gamelan.Sequencer
