import Gamelan.Proofs.Performance.History

namespace Gamelan

/-!
# The stages of a playback

A sequencer goes from idle over priming to ready, and from then on only starts and halts.  Every
change of the stage is reported, and each effect belongs to a stage: the levels are set while
priming, strokes are struck while playing, and everything is released once the voices are ready.

* `Playback.Next` — the stages that follow one another.
* `Effect.Fits` — the stages in which an effect occurs.
* `Leads` — effects that lead from one stage to another.
* `Sequencer.leads_act`, `Sequencer.leads_run` — what requests and runs do fits their stages.
-/

/-! ### Stages -/

/-- One stage follows another. -/
inductive Playback.Next : Playback → Playback → Prop where
  | prime : Next .idle .priming
  | load : Next .priming .ready
  | start : Next .ready .playing
  | halt : Next .playing .ready

/-- The voices are ready. -/
inductive Playback.Loaded : Playback → Prop where
  | ready : Loaded .ready
  | playing : Loaded .playing

/-- Once voices are loaded, they are at all later stages. -/
theorem Playback.Next.loaded {p p' : Playback} (h : p.Next p') (hp : p.Loaded) : p'.Loaded := by
  cases hp <;> cases h <;> constructor

/-- Voices are loaded unless a sequencer is idle or loads them. -/
theorem Playback.loaded_iff {p : Playback} : p.Loaded ↔ p ≠ .idle ∧ p ≠ .priming := by
  constructor
  · rintro (_ | _) <;> decide
  · cases p with
    | idle => exact fun h => absurd rfl h.1
    | priming => exact fun h => absurd rfl h.2
    | ready => exact fun _ => .ready
    | playing => exact fun _ => .playing

variable {τ : Type}

/-- The stage after an effect. -/
def Playback.after (p : Playback) : Effect τ → Playback
  | .notice (.playback _ new) => new
  | _ => p

/-- The stage after some effects. -/
def Playback.afterAll (p : Playback) (effects : List (Effect τ)) : Playback :=
  effects.foldl Playback.after p

/-- An effect occurs in a stage. -/
def Effect.Fits (p : Playback) : Effect τ → Prop
  | .prime => p = .priming
  | .call (.setLevel _ _) => p = .priming
  | .call (.trigger _ _ _) => p = .playing
  | .call (.release _ _) => p.Loaded
  | .call (.cancel _) => p.Loaded
  | .notice (.playback old new) => old = p ∧ p.Next new
  | .notice _ => True

/-- Effects that lead from one stage to another, each in a stage in which it occurs. -/
inductive Leads : Playback → List (Effect τ) → Playback → Prop where
  | nil (p : Playback) : Leads p [] p
  | cons {p p' : Playback} {e : Effect τ} {rest : List (Effect τ)} (first : e.Fits p)
      (more : Leads (p.after e) rest p') : Leads p (e :: rest) p'

namespace Leads

variable {p p' p'' : Playback} {first second : List (Effect τ)}

theorem append (h : Leads p first p') (h' : Leads p' second p'') :
    Leads p (first ++ second) p'' := by
  induction h with
  | nil => exact h'
  | cons hfirst _ ih => exact .cons hfirst (ih h')

/-- What effects lead to is the stage after them. -/
theorem afterAll_eq (h : Leads p first p') : p.afterAll first = p' := by
  induction h with
  | nil => rfl
  | cons hfirst _ ih => exact ih

/-- Effects that lead somewhere do so over the stage in between. -/
theorem of_append (h : Leads p (first ++ second) p') :
    Leads p first (p.afterAll first) ∧ Leads (p.afterAll first) second p' := by
  induction first generalizing p with
  | nil => exact ⟨.nil p, h⟩
  | cons e rest ih =>
    cases h with
    | cons hfirst hmore => exact ⟨.cons hfirst (ih hmore).1, (ih hmore).2⟩

/-- Each effect occurs in the stage that the ones before it lead to. -/
theorem fits {before after : List (Effect τ)} {e : Effect τ}
    (h : Leads p (before ++ e :: after) p') : e.Fits (p.afterAll before) := by
  cases h.of_append.2 with
  | cons hfirst _ => exact hfirst

/-- What each stage hands on to the next, all effects do. -/
theorem keeps {motive : Playback → Prop} (next : ∀ q q', q.Next q' → motive q → motive q')
    (h : Leads p first p') (hp : motive p) : motive p' := by
  induction h with
  | nil => exact hp
  | @cons p p' e rest hfirst hmore ih =>
    refine ih ?_
    -- Only the report of another stage leaves the one before it.
    cases e with
    | notice n =>
      cases n with
      | playback old new => exact next _ _ hfirst.2 hp
      | _ => exact hp
    | _ => exact hp

/-- The voices stay ready. -/
theorem loaded (h : Leads p first p') (hp : p.Loaded) : p'.Loaded :=
  h.keeps (fun _ _ hnext => hnext.loaded) hp

/-- No stage leads back to idle. -/
theorem ne_idle (h : Leads p first p') (hp : p ≠ .idle) : p' ≠ .idle :=
  h.keeps (motive := (· ≠ .idle)) (fun _ _ hnext _ => by rintro rfl; cases hnext) hp

/-- Once the voices are ready, no level is set. -/
theorem setLevel_notMem (h : Leads p first p') (hp : p.Loaded) (instrument : String)
    (level : Float32) : .setLevel instrument level ∉ calls first := by
  intro hmem
  obtain ⟨e, he, hcall⟩ := List.mem_filterMap.1 hmem
  obtain ⟨before, after, rfl⟩ := List.append_of_mem he
  -- A level is set while priming, but what leads up to it does not lead back there.
  have hbefore := h.of_append.1.loaded hp
  cases e with
  | call c =>
    cases hcall
    rw [show Playback.afterAll p before = .priming from h.fits] at hbefore
    cases hbefore
  | _ => cases hcall

/-- Calls that occur in a stage leave it. -/
theorem map_call {cs : List (VoiceCall τ)} (h : ∀ c ∈ cs, (Effect.call c).Fits p) :
    Leads p (cs.map .call) p := by
  induction cs with
  | nil => exact .nil p
  | cons c cs ih =>
    exact .cons (h c (by simp)) (ih fun c' hc' => h c' (List.mem_cons_of_mem c hc'))

/-- Effects that stay at a stage stay there, however many they are. -/
theorem flatMap {α : Type} {f : α → List (Effect τ)} (h : ∀ x, Leads p (f x) p) (xs : List α) :
    Leads p (xs.flatMap f) p := by
  induction xs with
  | nil => exact .nil p
  | cons x xs ih => exact (h x).append ih

end Leads

namespace Sequencer

/-! ### Starting and halting -/

/-- Silencing the voices leads to no other stage. -/
theorem leads_silence (time : τ) {s : Sequencer τ} (h : s.playback.Loaded) :
    Leads s.playback (s.silence time).2 s.playback := by
  refine Leads.map_call fun c hc => ?_
  rcases List.mem_cons.1 hc with rfl | hc
  · exact h
  · obtain ⟨label, -, hc⟩ := List.mem_flatMap.1 hc
    obtain ⟨a, -, rfl⟩ := List.mem_map.1 hc
    exact h

/-- A start leads from rest to playing. -/
theorem leads_start (now : τ) {s : Sequencer τ} (h : s.playback = .ready) :
    Leads s.playback (s.start now).2 .playing := by
  have hsilence := leads_silence now (s := s) (h ▸ .ready)
  refine hsilence.append (.cons ⟨rfl, ?_⟩ (.cons trivial (.nil _)))
  rw [h]
  exact .start

/-- A halt leads from playing to rest. -/
theorem leads_halt (time : τ) {s : Sequencer τ} (h : s.playback = .playing) :
    Leads s.playback (s.halt time).2 .ready := by
  have hsilence := leads_silence time (s := s) (h ▸ .playing)
  refine hsilence.append (.cons ⟨rfl, ?_⟩ (.nil _))
  rw [h]
  exact .halt

/-- The levels of all instruments, in their order. -/
def levels (registry : Registry) : List (VoiceCall τ) :=
  registry.atomics.map fun a => .setLevel a.id a.level

/-- The step of a sequencer whose voices have just become ready. -/
def onLoaded (now : τ) (s : Sequencer τ) : Step τ :=
  if s.startPending then start now { s with playback := .ready, startPending := false }
  else ({ s with playback := .ready }, [])

/-- Once the voices are ready, the levels are set, and a playback starts if one waits. -/
theorem finishPriming_true (now : τ) (s : Sequencer τ) :
    s.finishPriming true now =
      ((s.onLoaded now).1,
        (levels s.registry).map .call ++
          .notice (.playback s.playback .ready) :: (s.onLoaded now).2) := by
  rw [levels, List.map_map]
  rfl

/-- Loaded voices lead to rest, or to playing if a start waits. -/
theorem leads_onLoaded (now : τ) (s : Sequencer τ) :
    Leads .ready (s.onLoaded now).2 (s.onLoaded now).1.playback := by
  unfold onLoaded
  split
  · exact leads_start now (s := { s with playback := .ready, startPending := false }) rfl
  · exact .nil _

/-- So does looking whether the voices are ready, or it leads nowhere. -/
theorem leads_finishPriming (ready : Bool) (now : τ) {s : Sequencer τ} (h : s.playback = .priming) :
    Leads s.playback (s.finishPriming ready now).2 (s.finishPriming ready now).1.playback := by
  cases ready with
  | false => exact .nil _
  | true =>
    have hlevels : Leads s.playback ((levels s.registry).map (Effect.call (τ := τ))) s.playback := by
      refine Leads.map_call fun c hc => ?_
      obtain ⟨a, -, rfl⟩ := List.mem_map.1 hc
      exact h
    rw [finishPriming_true]
    exact hlevels.append (.cons ⟨rfl, h ▸ .load⟩ (leads_onLoaded now s))

/-- A request to play leads to the stage of the sequencer after it. -/
theorem leads_play (ready : Bool) (now : τ) (s : Sequencer τ) :
    Leads s.playback (s.play ready now).2 (s.play ready now).1.playback := by
  cases h : s.playback with
  | idle =>
    rw [play, h]
    refine .cons ⟨h, .prime⟩ (.cons rfl ?_)
    exact leads_finishPriming ready now (s := { s with playback := .priming, startPending := true })
      rfl
  | priming => simpa [play, h] using Leads.nil (τ := τ) Playback.priming
  | ready => simpa [play, h, started] using leads_start now h
  | playing => simpa [play, h] using Leads.nil (τ := τ) Playback.playing

theorem leads_stop [LT τ] [DecidableLT τ] (now : τ) (s : Sequencer τ) :
    Leads s.playback (s.stop now).2 (s.stop now).1.playback := by
  have hrewind : ∀ s : Sequencer τ, Leads s.playback (s.rewindUnplayed now).2 s.playback := by
    intro s
    unfold rewindUnplayed
    split
    · exact .cons trivial (.nil _)
    · exact .nil _
  cases h : s.playback with
  | playing =>
    simp only [stop, h, andThen_fst, andThen_snd, report, halt_fst, playback_rewindUnplayed]
    exact (h ▸ leads_halt now h).append ((hrewind s.halted).append (.cons trivial (.nil _)))
  | _ => simpa [stop, h] using Leads.nil (τ := τ) _

/-! ### Ticks -/

section
variable [NatCast τ] [Add τ] [Div τ]

theorem leads_perform (registry : Registry) (muted : List String) (tempo time : τ) (a : Action) :
    Leads .playing (perform registry muted tempo time a) .playing := by
  unfold perform
  split
  · exact .nil _
  · split
    · refine Leads.map_call fun c hc => ?_
      unfold strokes at hc
      split at hc
      · obtain ⟨member, -, rfl⟩ := List.mem_map.1 hc
        exact .playing
      · obtain ⟨stroke, -, hc⟩ := List.mem_flatMap.1 hc
        simp only [List.mem_cons, List.not_mem_nil, or_false] at hc
        rcases hc with rfl | rfl
        · exact .playing
        · rfl
    · exact .cons trivial (.nil _)

variable [BEq τ]

/-- A tick leads to the stage of the sequencer after it. -/
theorem leads_completeTick (time : τ) {s : Sequencer τ} (h : s.playback = .playing) :
    Leads s.playback (s.completeTick time).2 (s.completeTick time).1.playback := by
  have hfollow : ∀ tempo : τ, ∀ s : Sequencer τ,
      Leads s.playback (s.followTempo tempo).2 (s.followTempo tempo).1.playback := by
    intro tempo s
    unfold followTempo
    split
    · exact .cons trivial (.nil _)
    · exact .nil _
  have hadvance : ∀ s : Sequencer τ, s.playback = .playing →
      Leads s.playback (s.advance time).2 (s.advance time).1.playback := by
    intro s hs
    unfold advance
    split
    · exact .nil _
    · exact (leads_halt _ hs).append (.cons trivial (.nil _))
  rw [completeTick, tick]
  split
  · simpa [setCursor, halted] using leads_halt time h
  · next point hpoint =>
    simp only [andThen_fst, andThen_snd, List.append_nil]
    -- Remembering the point does not move the stage.
    generalize hsent : { s with sent := s.sent ++ [_] } = s'
    have hs' : s'.playback = .playing := by rw [← hsent]; exact h
    have hperform := Leads.flatMap
      (leads_perform s.registry s.muted s.transport.tempo time) point.actions
    rw [h]
    rw [← hs'] at hperform ⊢
    refine hperform.append ((hfollow _ s').append (hadvance _ ?_))
    rw [followTempo_frame]
    exact hs'

variable [LE τ] [DecidableLE τ]

theorem leads_runDue (horizon : τ) (s : Sequencer τ) :
    Leads s.playback (s.runDue horizon).2 (s.runDue horizon).1.playback := by
  fun_induction runDue horizon s with
  | case1 s hplaying hdue => exact .nil _
  | case2 s hplaying time hdue ticked rest ih =>
    exact (leads_completeTick time (by simpa [isPlaying] using hplaying)).append ih
  | case3 s hplaying => exact .nil _

/-! ### Requests and runs -/

variable [LT τ] [DecidableLT τ]

/-- **What a request does fits its stages.** -/
theorem leads_act (ready : Bool) (request : Request τ) (s : Sequencer τ) :
    Leads s.playback (s.act ready request).2 (s.act ready request).1.playback := by
  cases request with
  | play now => exact leads_play ready now s
  | stop now => exact leads_stop now s
  | toggle now =>
    simp only [act, toggle]
    split
    · exact leads_stop now s
    · exact leads_play ready now s
  | poll horizon =>
    rw [act, poll]
    split
    · next h => exact (leads_finishPriming ready horizon h).append (leads_runDue horizon _)
    · exact leads_runDue horizon s
  | toggleMute label => exact .nil _
  | seek sectionId step =>
    cases h : s.timeline.position? sectionId step <;>
      simpa [act, seek?, h] using Leads.nil (τ := τ) s.playback
  | setTimeline timeline => exact .nil _

/-- **What a run does fits its stages.** -/
theorem leads_run (steps : List (Bool × Request τ)) (s : Sequencer τ) :
    Leads s.playback (run steps s).2 (run steps s).1.playback := by
  induction steps generalizing s with
  | nil => exact .nil _
  | cons q rest ih => exact (leads_act q.1 q.2 s).append (ih _)

/-- Voices that are ready stay so. -/
theorem loaded_run (steps : List (Bool × Request τ)) {s : Sequencer τ} (h : s.playback.Loaded) :
    (run steps s).1.playback.Loaded :=
  (leads_run steps s).loaded h

end

end Sequencer

end Gamelan
