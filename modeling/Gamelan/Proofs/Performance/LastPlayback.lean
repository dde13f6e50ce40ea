import Gamelan.Proofs.Performance.Course
import Gamelan.Proofs.Performance.Silence

namespace Gamelan.Sequencer

/-!
# The last playback and stops

A stop cuts a playback that is under way, and does nothing to one that is over.  A playback is over
for the sequencer as soon as its last point was sent, which may be ahead of the clock: then a stop
comes too late to silence it.

* `LastPlayback` — how the last playback of a history may have come to its end.
* `lastPlayback_history` — every history agrees with the state it leads to.
* `endedAt?` — when the last playback ended by itself.
* `stop_silences_iff` — a stop leaves something just where it comes before such an end.
-/

variable {τ : Type}

/-! ### How the last playback came to its end -/

/-- When the last playback ended, after one more event. -/
def endAfter (last : Option τ) : Event τ → Option τ
  | .started _ | .stopped _ => none
  | .finished time => some time
  | .levelled | .played _ | .forgotten => last

/-- When the last playback of a history ended by itself, if it did. -/
def endedAt? (H : List (Event τ)) : Option τ :=
  H.foldl endAfter none

/-- The histories up to an instant, by what the sequencer does: there has been no playback, one is
under way, or the last one has ended in one way or the other.  An instant that a request gave is not
after `now`; a start after it, by a poll ahead of the clock, is the first one. -/
inductive LastPlayback [LE τ] (now : τ) : Playback → List (Event τ) → Prop where
  | unstarted {playback : Playback} {H : List (Event τ)} (h : playback ≠ .playing)
      (hH : ∀ e ∈ H, e = .levelled ∨ e = .forgotten) : LastPlayback now playback H
  | underWay (before : List (Event τ)) (start : τ) (E : List (Event τ))
      (hstart : start ≤ now ∨ ∀ p, .played p ∉ before) (hE : ∀ e ∈ E, e.cutAt? = none) :
      LastPlayback now .playing (before ++ .started start :: E)
  | finished (before : List (Event τ)) (start time : τ) (E F : List (Event τ))
      (hstart : start ≤ now ∨ ∀ p, .played p ∉ before) (hE : ∀ e ∈ E, e.cutAt? = none)
      (hF : ∀ e ∈ F, e = .forgotten) :
      LastPlayback now .ready (before ++ .started start :: (E ++ .finished time :: F))
  | stopped (before : List (Event τ)) (time : τ) (F : List (Event τ)) (htime : time ≤ now)
      (hF : ∀ e ∈ F, e = .forgotten) : LastPlayback now .ready (before ++ .stopped time :: F)

namespace LastPlayback

variable [LE τ] {now : τ} {playback : Playback} {H : List (Event τ)}

/-- Before the voices are ready there has been no playback. -/
theorem events_of_not_ready (h : LastPlayback now playback H)
    (hplayback : playback = .idle ∨ playback = .priming) :
    ∀ e ∈ H, e = .levelled ∨ e = .forgotten := by
  cases h with
  | unstarted h hH => exact hH
  | underWay => rcases hplayback with h | h <;> cases h
  | finished => rcases hplayback with h | h <;> cases h
  | stopped => rcases hplayback with h | h <;> cases h

/-- The playback that is under way. -/
theorem exists_of_playing (h : LastPlayback now .playing H) : ∃ before start E,
    H = before ++ .started start :: E ∧ (start ≤ now ∨ ∀ p, .played p ∉ before) ∧
      ∀ e ∈ E, e.cutAt? = none := by
  cases h with
  | unstarted h => exact absurd rfl h
  | underWay before start E hstart hE => exact ⟨before, start, E, rfl, hstart, hE⟩

/-- After a start, a playback is under way. -/
theorem start {time : τ} (hstart : time ≤ now ∨ ∀ p, .played p ∉ H) :
    LastPlayback now .playing (H ++ [.started time]) :=
  .underWay H time [] hstart fun _ he => absurd he List.not_mem_nil

/-- An event that does not cut goes on with a playback. -/
theorem play (h : LastPlayback now .playing H) {e : Event τ} (he : e.cutAt? = none) :
    LastPlayback now .playing (H ++ [e]) := by
  obtain ⟨before, start, E, rfl, hstart, hE⟩ := h.exists_of_playing
  rw [List.append_assoc, List.cons_append]
  refine .underWay before start (E ++ [e]) hstart fun e' he' => ?_
  rcases List.mem_append.1 he' with he' | he'
  · exact hE e' he'
  · rwa [List.mem_singleton.1 he']

/-- After its last point, the playback has ended at its own time. -/
theorem finish (h : LastPlayback now .playing H) (time : τ) :
    LastPlayback now .ready (H ++ [.finished time]) := by
  obtain ⟨before, start, E, rfl, hstart, hE⟩ := h.exists_of_playing
  rw [List.append_assoc, List.cons_append]
  exact .finished before start time E [] hstart hE fun _ he => absurd he List.not_mem_nil

/-- After a stop, the last playback was stopped. -/
theorem stop {time : τ} (htime : time ≤ now) :
    LastPlayback now .ready (H ++ [.stopped time]) :=
  .stopped H time [] htime fun _ he => absurd he List.not_mem_nil

/-- A seek or a new timeline leaves a history what it is. -/
theorem forget (h : LastPlayback now playback H) :
    LastPlayback now playback (H ++ [.forgotten]) := by
  have hforget : ∀ F : List (Event τ), (∀ e ∈ F, e = .forgotten) →
      ∀ e ∈ F ++ [.forgotten], e = .forgotten := by
    intro F hF e he
    rcases List.mem_append.1 he with he | he
    · exact hF e he
    · exact List.mem_singleton.1 he
  cases h with
  | unstarted h hH =>
    refine .unstarted h fun e he => ?_
    rcases List.mem_append.1 he with he | he
    · exact hH e he
    · exact .inr (List.mem_singleton.1 he)
  | underWay before start E hstart hE => exact (underWay before start E hstart hE).play rfl
  | finished before start time E F hstart hE hF =>
    rw [List.append_assoc, List.cons_append, List.append_assoc, List.cons_append]
    exact .finished before start time E _ hstart hE (hforget F hF)
  | stopped before time F htime hF =>
    rw [List.append_assoc, List.cons_append]
    exact .stopped before time _ htime (hforget F hF)

end LastPlayback

section
variable [NatCast τ] [Add τ] [Div τ] [LE τ] [DecidableLE τ] [LT τ] [DecidableLT τ]

/-- What a move does to the last playback, where the instants that requests give are not after
`now`. -/
theorem LastPlayback.move {now : τ} {request : Request τ} {s s' : Sequencer τ}
    {H K : List (Event τ)} (h : LastPlayback now s.playback H)
    (hclock : ∀ t, clock? request = some t → t ≤ now) (hmove : Move request s K s') :
    LastPlayback now s'.playback (H ++ K) := by
  cases hmove with
  | prime hidle =>
    rw [List.append_nil]
    exact .unstarted (by simp) (h.events_of_not_ready (.inl hidle))
  | pend pending hpriming => rwa [List.append_nil]
  | level hpriming hpending =>
    refine .unstarted (by simp) fun e he => ?_
    rcases List.mem_append.1 he with he | he
    · exact h.events_of_not_ready (.inr hpriming) e he
    · exact .inl (List.mem_singleton.1 he)
  | levelAndStart start hpriming hpending =>
    -- A poll may start ahead of the clock, but then it is the first start.
    rw [show H ++ [.levelled, .started start] = (H ++ [.levelled]) ++ [.started start] by simp]
    refine .start (.inr fun p hp => ?_)
    rcases List.mem_append.1 hp with hp | hp
    · rcases h.events_of_not_ready (.inr hpriming) _ hp with heq | heq <;> cases heq
    · cases List.mem_singleton.1 hp
  | start start hready hnow => exact .start (.inl (hclock start hnow))
  | play hrequest hplaying hdue hpoint hlt =>
    rw [hplaying] at h
    show LastPlayback now s.playback _
    rw [hplaying]
    exact h.play rfl
  | @playLast _ time point hrequest hplaying hdue hpoint hlt =>
    rw [hplaying] at h
    have hplayed := h.play (e := .played (s.playedAt time point)) rfl
    rw [List.append_cons H]
    exact hplayed.finish _
  | runOut hrequest hplaying hdue hpoint =>
    rw [hplaying] at h
    exact h.finish _
  | stop stop hplaying hnow =>
    rw [playback_rewindUnplayed]
    exact .stop (hclock stop hnow)
  | toggleMute label hrequest => rwa [List.append_nil]
  | seek hrequest hindex => exact h.forget
  | setTimeline timeline hrequest => exact h.forget

/-- **Every history has a last playback that the state agrees with.** -/
theorem lastPlayback_history [BEq τ] [LawfulBEq τ] (timeline : Timeline τ) (registry : Registry)
    (steps : List (Bool × Request τ)) (now : τ)
    (hclock : ∀ q ∈ steps, ∀ t, clock? q.2 = some t → t ≤ now) :
    LastPlayback now (run steps (new timeline registry)).1.playback
      (history steps (new timeline registry)) := by
  refine history_induction (motive := fun s H => LastPlayback now s.playback H) steps _ ?_ ?_
  · exact .unstarted (by simp [new]) fun e he => absurd he List.not_mem_nil
  · intro s H q K s' hq h hmove
    exact h.move (hclock q hq) hmove

end

/-! ### Events since a start -/

/-- Without a start, events follow those since the last one. -/
theorem foldl_follow {E : List (Event τ)} (hE : ∀ e ∈ E, ∀ now, e ≠ .started now)
    (events : List (Event τ)) : E.foldl follow events = events ++ E := by
  induction E generalizing events with
  | nil => exact (List.append_nil events).symm
  | cons e E ih =>
    have hfollow : follow events e = events ++ [e] := by
      cases e with
      | started now => exact absurd rfl (hE _ (List.mem_cons_self ..) now)
      | _ => rfl
    rw [List.foldl_cons, hfollow, ih fun e' he' => hE e' (List.mem_cons_of_mem _ he'),
      ← List.append_cons]

/-- The events since the last start are those from it on. -/
theorem sinceStart_of_start (before : List (Event τ)) (start : τ) {E : List (Event τ)}
    (hE : ∀ e ∈ E, ∀ now, e ≠ .started now) :
    sinceStart (before ++ .started start :: E) = .started start :: E := by
  rw [sinceStart_append, List.foldl_cons, foldl_follow hE]
  rfl

/-- Without a cut, the last playback has ended as before. -/
theorem foldl_endAfter {E : List (Event τ)} (hE : ∀ e ∈ E, e.cutAt? = none) (last : Option τ) :
    E.foldl endAfter last = last := by
  induction E generalizing last with
  | nil => rfl
  | cons e E ih =>
    have hend : endAfter last e = last := by
      have hcut := hE e (List.mem_cons_self ..)
      cases e with
      | levelled => rfl
      | played p => rfl
      | forgotten => rfl
      | started now => cases hcut
      | finished time => cases hcut
      | stopped now => cases hcut
    rw [List.foldl_cons, hend, ih fun e' he' => hE e' (List.mem_cons_of_mem _ he')]

/-- A history without cuts behind an event ended as that event says. -/
theorem endedAt?_append_cons (before : List (Event τ)) (e : Event τ) {E : List (Event τ)}
    (hE : ∀ e ∈ E, e.cutAt? = none) :
    endedAt? (before ++ e :: E) = endAfter (endedAt? before) e := by
  rw [endedAt?, List.foldl_append, List.foldl_cons, foldl_endAfter hE]
  rfl

/-! ### Stops -/

section
variable [LinearOrder τ] [NatCast τ] [Add τ] [Div τ]

/-- A history that ends with a cut not after `now` leaves nothing. -/
theorem silenced_of_cut {registry : Registry} {now time : τ} (H : List (Event τ))
    (hle : time ≤ now) :
    Silenced now (callsOf registry H ++ cut registry time) :=
  silenced_append.2 ⟨settledBy_cut hle fun _ _ _ h => (trigger_mem_callsOf h).2,
    silenced_of_forall_ne fun _ _ _ => trigger_not_mem_cut _ _ _ _ _⟩

/-- What a playback leaves that ended by itself. -/
theorem silenced_of_finished (registry : Registry) {now start time : τ}
    {H before E F : List (Event τ)} (hstart : start ≤ now ∨ ∀ p, .played p ∉ before)
    (hE : ∀ e ∈ E, e.cutAt? = none) (hF : ∀ e ∈ F, e = .forgotten)
    (hH : H = before ++ .started start :: (E ++ .finished time :: F)) :
    Silenced now (callsOf registry H) ↔
      (now < time → SilentFrom now time (callsOf registry (sinceStart H))) := by
  have hsince : sinceStart H = .started start :: (E ++ .finished time :: F) := by
    rw [hH]
    refine sinceStart_of_start before start fun e he => ?_
    rcases List.mem_append.1 he with he | he
    · exact ne_started_of_cutAt? hE e he
    · rcases List.mem_cons.1 he with rfl | he
      · exact fun _ h => by cases h
      · exact ne_started_of_cutAt? (cutAt?_of_forgotten hF) e he
  have hcalls : callsOf registry (sinceStart H) =
      cut registry start ++ (callsOf registry E ++ cut registry time) := by
    rw [hsince]
    simp [Event.calls, callsOf_of_forgotten registry hF]
  have hsplit : callsOf registry H =
      callsOf registry before ++ callsOf registry (sinceStart H) := by
    rw [hsince, hH, callsOf_append]
  rcases lt_or_ge now time with hlt | hle
  · -- What came before the playback is settled by the cut at its start.
    have hbefore : SettledBy now (callsOf registry before) (callsOf registry (sinceStart H)) := by
      rcases hstart with hstart | hnone
      · rw [hcalls]
        exact (settledBy_cut hstart fun _ _ _ h => (trigger_mem_callsOf h).2).append _
      · refine settledBy_of_forall_ne fun instrument slot x hmem => ?_
        obtain ⟨⟨p, hp⟩, -⟩ := trigger_mem_callsOf hmem
        exact hnone p hp
    rw [hsplit, silenced_append, and_iff_right hbefore, hcalls,
      silenced_iff_silentFrom (cancel_not_mem_callsOf hE) hlt]
    exact ⟨fun h _ => h, fun h => h hlt⟩
  · -- The end of the playback is a cut that is not after `now`.
    refine iff_of_true ?_ fun hlt => absurd hlt (not_lt.2 hle)
    have hall : callsOf registry H =
        callsOf registry (before ++ .started start :: E) ++ cut registry time := by
      rw [hsplit, hcalls]
      simp [Event.calls]
    rw [hall]
    exact silenced_of_cut _ hle

/-- What a stop leaves, by how the last playback came to its end. -/
theorem LastPlayback.silenced_iff {registry : Registry} {now : τ} {s : Sequencer τ}
    {H : List (Event τ)} (h : LastPlayback now s.playback H) (hregistry : s.registry = registry) :
    Silenced now (callsOf registry H ++ calls (s.stop now).2) ↔
      ∀ time, endedAt? H = some time → now < time →
        SilentFrom now time (callsOf registry (sinceStart H)) := by
  generalize hplayback : s.playback = playback at h
  cases h with
  | unstarted hnot hH =>
    -- No point was played, so there is no trigger.
    rw [calls_stop_of_ne now (hplayback ▸ hnot), List.append_nil]
    have hcut : ∀ e ∈ H, e.cutAt? = none := by
      intro e he
      rcases hH e he with rfl | rfl <;> rfl
    refine iff_of_true (silenced_of_forall_ne fun _ _ _ hmem => ?_) fun time htime => ?_
    · obtain ⟨⟨p, hp⟩, -⟩ := trigger_mem_callsOf hmem
      rcases hH _ hp with heq | heq <;> cases heq
    · rw [endedAt?, foldl_endAfter hcut] at htime
      cases htime
  | underWay before start E hstart hE =>
    -- The stop itself makes the cut.
    rw [calls_stop now hplayback, hregistry]
    refine iff_of_true (silenced_of_cut _ (le_refl now)) fun time htime => ?_
    rw [endedAt?_append_cons before _ hE] at htime
    cases htime
  | finished before start time E F hstart hE hF =>
    rw [calls_stop_of_ne now (by rw [hplayback]; decide), List.append_nil,
      silenced_of_finished registry hstart hE hF rfl]
    have hended : endedAt? (before ++ .started start :: (E ++ .finished time :: F)) =
        some time := by
      rw [← List.cons_append, ← List.append_assoc]
      exact endedAt?_append_cons _ _ (cutAt?_of_forgotten hF)
    rw [hended]
    constructor
    · intro h _ htime
      obtain rfl := Option.some.inj htime
      exact h
    · exact fun h => h time rfl
  | stopped before time F htime hF =>
    -- The last stop has made the cut, and nothing was played after it.
    rw [calls_stop_of_ne now (by rw [hplayback]; decide), List.append_nil]
    have hcalls : callsOf registry (before ++ .stopped time :: F) =
        callsOf registry before ++ cut registry time := by
      simp [Event.calls, callsOf_of_forgotten registry hF]
    rw [hcalls]
    refine iff_of_true (silenced_of_cut _ htime) fun _ h => ?_
    rw [endedAt?_append_cons before _ (cutAt?_of_forgotten hF)] at h
    cases h

/-- **A stop silences everything, unless the last point is already out.**  Whatever a sequencer was
asked for up to `now`, nothing is left of any trigger after a stop at `now`, but for one case: the
last playback has ended by itself, at a time that the clock has not reached.  Then the stop does
nothing, and something is left unless that playback had nothing more to sound anyway. -/
theorem stop_silences_iff [BEq τ] [LawfulBEq τ] (timeline : Timeline τ) (registry : Registry)
    (steps : List (Bool × Request τ)) (now : τ)
    (hclock : ∀ q ∈ steps, ∀ t, clock? q.2 = some t → t ≤ now) :
    let H := history steps (new timeline registry)
    let outcome := run steps (new timeline registry)
    Silenced now (calls outcome.2 ++ calls (outcome.1.stop now).2) ↔
      ∀ time, endedAt? H = some time → now < time →
        SilentFrom now time (callsOf registry (sinceStart H)) := by
  intro H outcome
  rw [calls_run]
  exact (lastPlayback_history timeline registry steps now hclock).silenced_iff
    (registry_run steps _)

end

/-- The short piece, stopped while it is played. -/
theorem stop_silences_iff_shortPiece :
    let steps : List (Bool × Request ℚ) := [(true, .play 0), (true, .poll (1 / 4))]
    (∀ q ∈ steps, ∀ t, clock? q.2 = some t → t ≤ 1 / 8) ∧
      Silenced (1 / 8) (calls (run steps duoSequencer).2 ++
        calls ((run steps duoSequencer).1.stop (1 / 8)).2) := by
  intro steps
  have hclock : ∀ q ∈ steps, ∀ t, clock? q.2 = some t → t ≤ 1 / 8 := by
    simp [steps, clock?]
  have hended : endedAt? (history [(true, .play 0), (true, .poll (1 / 4))] duoSequencer) =
      none := by cbv
  have hiff := stop_silences_iff (.ofScore shortPiece) duo steps (1 / 8) hclock
  refine ⟨hclock, hiff.2 fun time htime => ?_⟩
  cases hended.symm.trans htime

/-- **A stop can come too late** to stop what was sent: a poll ahead of the clock has ended the
playback, and the second point of the short piece still sounds after the stop. -/
theorem stop_after_last_point :
    let steps : List (Bool × Request ℚ) := [(true, .play 0), (true, .poll 5)]
    (∀ q ∈ steps, ∀ t, clock? q.2 = some t → t ≤ 1 / 8) ∧
      ¬Silenced (1 / 8) (calls (run steps duoSequencer).2 ++
        calls ((run steps duoSequencer).1.stop (1 / 8)).2) := by
  have hlog : calls (run [(true, .play 0), (true, .poll 5)] duoSequencer).2 ++
      calls ((run [(true, .play 0), (true, .poll 5)] duoSequencer).1.stop (1 / 8)).2 =
        ([.setLevel "r1" 0, .setLevel "r2" 0, .cancel 0, .release "r1" 0, .release "r2" 0,
          .release "r1" 0, .release "r2" 0, .release "r1" (1 / 16), .trigger "r1" 0 (1 / 16),
          .release "r2" (1 / 16), .trigger "r2" 0 (1 / 16), .release "r1" (1 / 4)] :
          List (VoiceCall ℚ)) ++
        (.trigger "r1" 1 (1 / 4) ::
          [.release "r1" (3 / 8), .release "r1" (3 / 8), .trigger "r1" 0 (3 / 8),
            .release "r2" (3 / 8), .trigger "r2" 0 (3 / 8), .cancel (1 / 2),
            .release "r1" (1 / 2), .release "r2" (1 / 2), .release "r1" (1 / 2),
            .release "r2" (1 / 2)] : List (VoiceCall ℚ)) := by
    cbv
  have hclock : ∀ q ∈ [(true, .play 0), (true, .poll 5)], ∀ t : ℚ,
      clock? q.2 = some t → t ≤ 1 / 8 := by
    simp [clock?]
  refine ⟨hclock, fun h => ?_⟩
  rw [hlog] at h
  -- The trigger at a quarter would have to be cancelled, but the next cancellation is at a half.
  obtain ⟨after, hmem, hlt⟩ := (h _ _ _ _ _ rfl).cancelled (by norm_num)
  simp only [List.mem_cons, VoiceCall.cancel.injEq, reduceCtorEq, List.not_mem_nil, or_false,
    false_or] at hmem
  rw [hmem] at hlt
  norm_num at hlt

end Gamelan.Sequencer
