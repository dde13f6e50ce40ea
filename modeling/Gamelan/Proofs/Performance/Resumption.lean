import Gamelan.Proofs.Performance.Course
import Gamelan.Proofs.Performance.Polling

namespace Gamelan.Sequencer

/-!
# Stopping and playing on

A sequencer that is stopped goes on, at the next request to play, with the first point that was
taken back.  So a piece that is stopped and played on again, at whatever instants, is played as if it
had been left alone: every point once, in order, and at the same tempo.

* `Plain`, `AtRest`, `EndsAtLast` — the runs that are meant.
* `runsResumed` — their histories are those of an interrupted pass.
* `surviving_of_stops` — what survives of them is the pass.
-/

/-- A request to play, to poll or to stop. -/
inductive Plain : Request ℚ → Prop where
  | play (now : ℚ) : Plain (.play now)
  | poll (horizon : ℚ) : Plain (.poll horizon)
  | stop (now : ℚ) : Plain (.stop now)

/-- At rest, with voices that are ready as soon as they are asked for. -/
def AtRest (steps : List (Bool × Request ℚ)) (s : Sequencer ℚ) : Prop :=
  s.playback = .ready ∨ s.playback = .idle ∧ ∀ q ∈ steps, q.1 = true

/-- Of the requests of a run, none but the last plays the last of `count` points. -/
def EndsAtLast (count : Nat) (steps : List (Bool × Request ℚ)) (s : Sequencer ℚ) : Prop :=
  ∀ p, .played p ∈ history steps.dropLast s → p.tick.index + 1 < count

/-- From one state to another, an interrupted pass. -/
def Resumed (s s' : Sequencer ℚ) (H : List (Event ℚ)) : Prop :=
  ∃ done left, s.ahead = done ++ left ∧
    Interrupted s.muted s.cursor s.transport.tempo done left H ∧
    (left ≠ [] → s'.cursor = s.cursor + done.length)

theorem AtRest.tail {q : Bool × Request ℚ} {steps : List (Bool × Request ℚ)} {s : Sequencer ℚ}
    (h : AtRest (q :: steps) s) : AtRest steps s :=
  h.imp id fun h => ⟨h.1, fun q' hq' => h.2 q' (List.mem_cons_of_mem _ hq')⟩

/-- What holds of the last request of a run holds of it in the rest of the run. -/
theorem EndsAtLast.tail {count : Nat} {q : Bool × Request ℚ} {steps : List (Bool × Request ℚ)}
    {s : Sequencer ℚ} (h : EndsAtLast count (q :: steps) s) :
    EndsAtLast count steps (s.act q.1 q.2).1 := by
  intro p hp
  cases steps with
  | nil => simp [history] at hp
  | cons q' steps => exact h p (List.mem_append_right _ hp)

/-- A request that plays the last point is the last one. -/
theorem EndsAtLast.eq_nil {count : Nat} {q : Bool × Request ℚ} {steps : List (Bool × Request ℚ)}
    {s : Sequencer ℚ} (h : EndsAtLast count (q :: steps) s) {p : Played ℚ}
    (hp : .played p ∈ s.events q.1 q.2) (hlast : count ≤ p.tick.index + 1) : steps = [] := by
  cases steps with
  | nil => rfl
  | cons q' steps =>
    have hlt := h p (List.mem_append_left _ hp)
    omega

/-! ### Single requests -/

theorem ahead_ne_nil {s : Sequencer ℚ} (h : s.cursor < s.timeline.length) : s.ahead ≠ [] := by
  intro hnil
  exact absurd h (Nat.not_lt.2 (List.drop_eq_nil_iff.1 hnil))

/-- The pass ahead goes through all indices from the cursor on. -/
theorem map_index_passOver_ahead (s : Sequencer ℚ) (time : ℚ) :
    (s.passOver time s.ahead).map (·.tick.index) =
      List.range' s.cursor (s.timeline.length - s.cursor) := by
  rw [passOver, map_index_pass, ahead, List.length_drop]
  rfl

/-- The last point of a pass has the last index of the timeline. -/
theorem exists_last_of_ahead {s : Sequencer ℚ} (time : ℚ) (h : s.cursor < s.timeline.length) :
    ∃ p ∈ s.passOver time s.ahead, s.timeline.length ≤ p.tick.index + 1 := by
  have hmem : s.timeline.length - 1 ∈
      (s.passOver time s.ahead).map fun p : Played ℚ => p.tick.index := by
    rw [map_index_passOver_ahead, List.mem_range']
    exact ⟨s.timeline.length - 1 - s.cursor, by omega, by omega⟩
  obtain ⟨p, hp, hindex⟩ := List.mem_map.1 hmem
  exact ⟨p, hp, by omega⟩

/-! ### Runs -/

/-- What is shown of the runs through some requests: from rest, and from a playback that has played
some points since it started. -/
structure RunsResumed (steps : List (Bool × Request ℚ)) : Prop where
  atRest : ∀ s : Sequencer ℚ, AtRest steps s → s.cursor < s.timeline.length →
    EndsAtLast s.timeline.length steps s → Resumed s (run steps s).1 (history steps s)
  underWay : ∀ (s : Sequencer ℚ) (now : ℚ) (done rest : List (Point ℚ)), s.ahead = done ++ rest →
    rest ≠ [] → EndsAtLast s.timeline.length steps ((s.started now).passed now done) →
    Resumed s (run steps ((s.started now).passed now done)).1
      (.started now :: ((s.passOver now done).map .played ++
        history steps ((s.started now).passed now done)))

theorem passed_nil {time : ℚ} {s : Sequencer ℚ} (h : Ticking time s) : s.passed time [] = s := by
  rw [passed, passOver, pass, passEnd, tempoAfter, List.map_nil, List.append_nil,
    List.length_nil, Nat.add_zero, ← h.transport_eq]

/-- Without requests, nothing survives but what was played before. -/
theorem RunsResumed.nil : RunsResumed [] where
  atRest s _ _ _ := ⟨[], s.ahead, rfl, .rest _ _ _, fun _ => rfl⟩
  underWay s now done rest hahead hrest _ := by
    refine ⟨done, rest, hahead, ?_, fun _ => rfl⟩
    rw [history, List.append_nil]
    exact .underWay _ _ now done hrest

/-- A request that does nothing at rest. -/
theorem RunsResumed.atRest_of_eq {q : Bool × Request ℚ} {steps : List (Bool × Request ℚ)}
    (ih : RunsResumed steps) {s : Sequencer ℚ} (hrest : AtRest (q :: steps) s)
    (hcursor : s.cursor < s.timeline.length)
    (hends : EndsAtLast s.timeline.length (q :: steps) s) (hact : (s.act q.1 q.2).1 = s)
    (hevents : s.events q.1 q.2 = []) :
    Resumed s (run (q :: steps) s).1 (history (q :: steps) s) := by
  have htail := hends.tail
  rw [history, run, andThen_fst, hevents, List.nil_append]
  rw [hact] at htail ⊢
  exact ih.atRest s hrest.tail hcursor htail

/-- A start out of rest: the playback goes on from it. -/
theorem RunsResumed.atRest_play {ready : Bool} {now : ℚ} {steps : List (Bool × Request ℚ)}
    (ih : RunsResumed steps) {s : Sequencer ℚ} (hrest : AtRest ((ready, .play now) :: steps) s)
    (hcursor : s.cursor < s.timeline.length)
    (hends : EndsAtLast s.timeline.length ((ready, .play now) :: steps) s) :
    Resumed s (run ((ready, .play now) :: steps) s).1
      (history ((ready, .play now) :: steps) s) := by
  have htail := hends.tail
  rw [history, run, andThen_fst]
  rcases hrest with hready | ⟨hidle, hall⟩
  · obtain ⟨hact, hevents⟩ := act_play_of_ready ready now hready
    rw [hact] at htail ⊢
    rw [hevents]
    -- A playback that has played nothing yet is under way.
    have hih := ih.underWay s now [] s.ahead rfl (ahead_ne_nil hcursor)
    rw [passed_nil (ticking_started now s)] at hih
    exact hih htail
  -- Before the first playback, all sounds are there, and the levels are set.
  · obtain rfl : ready = true := hall _ (List.mem_cons_self ..)
    let s₁ : Sequencer ℚ := { s with startPending := false }
    obtain ⟨hact, hevents⟩ := act_play_of_idle now hidle
    rw [hact] at htail ⊢
    rw [hevents]
    have hih := ih.underWay s₁ now [] s₁.ahead rfl (ahead_ne_nil hcursor)
    rw [passed_nil (ticking_started now s₁)] at hih
    obtain ⟨done, left, hahead, hinterrupted, hleft⟩ := hih htail
    exact ⟨done, left, hahead, .levelled hinterrupted, hleft⟩

/-- A poll of a playback: it goes on, or comes to its end. -/
theorem RunsResumed.underWay_poll {ready : Bool} {horizon : ℚ} {steps : List (Bool × Request ℚ)}
    (ih : RunsResumed steps) {s : Sequencer ℚ} {now : ℚ} {done rest : List (Point ℚ)}
    (hahead : s.ahead = done ++ rest) (hrest : rest ≠ [])
    (hends : EndsAtLast s.timeline.length ((ready, .poll horizon) :: steps)
      ((s.started now).passed now done)) :
    Resumed s (run ((ready, .poll horizon) :: steps) ((s.started now).passed now done)).1
      (.started now :: ((s.passOver now done).map .played ++
        history ((ready, .poll horizon) :: steps) ((s.started now).passed now done))) := by
  let s' := (s.started now).passed now done
  have hticking : Ticking (passEnd now done) s' := (ticking_started now s).passed done
  have hahead' : s'.ahead = rest := ahead_passed now hahead
  have htail := hends.tail
  obtain ⟨hact, hevents⟩ := act_poll (s := s') ready horizon (by rw [hticking.playing]; decide)
  rw [history, run, andThen_fst, hevents]
  rw [hact] at htail ⊢
  rcases runDue_cases horizon hticking with ⟨more, rest', hc⟩ | hc
  · have hsplit := hc.ahead_eq
    rw [hahead'] at hsplit
    have hrest' : rest' ≠ [] := by
      intro hnil
      exact hrest (hahead' ▸ hc.ahead_eq_nil hnil)
    have hstate : (s'.runDue horizon).1 = (s.started now).passed now (done ++ more) := by
      rw [hc.state_eq, passed_passed]
    have hplayed : s.passOver now (done ++ more) =
        s.passOver now done ++ s'.passOver (passEnd now done) more :=
      passOver_append now done more (s.started now)
    rw [hc.events_eq, ← List.append_assoc, ← List.map_append, ← hplayed]
    rw [hstate] at htail ⊢
    refine ih.underWay s now (done ++ more) rest' ?_ hrest' htail
    rw [hahead, hsplit, List.append_assoc]
  · -- The last point is played, so no request is left.
    have hcursor : s'.cursor < s'.timeline.length := by
      by_contra hle
      exact hrest (hahead' ▸ List.drop_eq_nil_iff.2 (Nat.not_lt.1 hle))
    obtain ⟨p, hp, hlast⟩ := exists_last_of_ahead (passEnd now done) hcursor
    obtain rfl : steps = [] := by
      refine hends.eq_nil (p := p) ?_ hlast
      rw [hevents, hc.events_eq]
      exact List.mem_append_left _ (List.mem_map_of_mem hp)
    refine ⟨s.ahead, [], (List.append_nil _).symm, ?_, fun h => absurd rfl h⟩
    have hplayed : s.passOver now s.ahead =
        s.passOver now done ++ s'.passOver (passEnd now done) rest := by
      rw [hahead]
      exact passOver_append now done rest (s.started now)
    have hfinish : passEnd now s.ahead = passEnd (passEnd now done) rest := by
      rw [hahead, passEnd_append]
    rw [history, List.append_nil, hc.events_eq, hahead', ← hfinish, ← List.append_assoc,
      ← List.map_append, ← hplayed]
    exact .completed _ _ now s.ahead

/-- A stop of a playback: what it takes back is left to play. -/
theorem RunsResumed.underWay_stop {ready : Bool} {stop : ℚ} {steps : List (Bool × Request ℚ)}
    (ih : RunsResumed steps) {s : Sequencer ℚ} {now : ℚ} {done rest : List (Point ℚ)}
    (hahead : s.ahead = done ++ rest) (hrest : rest ≠ [])
    (hends : EndsAtLast s.timeline.length ((ready, .stop stop) :: steps)
      ((s.started now).passed now done)) :
    Resumed s (run ((ready, .stop stop) :: steps) ((s.started now).passed now done)).1
      (.started now :: ((s.passOver now done).map .played ++
        history ((ready, .stop stop) :: steps) ((s.started now).passed now done))) := by
  obtain ⟨kept, back, rfl, hkept, hback⟩ :=
    exists_cut s.muted s.cursor now s.transport.tempo stop done
  have htail := hends.tail
  have hevents : ((s.started now).passed now (kept ++ back)).events ready (.stop stop) =
      [.stopped stop] := rfl
  have hact : (((s.started now).passed now (kept ++ back)).act ready (.stop stop)).1 = _ :=
    (onCourse_passed hahead).stop_eq s.muted rfl hkept hback
  rw [history, run, andThen_fst, hevents]
  rw [hact] at htail ⊢
  -- At rest again, the sequencer has ahead of it what the stop took back, and what was left.
  have hcut : s.timeline.points.drop (s.cursor + kept.length) = back ++ rest := by
    rw [← List.drop_drop]
    show s.ahead.drop kept.length = back ++ rest
    rw [hahead, List.append_assoc, List.drop_left]
  have hcursor : s.cursor + kept.length < s.timeline.length := by
    by_contra hle
    rw [List.drop_eq_nil_iff.2 (Nat.not_lt.1 hle)] at hcut
    exact hrest (List.append_eq_nil_iff.1 hcut.symm).2
  obtain ⟨more, left, hmore, hinterrupted, hleft⟩ := ih.atRest _ (.inl rfl) hcursor htail
  have hpoints : back ++ rest = more ++ left := hcut.symm.trans hmore
  refine ⟨kept ++ more, left, ?_, .stopped now stop hrest hkept hback hpoints hinterrupted, ?_⟩
  · rw [hahead, List.append_assoc, hpoints, List.append_assoc]
  · intro h
    rw [hleft h, List.length_append, Nat.add_assoc]

/-- **One more request** in front keeps what is shown of the run. -/
theorem RunsResumed.cons {q : Bool × Request ℚ} {steps : List (Bool × Request ℚ)}
    (ih : RunsResumed steps) (hplain : Plain q.2) : RunsResumed (q :: steps) where
  atRest s hrest hcursor hends := by
    obtain ⟨ready, request⟩ := q
    cases hplain with
    | play now => exact ih.atRest_play hrest hcursor hends
    | poll horizon =>
      have hnot : s.playback ≠ .priming := by
        rcases hrest with h | ⟨h, -⟩ <;> rw [h] <;> decide
      have hdue := runDue_of_not_playing (s := s) horizon (by
        rcases hrest with h | ⟨h, -⟩ <;> rw [isPlaying, h] <;> rfl)
      have hpoll := act_poll ready horizon hnot
      rw [hdue.1, hdue.2] at hpoll
      exact ih.atRest_of_eq hrest hcursor hends hpoll.1 hpoll.2
    | stop now =>
      refine ih.atRest_of_eq hrest hcursor hends ?_ ?_ <;> rcases hrest with h | ⟨h, -⟩
      · simp [act, stop, h]
      · simp [act, stop, h]
      · simp [events, stopEvents, isPlaying, h]
      · simp [events, stopEvents, isPlaying, h]
  underWay s now done rest hahead hrest hends := by
    obtain ⟨ready, request⟩ := q
    cases hplain with
    | play instant =>
      -- A request to play does nothing during a playback.
      exact ih.underWay s now done rest hahead hrest hends.tail
    | poll horizon => exact ih.underWay_poll hahead hrest hends
    | stop stop => exact ih.underWay_stop hahead hrest hends

/-- **A run of plain requests makes an interrupted pass.** -/
theorem runsResumed (steps : List (Bool × Request ℚ)) (hplain : ∀ q ∈ steps, Plain q.2) :
    RunsResumed steps := by
  induction steps with
  | nil => exact .nil
  | cons q steps ih =>
    exact (ih fun q' hq' => hplain q' (List.mem_cons_of_mem _ hq')).cons
      (hplain q (List.mem_cons_self ..))

/-! ### The pass survives -/

/-- Plain requests play points of the timeline only. -/
theorem index_lt_of_plain (steps : List (Bool × Request ℚ)) (hplain : ∀ q ∈ steps, Plain q.2)
    (s : Sequencer ℚ) {p : Played ℚ} (hp : .played p ∈ history steps s) :
    p.tick.index < s.timeline.length := by
  -- The run keeps its timeline, for only a swap changes it; so a point that is played is one of it.
  suffices h : (run steps s).1.timeline = s.timeline ∧
      ∀ p, .played p ∈ history steps s → p.tick.index < s.timeline.length from h.2 p hp
  refine history_induction
    (motive := fun s' H => s'.timeline = s.timeline ∧
      ∀ p, .played p ∈ H → p.tick.index < s.timeline.length) steps s ?_ ?_
  · exact ⟨rfl, fun p hp => by simp at hp⟩
  · intro s' H q K s'' hq ⟨htimeline, hplayed⟩ hmove
    have hcurrent : ∀ point, s'.current? = some point → s'.cursor < s.timeline.length := by
      intro point hpoint
      rw [← htimeline]
      exact (List.getElem?_eq_some_iff.1 hpoint).1
    refine ⟨?_, fun p hp => ?_⟩
    · cases hmove with
      | setTimeline timeline hrequest =>
        have hq := hplain q hq
        rw [hrequest] at hq
        cases hq
      | stop now => rwa [timeline_rewindUnplayed]
      | _ => exact htimeline
    · rcases List.mem_append.1 hp with hp | hp
      · exact hplayed p hp
      · cases hmove with
        | play hrequest h hdue hpoint hlt =>
          obtain rfl : p = s'.playedAt _ _ := by simpa using hp
          exact hcurrent _ hpoint
        | playLast hrequest h hdue hpoint hlt =>
          obtain rfl : p = s'.playedAt _ _ := by simpa using hp
          exact hcurrent _ hpoint
        | _ => simp at hp

/-- What survives was played. -/
theorem played_of_mem_surviving {p : Played ℚ} {H : List (Event ℚ)} (hp : p ∈ surviving H) :
    .played p ∈ H := by
  fun_induction surviving H with
  | case1 => simp at hp
  | case2 q rest hback ih => exact List.mem_cons_of_mem _ (ih hp)
  | case3 q rest hback ih =>
    rcases List.mem_cons.1 hp with rfl | hp
    · exact List.mem_cons_self ..
    · exact List.mem_cons_of_mem _ (ih hp)
  | case4 e rest he ih => exact List.mem_cons_of_mem _ (ih hp)

/-- Of an empty timeline nothing is played. -/
theorem history_of_empty (steps : List (Bool × Request ℚ)) (hplain : ∀ q ∈ steps, Plain q.2)
    {s : Sequencer ℚ} (h : s.timeline.length = 0) :
    (∀ p, .played p ∉ history steps s) ∧ surviving (history steps s) = [] ∧ s.ahead = [] := by
  have hnone : ∀ p, .played p ∉ history steps s := by
    intro p hp
    have hlt := index_lt_of_plain steps hplain s hp
    omega
  refine ⟨hnone, ?_, ?_⟩
  · exact List.eq_nil_iff_forall_not_mem.2 fun p hp => hnone p (played_of_mem_surviving hp)
  · rw [ahead, List.eq_nil_of_length_eq_zero h, List.drop_nil]

/-- Left alone, a sequencer at rest plays the pass ahead of it. -/
theorem played_of_one_poll {s : Sequencer ℚ} (t u : ℚ)
    (hrest : s.playback = .ready ∨ s.playback = .idle) (htu : t ≤ u)
    (hreach : ∀ p ∈ s.passOver t s.ahead, p.tick.time ≤ u) :
    (history [(true, .play t), (true, .poll u)] s).filterMap Event.played? =
      s.passOver t s.ahead := by
  have hplayed : ∀ ps : List (Played ℚ), (ps.map .played).filterMap Event.played? = ps := by
    intro ps
    rw [List.filterMap_map]
    exact List.filterMap_some
  have hpolls : ∀ s₁ : Sequencer ℚ, (∀ p ∈ s₁.passOver t s₁.ahead, p.tick.time ≤ u) →
      (history [(true, .poll u)] (s₁.started t)).filterMap Event.played? =
        s₁.passOver t s₁.ahead := by
    intro s₁ hreach₁
    have hhistory := (history_polls [(true, u)] (ticking_started t s₁)
      ⟨(true, u), List.mem_cons_self .., htu, hreach₁⟩).1
    rw [pollRequests, List.map_cons, List.map_nil] at hhistory
    rw [hhistory, List.filterMap_append, hplayed]
    exact List.append_nil _
  -- A sequencer that was never played sets the levels of its instruments first.
  rcases hrest with h | h
  · obtain ⟨hact, hevents⟩ := act_play_of_ready true t h
    rw [history, hact, hevents, List.filterMap_append, hpolls s hreach]
    rfl
  · obtain ⟨hact, hevents⟩ := act_play_of_idle t h
    rw [history, hact, hevents, List.filterMap_append,
      hpolls { s with startPending := false } hreach]
    rfl

/-- The parts of an interrupted pass, as a whole: what has survived is where the pass stands. -/
theorem Resumed.content {s s' : Sequencer ℚ} {H : List (Event ℚ)} (h : Resumed s s' H)
    (hcursor : s.cursor < s.timeline.length) (t : ℚ) :
    ((∃ p, .played p ∈ H ∧ p.tick.index + 1 = s.timeline.length) →
      (surviving H).map Played.content = (s.passOver t s.ahead).map Played.content) ∧
    ((∀ p, .played p ∈ H → p.tick.index + 1 ≠ s.timeline.length) →
      (surviving H).map Played.content =
        ((s.passOver t s.ahead).take (s'.cursor - s.cursor)).map Played.content) := by
  obtain ⟨done, left, hahead, hinterrupted, hleft⟩ := h
  have hcontent := hinterrupted.map_content_surviving t
  have hlength : s.cursor + (done ++ left).length = s.timeline.length := by
    rw [← hahead, ahead, List.length_drop]
    exact Nat.add_sub_of_le (Nat.le_of_lt hcursor)
  refine ⟨?_, fun hnot => ?_⟩
  · rintro ⟨p, hp, hlast⟩
    -- The last point was played, so nothing is left.
    have hnil := hinterrupted.left_eq_nil hp (hlast.trans hlength.symm)
    rw [hnil, List.append_nil] at hahead
    rw [hahead]
    exact hcontent
  · by_cases hnil : left = []
    · -- With nothing left, the last point has survived, so it was played.
      obtain ⟨p, hp, hlast⟩ := exists_last_of_ahead t hcursor
      rw [hnil, List.append_nil] at hahead
      rw [hahead] at hp
      have hmem : p.content ∈ (surviving H).map Played.content := by
        rw [hcontent]
        exact List.mem_map_of_mem hp
      obtain ⟨p', hp', heq⟩ := List.mem_map.1 hmem
      have hindex : p'.tick.index = p.tick.index := congrArg Prod.fst heq
      have hlt := index_of_mem_pass s.muted hp
      rw [hnil, List.append_nil] at hlength
      exact absurd (by omega) (hnot p' (played_of_mem_surviving hp'))
    · have htake : (s.passOver t s.ahead).take done.length = s.passOver t done := by
        rw [hahead, passOver_append]
        exact List.take_left' (length_pass s.muted s.cursor t s.transport.tempo done)
      rw [hleft hnil, Nat.add_sub_cancel_left, htake]
      exact hcontent

/-- A playback of an interrupted pass is the pass from the first point that has not survived, only
later. -/
theorem Resumed.later {s s' : Sequencer ℚ} {H : List (Event ℚ)} (h : Resumed s s' H) (t : ℚ)
    {before after : List (Event ℚ)} {now : ℚ} {seg : List (Played ℚ)}
    (hH : H = before ++ .started now :: (seg.map .played ++ after)) :
    ∃ delay,
      seg <+: ((s.passOver t s.ahead).drop (surviving before).length).map (Played.later delay) ∧
      ∀ p ∈ seg.head?, p.tick.time = now := by
  obtain ⟨done, left, hahead, hinterrupted, -⟩ := h
  obtain ⟨first, rest, hsplit, hlength, hseg⟩ := hinterrupted.exists_pass_of_started hH
  refine ⟨now - passEnd t first, ?_, fun p hp => ?_⟩
  · rw [hahead, hsplit, ← hlength, passOver, drop_pass, ← pass_later, add_sub_cancel]
    exact hseg
  · cases seg with
    | nil => simp at hp
    | cons q seg =>
      obtain rfl : q = p := by simpa using hp
      cases rest with
      | nil => simp [pass] at hseg
      | cons point rest =>
        rw [pass, List.cons_prefix_cons] at hseg
        rw [hseg.1]

/-- **Stopping loses no point and repeats none.**  A sequencer at rest is asked to play, to poll and
to stop in any order, and no request follows the one that plays the last point.  Then the points
that survive are those of the pass that it would make if it were left alone: all of them once the
last one was played, and those up to the cursor before.  Each is played at the tempo of that pass,
and every playback, from its start on, keeps the distances of that pass. -/
theorem surviving_of_stops (s : Sequencer ℚ) (steps : List (Bool × Request ℚ))
    (hplain : ∀ q ∈ steps, Plain q.2) (hrest : AtRest steps s)
    (hcursor : s.cursor < s.timeline.length ∨ s.timeline.length = 0 ∧ s.cursor = 0)
    (hends : EndsAtLast s.timeline.length steps s) (t : ℚ) :
    let H := history steps s
    let pass := s.passOver t s.ahead
    -- The history is that of the calls, and left alone it is the pass.
    (calls (run steps s).2 = callsOf s.registry H ∧
      ∀ u, t ≤ u → (∀ p ∈ pass, p.tick.time ≤ u) →
        (history [(true, .play t), (true, .poll u)] s).filterMap Event.played? = pass) ∧
    -- With the last point played, all points have survived, each once and in order.
    ((∃ p, .played p ∈ H ∧ p.tick.index + 1 = s.timeline.length) →
      (surviving H).map (·.tick.index) = List.range' s.cursor (s.timeline.length - s.cursor) ∧
      (surviving H).map Played.content = pass.map Played.content) ∧
    -- Before that, those up to the cursor have.
    ((∀ p, .played p ∈ H → p.tick.index + 1 ≠ s.timeline.length) →
      (surviving H).map Played.content =
        (pass.take ((run steps s).1.cursor - s.cursor)).map Played.content) ∧
    -- A playback is the pass from the first point that has not survived yet, only later.
    ∀ before now seg after, H = before ++ .started now :: (seg.map .played ++ after) →
      ∃ delay, seg <+: (pass.drop (surviving before).length).map (Played.later delay) ∧
        ∀ p ∈ seg.head?, p.tick.time = now := by
  intro H pass
  refine ⟨⟨calls_run steps s, fun u htu hreach =>
    played_of_one_poll t u (hrest.imp_right And.left) htu hreach⟩, ?_⟩
  rcases hcursor with hlt | ⟨hzero, -⟩
  · have hresumed := (runsResumed steps hplain).atRest s hrest hlt hends
    obtain ⟨hall, hpart⟩ := hresumed.content hlt t
    refine ⟨fun hlast => ⟨?_, hall hlast⟩, hpart, fun before now seg after hH =>
      hresumed.later t hH⟩
    have hindex := congrArg (List.map Prod.fst) (hall hlast)
    rw [List.map_map, List.map_map] at hindex
    exact Eq.trans hindex (map_index_passOver_ahead s t)
  · obtain ⟨hnone, hsurviving, hahead⟩ := history_of_empty steps hplain hzero
    refine ⟨?_, fun _ => ?_, fun before now seg after hH => ?_⟩
    · rintro ⟨p, hp, -⟩
      exact absurd hp (hnone p)
    · have hpass : pass = [] := by
        show s.passOver t s.ahead = []
        rw [hahead]
        rfl
      rw [hsurviving, hpass, List.take_nil]
    · have hseg : seg = [] := by
        cases seg with
        | nil => rfl
        | cons p seg =>
          have hmem : .played p ∈ H := by
            rw [hH]
            simp
          exact absurd hmem (hnone p)
      rw [hseg]
      exact ⟨0, List.nil_prefix, fun p hp => by simp at hp⟩

/-- The places of a history are those of the points played in it. -/
theorem mem_filterMap_index {H : List (Event ℚ)} {i : Nat} :
    i ∈ H.filterMap (fun e => e.played?.map (·.tick.index)) ↔
      ∃ p, .played p ∈ H ∧ p.tick.index = i := by
  rw [List.mem_filterMap]
  constructor
  · rintro ⟨e, he, heq⟩
    cases e with
    | played p => exact ⟨p, he, Option.some.inj heq⟩
    | _ => cases heq
  · rintro ⟨p, hp, rfl⟩
    exact ⟨.played p, hp, rfl⟩

/-- The short piece, stopped after its second point was sent and before it was heard. -/
theorem surviving_of_stops_shortPiece :
    let steps : List (Bool × Request ℚ) :=
      [(true, .play 0), (true, .poll (1 / 4)), (true, .stop (1 / 8)), (true, .play 1),
        (true, .poll 5)]
    (∀ q ∈ steps, Plain q.2) ∧ AtRest steps duoSequencer ∧
      duoSequencer.cursor < duoSequencer.timeline.length ∧
      EndsAtLast duoSequencer.timeline.length steps duoSequencer ∧
      (surviving (history steps duoSequencer)).map (·.tick.index) = [0, 1, 2] := by
  intro steps
  have hplain : ∀ q ∈ steps, Plain q.2 := by
    simp only [steps, List.forall_mem_cons, List.not_mem_nil, false_implies, implies_true, and_true]
    exact ⟨.play 0, .poll (1 / 4), .stop (1 / 8), .play 1, .poll 5⟩
  have hrest : AtRest steps duoSequencer := .inr ⟨rfl, by simp [steps]⟩
  have hlength : duoSequencer.timeline.length = 3 := rfl
  have hcursor : duoSequencer.cursor < duoSequencer.timeline.length := by decide
  have hends : EndsAtLast duoSequencer.timeline.length steps duoSequencer := by
    intro p hp
    have hmem := mem_filterMap_index.2 ⟨p, hp, rfl⟩
    rw [show (history steps.dropLast duoSequencer).filterMap
      (fun e => e.played?.map (·.tick.index)) = [0, 1] by cbv] at hmem
    simp only [List.mem_cons, List.not_mem_nil, or_false] at hmem
    omega
  have hlast : 2 ∈ (history steps duoSequencer).filterMap
      (fun e => e.played?.map (·.tick.index)) := by
    rw [show (history steps duoSequencer).filterMap
      (fun e => e.played?.map (·.tick.index)) = [0, 1, 1, 2] by cbv]
    decide
  obtain ⟨p, hp, hindex⟩ := mem_filterMap_index.1 hlast
  have hall := surviving_of_stops duoSequencer steps hplain hrest (.inl hcursor) hends 0
  exact ⟨hplain, hrest, hcursor, hends, (hall.2.1 ⟨p, hp, by rw [hindex, hlength]⟩).1⟩

end Gamelan.Sequencer
