import Gamelan.Proofs.Performance.Pass

namespace Gamelan.Sequencer

/-!
# What a poll does

A poll of a playback plays the points that are due, and these are the first ones of the pass ahead.

* `Continues` — a poll that leaves points to play.
* `Completes` — a poll that plays them all, and ends the playback.
* `runDue_cases` — every poll of a playback does one or the other.
* `history_polls` — polls that look as far as the last tick complete the pass between them.
-/

/-! ### The two outcomes -/

/-- The events of a poll that leaves points to play, and the state after it. -/
structure Continues (horizon time : ℚ) (s : Sequencer ℚ) (done rest : List (Point ℚ)) : Prop where
  ahead_eq : s.ahead = done ++ rest
  ahead_eq_nil : rest = [] → s.ahead = []
  due : ∀ p ∈ s.passOver time done, p.tick.time ≤ horizon
  not_due : horizon < passEnd time done
  events_eq : s.dueEvents horizon = (s.passOver time done).map .played
  state_eq : (s.runDue horizon).1 = s.passed time done

/-- The events of a poll that plays all points, and the state after it. -/
structure Completes (horizon time : ℚ) (s : Sequencer ℚ) : Prop where
  start_due : time ≤ horizon
  due : ∀ p ∈ s.passOver time s.ahead, p.tick.time ≤ horizon
  events_eq : s.dueEvents horizon =
    (s.passOver time s.ahead).map .played ++ [.finished (passEnd time s.ahead)]
  state_eq : (s.runDue horizon).1 = s.ended time s.ahead

/-! ### One tick -/

/-- A poll before the next tick does nothing. -/
theorem continues_of_lt {horizon time : ℚ} {s : Sequencer ℚ} (h : Ticking time s)
    (hlt : horizon < time) : Continues horizon time s [] s.ahead where
  ahead_eq := rfl
  ahead_eq_nil hnil := hnil
  due := by simp [passOver, pass]
  not_due := hlt
  events_eq := by
    rw [dueEvents]
    simp [h.isPlaying, h.due?, not_le.2 hlt, passOver, pass]
  state_eq := by
    rw [runDue]
    simp [h.isPlaying, h.due?, not_le.2 hlt, Sequencer.passed, passOver, pass, passEnd, tempoAfter,
      ← h.transport_eq]

/-- What a poll does once the next tick is due. -/
theorem Ticking.runDue_of_le {horizon time : ℚ} {s : Sequencer ℚ} (h : Ticking time s)
    (hle : time ≤ horizon) :
    (s.runDue horizon).1 = ((s.completeTick time).1.runDue horizon).1 ∧
      s.dueEvents horizon = s.tickEvents time ++ (s.completeTick time).1.dueEvents horizon := by
  rw [runDue, dueEvents]
  simp [h.isPlaying, h.due?, hle]

/-- A tick that ends the playback completes the pass. -/
theorem completes_of_ended {horizon time : ℚ} {s : Sequencer ℚ} (h : Ticking time s)
    (hle : time ≤ horizon) (hpass : ∀ p ∈ s.passOver time s.ahead, p.tick.time ≤ horizon)
    (hstate : (s.completeTick time).1 = s.ended time s.ahead)
    (hevents : s.tickEvents time =
      (s.passOver time s.ahead).map .played ++ [.finished (passEnd time s.ahead)]) :
    Completes horizon time s where
  start_due := hle
  due := hpass
  events_eq := by
    rw [(h.runDue_of_le hle).2, hstate, (runDue_of_not_playing horizon rfl).2, hevents,
      List.append_nil]
  state_eq := by rw [(h.runDue_of_le hle).1, hstate, (runDue_of_not_playing horizon rfl).1]

/-- A tick on a point, and then what a poll does after it. -/
theorem runDue_cases_of_passed {horizon time : ℚ} {s : Sequencer ℚ} (h : Ticking time s)
    (hle : time ≤ horizon) {point : Point ℚ} (hpoint : s.current? = some point)
    (hlt : s.cursor + 1 < s.timeline.length)
    (hrest : (∃ done rest,
        Continues horizon (passEnd time [point]) (s.passed time [point]) done rest) ∨
      Completes horizon (passEnd time [point]) (s.passed time [point])) :
    (∃ done rest, Continues horizon time s done rest) ∨ Completes horizon time s := by
  have hahead : s.ahead = [point] ++ (s.passed time [point]).ahead := ahead_of_current? hpoint
  have hstate := h.completeTick_fst hpoint hlt
  have htick : s.tickEvents time = (s.passOver time [point]).map .played := by
    rw [tickEvents, hpoint]
    simp [hlt, passOver, pass, playedAt]
  have hdue : ∀ p ∈ s.passOver time [point], p.tick.time ≤ horizon := by
    simpa [passOver, pass] using hle
  rcases hrest with ⟨done, rest, hc⟩ | hc
  · -- The points due after this one are due with it.
    refine .inl ⟨[point] ++ done, rest, ?_, ?_, ?_, ?_, ?_, ?_⟩
    · rw [hahead, hc.ahead_eq, List.append_assoc]
    · intro hnil
      have hlen : s.timeline.length ≤ s.cursor + 1 := List.drop_eq_nil_iff.1 (hc.ahead_eq_nil hnil)
      exact absurd hlt (Nat.not_lt.2 hlen)
    · rw [passOver_append]
      intro p hp
      rcases List.mem_append.1 hp with hp | hp
      · exact hdue p hp
      · exact hc.due p hp
    · rw [passEnd_append]
      exact hc.not_due
    · rw [(h.runDue_of_le hle).2, hstate, hc.events_eq, htick, passOver_append, List.map_append]
    · rw [(h.runDue_of_le hle).1, hstate, hc.state_eq, passed_passed]
  · refine .inr ⟨hle, ?_, ?_, ?_⟩
    · rw [hahead, passOver_append]
      intro p hp
      rcases List.mem_append.1 hp with hp | hp
      · exact hdue p hp
      · exact hc.due p hp
    · rw [(h.runDue_of_le hle).2, hstate, hc.events_eq, htick, hahead, passOver_append,
        List.map_append, List.append_assoc, passEnd_append]
    · rw [(h.runDue_of_le hle).1, hstate, hc.state_eq, hahead, ended_passed]

/-- A tick with no point to play ends the playback. -/
theorem completes_of_current?_none {horizon time : ℚ} {s : Sequencer ℚ} (h : Ticking time s)
    (hle : time ≤ horizon) (hpoint : s.current? = none) : Completes horizon time s := by
  have hahead := ahead_of_current?_none hpoint
  refine completes_of_ended h hle ?_ ?_ ?_
  · simp [hahead, passOver, pass]
  · rw [completeTick_of_none time hpoint, hahead]
    simp [ended, halted, passOver, pass, tempoAfter, Transport.cancel, h.started]
  · rw [tickEvents, hpoint, hahead]
    rfl

/-- A tick on the last point ends the playback. -/
theorem completes_of_not_lt {horizon time : ℚ} {s : Sequencer ℚ} (h : Ticking time s)
    (hle : time ≤ horizon) {point : Point ℚ} (hpoint : s.current? = some point)
    (hlt : ¬s.cursor + 1 < s.timeline.length) : Completes horizon time s := by
  have hahead : s.ahead = [point] := by
    rw [ahead_of_current? hpoint, List.drop_eq_nil_iff.2 (Nat.not_lt.1 hlt)]
  refine completes_of_ended h hle ?_ ?_ ?_
  · simpa [hahead, passOver, pass] using hle
  · rw [completeTick_of_not_lt time hpoint hlt, hahead]
    simp [ended, passOver, pass, playedAt, tempoAfter, Transport.cancel, Transport.setTempo,
      h.started]
  · rw [tickEvents, hpoint, hahead]
    simp [hlt, passOver, pass, passEnd, playedAt, pulse_seconds]

/-- **What a poll does to a playback.**  It plays the points of the pass ahead that are due, and
ends the playback if these are all. -/
theorem runDue_cases (horizon : ℚ) {time : ℚ} {s : Sequencer ℚ} (h : Ticking time s) :
    (∃ done rest, Continues horizon time s done rest) ∨ Completes horizon time s := by
  -- The recursion is that of the poll: each tick on a point leaves a shorter pass.
  fun_induction runDue horizon s generalizing time with
  | case1 s hplaying hdue =>
    have hlt : horizon < time := by
      by_contra hle
      rw [h.due?, if_pos (not_lt.1 hle)] at hdue
      cases hdue
    exact .inl ⟨[], s.ahead, continues_of_lt h hlt⟩
  | case2 s hplaying due hdue ticked rest =>
    rename_i ih
    -- The tick that is due is the next one of the pass.
    by_cases hle : time ≤ horizon
    · obtain rfl : time = due := by simpa [h.due?, hle] using hdue
      cases hpoint : s.current? with
      | none => exact .inr (completes_of_current?_none h hle hpoint)
      | some point =>
        by_cases hlt : s.cursor + 1 < s.timeline.length
        · have hstate : ticked.1 = s.passed time [point] := h.completeTick_fst hpoint hlt
          refine runDue_cases_of_passed h hle hpoint hlt ?_
          rw [← hstate]
          exact ih (hstate ▸ h.passed [point])
        · exact .inr (completes_of_not_lt h hle hpoint hlt)
    · exact .inl ⟨[], s.ahead, continues_of_lt h (not_le.1 hle)⟩
  | case3 s hplaying => exact absurd h.isPlaying hplaying

/-! ### Some polls -/

/-- Points that are passed are no longer ahead. -/
theorem ahead_passed (time : ℚ) {s : Sequencer ℚ} {done rest : List (Point ℚ)}
    (h : s.ahead = done ++ rest) : (s.passed time done).ahead = rest := by
  show s.timeline.points.drop (s.cursor + done.length) = rest
  rw [← List.drop_drop]
  show s.ahead.drop done.length = rest
  rw [h, List.drop_left]

/-- An instant after all ticks of a pass is after the next one. -/
theorem Continues.passEnd_le {horizon time bound : ℚ} {s : Sequencer ℚ}
    {done rest : List (Point ℚ)} (h : Continues horizon time s done rest) (htime : time ≤ bound)
    (hbound : ∀ p ∈ s.passOver time s.ahead, p.tick.time ≤ bound) : passEnd time done ≤ bound := by
  cases rest with
  | nil =>
    have hnil := h.ahead_eq_nil rfl
    rw [h.ahead_eq, List.append_nil] at hnil
    rw [hnil]
    exact htime
  | cons p rest =>
    rw [h.ahead_eq, passOver_append] at hbound
    exact hbound _ (List.mem_append_right _ (List.mem_cons_self ..))

/-- The requests of some polls, each with the answer of the voices. -/
def pollRequests (polls : List (Bool × ℚ)) : List (Bool × Request ℚ) :=
  polls.map fun q => (q.1, .poll q.2)

/-- Once loaded, a poll only runs the ticks that are due. -/
theorem act_poll {s : Sequencer ℚ} (ready : Bool) (horizon : ℚ) (h : s.playback ≠ .priming) :
    (s.act ready (.poll horizon)).1 = (s.runDue horizon).1 ∧
      s.events ready (.poll horizon) = s.dueEvents horizon := by
  simp [act, events, poll, pollEvents, h]

/-- A start out of rest. -/
theorem act_play_of_ready {s : Sequencer ℚ} (ready : Bool) (now : ℚ) (h : s.playback = .ready) :
    (s.act ready (.play now)).1 = s.started now ∧
      s.events ready (.play now) = [.started now] := by
  simp [act, play, events, playEvents, h]

/-- The first start: the voices are asked for, and are ready at once. -/
theorem act_play_of_idle {s : Sequencer ℚ} (now : ℚ) (h : s.playback = .idle) :
    (s.act true (.play now)).1 = started now { s with startPending := false } ∧
      s.events true (.play now) = [.levelled, .started now] := by
  simp [act, play, events, playEvents, primingEvents, finishPriming, setPlayback, started, h]

/-- At rest, polls do nothing. -/
theorem history_polls_of_ready (polls : List (Bool × ℚ)) {s : Sequencer ℚ}
    (h : s.playback = .ready) :
    history (pollRequests polls) s = [] ∧ (run (pollRequests polls) s).1 = s := by
  induction polls with
  | nil => exact ⟨rfl, rfl⟩
  | cons q rest ih =>
    have hact := act_poll q.1 q.2 (s := s) (by rw [h]; decide)
    have hdue := runDue_of_not_playing (s := s) q.2 (by rw [isPlaying, h]; rfl)
    rw [hdue.1, hdue.2] at hact
    rw [pollRequests, List.map_cons, history, run, andThen_fst, hact.1, hact.2]
    exact ih

/-- **Polls complete a pass** as soon as one of them looks as far as the last tick. -/
theorem history_polls (polls : List (Bool × ℚ)) {time : ℚ} {s : Sequencer ℚ} (h : Ticking time s)
    (hreach : ∃ q ∈ polls, time ≤ q.2 ∧ ∀ p ∈ s.passOver time s.ahead, p.tick.time ≤ q.2) :
    history (pollRequests polls) s =
        (s.passOver time s.ahead).map .played ++ [.finished (passEnd time s.ahead)] ∧
      (run (pollRequests polls) s).1 = s.ended time s.ahead := by
  induction polls generalizing time s with
  | nil => simp at hreach
  | cons q polls ih =>
    have hact := act_poll q.1 q.2 (s := s) (by rw [h.playing]; decide)
    rw [pollRequests, List.map_cons, history, run, andThen_fst, hact.1, hact.2]
    rcases runDue_cases q.2 h with ⟨done, rest, hc⟩ | hc
    · -- This poll does not look far enough, so a later one does.
      obtain ⟨q', hq', htime, hbound⟩ := hreach
      have hnext := hc.passEnd_le htime hbound
      have hahead := ahead_passed time hc.ahead_eq
      have hmem : q' ∈ polls := by
        rcases List.mem_cons.1 hq' with rfl | hmem
        · exact absurd hnext (not_le.2 hc.not_due)
        · exact hmem
      have hih := ih (h.passed done) ⟨q', hmem, hnext, by
        rw [hahead]
        rw [hc.ahead_eq, passOver_append] at hbound
        exact fun p hp => hbound p (List.mem_append_right _ hp)⟩
      rw [hahead] at hih
      rw [hc.state_eq, hc.events_eq]
      refine ⟨(congrArg _ hih.1).trans ?_, hih.2.trans ?_⟩
      · rw [hc.ahead_eq, passOver_append, passEnd_append, List.map_append, List.append_assoc]
      · rw [hc.ahead_eq, ended_passed]
    · -- The polls after this one find the sequencer at rest.
      obtain ⟨hhistory, hstate⟩ := history_polls_of_ready polls (s := s.ended time s.ahead) rfl
      rw [hc.state_eq, hc.events_eq]
      exact ⟨by rw [← pollRequests, hhistory, List.append_nil], hstate⟩

end Gamelan.Sequencer
