import Gamelan.Proofs.Performance.Outlook

namespace Gamelan

/-!
# A sequencer that keeps up

The next tick of a playback is never behind the clock, if every request is made at the clock or later
and the clock does not pass the horizon of the last poll.  Then no stroke is asked for too late.

* `VoiceCall.NotBefore` — a call that makes no sound, and ends none, before an instant.
* `OnTime` — a sequencer whose next tick is not before an instant.
* `OnTime.act`, `OnTime.poll` — what requests make of it, and of the clock.
-/

/-- A call that starts or releases nothing before an instant. -/
def VoiceCall.NotBefore (time : ℚ) : VoiceCall ℚ → Prop
  | .trigger _ _ x => time ≤ x
  | .release _ x => time ≤ x
  | .setLevel .. => True
  | .cancel _ => True

/-- What is after every earlier instant is not before an instant. -/
theorem VoiceCall.notBefore_of_isAfter {time : ℚ} {c : VoiceCall ℚ}
    (h : ∀ earlier < time, c.IsAfter earlier) : c.NotBefore time := by
  cases c with
  | trigger instrument slot x => exact le_of_forall_lt h
  | release instrument x => exact le_of_forall_lt h
  | setLevel instrument level => trivial
  | cancel after => trivial

namespace Sequencer

/-- The calls of a cut are not before it. -/
theorem notBefore_of_mem_cut {registry : Registry} {time cutTime : ℚ} (h : time ≤ cutTime)
    {c : VoiceCall ℚ} (hc : c ∈ cut registry cutTime) : c.NotBefore time :=
  VoiceCall.notBefore_of_isAfter fun _ hlt => isAfter_of_mem_cut (lt_of_lt_of_le hlt h) hc

/-- The calls of a pass are not before its start. -/
theorem notBefore_of_mem_passEvents {s : Sequencer ℚ} {now time : ℚ} (h : now ≤ time)
    (htempo : 0 ≤ s.transport.tempo) (points : List (Point ℚ)) (registry : Registry)
    {c : VoiceCall ℚ} (hc : c ∈ callsOf registry (s.passEvents time points)) : c.NotBefore now :=
  VoiceCall.notBefore_of_isAfter fun _ hlt =>
    isAfter_of_mem_passEvents (lt_of_lt_of_le hlt h) htempo points registry hc

/-- A sequencer at rest, or one whose next tick is not before an instant.  No tempo that it knows is
negative. -/
structure OnTime (now : ℚ) (s : Sequencer ℚ) : Prop where
  course : s.playback = .idle ∨ s.playback = .ready ∨ ∃ time, now ≤ time ∧ Ticking time s
  tempo : 0 ≤ s.transport.tempo
  sent : ∀ p ∈ s.sent, 0 ≤ p.tempo

namespace OnTime

variable {now : ℚ} {s : Sequencer ℚ}

theorem new (now : ℚ) (timeline : Timeline ℚ) (registry : Registry) :
    OnTime now (Sequencer.new timeline registry) where
  course := .inl rfl
  tempo := Nat.cast_nonneg defaultTempo
  sent := by simp [Sequencer.new]

/-- Whether a sequencer keeps up depends on its transport, and on what it would go back to. -/
theorem of_transport_eq (h : OnTime now s) {s' : Sequencer ℚ} (hplayback : s'.playback = s.playback)
    (htransport : s'.transport = s.transport) (hsent : s'.sent ⊆ s.sent) : OnTime now s' where
  course := by
    rw [hplayback]
    obtain hidle | hready | ⟨time, htime, hticking⟩ := h.course
    · exact .inl hidle
    · exact .inr (.inl hready)
    · refine .inr (.inr ⟨time, htime, hplayback.trans hticking.playing, ?_, ?_⟩)
      · rw [htransport]
        exact hticking.started
      · rw [htransport]
        exact hticking.next
  tempo := htransport ▸ h.tempo
  sent p hp := h.sent p (hsent hp)

/-- The first tick of a start is not before the start. -/
theorem started (h : OnTime now s) {start : ℚ} (hstart : now ≤ start) :
    OnTime now (s.started start) where
  course := .inr (.inr ⟨start, hstart, ticking_started start s⟩)
  tempo := h.tempo
  sent := by simp [Sequencer.started]

/-- A stop leaves a sequencer at rest, at a tempo that it had before. -/
theorem stopped (h : OnTime now s) (stop : ℚ) : OnTime now (s.halted.rewindUnplayed stop).1 := by
  refine ⟨.inr (.inl (playback_rewindUnplayed stop s.halted)), ?_, ?_⟩
  · unfold rewindUnplayed
    split
    · next first hfirst => exact h.sent first (List.mem_of_find?_eq_some hfirst)
    · exact h.tempo
  · unfold rewindUnplayed
    split <;> simp

/-- A request to play at the clock or later. -/
theorem play (h : OnTime now s) {start : ℚ} (hstart : now ≤ start) :
    OnTime now (s.act true (.play start)).1 ∧
      ∀ registry, ∀ c ∈ callsOf registry (s.events true (.play start)), c.NotBefore now := by
  obtain hidle | hready | ⟨time, -, hticking⟩ := h.course
  · obtain ⟨hstate, hevents⟩ := act_play_of_idle start hidle
    have hs : OnTime now { s with startPending := false } := ⟨.inl hidle, h.tempo, h.sent⟩
    rw [hstate, hevents]
    refine ⟨hs.started hstart, fun registry c hc => ?_⟩
    obtain hc | hc := List.mem_append.1 hc
    · -- Levels are set at once.
      obtain ⟨a, -, rfl⟩ := List.mem_map.1 hc
      trivial
    · exact notBefore_of_mem_cut hstart (by simpa [Event.calls] using hc)
  · obtain ⟨hstate, hevents⟩ := act_play_of_ready true start hready
    rw [hstate, hevents]
    refine ⟨h.started hstart, fun registry c hc => ?_⟩
    exact notBefore_of_mem_cut hstart (by simpa [Event.calls] using hc)
  · have hstate : (s.act true (.play start)).1 = s := by simp [Sequencer.act, Sequencer.play,
      hticking.playing]
    have hevents : s.events true (.play start) = [] := by simp [events, playEvents, hticking.playing]
    rw [hstate, hevents]
    exact ⟨h, by simp⟩

/-- A request to stop at the clock or later. -/
theorem stop (h : OnTime now s) {stop : ℚ} (hstop : now ≤ stop) :
    OnTime now (s.act true (.stop stop)).1 ∧
      ∀ registry, ∀ c ∈ callsOf registry (s.events true (.stop stop)), c.NotBefore now := by
  by_cases hplaying : s.playback = .playing
  · have hstate : (s.act true (.stop stop)).1 = (s.halted.rewindUnplayed stop).1 :=
      stop_fst stop hplaying
    have hevents : s.events true (.stop stop) = [.stopped stop] := by
      simp [events, stopEvents, isPlaying, hplaying]
    rw [hstate, hevents]
    refine ⟨h.stopped stop, fun registry c hc => ?_⟩
    exact notBefore_of_mem_cut hstop (by simpa [Event.calls] using hc)
  · have hevents : s.events true (.stop stop) = [] := by
      simp [events, stopEvents, isPlaying, hplaying]
    have hstate : (s.act true (.stop stop)).1 = s := by
      obtain hidle | hready | ⟨time, -, hticking⟩ := h.course
      · simp [Sequencer.act, Sequencer.stop, hidle]
      · simp [Sequencer.act, Sequencer.stop, hready]
      · exact absurd hticking.playing hplaying
    rw [hstate, hevents]
    exact ⟨h, by simp⟩

/-- **A poll** asks for nothing before the clock, and leaves no tick behind its horizon: the clock may
go on as far as that. -/
theorem poll (h : OnTime now s) (horizon : ℚ) :
    (∀ later, later ≤ now ∨ later ≤ horizon → OnTime later (s.act true (.poll horizon)).1) ∧
      ∀ registry, ∀ c ∈ callsOf registry (s.events true (.poll horizon)), c.NotBefore now := by
  -- A sequencer that is on time does not wait for its sounds.
  have hpriming : s.playback ≠ .priming := by
    obtain hidle | hready | ⟨time, -, hticking⟩ := h.course
    · simp [hidle]
    · simp [hready]
    · simp [hticking.playing]
  obtain ⟨hstate, hevents⟩ := act_poll true horizon hpriming
  rw [hstate, hevents]
  -- Without a playback, nothing is due.
  have hrest : s.playback ≠ .playing →
      (∀ later, later ≤ now ∨ later ≤ horizon → OnTime later (s.runDue horizon).1) ∧
        ∀ registry, ∀ c ∈ callsOf registry (s.dueEvents horizon), c.NotBefore now := by
    intro hplaying
    obtain ⟨hdue, hnone⟩ := runDue_of_not_playing (s := s) horizon (by simp [isPlaying, hplaying])
    rw [hdue, hnone]
    refine ⟨fun later _ => ⟨?_, h.tempo, h.sent⟩, by simp⟩
    obtain hidle | hready | ⟨time, -, hticking⟩ := h.course
    · exact .inl hidle
    · exact .inr (.inl hready)
    · exact absurd hticking.playing hplaying
  obtain hidle | hready | ⟨time, htime, hticking⟩ := h.course
  · exact hrest (by simp [hidle])
  · exact hrest (by simp [hready])
  · have hsent : ∀ points, ∀ p ∈ s.sent ++ (s.passOver time points).map (·.tick), 0 ≤ p.tempo := by
      intro points p hp
      obtain hp | hp := List.mem_append.1 hp
      · exact h.sent p hp
      · obtain ⟨q, hq, rfl⟩ := List.mem_map.1 hp
        exact tempo_nonneg_of_mem_pass h.tempo hq
    have htempo := tempoAfter_nonneg h.tempo
    have hcalls := fun points registry c =>
      notBefore_of_mem_passEvents (c := c) htime h.tempo points registry
    -- The playback goes on behind the horizon, or the piece ends and nothing is due any more.
    rcases runDue_cases horizon hticking with ⟨done, rest, hc⟩ | hc
    · rw [hc.state_eq, hc.events_eq]
      constructor
      · intro later hlater
        refine ⟨.inr (.inr ⟨passEnd time done, ?_, hticking.passed done⟩), htempo done, hsent done⟩
        obtain hnow | hhorizon := hlater
        · exact (hnow.trans htime).trans (le_passEnd time done)
        · exact hhorizon.trans hc.not_due.le
      · intro registry c hmem
        refine hcalls done registry c ?_
        rw [passEvents, callsOf_append]
        exact List.mem_append_left _ hmem
    · rw [hc.state_eq, hc.events_eq]
      exact ⟨fun later _ => ⟨.inr (.inl rfl), htempo s.ahead, hsent s.ahead⟩, hcalls s.ahead⟩

/-- **A request** at the clock or later asks for nothing before the clock. -/
protected theorem act (h : OnTime now s) (request : Request ℚ)
    (hrequest : ∀ time, clock? request = some time → now ≤ time) :
    OnTime now (s.act true request).1 ∧
      ∀ registry, ∀ c ∈ callsOf registry (s.events true request), c.NotBefore now := by
  cases request with
  | play start => exact h.play (hrequest start rfl)
  | stop time => exact h.stop (hrequest time rfl)
  | toggle time =>
    have htime : now ≤ time := hrequest time rfl
    -- A toggle is a stop of a playback, and a start otherwise.
    cases hplaying : s.isPlaying with
    | true =>
      have hact : s.act true (.toggle time) = s.act true (.stop time) := by
        simp [Sequencer.act, toggle, hplaying]
      have hevents : s.events true (.toggle time) = s.events true (.stop time) := by
        simp [events, hplaying]
      rw [hact, hevents]
      exact h.stop htime
    | false =>
      have hact : s.act true (.toggle time) = s.act true (.play time) := by
        simp [Sequencer.act, toggle, hplaying]
      have hevents : s.events true (.toggle time) = s.events true (.play time) := by
        simp [events, hplaying]
      rw [hact, hevents]
      exact h.play htime
  | poll horizon => exact (h.poll horizon).imp_left fun hstate => hstate now (.inl le_rfl)
  | toggleMute label =>
    exact ⟨h.of_transport_eq rfl rfl (List.Subset.refl _), by simp [events]⟩
  | seek sectionId step =>
    cases hindex : s.timeline.position? sectionId step with
    | none => simpa [Sequencer.act, seek?, events, hindex] using h
    | some index =>
      refine ⟨?_, by simp [events, hindex, Event.calls]⟩
      simp only [Sequencer.act, seek?, hindex, Option.map_some, Option.getD_some]
      exact h.of_transport_eq rfl rfl (List.nil_subset _)
  | setTimeline timeline =>
    exact ⟨h.of_transport_eq rfl rfl (List.nil_subset _), by simp [events, Event.calls]⟩

end OnTime

end Sequencer

end Gamelan
