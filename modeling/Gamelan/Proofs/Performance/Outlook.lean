import Gamelan.Proofs.Performance.FullPass

namespace Gamelan

/-!
# What is to come

A sequencer that is only polled from now on has a certain future: it plays the pass ahead and ends.
Polls split these events between them, and none plays what is after its horizon.

* `VoiceCall.IsAfter` — a call for an instant after another one.
* `Outlook` — the events to come if a sequencer is only polled.
* `Outlook.poll` — a poll takes some events off the front, and those left are after its horizon.
-/

/-- A call for an instant after another one.  Levels are set at once. -/
def VoiceCall.IsAfter (time : ℚ) : VoiceCall ℚ → Prop
  | .trigger _ _ x => time < x
  | .release _ x => time < x
  | .cancel after => time < after
  | .setLevel .. => False

namespace Sequencer

/-! ### Calls after an instant -/

/-- A cut after an instant makes its calls after it. -/
theorem isAfter_of_mem_cut {registry : Registry} {time cutTime : ℚ} (h : time < cutTime)
    {c : VoiceCall ℚ} (hc : c ∈ cut registry cutTime) : c.IsAfter time := by
  rcases List.mem_cons.1 hc with rfl | hc
  · exact h
  · obtain ⟨label, -, hc⟩ := List.mem_flatMap.1 hc
    obtain ⟨a, -, rfl⟩ := List.mem_map.1 hc
    exact h

/-- The calls of a stroke are not before its tick. -/
theorem isAfter_of_mem_strokeCalls {registry : Registry} {muted : List String}
    {tempo time tickTime : ℚ} {a : Action} (h : time < tickTime) (htempo : 0 ≤ tempo)
    {c : VoiceCall ℚ} (hc : c ∈ strokeCalls registry muted tempo tickTime a) : c.IsAfter time := by
  -- A delayed stroke sounds half a pulse after the tick, and its release is delayed with it.
  have hdelay : 0 ≤ 15 / 2 / tempo := by positivity
  have hsounding : time <
      if (articulate a.label a.symbol).delayed then tickTime + 15 / 2 / tempo else tickTime := by
    split <;> linarith
  rw [strokeCalls] at hc
  split at hc
  · cases hc
  · dsimp only at hc
    split at hc
    · obtain ⟨b, -, rfl⟩ := List.mem_map.1 hc
      exact hsounding
    · obtain ⟨slot, -, hc⟩ := List.mem_flatMap.1 hc
      simp only [List.mem_cons, List.not_mem_nil, or_false] at hc
      rcases hc with rfl | rfl
      · exact hsounding
      · exact hsounding

/-- The calls of a point come at its tick or later, if its tempo is not negative. -/
theorem Played.isAfter_of_mem_calls {registry : Registry} {p : Played ℚ} {time : ℚ}
    (h : time < p.tick.time) (htempo : 0 ≤ p.tick.tempo) {c : VoiceCall ℚ}
    (hc : c ∈ p.calls registry) : c.IsAfter time := by
  rw [Played.calls_eq] at hc
  obtain ⟨a, -, hc⟩ := List.mem_flatMap.1 hc
  exact isAfter_of_mem_strokeCalls h htempo hc

/-! ### Tempos of a pass -/

/-- No tempo of a point is negative. -/
theorem tempoAfter_nonneg {tempo : ℚ} (h : 0 ≤ tempo) (points : List (Point ℚ)) :
    0 ≤ tempoAfter tempo points := by
  induction points generalizing tempo with
  | nil => exact h
  | cons p rest ih => exact ih (Nat.cast_nonneg p.tempo)

/-- So no tick of a pass has a negative tempo, if the first one has none. -/
theorem tempo_nonneg_of_mem_pass {muted : List String} {index : Nat} {time tempo : ℚ}
    {points : List (Point ℚ)} (h : 0 ≤ tempo) {p : Played ℚ}
    (hp : p ∈ pass muted index time tempo points) : 0 ≤ p.tick.tempo := by
  induction points generalizing index time tempo with
  | nil => simp [pass] at hp
  | cons q rest ih =>
    rw [pass, List.mem_cons] at hp
    rcases hp with rfl | hp
    · exact h
    · exact ih (Nat.cast_nonneg q.tempo) hp

/-! ### The events to come -/

/-- The events of a playback that plays some points, the first of them at `time`, and ends. -/
def passEvents (time : ℚ) (points : List (Point ℚ)) (s : Sequencer ℚ) : List (Event ℚ) :=
  (s.passOver time points).map .played ++ [.finished (passEnd time points)]

/-- The events to come if a sequencer is only polled from now on. -/
inductive Outlook : Sequencer ℚ → List (Event ℚ) → Prop where
  | atRest {s : Sequencer ℚ} (h : s.playback = .ready) : Outlook s []
  | underWay {s : Sequencer ℚ} {time : ℚ} (h : Ticking time s) (htempo : 0 ≤ s.transport.tempo) :
      Outlook s (s.passEvents time s.ahead)

/-- A sequencer whose events to come are known is not idle. -/
theorem Outlook.ne_idle {s : Sequencer ℚ} {E : List (Event ℚ)} (h : Outlook s E) :
    s.playback ≠ .idle := by
  cases h with
  | atRest h => simp [h]
  | underWay h => simp [h.playing]

theorem Outlook.ne_priming {s : Sequencer ℚ} {E : List (Event ℚ)} (h : Outlook s E) :
    s.playback ≠ .priming := by
  cases h with
  | atRest h => simp [h]
  | underWay h => simp [h.playing]

/-- The calls of a pass are after whatever is before its start. -/
theorem isAfter_of_mem_passEvents {s : Sequencer ℚ} {horizon time : ℚ} (h : horizon < time)
    (htempo : 0 ≤ s.transport.tempo) (points : List (Point ℚ)) (registry : Registry)
    {c : VoiceCall ℚ} (hc : c ∈ callsOf registry (s.passEvents time points)) :
    c.IsAfter horizon := by
  rw [passEvents, callsOf_append, List.mem_append, callsOf_map_played] at hc
  rcases hc with hc | hc
  · obtain ⟨p, hp, hc⟩ := List.mem_flatMap.1 hc
    have hstart := (le_time_of_mem_pass _ hp).1
    exact Played.isAfter_of_mem_calls (by linarith) (tempo_nonneg_of_mem_pass htempo hp) hc
  · have hend := le_passEnd time points
    rw [callsOf_cons, callsOf_nil, List.append_nil] at hc
    exact isAfter_of_mem_cut (by linarith) hc

/-- **Polls split what is to come.**  The events of a poll are the first of those to come, and the
calls of the others are after its horizon. -/
theorem Outlook.poll {s : Sequencer ℚ} {E : List (Event ℚ)} (h : Outlook s E) (ready : Bool)
    (horizon : ℚ) : ∃ later, E = s.events ready (.poll horizon) ++ later ∧
      Outlook (s.act ready (.poll horizon)).1 later ∧
      ∀ registry, ∀ c ∈ callsOf registry later, c.IsAfter horizon := by
  -- The answer of the voices counts only while priming, so the poll just runs what is due.
  obtain ⟨hstate, hevents⟩ := act_poll ready horizon h.ne_priming
  rw [hstate, hevents]
  cases h with
  | atRest h =>
    obtain ⟨hdue, hnone⟩ := runDue_of_not_playing (s := s) horizon (by rw [isPlaying, h]; rfl)
    rw [hdue, hnone]
    exact ⟨[], rfl, .atRest h, by simp⟩
  | @underWay time h htempo =>
    rcases runDue_cases horizon h with ⟨done, rest, hc⟩ | hc
    · -- The pass goes on from where the poll has brought it.
      have hticking := h.passed done
      have htempo' : 0 ≤ (s.passed time done).transport.tempo := tempoAfter_nonneg htempo done
      rw [hc.state_eq, hc.events_eq]
      refine ⟨_, ?_, .underWay hticking htempo', fun registry c => ?_⟩
      · rw [ahead_passed time hc.ahead_eq, passEvents, passEvents, hc.ahead_eq, passOver_append,
          passEnd_append, List.map_append, List.append_assoc]
      · exact isAfter_of_mem_passEvents hc.not_due htempo' _ registry
    · rw [hc.state_eq, hc.events_eq]
      exact ⟨[], (List.append_nil _).symm, .atRest rfl, by simp⟩

end Sequencer

end Gamelan
