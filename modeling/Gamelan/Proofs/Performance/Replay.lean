import Gamelan.Proofs.Performance.LateStroke
import Gamelan.Proofs.Performance.Silence

namespace Gamelan

/-!
# Playing a piece again

The end of a piece takes the cursor back to the start, but not the tempo.  A second pass therefore
makes the calls of the first one, later, except that the accents of the first point are late by the
tempo of the last one.

* `VoiceCall.later` — the same call, made later.
* `Sequencer.passCalls` — the calls of a pass with its sweeps.
* `Sequencer.Played.calls_atTempo_eq_iff` — when a tempo makes a difference to a point.
* `Sequencer.replay_repeats_iff` — when a second pass repeats the first.
-/

namespace VoiceCall

/-- The same call, for a later time. -/
def later (delay : ℚ) : VoiceCall ℚ → VoiceCall ℚ
  | trigger instrument slot time => trigger instrument slot (time + delay)
  | release instrument time => release instrument (time + delay)
  | setLevel instrument level => setLevel instrument level
  | cancel after => cancel (after + delay)

/-- Whether a call is for a time. -/
def isTimed : VoiceCall ℚ → Bool
  | setLevel .. => false
  | _ => true

/-- Calls that are the same later are the same now. -/
theorem later_injective (delay : ℚ) : Function.Injective (later delay) := by
  intro c c' h
  cases c <;> cases c' <;> simp_all [later]

end VoiceCall

namespace Sequencer

open Gamelan.Text

/-! ### The same calls, later -/

/-- Later releases are the same ones, later. -/
theorem releases_later (registry : Registry) (label : String) (time delay : ℚ) :
    releases registry label (time + delay) =
      (releases registry label time).map (VoiceCall.later delay) := by
  rw [releases, releases, List.map_map]
  rfl

theorem cut_later (registry : Registry) (time delay : ℚ) :
    cut registry (time + delay) = (cut registry time).map (VoiceCall.later delay) := by
  rw [cut, cut, List.map_cons, sweep, sweep, List.map_flatMap]
  simp only [releases_later]
  rfl

theorem strokeCalls_later (registry : Registry) (muted : List String) (tempo time delay : ℚ)
    (a : Action) : strokeCalls registry muted tempo (time + delay) a =
      (strokeCalls registry muted tempo time a).map (VoiceCall.later delay) := by
  have hx : (if (articulate a.label a.symbol).delayed then time + delay + 15 / 2 / tempo
      else time + delay) =
      (if (articulate a.label a.symbol).delayed then time + 15 / 2 / tempo else time) + delay := by
    split
    · rw [add_right_comm]
    · rfl
  rw [strokeCalls, strokeCalls]
  split
  · rfl
  · dsimp only
    rw [hx]
    split
    · rw [List.map_map]
      rfl
    · rw [List.map_flatMap]
      rfl

/-- A point that is played later makes the same calls, later. -/
theorem Played.calls_later (registry : Registry) (p : Played ℚ) (delay : ℚ) :
    (p.later delay).calls registry = (p.calls registry).map (VoiceCall.later delay) := by
  rw [Played.calls_eq, Played.calls_eq, List.map_flatMap]
  exact List.flatMap_congr fun a _ => strokeCalls_later registry _ _ _ delay a

/-- A pass that starts later ends as much later. -/
theorem passEnd_later (time delay : ℚ) (points : List (Point ℚ)) :
    passEnd (time + delay) points = passEnd time points + delay := by
  induction points generalizing time with
  | nil => rfl
  | cons p rest ih => rw [passEnd, passEnd, add_right_comm, ih]

/-- The calls of a pass from the start of a piece: a sweep, its points and another sweep. -/
def passCalls (registry : Registry) (muted : List String) (time tempo : ℚ)
    (points : List (Point ℚ)) : List (VoiceCall ℚ) :=
  cut registry time ++ (pass muted 0 time tempo points).flatMap (Played.calls registry) ++
    cut registry (passEnd time points)

/-- A pass that starts later makes its calls later. -/
theorem passCalls_later (registry : Registry) (muted : List String) (time delay tempo : ℚ)
    (points : List (Point ℚ)) : passCalls registry muted (time + delay) tempo points =
      (passCalls registry muted time tempo points).map (VoiceCall.later delay) := by
  rw [passCalls, passCalls, cut_later, pass_later, passEnd_later, cut_later, List.map_append,
    List.map_append, List.flatMap_map, List.map_flatMap]
  simp only [Played.calls_later]

/-- All calls of a cut are for its time. -/
theorem isTimed_of_mem_cut {registry : Registry} {time : ℚ} {c : VoiceCall ℚ}
    (h : c ∈ cut registry time) : c.isTimed = true := by
  rcases List.mem_cons.1 h with rfl | h
  · rfl
  · obtain ⟨label, -, h⟩ := List.mem_flatMap.1 h
    obtain ⟨a, -, rfl⟩ := List.mem_map.1 h
    rfl

/-- A pass sets no levels. -/
theorem filter_isTimed_passCalls (registry : Registry) (muted : List String) (time tempo : ℚ)
    (points : List (Point ℚ)) :
    (passCalls registry muted time tempo points).filter VoiceCall.isTimed =
      passCalls registry muted time tempo points := by
  refine List.filter_eq_self.2 fun c hc => ?_
  rcases List.mem_append.1 hc with hc | hc
  · rcases List.mem_append.1 hc with hc | hc
    · exact isTimed_of_mem_cut hc
    · obtain ⟨p, -, hc⟩ := List.mem_flatMap.1 hc
      rcases Played.calls_cases hc with ⟨_, _, rfl⟩ | ⟨_, _, _, rfl, -⟩ <;> rfl
  · exact isTimed_of_mem_cut hc

/-! ### What the tempo before a point does -/

/-- The same point, played at another tempo. -/
def Played.atTempo (tempo : ℚ) (p : Played ℚ) : Played ℚ :=
  { p with tick := { p.tick with tempo := tempo } }

/-- The calls of an action do not depend on the tempo, unless it is an accent that sounds. -/
theorem strokeCalls_congr_tempo {registry : Registry} {muted : List String} {a : Action}
    (h : ¬(a.label ∉ muted ∧ isAccented a.label a.symbol = true ∧
      registry.resolve a.label (baseLetter a.symbol) ≠ [])) (tempo tempo' time : ℚ) :
    strokeCalls registry muted tempo time a = strokeCalls registry muted tempo' time a := by
  rw [strokeCalls, strokeCalls]
  split
  · rfl
  · next hsounds =>
    have hmuted : a.label ∉ muted := fun hmem => hsounds (.inl hmem)
    by_cases haccented : isAccented a.label a.symbol = true
    · have hresolve : registry.resolve a.label (baseLetter a.symbol) = [] := by
        by_contra hne
        exact h ⟨hmuted, haccented, hne⟩
      simp [articulate, haccented, baseLetter_ne_muteSymbol haccented, hresolve]
    · simp [articulate, haccented]

/-- A tempo makes a difference to a point just if it has a late stroke. -/
theorem Played.calls_atTempo_eq_iff {registry : Registry} {p : Played ℚ} {tempo tempo' : ℚ}
    (htempo' : 0 < tempo') :
    (p.atTempo tempo).calls registry = (p.atTempo tempo').calls registry ↔
      tempo = tempo' ∨ ¬p.HasLateStroke registry := by
  constructor
  · intro h
    refine or_iff_not_imp_right.2 fun hlate => ?_
    -- The late stroke at one tempo is among the calls at the other one.
    have hlate' : (p.atTempo tempo').HasLateStroke registry := not_not.1 hlate
    obtain ⟨instrument, slot, htrigger⟩ := hlate'.exists_trigger
    rw [← h] at htrigger
    have hdelay : 0 < 15 / 2 / tempo' := by positivity
    rcases Played.time_of_trigger htrigger with heq | ⟨-, heq⟩
    · exact absurd (add_eq_left.1 heq) hdelay.ne'
    · have hdelays : 15 / 2 * tempo'⁻¹ = 15 / 2 * tempo⁻¹ := by
        rw [← div_eq_mul_inv, ← div_eq_mul_inv]
        exact add_left_cancel heq
      exact (inv_injective (mul_left_cancel₀ (by norm_num) hdelays)).symm
  · rintro (rfl | hlate)
    · rfl
    · rw [Played.calls_eq, Played.calls_eq]
      refine List.flatMap_congr fun a ha => strokeCalls_congr_tempo (fun hsounds => ?_) _ _ _
      exact hlate ⟨a, ha, hsounds⟩

/-- Only the first point of a pass is played at the tempo before it. -/
theorem passCalls_eq_iff {registry : Registry} {muted : List String} {time tempo tempo' : ℚ}
    (htempo' : 0 < tempo') (points : List (Point ℚ)) :
    passCalls registry muted time tempo points = passCalls registry muted time tempo' points ↔
      tempo = tempo' ∨ ∀ p ∈ points.head?,
        ¬Played.HasLateStroke registry ⟨⟨0, time, tempo'⟩, p, muted⟩ := by
  cases points with
  | nil => simp [passCalls, pass]
  | cons p rest =>
    have hfirst : Played.calls registry ⟨⟨0, time, tempo⟩, p, muted⟩ =
        Played.calls registry ⟨⟨0, time, tempo'⟩, p, muted⟩ ↔ _ :=
      Played.calls_atTempo_eq_iff (p := ⟨⟨0, time, tempo'⟩, p, muted⟩) htempo'
    simp only [passCalls, pass, List.flatMap_cons, List.append_assoc, List.append_cancel_left_eq,
      List.append_cancel_right_eq, List.head?_cons, Option.mem_some_iff, forall_eq']
    exact hfirst

/-! ### Two passes -/

/-- Polls that end a playback look as far as its last tick. -/
theorem exists_reach_of_ended {polls : List (Bool × ℚ)} {time : ℚ} {s : Sequencer ℚ}
    (h : Ticking time s) (hended : (run (pollRequests polls) s).1.playback = .ready) :
    ∃ q ∈ polls, time ≤ q.2 ∧ ∀ p ∈ s.passOver time s.ahead, p.tick.time ≤ q.2 := by
  induction polls generalizing time s with
  | nil => cases h.playing.symm.trans hended
  | cons q polls ih =>
    rw [pollRequests, List.map_cons, run, andThen_fst,
      (act_poll q.1 q.2 (s := s) (by rw [h.playing]; decide)).1] at hended
    rcases runDue_cases q.2 h with ⟨done, rest, hc⟩ | hc
    · -- A later poll ends what this one leaves, which is behind all that this one plays.
      rw [hc.state_eq] at hended
      obtain ⟨q', hq', htime, hrest⟩ := ih (h.passed done) hended
      rw [ahead_passed time hc.ahead_eq] at hrest
      refine ⟨q', List.mem_cons_of_mem _ hq', (le_passEnd time done).trans htime, ?_⟩
      rw [hc.ahead_eq, passOver_append]
      intro p hp
      rcases List.mem_append.1 hp with hp | hp
      · exact (le_time_of_mem_pass s.muted hp).2.trans htime
      · exact hrest p hp
    · exact ⟨q, List.mem_cons_self .., hc.start_due, hc.due⟩

/-- A fresh sequencer with some labels muted. -/
def fresh (timeline : Timeline ℚ) (registry : Registry) (muted : List String) : Sequencer ℚ :=
  { new timeline registry with muted := muted }

/-- The calls of a pass from the start of a piece, out of rest. -/
theorem calls_pass_of_ready {s : Sequencer ℚ} {ready : Bool} {time : ℚ} {polls : List (Bool × ℚ)}
    (hready : s.playback = .ready) (hcursor : s.cursor = 0)
    (hended : (run ((ready, .play time) :: pollRequests polls) s).1.playback = .ready) :
    calls (run ((ready, .play time) :: pollRequests polls) s).2 =
      passCalls s.registry s.muted time s.transport.tempo s.timeline.points := by
  rw [run, andThen_fst, (act_play_of_ready ready time hready).1] at hended
  have hreach := exists_reach_of_ended (ticking_started time s) hended
  have hahead : s.ahead = s.timeline.points := by rw [ahead, hcursor, List.drop_zero]
  rw [calls_run, (history_of_full_pass s ready time polls hready hreach).1, callsOf_append,
    callsOf_cons, callsOf_map_played, passOver, hahead, hcursor]
  simp [passCalls, Event.calls]

/-- The first pass of a piece, and the state that it leaves. -/
theorem calls_first_pass {timeline : Timeline ℚ} {registry : Registry} {muted : List String}
    {time : ℚ} {polls : List (Bool × ℚ)}
    (hended : (run ((true, .play time) :: pollRequests polls)
      (fresh timeline registry muted)).1.playback = .ready) :
    let s := fresh timeline registry muted
    let outcome := run ((true, .play time) :: pollRequests polls) s
    calls outcome.2 = registry.atomics.map (fun a => .setLevel a.id a.level) ++
        passCalls registry muted time 120 timeline.points ∧
      outcome.1 = (s.started time).ended time timeline.points := by
  intro s outcome
  obtain ⟨hact, hevents⟩ := act_play_of_idle time (s := s) rfl
  rw [run, andThen_fst, hact] at hended
  -- The polls end the playback, so together they are a full pass.
  obtain ⟨hhistory, hstate⟩ := history_polls polls (ticking_started time s)
    (exists_reach_of_ended (ticking_started time s) hended)
  refine ⟨?_, ?_⟩
  · have htempo : ((defaultTempo : Nat) : ℚ) = 120 := by norm_num [defaultTempo]
    have hpass : (s.started time).passOver time (s.started time).ahead =
        pass muted 0 time 120 timeline.points := by
      rw [← htempo]
      rfl
    show calls (run _ s).2 = _
    rw [calls_run, history, hevents, hact,
      show started time { s with startPending := false } = s.started time from rfl, hhistory, hpass,
      callsOf_append, callsOf_append, callsOf_map_played]
    simp [passCalls, Event.calls, s, fresh, new, started, ahead]
  · show (run _ s).1 = _
    rw [run, andThen_fst, hact]
    exact hstate

/-- **A second pass repeats the first one, but for the tempo at its start.**  It makes the calls
that the first pass would have made at the tempo of the last point, each later by as much as it
starts later.  These are the calls of the first pass, levels apart, just if that tempo is the one
that the first pass started at, or no late stroke is on the first point. -/
theorem replay_repeats_iff (timeline : Timeline ℚ) (registry : Registry) (muted : List String)
    (t₁ t₂ : ℚ) (ready : Bool) (polls₁ polls₂ : List (Bool × ℚ))
    (h₁ : (run ((true, .play t₁) :: pollRequests polls₁)
      (fresh timeline registry muted)).1.playback = .ready)
    (h₂ : (run ((ready, .play t₂) :: pollRequests polls₂)
      (run ((true, .play t₁) :: pollRequests polls₁)
        (fresh timeline registry muted)).1).1.playback = .ready) :
    let points := timeline.points
    let first := run ((true, .play t₁) :: pollRequests polls₁) (fresh timeline registry muted)
    let second := run ((ready, .play t₂) :: pollRequests polls₂) first.1
    (calls first.2).filter VoiceCall.isTimed = passCalls registry muted t₁ 120 points ∧
      calls second.2 = (passCalls registry muted t₁ (tempoAfter 120 points) points).map
        (VoiceCall.later (t₂ - t₁)) ∧
      (calls second.2 =
          ((calls first.2).filter VoiceCall.isTimed).map (VoiceCall.later (t₂ - t₁)) ↔
        tempoAfter 120 points = 120 ∨ ∀ p ∈ points.head?,
          ¬Played.HasLateStroke registry ⟨⟨0, t₁, 120⟩, p, muted⟩) := by
  intro points first second
  obtain ⟨hcalls, hstate⟩ := calls_first_pass h₁
  have hstate : first.1 = _ := hstate
  have hfirst : (calls first.2).filter VoiceCall.isTimed =
      passCalls registry muted t₁ 120 points := by
    rw [show calls first.2 = _ from hcalls, List.filter_append, filter_isTimed_passCalls,
      List.filter_eq_nil_iff.2, List.nil_append]
    intro c hc
    obtain ⟨a, -, rfl⟩ := List.mem_map.1 hc
    exact Bool.false_ne_true
  have hsecond : calls second.2 = (passCalls registry muted t₁ (tempoAfter 120 points) points).map
      (VoiceCall.later (t₂ - t₁)) := by
    have htempo : first.1.transport.tempo = tempoAfter 120 points := by
      rw [hstate]
      show tempoAfter ((defaultTempo : Nat) : ℚ) points = _
      norm_num [defaultTempo]
    have hframe : first.1.playback = .ready ∧ first.1.cursor = 0 ∧ first.1.registry = registry ∧
        first.1.muted = muted ∧ first.1.timeline = timeline := by
      rw [hstate]
      exact ⟨rfl, rfl, rfl, rfl, rfl⟩
    obtain ⟨hready, hcursor, hregistry, hmuted, htimeline⟩ := hframe
    have hpass := calls_pass_of_ready hready hcursor h₂
    rw [hregistry, hmuted, htempo, htimeline] at hpass
    rw [← passCalls_later, add_sub_cancel]
    exact hpass
  refine ⟨hfirst, hsecond, ?_⟩
  -- Both are later than a pass from `t₁` by the same delay, so it is these passes that count.
  rw [hsecond, hfirst, (List.map_injective_iff.2 (VoiceCall.later_injective _)).eq_iff]
  exact passCalls_eq_iff (by norm_num) points

/-- The short piece ends at the tempo that sequencers start at, so a second pass repeats its accent
with the rest. -/
theorem replay_repeats_iff_shortPiece :
    let first := run ((true, .play 1) :: pollRequests [(true, 5)])
      (fresh (.ofScore shortPiece) duo [])
    let second := run ((true, .play 7) :: pollRequests [(true, 9)]) first.1
    first.1.playback = .ready ∧ second.1.playback = .ready ∧
      calls second.2 = ((calls first.2).filter VoiceCall.isTimed).map (VoiceCall.later (7 - 1)) := by
  have h₁ : (run ((true, .play 1) :: pollRequests [(true, 5)])
      (fresh (.ofScore shortPiece) duo [])).1.playback = .ready := by cbv
  have h₂ : (run ((true, .play 7) :: pollRequests [(true, 9)])
      (run ((true, .play 1) :: pollRequests [(true, 5)])
        (fresh (.ofScore shortPiece) duo [])).1).1.playback = .ready := by cbv
  exact ⟨h₁, h₂, (replay_repeats_iff (.ofScore shortPiece) duo [] 1 7 true [(true, 5)]
    [(true, 9)] h₁ h₂).2.2.2 (.inl (by cbv))⟩

/-- A piece with an accent on its first point and another tempo at its end. -/
def quickeningPiece : Sequencer ℚ :=
  fresh (.ofScore ⟨"", "", [⟨0, "A", 120, [⟨"r1", ['É']⟩]⟩, ⟨1, "B", 240, [⟨"r1", ['E']⟩]⟩]⟩) duo []

/-- **A second pass may differ from the first**: the accent of the first point comes earlier, by the
quicker tempo of the last one. -/
theorem accent_moved_in_second_pass :
    let first := run [(true, .play 0), (true, .poll 10)] quickeningPiece
    let second := run [(true, .play 20), (true, .poll 30)] first.1
    first.1.playback = .ready ∧ first.1.cursor = 0 ∧ second.1.playback = .ready ∧
      calls second.2 ≠ ((calls first.2).filter VoiceCall.isTimed).map (VoiceCall.later (20 - 0)) := by
  have hrest : (run [(true, .play 0), (true, .poll 10)] quickeningPiece).1.playback = .ready ∧
      (run [(true, .play 0), (true, .poll 10)] quickeningPiece).1.cursor = 0 ∧
      (run [(true, .play 20), (true, .poll 30)]
        (run [(true, .play 0), (true, .poll 10)] quickeningPiece).1).1.playback = .ready :=
    ⟨by cbv, by cbv, by cbv⟩
  have hsecond : (calls (run [(true, .play 20), (true, .poll 30)]
      (run [(true, .play 0), (true, .poll 10)] quickeningPiece).1).2).filterMap
        VoiceCall.trigger? = [("r1", 0, 641 / 32), ("r1", 0, 161 / 8)] := by cbv
  have hlater : (((calls (run [(true, .play 0), (true, .poll 10)] quickeningPiece).2).filter
      VoiceCall.isTimed).map (VoiceCall.later (20 - 0))).filterMap
        VoiceCall.trigger? = [("r1", 0, 321 / 16), ("r1", 0, 161 / 8)] := by cbv
  refine ⟨hrest.1, hrest.2.1, hrest.2.2, fun heq => ?_⟩
  have htriggers := congrArg (List.filterMap VoiceCall.trigger?) heq
  rw [hsecond, hlater] at htriggers
  norm_num at htriggers

end Sequencer

end Gamelan
