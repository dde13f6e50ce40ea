import Gamelan.Proofs.Ensemble.Members
import Gamelan.Proofs.Performance.History

namespace Gamelan

/-!
# Calls that the voices know

A sequencer calls for nothing but the instruments and slots that its registry has for its labels.

* `VoiceCall.Known` — a call for an instrument and a slot of a registry.
* `Sequencer.known_of_mem_event` — the calls of events are known.
* `Sequencer.known_of_mem_run` — the calls of every run are known, whatever the times are.
-/

variable {τ : Type}

/-- A call for something that a registry has. -/
def VoiceCall.Known (registry : Registry) : VoiceCall τ → Prop
  | trigger instrument slot _ => ∃ label symbol, (instrument, slot) ∈ registry.resolve label symbol
  | release instrument _ => ∃ label, ∃ a ∈ registry.members label, a.id = instrument
  | setLevel instrument level => ∃ a ∈ registry.atomics, a.id = instrument ∧ a.level = level
  | cancel _ => True

namespace Sequencer

variable {registry : Registry} {c : VoiceCall τ}

/-- Releases are for known instruments. -/
theorem known_of_mem_releases {label : String} {time : τ}
    (h : c ∈ releases registry label time) : c.Known registry := by
  obtain ⟨a, ha, rfl⟩ := List.mem_map.1 h
  exact ⟨label, a, ha, rfl⟩

theorem known_of_mem_cut {time : τ} (h : c ∈ cut registry time) : c.Known registry := by
  rcases List.mem_cons.1 h with rfl | h
  · trivial
  · obtain ⟨label, -, h⟩ := List.mem_flatMap.1 h
    exact known_of_mem_releases h

/-- An instrument that is struck is a member of the label. -/
theorem known_of_mem_strokes {label : String} {symbol : Char} {time : τ}
    (h : c ∈ strokes registry label symbol time) : c.Known registry := by
  rw [strokes] at h
  split at h
  · exact known_of_mem_releases h
  · obtain ⟨⟨instrument, slot⟩, hresolve, h⟩ := List.mem_flatMap.1 h
    rcases List.mem_cons.1 h with rfl | h
    · obtain ⟨a, ha, hslot⟩ := List.mem_filterMap.1 hresolve
      obtain ⟨slot', -, heq⟩ := Option.map_eq_some_iff.1 hslot
      exact ⟨label, a, ha, congrArg Prod.fst heq⟩
    · obtain rfl := List.mem_singleton.1 h
      exact ⟨label, symbol, hresolve⟩

section
variable [LT τ] [DecidableLT τ]

theorem known_of_mem_stop {now : τ} {s : Sequencer τ} (h : c ∈ calls (s.stop now).2) :
    c.Known s.registry := by
  by_cases hplaying : s.playback = .playing
  · rw [calls_stop now hplaying] at h
    exact known_of_mem_cut h
  · rw [calls_stop_of_ne now hplaying] at h
    cases h

end

section
variable [NatCast τ] [Add τ] [Div τ]

theorem known_of_mem_perform {muted : List String} {tempo time : τ} {a : Action}
    (h : c ∈ calls (perform registry muted tempo time a)) : c.Known registry := by
  rw [perform] at h
  split at h
  · cases h
  · split at h
    · rw [calls_map_call] at h
      exact known_of_mem_strokes h
    · cases h

/-- The calls of an event are known. -/
theorem known_of_mem_event {e : Event τ} (h : c ∈ e.calls registry) : c.Known registry := by
  cases e with
  | levelled =>
    obtain ⟨a, ha, rfl⟩ := List.mem_map.1 h
    exact ⟨a, ha, rfl, rfl⟩
  | played p =>
    rw [Event.calls, Played.calls, calls_flatMap] at h
    obtain ⟨a, -, h⟩ := List.mem_flatMap.1 h
    exact known_of_mem_perform h
  | started now => exact known_of_mem_cut h
  | finished time => exact known_of_mem_cut h
  | stopped now => exact known_of_mem_cut h
  | forgotten => cases h

theorem known_of_mem_callsOf {H : List (Event τ)} (h : c ∈ callsOf registry H) :
    c.Known registry := by
  obtain ⟨e, -, h⟩ := List.mem_flatMap.1 h
  exact known_of_mem_event h

theorem known_of_mem_play {ready : Bool} {now : τ} {s : Sequencer τ}
    (h : c ∈ calls (s.play ready now).2) : c.Known s.registry := by
  rw [calls_play] at h
  exact known_of_mem_callsOf h

variable [BEq τ]

/-- Neither a point nor the end of a playback calls for anything else. -/
theorem known_of_mem_completeTick {time : τ} {s : Sequencer τ}
    (h : c ∈ calls (s.completeTick time).2) : c.Known s.registry := by
  rw [completeTick, tick] at h
  split at h
  · simp only [andThen_snd, calls_halt, setCursor, List.append_nil] at h
    exact known_of_mem_cut h
  · next point hpoint =>
    simp only [andThen_snd, calls_append, List.append_nil, calls_flatMap, calls_followTempo,
      List.nil_append, List.mem_append] at h
    rcases h with h | h
    · obtain ⟨a, -, h⟩ := List.mem_flatMap.1 h
      exact known_of_mem_perform h
    · rw [followTempo_frame, advance] at h
      split at h
      · cases h
      · simp only [andThen_snd, calls_append, calls_halt, setCursor, report, calls_nil,
          calls_notice, List.append_nil] at h
        exact known_of_mem_cut h

variable [LE τ] [DecidableLE τ]

theorem known_of_mem_runDue {horizon : τ} {s : Sequencer τ}
    (h : c ∈ calls (s.runDue horizon).2) : c.Known s.registry := by
  fun_induction runDue horizon s with
  | case1 s hplaying hdue => cases h
  | case2 s hplaying time hdue ticked rest ih =>
    rw [calls_append, List.mem_append] at h
    rcases h with h | h
    · exact known_of_mem_completeTick h
    · rw [← registry_completeTick time s]
      exact ih h
  | case3 s hplaying => cases h

variable [LT τ] [DecidableLT τ]

/-- **Every request calls known instruments only.** -/
theorem known_of_mem_act {ready : Bool} {request : Request τ} {s : Sequencer τ}
    (h : c ∈ calls (s.act ready request).2) : c.Known s.registry := by
  cases request with
  | play now => exact known_of_mem_play h
  | stop now => exact known_of_mem_stop h
  | toggle now =>
    rw [act, toggle] at h
    split at h
    · exact known_of_mem_stop h
    · exact known_of_mem_play h
  | poll horizon =>
    rw [act, poll, andThen_snd, calls_append, List.mem_append] at h
    -- The voices may have been waited for; then the poll sets the levels before it ticks.
    split at h
    · rw [calls_finishPriming] at h
      rcases h with h | h
      · exact known_of_mem_callsOf h
      · rw [← registry_finishPriming ready horizon s]
        exact known_of_mem_runDue h
    · rcases h with h | h
      · cases h
      · exact known_of_mem_runDue h
  | toggleMute label => cases h
  | seek sectionId step => cases h
  | setTimeline timeline => cases h

/-- **A sequencer calls only for what its registry has.** -/
theorem known_of_mem_run {steps : List (Bool × Request τ)} {s : Sequencer τ}
    (h : c ∈ calls (run steps s).2) : c.Known s.registry := by
  induction steps generalizing s with
  | nil => cases h
  | cons q rest ih =>
    rw [run, andThen_snd, calls_append, List.mem_append] at h
    rcases h with h | h
    · exact known_of_mem_act h
    · rw [← registry_act q.1 q.2 s]
      exact ih h

end

end Sequencer

end Gamelan
