import Gamelan.Proofs.Performance.Course
import Gamelan.Proofs.Performance.FullPass

namespace Gamelan

/-!
# Late strokes and stops

A stop cuts twice: the voices forget what they were to do after it, and the sequencer takes back the
points whose ticks are after it.  The two agree on all strokes that are made on their ticks.  An
accented stroke is made later than its tick, and a stop between the two loses it.

* `Played.HasLateStroke` — the points with such a stroke.
* `Played.time_of_mem_calls` — no other call of a point is off its tick.
* `stop_loses_only_late_strokes` — what a stop keeps, takes back and loses.
-/

/-- When a stroke or a release is made. -/
def VoiceCall.time? {τ : Type} : VoiceCall τ → Option τ
  | trigger _ _ time => some time
  | release _ time => some time
  | _ => none

namespace Sequencer

open Gamelan.Text

/-! ### When strokes are made -/

/-- Without their accents, the accented symbols are plain letters. -/
theorem map_baseLetter_accentedSymbols : accentedSymbols.map baseLetter =
    ['I', 'O', 'E', 'U', 'A', 'i', 'o', 'e', 'u', 'a', 'c'] := by
  cbv

/-- An accented symbol is not a mute symbol in disguise. -/
theorem baseLetter_ne_muteSymbol {label : String} {symbol : Char}
    (h : isAccented label symbol = true) : baseLetter symbol ≠ muteSymbol := by
  have hmem : symbol ∈ accentedSymbols := List.contains_iff_mem.1 (Bool.and_eq_true_iff.1 h).2
  have hletter := List.mem_map_of_mem (f := baseLetter) hmem
  rw [map_baseLetter_accentedSymbols] at hletter
  intro hmute
  -- None of the letters is a dot.
  rw [hmute] at hletter
  revert hletter
  decide

/-- A label that a symbol is played on is known. -/
theorem contains_of_resolve {registry : Registry} {label : String} {symbol : Char}
    (h : registry.resolve label symbol ≠ []) : registry.contains label = true := by
  rw [Registry.contains]
  cases hplace : registry.place? label with
  | none => exact absurd (by simp [Registry.resolve, Registry.members, Registry.get?, hplace]) h
  | some place => rfl

/-- The triggers of an action. -/
theorem trigger_mem_strokeCalls {registry : Registry} {muted : List String} {tempo time x : ℚ}
    {a : Action} {instrument : String} {slot : Slot} :
    .trigger instrument slot x ∈ strokeCalls registry muted tempo time a ↔
      a.label ∉ muted ∧ (articulate a.label a.symbol).symbol ≠ muteSymbol ∧
        (instrument, slot) ∈ registry.resolve a.label (articulate a.label a.symbol).symbol ∧
        x = if (articulate a.label a.symbol).delayed then time + 15 / 2 / tempo else time := by
  rw [strokeCalls]
  split
  · next h =>
    -- No call at all: the label is muted, or nobody answers to it.
    refine iff_of_false List.not_mem_nil ?_
    rintro ⟨hmuted, -, hresolve, -⟩
    exact h.elim hmuted (absurd (contains_of_resolve (List.ne_nil_of_mem hresolve)))
  · next h =>
    have hmuted : a.label ∉ muted := fun hmem => h (.inl hmem)
    dsimp only
    split
    · next hmute => simp [hmute]
    · next hmute =>
      simp only [List.mem_flatMap, List.mem_cons, List.not_mem_nil, or_false, reduceCtorEq,
        false_or, VoiceCall.trigger.injEq, Prod.exists]
      constructor
      · rintro ⟨_, _, hresolve, rfl, rfl, hx⟩
        exact ⟨hmuted, hmute, hresolve, hx⟩
      · rintro ⟨-, -, hresolve, hx⟩
        exact ⟨_, _, hresolve, rfl, rfl, hx⟩

/-- A point with a late stroke: an accented symbol that sounds. -/
def Played.HasLateStroke (registry : Registry) (p : Played ℚ) : Prop :=
  ∃ a ∈ p.point.actions, a.label ∉ p.muted ∧ isAccented a.label a.symbol = true ∧
    registry.resolve a.label (baseLetter a.symbol) ≠ []

/-- The strokes of a point are those of its actions. -/
theorem Played.trigger_mem_calls {registry : Registry} {p : Played ℚ} {instrument : String}
    {slot : Slot} {x : ℚ} :
    .trigger instrument slot x ∈ p.calls registry ↔ ∃ a ∈ p.point.actions,
      .trigger instrument slot x ∈
        strokeCalls registry p.muted p.tick.tempo p.tick.time a := by
  rw [Played.calls_eq, List.mem_flatMap]

/-- A call of a point is made on its tick, or it belongs to a late stroke. -/
theorem Played.time_of_mem_calls {registry : Registry} {p : Played ℚ} {c : VoiceCall ℚ}
    (hc : c ∈ p.calls registry) : ∃ time, c.time? = some time ∧
      (time = p.tick.time ∨
        p.HasLateStroke registry ∧ time = p.tick.time + 15 / 2 / p.tick.tempo) := by
  rw [Played.calls_eq] at hc
  obtain ⟨a, ha, hc⟩ := List.mem_flatMap.1 hc
  rw [strokeCalls] at hc
  split at hc
  · cases hc
  · next hsounds =>
    have hmuted : a.label ∉ p.muted := fun hmem => hsounds (.inl hmem)
    dsimp only at hc
    -- With an accent, the release and the trigger of each member are late; without one, nothing is.
    by_cases haccented : isAccented a.label a.symbol = true
    · simp only [articulate, haccented, if_true, baseLetter_ne_muteSymbol haccented,
        if_false] at hc
      obtain ⟨⟨instrument, slot⟩, hresolve, hc⟩ := List.mem_flatMap.1 hc
      have hlate : p.HasLateStroke registry :=
        ⟨a, ha, hmuted, haccented, List.ne_nil_of_mem hresolve⟩
      simp only [List.mem_cons, List.not_mem_nil, or_false] at hc
      rcases hc with rfl | rfl
      · exact ⟨_, rfl, .inr ⟨hlate, rfl⟩⟩
      · exact ⟨_, rfl, .inr ⟨hlate, rfl⟩⟩
    · simp only [articulate, haccented, Bool.false_eq_true, if_false] at hc
      split at hc
      · obtain ⟨member, -, rfl⟩ := List.mem_map.1 hc
        exact ⟨_, rfl, .inl rfl⟩
      · obtain ⟨⟨instrument, slot⟩, -, hc⟩ := List.mem_flatMap.1 hc
        simp only [List.mem_cons, List.not_mem_nil, or_false] at hc
        rcases hc with rfl | rfl
        · exact ⟨_, rfl, .inl rfl⟩
        · exact ⟨_, rfl, .inl rfl⟩

/-- A stroke is made on its tick, or it is a late one. -/
theorem Played.time_of_trigger {registry : Registry} {p : Played ℚ} {instrument : String}
    {slot : Slot} {x : ℚ} (h : .trigger instrument slot x ∈ p.calls registry) :
    x = p.tick.time ∨ p.HasLateStroke registry ∧ x = p.tick.time + 15 / 2 / p.tick.tempo := by
  obtain ⟨time, htime, hcase⟩ := Played.time_of_mem_calls h
  obtain rfl : x = time := Option.some.inj htime
  exact hcase

/-- A point with a late stroke strikes half a pulse after its tick. -/
theorem Played.HasLateStroke.exists_trigger {registry : Registry} {p : Played ℚ}
    (h : p.HasLateStroke registry) : ∃ instrument slot,
      .trigger instrument slot (p.tick.time + 15 / 2 / p.tick.tempo) ∈ p.calls registry := by
  obtain ⟨a, ha, hmuted, haccented, hresolve⟩ := h
  obtain ⟨⟨instrument, slot⟩, hmem⟩ := List.exists_mem_of_ne_nil _ hresolve
  refine ⟨instrument, slot, Played.trigger_mem_calls.2 ⟨a, ha, trigger_mem_strokeCalls.2 ?_⟩⟩
  have harticulate : articulate a.label a.symbol = ⟨baseLetter a.symbol, true⟩ :=
    if_pos haccented
  rw [harticulate]
  exact ⟨hmuted, baseLetter_ne_muteSymbol haccented, hmem, rfl⟩

/-- The strokes of a point that was due are made by an instant, unless a late one is not. -/
theorem Played.triggers_le_iff {registry : Registry} {p : Played ℚ} {now : ℚ}
    (hdue : p.tick.time ≤ now) :
    (∀ instrument slot x, .trigger instrument slot x ∈ p.calls registry → x ≤ now) ↔
      (p.HasLateStroke registry → p.tick.time + 15 / 2 / p.tick.tempo ≤ now) := by
  constructor
  · intro h hlate
    obtain ⟨instrument, slot, htrigger⟩ := hlate.exists_trigger
    exact h instrument slot _ htrigger
  · intro h instrument slot x htrigger
    rcases Played.time_of_trigger htrigger with rfl | ⟨hlate, rfl⟩
    · exact hdue
    · exact h hlate

/-! ### What a stop takes back -/

/-- Neither the time of a pass nor what is muted changes its places. -/
theorem map_place_pass (muted muted' : List String) (index : Nat) (time time' tempo : ℚ)
    (points : List (Point ℚ)) :
    (pass muted index time tempo points).map Played.place =
      (pass muted' index time' tempo points).map Played.place := by
  have hmuted := congrArg (List.map fun x => (x.1.index, x.1.tempo, x.2))
    (map_onTick_pass muted muted' index time tempo points)
  have htime := congrArg (List.map fun x => (x.1, x.2.1, x.2.2.1))
    (map_content_pass muted' index time' time tempo points)
  rw [List.map_map, List.map_map] at hmuted htime
  exact hmuted.trans htime

/-- **A stop cuts a playback in two.**  The points whose ticks are not after it are behind the
cursor then, and those whose ticks are after it are ahead, to be played again at the same tempo. -/
theorem OnCourse.stop_cases {index : Nat} {time tempo : ℚ} {done : List (Point ℚ)}
    {s : Sequencer ℚ} {ps : List (Played ℚ)} (h : OnCourse index time tempo done s ps) (now : ℚ)
    {p : Played ℚ} (hp : p ∈ ps) :
    (p.tick.time ≤ now ∧ p.tick.index < (s.stop now).1.cursor) ∨
      (now < p.tick.time ∧ (s.stop now).1.cursor ≤ p.tick.index ∧
        ∀ t, ∃ p' ∈ (s.stop now).1.passOver t (s.stop now).1.ahead, p'.place = p.place) := by
  obtain ⟨kept, back, hdone, hkept, hback⟩ := exists_cut [] index time tempo now done
  have hpoints := h.points_eq
  have hmem : p.onTick ∈ (pass [] index time tempo done).map Played.onTick := by
    rw [← h.played_eq]
    exact List.mem_map_of_mem hp
  obtain ⟨q, hq, heq⟩ := List.mem_map.1 hmem
  have htick : q.tick = p.tick := congrArg Prod.fst heq
  have hplace : q.place = p.place := by
    rw [Played.place, Played.place, htick, show q.point = p.point from congrArg Prod.snd heq]
  rw [hdone, pass_append] at hq
  rw [h.stop_eq [] hdone hkept hback, ← htick]
  rcases List.mem_append.1 hq with hq | hq
  · exact .inl ⟨hkept q hq, (index_of_mem_pass [] hq).2⟩
  · refine .inr ⟨hback q hq, (index_of_mem_pass [] hq).1, fun t => ?_⟩
    -- From the cut on, the timeline has the points taken back and those not played yet.
    have hahead : s.timeline.points.drop (index + kept.length) = back ++ s.ahead := by
      rw [← List.drop_drop, hpoints, hdone, List.append_assoc, List.drop_left]
    have hmem' : q.place ∈ (pass s.muted (index + kept.length) t (tempoAfter tempo kept)
        (back ++ s.ahead)).map Played.place := by
      rw [pass_append, List.map_append,
        map_place_pass s.muted [] _ t (passEnd time kept)]
      exact List.mem_append_left _ (List.mem_map_of_mem hq)
    rw [← hahead] at hmem'
    obtain ⟨p', hp', heq'⟩ := List.mem_map.1 hmem'
    exact ⟨p', hp', heq'.trans hplace⟩

/-- **A stop loses late strokes, and no others.**  It makes the voices forget what they were to do
after it, and releases everything.  A point that the sequencer remembers is behind the cursor then
if its tick was not after the stop, and will be played again at the same tempo if it was.  Of a
point that was due since the last start, all strokes are made by the time of the stop, unless an
accented one falls after it. -/
theorem stop_loses_only_late_strokes (timeline : Timeline ℚ) (registry : Registry)
    (steps : List (Bool × Request ℚ)) (now : ℚ)
    (hplaying : (run steps (new timeline registry)).1.playback = .playing) :
    let H := history steps (new timeline registry)
    let s := (run steps (new timeline registry)).1
    let stopped := (s.stop now).1
    calls (run steps (new timeline registry)).2 = callsOf registry H ∧
    calls (s.stop now).2 = .cancel now :: sweepCalls registry now ∧
    (∀ p ∈ remembered H, .played p ∈ sinceStart H ∧
      ((p.tick.time ≤ now ∧ p.tick.index < stopped.cursor) ∨
        (now < p.tick.time ∧ stopped.cursor ≤ p.tick.index ∧
          ∀ t, ∃ p' ∈ stopped.passOver t stopped.ahead, p'.place = p.place))) ∧
    ∀ p, .played p ∈ sinceStart H → p.tick.time ≤ now →
      ((∀ instrument slot x, .trigger instrument slot x ∈ p.calls registry → x ≤ now) ↔
        (p.HasLateStroke registry → p.tick.time + 15 / 2 / p.tick.tempo ≤ now)) := by
  intro H s stopped
  -- A playback is a pass that has got so far, from wherever it was started.
  obtain ⟨index, time, tempo, done, hcourse⟩ :=
    exists_onCourse steps (new timeline registry) (by simp [new]) hplaying
  refine ⟨calls_run steps _, ?_, fun p hp => ⟨played_of_mem_remembered hp,
    hcourse.stop_cases now hp⟩, fun p _ hdue => Played.triggers_le_iff hdue⟩
  rw [calls_stop now hplaying, show s.registry = registry from registry_run steps _]
  rfl

/-- The short piece, stopped between two points that were both sent. -/
theorem stop_loses_only_late_strokes_shortPiece :
    let s := (run [(true, .play 0), (true, .poll (1 / 4))] duoSequencer).1
    s.playback = .playing ∧ calls (s.stop (1 / 8)).2 =
      [.cancel (1 / 8), .release "r1" (1 / 8), .release "r2" (1 / 8), .release "r1" (1 / 8),
        .release "r2" (1 / 8)] := by
  have hplaying : (run [(true, .play 0), (true, .poll (1 / 4))] duoSequencer).1.playback =
      .playing := by cbv
  exact ⟨hplaying, (stop_loses_only_late_strokes (.ofScore shortPiece) duo _ (1 / 8)
    hplaying).2.1⟩

/-- An accented stroke and a plain one. -/
def accentedPair : Sequencer ℚ :=
  new (.ofScore ⟨"", "", [⟨0, "A", 120, [⟨"r1", ['É', 'E']⟩]⟩]⟩) duo

/-- **A late stroke is lost** by a stop between its tick and the stroke: the voices are told to
forget it, and the cursor stays behind its point. -/
theorem late_stroke_lost :
    let steps : List (Bool × Request ℚ) := [(true, .play 0), (true, .poll 0)]
    let s := (run steps accentedPair).1
    s.playback = .playing ∧ .cancel (3 / 100) ∈ calls (s.stop (3 / 100)).2 ∧
      ∃ p, .played p ∈ sinceStart (history steps accentedPair) ∧ p.tick.time ≤ 3 / 100 ∧
        p.tick.index < (s.stop (3 / 100)).1.cursor ∧
        ∃ x, .trigger "r1" 0 x ∈ p.calls duo ∧ ¬x ≤ 3 / 100 := by
  have hplaying : (run [(true, .play 0), (true, .poll 0)] accentedPair).1.playback = .playing := by
    cbv
  -- The accented point, whose stroke is a sixteenth of a second behind its tick.
  let p : Played ℚ := ⟨⟨0, 0, 120⟩, ⟨0, 0, 0, 0, 120, [⟨"r1", 'É'⟩]⟩, []⟩
  have hhistory : sinceStart (history [(true, .play 0), (true, .poll 0)] accentedPair) =
      [.started 0, .played p] := by cbv
  have hcursor : (((run [(true, .play 0), (true, .poll 0)] accentedPair).1).stop
      (3 / 100)).1.cursor = 1 := by cbv
  have hcalls : p.calls duo = [.release "r1" (1 / 16), .trigger "r1" 0 (1 / 16)] := by cbv
  refine ⟨hplaying, ?_, p, ?_, ?_, ?_, 1 / 16, ?_, ?_⟩
  · rw [calls_stop _ hplaying]
    exact List.mem_cons_self ..
  · rw [hhistory]
    exact List.mem_cons_of_mem _ (List.mem_cons_self ..)
  · show (0 : ℚ) ≤ 3 / 100
    norm_num
  · rw [hcursor]
    exact Nat.zero_lt_one
  · rw [hcalls]
    exact List.mem_cons_of_mem _ (List.mem_cons_self ..)
  · norm_num

end Sequencer

end Gamelan
