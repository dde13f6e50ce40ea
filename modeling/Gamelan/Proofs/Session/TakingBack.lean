import Gamelan.Proofs.Performance.LastPlayback
import Gamelan.Proofs.Performance.LateStroke
import Gamelan.Proofs.Session.Awaiting

namespace Gamelan

/-!
# Taking strokes back

A stop is decided twice.  The sequencer goes back to the first point whose tick is after it, and the
mixer forgets the events whose frames are after its own.  A stroke that is made on its tick is taken
back by the one just when it is forgotten by the other, as long as tick and stop have different
frames.

* `Session.IsStroke` — the event of a stroke that is made on its tick.
* `Session.mem_pending_stop` — the strokes that a stop leaves to come.
* `Session.taken_back_iff_forgotten` — the two decisions agree.
* `Session.stop_decisions_differ` — what is left out: seeks, and ticks in the frame of the stop.
-/

open Sequencer

namespace Sequencer

/-! ### Since the last start -/

/-- A point of the playback under way has no cut behind it. -/
theorem exists_later_of_playing (timeline : Timeline ℚ) (registry : Registry)
    (steps : List (Bool × Request ℚ))
    (hplaying : (run steps (new timeline registry)).1.playback = .playing) {p : Played ℚ}
    (hp : .played p ∈ sinceStart (history steps (new timeline registry))) :
    ∃ before later, history steps (new timeline registry) = before ++ .played p :: later ∧
      ∀ e ∈ later, e.cutAt? = none := by
  -- Some instant is after all those that the requests give.
  obtain ⟨now, hnow⟩ := (List.finite_toSet (steps.filterMap fun q => clock? q.2)).bddAbove
  have hclock : ∀ q ∈ steps, ∀ t, clock? q.2 = some t → t ≤ now := by
    intro q hq t ht
    exact hnow (List.mem_filterMap.2 ⟨q, hq, ht⟩)
  have hlast := lastPlayback_history timeline registry steps now hclock
  rw [hplaying] at hlast
  obtain ⟨before, start, E, hH, -, hE⟩ := hlast.exists_of_playing
  rw [hH, sinceStart_of_start before start (ne_started_of_cutAt? hE)] at hp
  rcases List.mem_cons.1 hp with hp | hp
  · cases hp
  · obtain ⟨first, later, rfl⟩ := List.append_of_mem hp
    refine ⟨before ++ .started start :: first, later, ?_, ?_⟩
    · rw [hH, List.append_assoc, List.cons_append]
    · exact fun e he => hE e (List.mem_append_right _ (List.mem_cons_of_mem _ he))

/-- A stop after all ticks that are remembered leaves the cursor where it is. -/
theorem OnCourse.cursor_stop {index : Nat} {time tempo : ℚ} {done : List (Point ℚ)}
    {s : Sequencer ℚ} {ps : List (Played ℚ)} (h : OnCourse index time tempo done s ps) {now : ℚ}
    (hps : ∀ p ∈ ps, p.tick.time ≤ now) : (s.stop now).1.cursor = s.cursor := by
  have hfind : s.sent.find? (now < ·.time) = none := by
    rw [h.sent_eq, List.find?_eq_none]
    intro tick htick
    obtain ⟨p, hp, rfl⟩ := List.mem_map.1 htick
    simpa using hps p hp
  rw [stop_fst now h.ticking.playing, rewindUnplayed, show s.halted.sent = s.sent from rfl, hfind]
  rfl

end Sequencer

namespace Session

variable {σ : Type} [Gain σ] {setup : Setup σ}

/-! ### Strokes on their ticks -/

/-- The event of a stroke that a point makes on its tick. -/
def IsStroke (setup : Setup σ) (p : Played ℚ) (e : Pending σ) : Prop :=
  ∃ instrument slot sample,
    .trigger instrument slot p.tick.time ∈ p.calls setup.registry ∧
      setup.bank.command? (.trigger instrument slot p.tick.time) =
        some (.trigger e.voice e.frame sample) ∧
      e.event = .start sample

/-- Such a stroke is made in the frame of the tick. -/
theorem IsStroke.frame_eq {p : Played ℚ} {e : Pending σ} (h : IsStroke setup p e) :
    e.frame = frameAt setup.rate p.tick.time := by
  obtain ⟨instrument, slot, sample, -, hc, -⟩ := h
  obtain ⟨voice, -, hc⟩ := Option.bind_eq_some_iff.1 hc
  obtain ⟨sound, -, hc⟩ := Option.map_eq_some_iff.1 hc
  have hframe : setup.bank.frameOf p.tick.time = e.frame := (Command.trigger.inj hc).2.1
  rw [← hframe, Setup.frameOf_bank]

/-- A stroke is the event of one of the commands of its point. -/
theorem IsStroke.mem_commands {p : Played ℚ} {e : Pending σ} (h : IsStroke setup p e) :
    ∃ sample, e = ⟨e.frame, e.voice, .start sample⟩ ∧ .trigger e.voice e.frame sample ∈
      (p.calls setup.registry).filterMap setup.bank.command? := by
  obtain ⟨instrument, slot, sample, hcall, hc, he⟩ := h
  refine ⟨sample, ?_, List.mem_filterMap.2 ⟨_, hcall, hc⟩⟩
  rw [← he]

variable [Zero σ] [One σ] [LT σ] [DecidableLT σ]

/-! ### Stops -/

/-- **The strokes that a stop leaves** are those up to its frame. -/
theorem mem_pending_stop {s : Session ℚ σ} (hs : s.Intact setup) (now : ℚ)
    (hplaying : s.player.sequencer.playback = .playing)
    (hdropped : (s.act (.stop now)).1.player.voices.dropped ≤ s.player.voices.dropped)
    {e : Pending σ} {sample : Array σ} (he : e.event = .start sample) :
    e ∈ (s.act (.stop now)).1.drained.pending ↔
      e ∈ s.drained.pending ∧ e.frame ≤ frameAt setup.rate now := by
  have hcalls : calls (s.player.sequencer.act s.player.readyAnswer (.stop now)).2 =
      [] ++ cut s.player.sequencer.registry now := calls_stop now hplaying
  rw [drained_act_of_cut hs hcalls hdropped, Mixer.applyAll_cut]
  show e ∈ upTo (frameAt setup.rate now) s.drained.pending ++ _ ↔ _
  rw [List.mem_append, mem_upTo]
  refine or_iff_left fun hrelease => ?_
  obtain ⟨voice, -, rfl⟩ := List.mem_map.1 hrelease
  cases he

variable [Add σ] [Mul σ] [Div σ] [Neg σ] [NatCast σ]

/-- A stroke of the playback under way is to come until its frame, unless a command was refused. -/
theorem IsStroke.mem_pending {timeline : Timeline ℚ} {ops : List (Operation ℚ σ)} {p : Played ℚ}
    {e : Pending σ} (h : IsStroke setup p e)
    (hplaying : ((ofSetup setup timeline).operateAll ops).player.sequencer.playback = .playing)
    (hdropped : ((ofSetup setup timeline).operateAll ops).player.voices.dropped = 0)
    (hp : .played p ∈ sinceStart
      (history (ops.filterMap Operation.asked?) (Sequencer.new timeline setup.registry)))
    (hframe : ((ofSetup setup timeline).operateAll ops).mixer.frame ≤ e.frame) :
    e ∈ ((ofSetup setup timeline).operateAll ops).drained.pending := by
  rw [sequencer_ofSetup] at hplaying
  obtain ⟨before, later, hH, hlater⟩ :=
    exists_later_of_playing timeline setup.registry _ hplaying hp
  obtain ⟨sample, hevent, hcommand⟩ := h.mem_commands
  rw [hevent]
  exact awaits_operateAll setup timeline ops hdropped before p later hH hlater _ _ _ hcommand hframe

/-- **Taken back and forgotten.**  A stop takes the sequencer back to the first point that it
remembers with a tick after the stop, and leaves it where it is if there is none.  A stroke that was
sent since the last start, on its tick, is to come until its frame.  If it still is, and unless its
tick is after the stop but in the same frame, the mixer forgets it just when its frame is after that of
the stop; and if its point is remembered, this is just when the sequencer goes back to the point or
before it.  No stroke is forgotten that is not taken back. -/
theorem taken_back_iff_forgotten (setup : Setup σ) (timeline : Timeline ℚ)
    (ops : List (Operation ℚ σ)) (now : ℚ) :
    let s := (ofSetup setup timeline).operateAll ops
    let H := history (ops.filterMap Operation.asked?) (Sequencer.new timeline setup.registry)
    let stopped := (s.act (.stop now)).1
    let cursor := stopped.player.sequencer.cursor
    let frame := frameAt setup.rate now
    s.player.sequencer.playback = .playing → stopped.player.voices.dropped = 0 →
      ((∀ p ∈ remembered H, p.tick.time ≤ now) → cursor = s.player.sequencer.cursor) ∧
      (∀ p ∈ remembered H, .played p ∈ sinceStart H ∧
        (cursor ≤ p.tick.index ↔ now < p.tick.time)) ∧
      ∀ p, .played p ∈ sinceStart H → ∀ e, IsStroke setup p e →
        (s.mixer.frame ≤ e.frame → e ∈ s.drained.pending) ∧
        (e ∈ s.drained.pending → p.tick.time ≤ now ∨ e.frame ≠ frame →
          (e ∉ stopped.drained.pending ↔ frame < e.frame) ∧
          (p ∈ remembered H → (e ∉ stopped.drained.pending ↔ cursor ≤ p.tick.index))) ∧
        (e ∈ s.drained.pending → p ∈ remembered H → e ∉ stopped.drained.pending →
          cursor ≤ p.tick.index) := by
  intro s H stopped cursor frame hplaying hdropped
  have hs : s.Intact setup := intact_operateAll setup timeline ops
  have hle : s.player.voices.dropped ≤ stopped.player.voices.dropped := dropped_le_act (.stop now) s
  have hnone : s.player.voices.dropped = 0 := Nat.le_zero.1 (hdropped ▸ hle)
  have hstop : stopped.player.voices.dropped ≤ s.player.voices.dropped := by
    rw [hdropped]
    exact Nat.zero_le _
  -- What the sequencer remembers is a pass through its timeline, and the stop cuts it in two.
  have hsequencer : s.player.sequencer = _ := sequencer_ofSetup setup timeline ops
  have hcourse : ∃ index time tempo done,
      OnCourse index time tempo done s.player.sequencer (remembered H) := by
    rw [hsequencer] at hplaying ⊢
    exact exists_onCourse _ _ (by simp [Sequencer.new]) hplaying
  obtain ⟨index, time, tempo, done, hcourse⟩ := hcourse
  have hcursor : ∀ p ∈ remembered H, cursor ≤ p.tick.index ↔ now < p.tick.time := by
    intro p hp
    rcases hcourse.stop_cases now hp with ⟨hle, hlt⟩ | ⟨hlt, hle, -⟩
    · exact iff_of_false (Nat.not_le.2 hlt) (not_lt.2 hle)
    · exact iff_of_true hle hlt
  refine ⟨fun hps => hcourse.cursor_stop hps,
    fun p hp => ⟨played_of_mem_remembered hp, hcursor p hp⟩, fun p hp e he => ?_⟩
  -- The mixer goes by frames instead.
  have hforgotten : e ∈ s.drained.pending → (e ∉ stopped.drained.pending ↔ frame < e.frame) := by
    intro hpending
    obtain ⟨sample, hevent, -⟩ := he.mem_commands
    rw [mem_pending_stop hs now hplaying hstop (congrArg Pending.event hevent), not_and, not_le]
    exact ⟨fun h => h hpending, fun h _ => h⟩
  rw [he.frame_eq] at hforgotten ⊢
  refine ⟨fun hframe => ?_, fun hpending hapart => ⟨hforgotten hpending, fun hp => ?_⟩,
    fun hpending hp h => ?_⟩
  · exact he.mem_pending hplaying hnone hp (he.frame_eq ▸ hframe)
  · rw [hforgotten hpending, hcursor p hp]
    exact frameAt_lt_iff hapart
  · exact (hcursor p hp).2 (lt_of_frameAt_lt ((hforgotten hpending).1 h))

/-! ### A stroke of the short piece -/

/-- The second point of the short piece, played from the start at once. -/
def shortPoint : Played ℚ :=
  ⟨⟨1, 1 / 4, 60⟩, ⟨1, 1, 0, 1, 120, [⟨"r1", 'U'⟩]⟩, []⟩

/-- Its stroke, at eight frames a second. -/
def shortStroke : Pending Float32 :=
  ⟨2, 0, .start #[1]⟩

/-- The instants of the second frame. -/
theorem frameAt_shortStroke {now : ℚ} (hle : 3 / 16 ≤ now) (hlt : now < 5 / 16) :
    frameAt 8 now = 2 := by
  have hpos : 0 ≤ now := by linarith
  rw [frameAt_eq, max_eq_left hpos, Nat.floor_eq_iff (by push_cast; linarith)]
  constructor <;> push_cast <;> linarith

/-- The second point of the short piece makes a stroke at this frame. -/
theorem isStroke_shortStroke : IsStroke shortSetup shortPoint shortStroke := by
  have hcalls : shortPoint.calls duo = [.release "r1" (1 / 4), .trigger "r1" 1 (1 / 4)] := by cbv
  have hcommand : (shortSetup.bank : SampleBank ℚ Float32).command? (.trigger "r1" 1 (1 / 4)) =
      some (.trigger 0 (frameAt 8 (1 / 4 : ℚ)) #[1]) := rfl
  refine ⟨"r1", 1, #[1], ?_, ?_, rfl⟩
  · show _ ∈ shortPoint.calls duo
    rw [hcalls]
    exact List.mem_cons_of_mem _ (List.mem_cons_self ..)
  · show (shortSetup.bank : SampleBank ℚ Float32).command? (.trigger "r1" 1 (1 / 4)) = _
    rw [hcommand, frameAt_shortStroke (by norm_num) (by norm_num)]
    rfl

/-- The events before that point. -/
def shortStart : List (Event ℚ) :=
  [.levelled, .started 0, .played ⟨⟨0, 0, 120⟩, ⟨0, 0, 0, 0, 60, [⟨"rr", 'É'⟩]⟩, []⟩]

/-- Played up to there, the point is the last that has happened. -/
theorem history_shortPoint : history [(true, .play 0), (true, .poll (1 / 4))] duoSequencer =
    shortStart ++ [.played shortPoint] := by
  cbv

theorem playback_shortPoint :
    (run [(true, .play 0), (true, .poll (1 / 4))] duoSequencer).1.playback = .playing := by
  cbv

theorem timeline_shortPoint :
    (run [(true, .play 0), (true, .poll (1 / 4))] duoSequencer).1.timeline = .ofScore shortPiece := by
  cbv

/-- The second section of the short piece has its second point at place two. -/
theorem position?_shortPiece : (Timeline.ofScore shortPiece : Timeline ℚ).position? 1 1 = some 2 := by
  have hfirst : (Timeline.ofScore shortPiece : Timeline ℚ).points.findIdx? (·.sectionId == 1) =
      some 1 := by cbv
  have hindex : (1 + 1) % Nat.pow 2 64 = 2 := by norm_num
  rw [Timeline.position?, hfirst]
  dsimp only
  rw [hindex]
  cbv

/-- Sent from the start at once, the stroke is to come as long as nothing cuts. -/
theorem shortStroke_mem_pending {ops : List (Operation ℚ Float32)} {before later : List (Event ℚ)}
    (hH : history (ops.filterMap Operation.asked?) duoSequencer =
      before ++ .played shortPoint :: later) (hlater : ∀ e ∈ later, e.cutAt? = none)
    (hframe : (shortSession ops).mixer.frame ≤ 2) :
    shortStroke ∈ (shortSession ops).drained.pending := by
  obtain ⟨sample, hevent, hcommand⟩ := isStroke_shortStroke.mem_commands
  have hawaits := awaits_operateAll shortSetup (.ofScore shortPiece) ops
    (refusesNothing_shortSession ops).dropped
  rw [hevent]
  exact hawaits before shortPoint later hH hlater _ _ _ hcommand hframe

/-- The short piece, its first two points sent at once and stopped between them: the second stroke is
forgotten and taken back. -/
theorem taken_back_iff_forgotten_shortPiece :
    let s := shortSession [.request (.play 0), .request (.poll (1 / 4))]
    let stopped := (s.act (.stop (1 / 8))).1
    s.player.sequencer.playback = .playing ∧ shortStroke ∈ s.drained.pending ∧
      shortStroke ∉ stopped.drained.pending ∧ stopped.player.sequencer.cursor ≤ 1 := by
  intro s stopped
  have hplaying : s.player.sequencer.playback = .playing := by
    rw [show s.player.sequencer = _ from sequencer_shortSession _]
    exact playback_shortPoint
  have hdropped : stopped.player.voices.dropped = 0 :=
    ((refusesNothing_shortSession _).act (.stop (1 / 8))).dropped
  have hremembered : shortPoint ∈ remembered
      (history [(true, .play 0), (true, .poll (1 / 4))] duoSequencer) := by
    rw [history_shortPoint]
    simp [remembered, remember, shortStart]
  obtain ⟨-, -, hstroke⟩ := taken_back_iff_forgotten shortSetup (.ofScore shortPiece)
    [.request (.play 0), .request (.poll (1 / 4))] (1 / 8) hplaying hdropped
  obtain ⟨hpending, hforgotten, -⟩ :=
    hstroke shortPoint (played_of_mem_remembered hremembered) shortStroke isStroke_shortStroke
  have hframe : frameAt shortSetup.rate (1 / 8 : ℚ) = 1 := by
    show frameAt 8 (1 / 8 : ℚ) = 1
    rw [frameAt_eq, Nat.floor_eq_iff] <;> norm_num
  have hcome : shortStroke ∈ s.drained.pending := hpending (Nat.zero_le _)
  obtain ⟨hafter, hback⟩ := hforgotten hcome (.inr (by rw [hframe]; decide))
  have hgone : shortStroke ∉ stopped.drained.pending := hafter.2 (by rw [hframe]; decide)
  exact ⟨hplaying, hcome, hgone, (hback hremembered).1 hgone⟩

/-! ### What is left out -/

/-- A stop of the short session, and what it leaves of the stroke. -/
theorem shortStroke_mem_pending_stop {ops : List (Operation ℚ Float32)} (now : ℚ)
    (hplaying : (shortSession ops).player.sequencer.playback = .playing) :
    shortStroke ∈ ((shortSession ops).act (.stop now)).1.drained.pending ↔
      shortStroke ∈ (shortSession ops).drained.pending ∧ 2 ≤ frameAt 8 now := by
  have hintact : (shortSession ops).Intact shortSetup := intact_operateAll _ _ ops
  have hdropped : ((shortSession ops).act (.stop now)).1.player.voices.dropped ≤
      (shortSession ops).player.voices.dropped := by
    rw [((refusesNothing_shortSession ops).act (.stop now)).dropped]
    exact Nat.zero_le _
  exact mem_pending_stop hintact now hplaying hdropped rfl

/-- A seek makes the sequencer forget the points it has sent, so that a stop leaves the cursor behind
a stroke that the mixer forgets. -/
theorem forgotten_not_taken_back :
    let s := shortSession [.request (.play 0), .request (.poll (1 / 4)), .request (.seek 1 1)]
    let stopped := (s.act (.stop 0)).1
    s.player.sequencer.playback = .playing ∧ stopped.player.voices.dropped = 0 ∧
      shortStroke ∈ s.drained.pending ∧ shortStroke ∉ stopped.drained.pending ∧
      ¬stopped.player.sequencer.cursor ≤ shortPoint.tick.index := by
  intro s stopped
  let polled : Sequencer ℚ := (run [(true, .play 0), (true, .poll (1 / 4))] duoSequencer).1
  have hpolled : polled.playback = .playing := playback_shortPoint
  have hposition : polled.timeline.position? 1 1 = some 2 := by
    rw [show polled.timeline = .ofScore shortPiece from timeline_shortPoint]
    exact position?_shortPiece
  have hsequencer : s.player.sequencer = { polled with cursor := 2, sent := [] } := by
    rw [show s.player.sequencer = (polled.act true (.seek 1 1)).1 from sequencer_shortSession _]
    simp [Sequencer.act, seek?, hposition]
  have hplaying : s.player.sequencer.playback = .playing := by
    rw [hsequencer]
    exact hpolled
  -- The seek makes no cut, so the stroke stays to come.
  have hhistory : history [(true, .play 0), (true, .poll (1 / 4)), (true, .seek 1 1)] duoSequencer =
      shortStart ++ [.played shortPoint, .forgotten] := by
    rw [show [(true, Request.play (0 : ℚ)), (true, .poll (1 / 4)), (true, .seek 1 1)] =
      [(true, .play 0), (true, .poll (1 / 4))] ++ [(true, .seek 1 1)] from rfl, history_append,
      history_shortPoint]
    show shortStart ++ [.played shortPoint] ++ (polled.events true (.seek 1 1) ++ []) = _
    simp [events, hposition]
  have hdropped : stopped.player.voices.dropped = 0 :=
    ((refusesNothing_shortSession _).act (.stop 0)).dropped
  have hcome : shortStroke ∈ s.drained.pending :=
    shortStroke_mem_pending hhistory (cutAt?_of_forgotten (by simp)) (Nat.zero_le _)
  have hframe : frameAt 8 (0 : ℚ) = 0 := by
    rw [frameAt_eq, Nat.floor_eq_iff] <;> norm_num
  have hgone : shortStroke ∉ stopped.drained.pending := by
    rw [shortStroke_mem_pending_stop 0 hplaying, hframe]
    exact fun h => absurd h.2 (by decide)
  -- With nothing remembered, the stop leaves the cursor where the seek has put it.
  have hcursor : stopped.player.sequencer.cursor = 2 := by
    show (s.player.sequencer.stop 0).1.cursor = 2
    rw [stop_fst 0 hplaying, hsequencer]
    rfl
  refine ⟨hplaying, hdropped, hcome, hgone, ?_⟩
  rw [hcursor]
  decide

/-- A stop before a tick, but in the frame of it, takes back a stroke that the mixer is still to
make. -/
theorem taken_back_not_forgotten :
    let s := shortSession [.request (.play 0), .request (.poll (1 / 4))]
    let stopped := (s.act (.stop (7 / 32))).1
    s.player.sequencer.playback = .playing ∧ stopped.player.voices.dropped = 0 ∧
      shortStroke ∈ s.drained.pending ∧ shortStroke ∈ stopped.drained.pending ∧
      stopped.player.sequencer.cursor ≤ shortPoint.tick.index := by
  intro s stopped
  have hsequencer : s.player.sequencer =
      (run [(true, .play 0), (true, .poll (1 / 4))] duoSequencer).1 := sequencer_shortSession _
  have hplaying : s.player.sequencer.playback = .playing := by
    rw [hsequencer]
    exact playback_shortPoint
  have hdropped : stopped.player.voices.dropped = 0 :=
    ((refusesNothing_shortSession _).act (.stop (7 / 32))).dropped
  have hcome : shortStroke ∈ s.drained.pending :=
    shortStroke_mem_pending history_shortPoint (fun e he => absurd he List.not_mem_nil) (Nat.zero_le _)
  -- The stop is a quarter of a frame before the tick, and both are rounded to the same frame.
  have hframe : frameAt 8 (7 / 32 : ℚ) = 2 := frameAt_shortStroke (by norm_num) (by norm_num)
  have hleft : shortStroke ∈ stopped.drained.pending := by
    rw [shortStroke_mem_pending_stop _ hplaying, hframe]
    exact ⟨hcome, Nat.le_refl 2⟩
  have hcursor : stopped.player.sequencer.cursor = 1 := by
    show (s.player.sequencer.stop (7 / 32)).1.cursor = 1
    rw [hsequencer]
    cbv
  exact ⟨hplaying, hdropped, hcome, hleft, Nat.le_of_eq hcursor⟩

/-- **The two decisions can differ.**  After a seek, a stop forgets a stroke sent since the last start
that it does not take back; and in the frame of a tick, it takes back a stroke that is still made. -/
theorem stop_decisions_differ :
    IsStroke shortSetup shortPoint shortStroke ∧ 7 / 32 < shortPoint.tick.time ∧
    (let s := shortSession [.request (.play 0), .request (.poll (1 / 4)), .request (.seek 1 1)]
      let stopped := (s.act (.stop 0)).1
      s.player.sequencer.playback = .playing ∧ stopped.player.voices.dropped = 0 ∧
        shortStroke ∈ s.drained.pending ∧ shortStroke ∉ stopped.drained.pending ∧
        ¬stopped.player.sequencer.cursor ≤ shortPoint.tick.index) ∧
    (let s := shortSession [.request (.play 0), .request (.poll (1 / 4))]
      let stopped := (s.act (.stop (7 / 32))).1
      s.player.sequencer.playback = .playing ∧ stopped.player.voices.dropped = 0 ∧
        shortStroke ∈ s.drained.pending ∧ shortStroke ∈ stopped.drained.pending ∧
        stopped.player.sequencer.cursor ≤ shortPoint.tick.index) := by
  have htick : (7 / 32 : ℚ) < 1 / 4 := by norm_num
  exact ⟨isStroke_shortStroke, htick, forgotten_not_taken_back, taken_back_not_forgotten⟩

end Session

end Gamelan
