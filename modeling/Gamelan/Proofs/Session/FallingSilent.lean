import Gamelan.Proofs.Session.Operations

namespace Gamelan

/-!
# Falling silent

A playback ends with a cut, whether it is stopped or comes to its end.  Whatever was to sound by
then, the mixer falls silent a fade after the cut has reached it, until it is sent something new.

* `Sequencer.CutAt` — when a request that ends a playback cuts.
* `Sequencer.exists_cutAt` — every request that ends a playback cuts.
* `Session.Quiet` — operations that send nothing new.
* `Session.silent_after_cut` — the silence.
-/

namespace Sequencer

/-! ### The end of a playback -/

section
variable {τ : Type} [NatCast τ] [Add τ] [Div τ] [BEq τ]

/-- A tick on the last point ends the playback a pulse later. -/
theorem completeTick_of_last (time : τ) {s : Sequencer τ} {point : Point τ}
    (h : s.current? = some point) (hlt : ¬s.cursor + 1 < s.timeline.length) :
    (s.completeTick time).1.playback = .ready ∧
      (s.completeTick time).1.sent = s.sent ++ [⟨s.cursor, time, s.transport.tempo⟩] ∧
      ∃ before, calls (s.completeTick time).2 = before ++
        cut s.registry (time + pulse.seconds (s.completeTick time).1.transport.tempo) := by
  -- Whatever the tempo is set to, nothing else changes.
  obtain ⟨transport, hframe⟩ : ∃ transport,
      (({ s with sent := s.sent ++ [⟨s.cursor, time, s.transport.tempo⟩] } : Sequencer τ).followTempo
          ((point.tempo : Nat) : τ)).1 =
        { s with
          sent := s.sent ++ [⟨s.cursor, time, s.transport.tempo⟩]
          transport := transport } := ⟨_, followTempo_frame _ _⟩
  have hstate : (s.completeTick time).1 =
      { s with
        cursor := 0
        sent := s.sent ++ [⟨s.cursor, time, s.transport.tempo⟩]
        transport := transport.cancel
        playback := .ready } := by
    simp [completeTick, tick, h, advance, hframe, hlt, setCursor, halted, report, Transport.cancel,
      Transport.completeTick]
  rw [hstate]
  refine ⟨rfl, rfl, calls (point.actions.flatMap
    (perform s.registry s.muted s.transport.tempo time)), ?_⟩
  simp [completeTick, tick, h, advance, hframe, hlt, setCursor, report, Transport.cancel]

/-- A tick on another point goes on to the next one. -/
theorem completeTick_of_next (time : τ) {s : Sequencer τ} {point : Point τ}
    (h : s.current? = some point) (hlt : s.cursor + 1 < s.timeline.length) :
    (s.completeTick time).1.playback = s.playback ∧
      (s.completeTick time).1.timeline = s.timeline ∧
      (s.completeTick time).1.cursor = s.cursor + 1 := by
  obtain ⟨transport, hstate⟩ := exists_completeTick_of_lt time h hlt
  rw [hstate]
  exact ⟨rfl, rfl, rfl⟩

variable [LE τ] [DecidableLE τ]

/-- When a request that ends a playback cuts: at the instant of a stop, or when the last point has
sounded for a pulse.  A playback without a point to play ends on its first tick. -/
inductive CutAt (s : Sequencer τ) : Request τ → τ → Prop where
  | stop (now : τ) : CutAt s (.stop now) now
  | toggle (now : τ) : CutAt s (.toggle now) now
  | finish {horizon : τ} {last : SentPoint τ}
      (hlast : (s.runDue horizon).1.sent.getLast? = some last)
      (hindex : last.index + 1 = s.timeline.length) :
      CutAt s (.poll horizon)
        (last.time + pulse.seconds (s.runDue horizon).1.transport.tempo)
  | runOut {horizon time : τ} (hpoint : s.current? = none)
      (hdue : s.transport.due? horizon = some time) : CutAt s (.poll horizon) time

/-- A tick on another point leaves the cut to the ticks after it. -/
theorem CutAt.of_completeTick {horizon time c : τ} {s : Sequencer τ} {point : Point τ}
    (hplaying : s.isPlaying = true) (hdue : s.transport.due? horizon = some time)
    (hpoint : s.current? = some point) (hlt : s.cursor + 1 < s.timeline.length)
    (h : CutAt (s.completeTick time).1 (.poll horizon) c) : CutAt s (.poll horizon) c := by
  obtain ⟨-, htimeline, hcursor⟩ := completeTick_of_next time hpoint hlt
  have hstate : (s.runDue horizon).1 = ((s.completeTick time).1.runDue horizon).1 := by
    rw [runDue_of_due hplaying hdue]
  cases h with
  | finish hlast hindex =>
    rw [← hstate] at hlast ⊢
    exact .finish hlast (htimeline ▸ hindex)
  | runOut hnone _ =>
    -- There is a point behind this one.
    rw [current?, htimeline, hcursor] at hnone
    exact absurd (List.getElem?_eq_none_iff.1 hnone) (Nat.not_le.2 hlt)

/-- A poll that ends a playback cuts, and its last calls are those of the cut. -/
theorem exists_cutAt_runDue {horizon : τ} {s : Sequencer τ} (hplaying : s.playback = .playing)
    (hend : (s.runDue horizon).1.playback = .ready) :
    ∃ c before, CutAt s (.poll horizon) c ∧
      calls (s.runDue horizon).2 = before ++ cut s.registry c := by
  -- The recursion is that of the poll: the cut is that of its last tick.
  fun_induction runDue horizon s with
  | case1 s hisPlaying hdue =>
    rw [hplaying] at hend
    cases hend
  | case2 s hisPlaying time hdue ticked rest ih =>
    cases hpoint : s.current? with
    | none =>
      have hhalted : ticked.1.isPlaying = false := by
        rw [show ticked.1 = _ from completeTick_of_none time hpoint]
        rfl
      have hrest : rest = (ticked.1, []) := (runDue_of_not_playing horizon hhalted).1
      refine ⟨time, [], .runOut hpoint hdue, ?_⟩
      rw [hrest, show ticked.2 = (s.completeTick time).2 from rfl]
      simp [completeTick, tick, hpoint, setCursor]
    | some point =>
      by_cases hlt : s.cursor + 1 < s.timeline.length
      · obtain ⟨hplayback, -, -⟩ := completeTick_of_next time hpoint hlt
        obtain ⟨c, before, hcut, hcalls⟩ := ih (hplayback.trans hplaying) hend
        refine ⟨c, calls ticked.2 ++ before, hcut.of_completeTick hisPlaying hdue hpoint hlt, ?_⟩
        rw [calls_append, hcalls, List.append_assoc, registry_completeTick]
      · obtain ⟨hready, hsent, before, hcalls⟩ := completeTick_of_last time hpoint hlt
        have hhalted : ticked.1.isPlaying = false := by
          rw [isPlaying, hready]
          rfl
        have hrest : rest = (ticked.1, []) := (runDue_of_not_playing horizon hhalted).1
        have hstate : (s.runDue horizon).1 = ticked.1 := by
          rw [runDue_of_due hisPlaying hdue]
          show rest.1 = ticked.1
          rw [hrest]
        have hcursor : s.cursor < s.timeline.length := (List.getElem?_eq_some_iff.1 hpoint).1
        have hlast : (s.runDue horizon).1.sent.getLast? =
            some ⟨s.cursor, time, s.transport.tempo⟩ := by
          rw [hstate, hsent, List.getLast?_concat]
        refine ⟨_, before, .finish hlast (show s.cursor + 1 = s.timeline.length by omega), ?_⟩
        rw [hstate, hrest, List.append_nil]
        exact hcalls
  | case3 s hnot => exact absurd (by simp [isPlaying, hplaying]) hnot

variable [LT τ] [DecidableLT τ]

/-- **Every request that ends a playback cuts**, and its last calls are those of the cut. -/
theorem exists_cutAt {s : Sequencer τ} (ready : Bool) (request : Request τ)
    (hplaying : s.playback = .playing) (hend : (s.act ready request).1.playback = .ready) :
    ∃ c before, CutAt s request c ∧
      calls (s.act ready request).2 = before ++ cut s.registry c := by
  have hisPlaying : s.isPlaying = true := by simp [isPlaying, hplaying]
  -- Stops and toggles cut at once, polls when the piece is over; nothing else ends a playback.
  cases request with
  | play now => simp [act, play, hplaying] at hend
  | stop now => exact ⟨now, [], .stop now, calls_stop now hplaying⟩
  | toggle now =>
    refine ⟨now, [], .toggle now, ?_⟩
    rw [act, toggle, if_pos hisPlaying]
    exact calls_stop now hplaying
  | poll horizon =>
    have hpoll : s.act ready (.poll horizon) = s.runDue horizon := by
      simp [act, poll, hplaying, Step.andThen]
    rw [hpoll] at hend ⊢
    exact exists_cutAt_runDue hplaying hend
  | toggleMute label =>
    rw [show (s.act ready (.toggleMute label)).1.playback = s.playback from rfl, hplaying] at hend
    cases hend
  | seek sectionId step =>
    cases hindex : s.timeline.position? sectionId step <;>
      simp [act, seek?, hindex, hplaying] at hend
  | setTimeline timeline =>
    rw [show (s.act ready (.setTimeline timeline)).1.playback = s.playback from rfl, hplaying]
      at hend
    cases hend

end

end Sequencer

namespace Session

open Sequencer

variable {τ σ : Type} [NatCast τ] [Add τ] [Mul τ] [Div τ] [BEq τ] [LE τ] [DecidableLE τ] [LT τ]
  [DecidableLT τ] [FrameRounding τ]

variable [Zero σ] [One σ] [LT σ] [DecidableLT σ] [Gain σ]

/-! ### The cut reaches the mixer -/

/-- A request that ends a playback leaves a mixer that ends at its cut. -/
theorem exists_endsAt {setup : Setup σ} {s : Session τ σ} (hs : s.Intact setup)
    (request : Request τ) (hplaying : s.player.sequencer.playback = .playing)
    (hend : (s.act request).1.player.sequencer.playback = .ready)
    (hdropped : (s.act request).1.player.voices.dropped ≤ s.player.voices.dropped) :
    ∃ c, CutAt s.player.sequencer request c ∧
      (s.act request).1.drained.EndsAt (frameAt setup.rate c) := by
  obtain ⟨c, before, hcut, hcalls⟩ :=
    exists_cutAt s.player.readyAnswer request hplaying hend
  refine ⟨c, hcut, ?_⟩
  rw [drained_act_of_cut hs hcalls hdropped]
  -- The cut is the last that the mixer is sent.
  have horder : InOrder s.drained.pending := Mixer.inOrder_applyAll hs.order _
  have hfades : s.drained.FadesShort := hs.fades.applyAll _
  refine Mixer.endsAt_cut (Mixer.inOrder_applyAll horder _) (hfades.applyAll _) ?_
  intro voice hvoice
  rw [Mixer.length_voices_applyAll, drained, Mixer.length_voices_applyAll, hs.length_eq] at hvoice
  exact SampleBank.mem_sweptVoices (hs.act request).instruments_eq hvoice

/-! ### Until something new is sent -/

variable [Add σ] [Mul σ] [Div σ] [Neg σ] [NatCast σ]

/-- An operation that sends nothing. -/
def SendsNothing (s : Session τ σ) : Operation τ σ → Prop
  | .render _ => True
  | op => (s.operate op).player.voices.queue.commands = s.player.voices.queue.commands

/-- Operations that send nothing. -/
def Quiet (s : Session τ σ) : List (Operation τ σ) → Prop
  | [] => True
  | op :: rest => s.SendsNothing op ∧ Quiet (s.operate op) rest

omit [Mul τ] [FrameRounding τ] in
/-- While nothing is sent, the mixer renders what it was sent before. -/
theorem exists_drained_of_quiet {s : Session τ σ} {later : List (Operation τ σ)}
    (h : s.Quiet later) :
    ∃ frames, (s.operateAll later).drained = (s.drained.renderFrames frames).2 := by
  induction later generalizing s with
  | nil => exact ⟨0, rfl⟩
  | cons op rest ih =>
    obtain ⟨hop, hrest⟩ := h
    obtain ⟨frames, hframes⟩ := ih hrest
    cases op with
    | render length =>
      refine ⟨s.framesOf length + frames, ?_⟩
      rw [Mixer.renderFrames_add, ← drained_render]
      exact hframes
    | request request =>
      -- A request that sends nothing leaves the mixer and the queue alone.
      have hsame : (s.operate (.request request)).drained = s.drained := by
        rw [drained, hop]
        rfl
      exact ⟨frames, hsame ▸ hframes⟩
    | setVolume volume =>
      have hsame : (s.operate (.setVolume volume)).drained = s.drained := by
        rw [drained, hop]
        rfl
      exact ⟨frames, hsame ▸ hframes⟩

/-! ### Silence -/

/-- **Silence after a cut.**  A request that ends a playback cuts at some instant.  Once the commands
are drained, and as long as nothing new is sent, the mixer expects no event after the frame of that
instant.  Let `start` be that frame, or the one of the draining if that is later.  After a whole fade
from there, no voice contributes anything, and a frame later no voice sounds and nothing is to
come. -/
theorem silent_after_cut (setup : Setup σ) (timeline : Timeline τ) (ops : List (Operation τ σ))
    (request : Request τ) :
    let s := (ofSetup setup timeline).operateAll ops
    let s' := (s.act request).1
    s.player.sequencer.playback = .playing → s'.player.sequencer.playback = .ready →
      s'.player.voices.dropped = 0 →
      ∃ c, CutAt s.player.sequencer request c ∧
        ∀ later, s'.Quiet later → (s'.operateAll later).player.voices.queue.commands = [] →
          let m := (s'.operateAll later).mixer
          let frame := frameAt setup.rate c
          let start := max s.mixer.frame frame
          let fade := max 1 setup.fadeFrames
          (∀ p ∈ m.pending, p.frame ≤ frame) ∧
            (start + fade ≤ m.frame → ∀ v ∈ m.fireDue.voices, (v.next fade).1 = 0) ∧
            (start + fade < m.frame → m.sounding = [] ∧ m.pending = []) := by
  intro s s' hplaying hend hdropped
  have hs : s.Intact setup := intact_operateAll setup timeline ops
  have hle : s'.player.voices.dropped ≤ s.player.voices.dropped := by
    rw [hdropped]
    exact Nat.zero_le _
  obtain ⟨c, hcut, hends⟩ := exists_endsAt hs request hplaying hend hle
  refine ⟨c, hcut, fun later hquiet hempty => ?_⟩
  intro m frame start fade
  have hfade : s'.drained.fadeFrames = fade := by
    rw [drained, Mixer.fadeFrames_applyAll]
    exact hs.fadeFrames_eq
  have hframe : s'.drained.frame = s.mixer.frame := Mixer.frame_applyAll _ _
  -- What is left in the end is the mixer of the cut, some frames later.
  obtain ⟨frames, hframes⟩ := exists_drained_of_quiet hquiet
  rw [drained_of_empty hempty] at hframes
  have hsilent := Mixer.EndsAt.silent (show s'.drained.EndsAt frame from hends) hfade
    (Nat.le_max_left 1 _) frames
  rw [hframe, ← hframes] at hsilent
  exact hsilent

/-- The short piece, stopped on its first point: nothing sounds ten frames later. -/
theorem silent_after_cut_shortPiece :
    let s : Session ℚ Float32 := (ofSetup shortSetup (.ofScore shortPiece)).operateAll
      [.request (.play 0), .request (.poll 0)]
    let s' := (s.act (.stop (1 / 4))).1
    s.player.sequencer.playback = .playing ∧
      (s'.operateAll [.render 20]).mixer.sounding = [] ∧
      (s'.operateAll [.render 20]).mixer.pending = [] := by
  intro s s'
  have hsequencer : s.player.sequencer =
      (run [(true, .play 0), (true, .poll 0)] duoSequencer).1 := sequencer_shortSession _
  have hplaying : s.player.sequencer.playback = .playing := by
    rw [hsequencer]
    cbv
  have hend : s'.player.sequencer.playback = .ready := by
    show (s.player.sequencer.stop (1 / 4)).1.playback = .ready
    rw [hsequencer]
    cbv
  have hs : s.RefusesNothing := refusesNothing_shortSession _
  obtain ⟨c, hcut, hsilent⟩ := silent_after_cut shortSetup (.ofScore shortPiece) _ (.stop (1 / 4))
    hplaying hend (hs.act _).dropped
  cases hcut
  have hframe : frameAt 8 (1 / 4 : ℚ) = 2 := by
    rw [frameAt_eq, Nat.floor_eq_iff] <;> norm_num
  have hlater : (s'.operateAll [.render 20]).mixer.frame = 10 := by
    show (s'.render 20).2.mixer.frame = 10
    rw [render_snd]
    show (s'.drained.renderFrames (s'.framesOf 20)).2.frame = 10
    have hchannels : s'.mixer.channels = 2 := rfl
    rw [Mixer.frame_renderFrames, drained, Mixer.frame_applyAll, framesOf, hchannels]
    rfl
  refine ⟨hplaying, (hsilent [.render 20] ⟨trivial, trivial⟩ rfl).2.2 ?_⟩
  rw [hlater]
  show max 0 (frameAt 8 (1 / 4 : ℚ)) + 1 < 10
  rw [hframe]
  decide

end Session

end Gamelan
