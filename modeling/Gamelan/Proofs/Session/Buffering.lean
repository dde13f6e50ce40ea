import Gamelan.Proofs.Performance.Outlook
import Gamelan.Proofs.Session.Operations

namespace Gamelan.Session

/-!
# Buffering

A program polls a session some way ahead of the clock and then renders a block.  If it looks ahead
for at least a block, every command is there before the frame that it is about, and the frames are
those of a mixer that had all commands from the start.

* `Foresees` — the mixer that has taken all commands to come.
* `Foresees.step` — a step renders the next frames of that mixer.
* `take_steps_eq` — so neither the block nor the way ahead can be heard.
-/

open Sequencer

variable {σ : Type}

/-! ### Commands in time -/

/-- The command of a call for an instant after a frame leaves alone what comes before that frame. -/
theorem notBefore_of_isAfter [Gain σ] {b : SampleBank ℚ σ} {rate frame : Nat} {time : ℚ}
    (hframeOf : b.frameOf = frameAt rate) (htime : (frame : ℚ) ≤ time * rate) {call : VoiceCall ℚ}
    (hcall : call.IsAfter time) {c : Command σ} (hc : b.command? call = some c) :
    c.NotBefore frame := by
  -- Instants are rounded to frames in order.
  have hle : ∀ x : ℚ, time < x → frame ≤ b.frameOf x := by
    intro x hx
    have hmul : time * (rate : ℚ) ≤ x * rate :=
      mul_le_mul_of_nonneg_right hx.le (Nat.cast_nonneg rate)
    rw [hframeOf]
    exact le_frameAt (htime.trans hmul)
  cases call with
  | trigger instrument slot x =>
    obtain ⟨voice, -, hc⟩ := Option.bind_eq_some_iff.1 hc
    obtain ⟨sample, -, rfl⟩ := Option.map_eq_some_iff.1 hc
    exact hle x hcall
  | release instrument x =>
    obtain ⟨voice, -, rfl⟩ := Option.map_eq_some_iff.1 hc
    exact hle x hcall
  | setLevel instrument level => exact hcall.elim
  | cancel after =>
    obtain rfl := Option.some.inj hc
    exact hle after hcall

/-- A block ahead of the clock is at the end of the block, or later. -/
theorem frame_le_now_add {s : Session ℚ σ} {lookahead : ℚ} {block : Nat}
    (h : (block : ℚ) ≤ lookahead * s.rate) (hpos : 0 < block) :
    ((s.mixer.frame + block : Nat) : ℚ) ≤ (s.now + lookahead) * s.rate := by
  have hrate : 0 < s.rate := by
    rcases Nat.eq_zero_or_pos s.rate with hzero | hrate
    · rw [hzero, Nat.cast_zero, mul_zero] at h
      exact absurd (Nat.cast_pos.2 hpos) (not_lt.2 h)
    · exact hrate
  have hnow : s.now * s.rate = (s.mixer.frame : ℚ) := by
    have hne : (s.rate : ℚ) ≠ 0 := Nat.cast_ne_zero.2 hrate.ne'
    rw [now, frameTime, max_eq_right hrate]
    exact div_mul_cancel₀ _ hne
  rw [add_mul, hnow, Nat.cast_add]
  linarith

/-! ### All commands at once -/

variable [Zero σ] [One σ] [LT σ] [DecidableLT σ] [Gain σ]

/-- The commands of some events, as a session sends them. -/
def commandsOf (s : Session ℚ σ) (E : List (Event ℚ)) : List (Command σ) :=
  (callsOf s.player.sequencer.registry E).filterMap s.player.voices.command?

/-- A mixer that has taken, at once, the commands on their way and all those that a session sends
if it is only polled from now on. -/
structure Foresees (setup : Setup σ) (s : Session ℚ σ) (m : Mixer σ) : Prop where
  intact : s.Intact setup
  coming : ∃ E, Outlook s.player.sequencer E ∧ m = s.drained.applyAll (s.commandsOf E)

variable {setup : Setup σ}

/-- A poll sends the first of the commands to come, and those left are about instants after its
horizon. -/
theorem Foresees.poll {s : Session ℚ σ} {m : Mixer σ} (h : s.Foresees setup m) (horizon : ℚ)
    (hdropped : (s.act (.poll horizon)).1.player.voices.dropped ≤ s.player.voices.dropped) :
    ∃ E, Outlook (s.act (.poll horizon)).1.player.sequencer E ∧
      m = (s.act (.poll horizon)).1.drained.applyAll
        ((s.act (.poll horizon)).1.commandsOf E) ∧
      ∀ registry, ∀ call ∈ callsOf registry E, call.IsAfter horizon := by
  obtain ⟨E, hE, rfl⟩ := h.coming
  obtain ⟨later, hsplit, hlater, hafter⟩ := hE.poll s.player.readyAnswer horizon
  refine ⟨later, hlater, ?_, hafter⟩
  -- What the poll sends joins the commands on their way; the bank reads later calls as before.
  have hvoices : (s.act (.poll horizon)).1.player.voices = s.player.voices.queued
      (s.commandsOf (s.player.sequencer.events s.player.readyAnswer (.poll horizon))) := by
    rw [commandsOf, ← calls_act]
    exact Player.voices_act_of_ne_idle (.poll horizon) s.player hE.ne_idle hdropped
  have hrest : (s.act (.poll horizon)).1.commandsOf later = s.commandsOf later := by
    have hregistry : (s.act (.poll horizon)).1.player.sequencer.registry =
        s.player.sequencer.registry :=
      registry_act s.player.readyAnswer (.poll horizon) s.player.sequencer
    rw [commandsOf, commandsOf, hvoices, hregistry, SampleBank.command?_queued]
  have hmixer : (s.act (.poll horizon)).1.mixer = s.mixer := rfl
  rw [drained_of_queued hmixer hvoices, hrest, ← Mixer.applyAll_append, hsplit, commandsOf,
    callsOf_append, List.filterMap_append]
  rfl

/-- A session that has just been asked to play. -/
theorem foresees_play (setup : Setup σ) (timeline : Timeline ℚ) (start : ℚ) :
    ∃ m, ((ofSetup setup timeline).act (.play start)).1.Foresees setup m := by
  have hplay : ((ofSetup setup timeline).act (.play start)).1.player.sequencer =
      started start { Sequencer.new timeline setup.registry with startPending := false } :=
    (act_play_of_idle (s := Sequencer.new timeline setup.registry) start rfl).1
  have hlook : ∃ E, Outlook ((ofSetup setup timeline).act (.play start)).1.player.sequencer E := by
    rw [hplay]
    exact ⟨_, .underWay (ticking_started start _) (Nat.cast_nonneg defaultTempo)⟩
  obtain ⟨E, hE⟩ := hlook
  exact ⟨_, (intact_ofSetup setup timeline).act _, E, hE, rfl⟩

/-! ### Steps -/

variable [Add σ] [Mul σ] [Div σ] [Neg σ] [NatCast σ]

theorem dropped_le_steps (lookahead : ℚ) (block count : Nat) (s : Session ℚ σ) :
    s.player.voices.dropped ≤ (s.steps lookahead block count).2.1.player.voices.dropped := by
  induction count generalizing s with
  | zero => exact Nat.le_refl _
  | succ count ih =>
    exact Nat.le_trans (dropped_le_act (.poll (s.now + lookahead)) s)
      (ih (s.step lookahead block).2.1)

/-- A queue without a bound takes all commands of a loop. -/
theorem RefusesNothing.steps {s : Session ℚ σ} (h : s.RefusesNothing) (lookahead : ℚ)
    (block count : Nat) : (s.steps lookahead block count).2.1.RefusesNothing := by
  induction count generalizing s with
  | zero => exact h
  | succ count ih =>
    let polled := (s.act (.poll (s.now + lookahead))).1
    have hpolled : polled.RefusesNothing := h.act _
    exact ih (hpolled.operate (.render (block * polled.mixer.channels)))

/-- **A step renders the next frames** of the mixer that has taken all commands to come. -/
theorem Foresees.step {s : Session ℚ σ} {m : Mixer σ} (h : s.Foresees setup m) {lookahead : ℚ}
    {block : Nat} (hblock : (block : ℚ) ≤ lookahead * setup.rate)
    (hdropped : (s.step lookahead block).2.1.player.voices.dropped ≤ s.player.voices.dropped) :
    (s.step lookahead block).1 =
        Mixer.spread (max 1 setup.channels) (m.renderFrames block).1 ∧
      (s.step lookahead block).2.1.Foresees setup (m.renderFrames block).2 := by
  -- A step is a poll and a block.
  let polled := (s.act (.poll (s.now + lookahead))).1
  have hstep : s.step lookahead block =
      ((polled.render (block * polled.mixer.channels)).1,
        (polled.render (block * polled.mixer.channels)).2,
        (s.act (.poll (s.now + lookahead))).2) := rfl
  have hpolled : polled.Intact setup := h.intact.act _
  have hchannels : polled.mixer.channels = max 1 setup.channels := hpolled.channels_eq
  have hpos : 0 < polled.mixer.channels := by
    rw [hchannels]
    exact Nat.lt_of_lt_of_le Nat.one_pos (Nat.le_max_left _ _)
  obtain ⟨E, hE, hm, hafter⟩ := h.poll (s.now + lookahead) hdropped
  -- The commands to come are about frames after the block, so the block is the same without them.
  have hlater : 0 < block → ∀ c ∈ polled.commandsOf E,
      c.NotBefore (polled.drained.frame + block) := by
    intro hblockPos c hc
    obtain ⟨call, hcall, hc⟩ := List.mem_filterMap.1 hc
    have hframe :
        ((polled.drained.frame + block : Nat) : ℚ) ≤ (s.now + lookahead) * setup.rate := by
      rw [drained, Mixer.frame_applyAll, ← h.intact.rate_eq]
      exact frame_le_now_add (h.intact.rate_eq ▸ hblock) hblockPos
    exact notBefore_of_isAfter hpolled.frameOf_eq hframe (hafter _ call hcall) hc
  have hframes : m.renderFrames block = ((polled.drained.renderFrames block).1,
      (polled.drained.renderFrames block).2.applyAll (polled.commandsOf E)) := by
    rw [hm]
    exact Mixer.renderFrames_applyAll (Mixer.inOrder_applyAll hpolled.order _) block hlater
  have hdrained : (polled.render (block * polled.mixer.channels)).2.drained =
      (polled.drained.renderFrames block).2 := by
    rw [drained_render, framesOf_mul hpos]
  rw [hstep, hframes]
  refine ⟨?_, hpolled.render _, E, hE, ?_⟩
  · rw [render_fst hpos, hchannels]
  · rw [hdrained]
    rfl

/-- Some steps render the frames of that mixer. -/
theorem Foresees.steps {s : Session ℚ σ} {m : Mixer σ} (h : s.Foresees setup m) {lookahead : ℚ}
    {block : Nat} (hblock : (block : ℚ) ≤ lookahead * setup.rate) {count : Nat}
    (hdropped : (s.steps lookahead block count).2.1.player.voices.dropped ≤
      s.player.voices.dropped) :
    (s.steps lookahead block count).1.flatten =
      Mixer.spread (max 1 setup.channels) (m.renderFrames (count * block)).1 := by
  induction count generalizing s m with
  | zero => rw [Nat.zero_mul]; rfl
  | succ count ih =>
    -- Refusals are never taken back, so none in the end is none in any step.
    have hfirst : s.player.voices.dropped ≤
        (s.step lookahead block).2.1.player.voices.dropped :=
      dropped_le_act (.poll (s.now + lookahead)) s
    have hrest := dropped_le_steps lookahead block count (s.step lookahead block).2.1
    obtain ⟨hsamples, hnext⟩ := h.step hblock (Nat.le_trans hrest hdropped)
    show (s.step lookahead block).1 ++
      ((s.step lookahead block).2.1.steps lookahead block count).1.flatten = _
    rw [hsamples, ih hnext (Nat.le_trans hdropped hfirst), Nat.succ_mul, Nat.add_comm,
      Mixer.renderFrames_add, Mixer.spread_append]

/-! ### Any buffering -/

/-- **The sound does not depend on buffering.**  Two sessions that are asked to play, and then only
polled and rendered block by block, each at least a block ahead of the clock, give the same frames,
however long their blocks are and however far ahead they look, as long as no command is refused. -/
theorem take_steps_eq (setup : Setup σ) (timeline : Timeline ℚ) (start : ℚ)
    {lookahead lookahead' : ℚ} {block block' : Nat}
    (hblock : (block : ℚ) ≤ lookahead * setup.rate)
    (hblock' : (block' : ℚ) ≤ lookahead' * setup.rate) (count count' : Nat) :
    let s := ((ofSetup setup timeline).act (.play start)).1
    let steps := s.steps lookahead block count
    let steps' := s.steps lookahead' block' count'
    let channels := max 1 setup.channels
    steps.2.1.player.voices.dropped = 0 → steps'.2.1.player.voices.dropped = 0 →
      steps.1.flatten.length = count * block * channels ∧
      steps'.1.flatten.length = count' * block' * channels ∧
      ∀ frames ≤ count * block, frames ≤ count' * block' →
        steps.1.flatten.take (frames * channels) = steps'.1.flatten.take (frames * channels) := by
  intro s steps steps' channels hdropped hdropped'
  -- Both render the frames of one mixer, which knows neither the blocks nor the ways ahead.
  obtain ⟨m, hm⟩ := foresees_play setup timeline start
  have hsteps : steps.1.flatten = Mixer.spread channels (m.renderFrames (count * block)).1 :=
    hm.steps hblock (by rw [hdropped]; exact Nat.zero_le _)
  have hsteps' : steps'.1.flatten = Mixer.spread channels (m.renderFrames (count' * block')).1 :=
    hm.steps hblock' (by rw [hdropped']; exact Nat.zero_le _)
  rw [hsteps, hsteps']
  refine ⟨by simp, by simp, fun frames hle hle' => ?_⟩
  rw [Mixer.take_spread_renderFrames channels m hle,
    Mixer.take_spread_renderFrames channels m hle']

/-- The short piece in blocks of two frames and in blocks of three. -/
theorem take_steps_eq_shortPiece :
    let s : Session ℚ Float32 :=
      ((ofSetup shortSetup (.ofScore shortPiece)).act (.play (1 / 3))).1
    (s.steps (1 / 2) 2 3).1.flatten.take 12 = (s.steps (2 / 5) 3 2).1.flatten.take 12 := by
  intro s
  have hs : s.RefusesNothing := RefusesNothing.act ⟨rfl, rfl⟩ _
  have hblock : ((2 : Nat) : ℚ) ≤ 1 / 2 * shortSetup.rate := by norm_num [shortSetup]
  have hblock' : ((3 : Nat) : ℚ) ≤ 2 / 5 * shortSetup.rate := by norm_num [shortSetup]
  have hsame := take_steps_eq shortSetup (.ofScore shortPiece) (1 / 3) hblock hblock' 3 2
    (hs.steps _ _ _).dropped (hs.steps _ _ _).dropped
  exact hsame.2.2 6 (by decide) (by decide)

end Gamelan.Session
