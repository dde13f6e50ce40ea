import Gamelan.Proofs.Performance.Pass
import Gamelan.Proofs.Sound.Cut
import Gamelan.Proofs.Sound.Frames
import Gamelan.Session

namespace Gamelan.Session

/-!
# Operations on a session

A session can be asked for anything, in any order, and blocks of any length can be rendered in
between.

* `Operation`, `operateAll` — what can happen to a session.
* `sequencer_ofSetup` — what they make of the sequencer.
* `drained` — the mixer of a session once it has taken the commands on their way.
* `Intact`, `intact_operateAll` — what holds of a session whatever has happened to it.
-/

open Sequencer

variable {τ σ : Type}

/-- Something that can happen to a session. -/
inductive Operation (τ σ : Type) where
  | request (request : Request τ)
  | setVolume (volume : σ)
  /-- Render a buffer of so many samples. -/
  | render (length : Nat)

/-- The request of an operation, if it is one, with the answer of the voices that they are ready. -/
def Operation.asked? : Operation τ σ → Option (Bool × Request τ)
  | .request r => some (true, r)
  | .setVolume _ => none
  | .render _ => none

/-! ### What always holds -/

section
variable [NatCast τ] [Mul τ] [LT τ] [DecidableLT τ] [FrameRounding τ]

/-- The parts of a session fit together as they did at the beginning: a voice for each atomic
instrument, frames counted at the rate of the session, events in order and no fade too long. -/
structure Intact (setup : Setup σ) (s : Session τ σ) : Prop where
  registry_eq : s.player.sequencer.registry = setup.registry
  instruments_eq :
    s.player.voices.instruments = setup.registry.atomics.map fun a => (a.id, a.samples)
  frameOf_eq : s.player.voices.frameOf = frameAt setup.rate
  rate_eq : s.rate = setup.rate
  length_eq : s.mixer.voices.length = setup.registry.atomics.length
  channels_eq : s.mixer.channels = max 1 setup.channels
  fadeFrames_eq : s.mixer.fadeFrames = max 1 setup.fadeFrames
  order : InOrder s.mixer.pending
  fades : s.mixer.FadesShort

variable {setup : Setup σ}

/-- A new session is as its setup says. -/
theorem intact_ofSetup [One σ] (setup : Setup σ) (timeline : Timeline τ) :
    (ofSetup setup timeline).Intact setup where
  registry_eq := rfl
  instruments_eq := rfl
  frameOf_eq := rfl
  rate_eq := rfl
  length_eq := List.length_replicate
  channels_eq := rfl
  fadeFrames_eq := rfl
  order := List.Pairwise.nil
  fades := by
    intro v hv s left hs
    rw [List.eq_of_mem_replicate hv] at hs
    cases hs

theorem Intact.setVolume {s : Session τ σ} (h : s.Intact setup) (volume : σ) :
    (s.setVolume volume).1.Intact setup := by
  obtain ⟨queue, dropped, hsend⟩ := s.player.voices.send_frame (.setVolume volume)
  have hvoices : (s.setVolume volume).1.player.voices =
      { s.player.voices with queue := queue, dropped := dropped } := hsend
  refine ⟨h.registry_eq, ?_, ?_, h.rate_eq, h.length_eq, h.channels_eq, h.fadeFrames_eq, h.order,
    h.fades⟩
  · rw [hvoices]
    exact h.instruments_eq
  · rw [hvoices]
    exact h.frameOf_eq

end

/-! ### Requests -/

section

/-- The voices have been primed, unless the sequencer is idle. -/
def Primed (s : Session τ σ) : Prop :=
  s.player.sequencer.playback = .idle ∨ s.player.voices.ready = true

/-- Voices that were primed answer that they are ready. -/
theorem Primed.readyAnswer [Gain σ] {s : Session τ σ} (h : s.Primed) :
    s.player.readyAnswer = true := by
  rw [Player.readyAnswer]
  split
  · rfl
  · next hidle => exact h.resolve_left hidle

variable [Gain σ] [NatCast τ] [Add τ] [Div τ] [BEq τ] [LE τ] [DecidableLE τ] [LT τ] [DecidableLT τ]

/-- Refusals are never taken back. -/
theorem dropped_le_act (request : Request τ) (s : Session τ σ) :
    s.player.voices.dropped ≤ (s.act request).1.player.voices.dropped := by
  obtain ⟨loaded, ready, hvoices⟩ := Player.voices_act_frame request s.player
  show _ ≤ (s.player.act request).1.voices.dropped
  rw [hvoices]
  exact SampleBank.dropped_le_handleAll { s.player.voices with loaded := loaded, ready := ready } _

/-- A request that leaves the idle state primes the voices. -/
theorem Primed.act {s : Session τ σ} (h : s.Primed) (request : Request τ) :
    (s.act request).1.Primed := by
  have hvoices : (s.act request).1.player.voices = _ := Player.voices_act request s.player
  -- A bank that is ready stays so, whatever it is called for.
  have hready : ∀ b : SampleBank τ σ, b.ready = true →
      ∀ calls, (b.handleAll calls).ready = true := by
    intro b hb calls
    obtain ⟨queue, dropped, hcalls⟩ := b.handleAll_frame calls
    rw [hcalls]
    exact hb
  split at hvoices
  · right
    rw [hvoices]
    exact hready _ (SampleBank.ready_prime _) _
  · next hstays =>
    rcases h with hidle | hprimed
    · exact .inl (Decidable.byContradiction fun hne => hstays ⟨hidle, hne⟩)
    · right
      rw [hvoices]
      exact hready _ hprimed _

/-- A session whose queue has no bound, and which has refused no command. -/
structure RefusesNothing (s : Session τ σ) : Prop where
  capacity : s.player.voices.queue.capacity = none
  dropped : s.player.voices.dropped = 0

/-- A queue without a bound refuses no command of a request. -/
theorem RefusesNothing.act {s : Session τ σ} (h : s.RefusesNothing) (request : Request τ) :
    (s.act request).1.RefusesNothing := by
  obtain ⟨loaded, ready, hvoices⟩ := Player.voices_act_frame request s.player
  have hall := SampleBank.handleAll_of_unbounded
    (b := { s.player.voices with loaded := loaded, ready := ready }) h.capacity
    (calls (s.player.sequencer.act s.player.readyAnswer request).2)
  rw [← hvoices] at hall
  exact ⟨hall.1, hall.2.trans h.dropped⟩

/-- A request only sends commands. -/
theorem Intact.act [Mul τ] [FrameRounding τ] {setup : Setup σ} {s : Session τ σ}
    (h : s.Intact setup) (request : Request τ) : (s.act request).1.Intact setup := by
  -- The bank may be primed, and handles some calls.
  have hframe : ∃ loaded ready queue dropped, (s.act request).1.player.voices =
      { s.player.voices with
        loaded := loaded, ready := ready, queue := queue, dropped := dropped } := by
    obtain ⟨loaded, ready, hact⟩ := Player.voices_act_frame request s.player
    obtain ⟨queue, dropped, hcalls⟩ :=
      SampleBank.handleAll_frame { s.player.voices with loaded := loaded, ready := ready }
        (calls (s.player.sequencer.act s.player.readyAnswer request).2)
    exact ⟨loaded, ready, queue, dropped, hact.trans hcalls⟩
  obtain ⟨loaded, ready, queue, dropped, hvoices⟩ := hframe
  refine ⟨?_, ?_, ?_, h.rate_eq, h.length_eq, h.channels_eq, h.fadeFrames_eq, h.order, h.fades⟩
  · exact (registry_act _ request s.player.sequencer).trans h.registry_eq
  · rw [hvoices]
    exact h.instruments_eq
  · rw [hvoices]
    exact h.frameOf_eq

end

/-! ### Blocks -/

section

/-- How many frames a buffer takes. -/
def framesOf (s : Session τ σ) (length : Nat) : Nat :=
  (length + s.mixer.channels - 1) / s.mixer.channels

/-- The samples of a block are its frames, on each channel. -/
theorem framesOf_mul {s : Session τ σ} (h : 0 < s.mixer.channels) (block : Nat) :
    s.framesOf (block * s.mixer.channels) = block :=
  Mixer.frames_of_block h block

variable [Zero σ] [One σ] [LT σ] [DecidableLT σ]

/-- The mixer once it has taken the commands on their way. -/
def drained (s : Session τ σ) : Mixer σ :=
  s.mixer.applyAll s.player.voices.queue.commands

/-- With nothing on its way, the mixer has taken all it is sent. -/
theorem drained_of_empty {s : Session τ σ} (h : s.player.voices.queue.commands = []) :
    s.drained = s.mixer := by
  rw [drained, h, Mixer.applyAll_nil]

/-- A request that sends some commands. -/
theorem drained_of_queued {s s' : Session τ σ} {cs : List (Command σ)}
    (hmixer : s'.mixer = s.mixer) (hvoices : s'.player.voices = s.player.voices.queued cs) :
    s'.drained = s.drained.applyAll cs := by
  rw [drained, hmixer, hvoices]
  exact Mixer.applyAll_append _ _ _

section
variable [Gain σ] [NatCast τ] [Add τ] [Div τ] [BEq τ] [LE τ] [DecidableLE τ] [LT τ] [DecidableLT τ]

/-- **What a request sends.**  Unless a command is refused, the mixer has those of the calls behind the
others. -/
theorem drained_act (request : Request τ) {s : Session τ σ}
    (hdropped : (s.act request).1.player.voices.dropped ≤ s.player.voices.dropped) :
    (s.act request).1.drained = s.drained.applyAll
      ((calls (s.player.sequencer.act s.player.readyAnswer request).2).filterMap
        (s.act request).1.player.voices.command?) := by
  obtain ⟨loaded, ready, hvoices⟩ := Player.voices_act_frame request s.player
  let b : SampleBank τ σ := { s.player.voices with loaded := loaded, ready := ready }
  have hsent : (s.act request).1.player.voices = b.queued
      ((calls (s.player.sequencer.act s.player.readyAnswer request).2).filterMap b.command?) :=
    hvoices.trans (SampleBank.handleAll_eq (b := b) (hvoices ▸ hdropped))
  rw [hsent, SampleBank.command?_queued, drained, drained, hsent]
  exact Mixer.applyAll_append _ _ _

/-- A request whose last calls are those of a cut. -/
theorem drained_act_of_cut [Mul τ] [FrameRounding τ] {setup : Setup σ} {s : Session τ σ}
    (hs : s.Intact setup) {request : Request τ} {before : List (VoiceCall τ)} {time : τ}
    (hcalls : calls (s.player.sequencer.act s.player.readyAnswer request).2 =
      before ++ cut s.player.sequencer.registry time)
    (hdropped : (s.act request).1.player.voices.dropped ≤ s.player.voices.dropped) :
    (s.act request).1.drained =
      (s.drained.applyAll (before.filterMap (s.act request).1.player.voices.command?)).applyAll
        (.cancel (frameAt setup.rate time) ::
          ((s.act request).1.player.voices.sweptVoices setup.registry).map
            (Command.release · (frameAt setup.rate time))) := by
  rw [drained_act request hdropped, hcalls, hs.registry_eq, List.filterMap_append,
    SampleBank.command?_cut, (hs.act request).frameOf_eq, Mixer.applyAll_append]

end

variable [Add σ] [Mul σ] [Div σ] [Neg σ] [NatCast σ]

/-- A session after a buffer. -/
theorem render_snd (s : Session τ σ) (length : Nat) :
    (s.render length).2 =
      { s with
        mixer := (s.drained.renderFrames (s.framesOf length)).2
        player := { s.player with voices := s.player.voices.emptied } } := by
  rw [framesOf, drained, ← Mixer.process_snd]
  rfl

/-- To render is to take what is on its way and to render frames. -/
theorem drained_render (s : Session τ σ) (length : Nat) :
    (s.render length).2.drained = (s.drained.renderFrames (s.framesOf length)).2 := by
  rw [render_snd]
  rfl

/-- A buffer of a number of frames. -/
theorem render_fst {s : Session τ σ} (h : 0 < s.mixer.channels) (block : Nat) :
    (s.render (block * s.mixer.channels)).1 =
      Mixer.spread s.mixer.channels (s.drained.renderFrames block).1 := by
  show (s.mixer.process _ _).1 = _
  rw [Mixer.process_eq h]
  rfl

/-- Rendering keeps the parts of a session together. -/
theorem Intact.render [NatCast τ] [Mul τ] [LT τ] [DecidableLT τ] [FrameRounding τ] {setup : Setup σ}
    {s : Session τ σ} (h : s.Intact setup) (length : Nat) :
    (s.render length).2.Intact setup := by
  rw [render_snd]
  refine ⟨h.registry_eq, h.instruments_eq, h.frameOf_eq, h.rate_eq, ?_, ?_, ?_, ?_, ?_⟩
  · simpa [drained] using h.length_eq
  · simpa [drained] using h.channels_eq
  · simpa [drained] using h.fadeFrames_eq
  · exact Mixer.inOrder_renderFrames (Mixer.inOrder_applyAll h.order _) _
  · exact (h.fades.applyAll _).renderFrames _

end

/-! ### Operations -/

section
variable [Zero σ] [One σ] [LT σ] [DecidableLT σ] [Add σ] [Mul σ] [Div σ] [Neg σ] [NatCast σ]
  [Gain σ] [NatCast τ] [Add τ] [Div τ] [BEq τ] [LE τ] [DecidableLE τ] [LT τ] [DecidableLT τ]

/-- A session after an operation. -/
def operate (s : Session τ σ) : Operation τ σ → Session τ σ
  | .request request => (s.act request).1
  | .setVolume volume => (s.setVolume volume).1
  | .render length => (s.render length).2

/-- A session after some operations. -/
def operateAll (s : Session τ σ) (ops : List (Operation τ σ)) : Session τ σ :=
  ops.foldl operate s

/-- What every operation keeps, some operations keep. -/
theorem operateAll_induction {motive : Session τ σ → Prop} {s : Session τ σ} (h : motive s)
    (hoperate : ∀ s op, motive s → motive (s.operate op)) (ops : List (Operation τ σ)) :
    motive (s.operateAll ops) := by
  induction ops generalizing s with
  | nil => exact h
  | cons op rest ih => exact ih (hoperate s op h)

/-- Whatever is done with a session, its voices stay primed. -/
theorem Primed.operate {s : Session τ σ} (h : s.Primed) (op : Operation τ σ) :
    (s.operate op).Primed := by
  cases op with
  | request request => exact h.act request
  | setVolume volume =>
    obtain ⟨queue, dropped, hsend⟩ := s.player.voices.send_frame (.setVolume volume)
    refine h.imp_right fun hready => ?_
    show (s.player.voices.send (.setVolume volume)).1.ready = true
    rw [hsend]
    exact hready
  | render length => exact h

theorem Primed.operateAll {s : Session τ σ} (h : s.Primed) (ops : List (Operation τ σ)) :
    (s.operateAll ops).Primed :=
  operateAll_induction h (fun _ op hs => hs.operate op) ops

/-- **The voices are ready whenever they are asked**, so the sequencer of a session goes through the
requests as if it were alone. -/
theorem Primed.sequencer_operateAll {s : Session τ σ} (h : s.Primed) (ops : List (Operation τ σ)) :
    (s.operateAll ops).player.sequencer =
      (run (ops.filterMap Operation.asked?) s.player.sequencer).1 := by
  induction ops generalizing s with
  | nil => rfl
  | cons op rest ih =>
    have hrest := ih (h.operate op)
    cases op with
    | request request =>
      -- The answer that the bank gives is the one that the run is given.
      have hfirst : (s.act request).1.player.sequencer =
          (s.player.sequencer.act true request).1 := by
        rw [← h.readyAnswer]
        rfl
      show ((s.operate (.request request)).operateAll rest).player.sequencer =
        (run (rest.filterMap Operation.asked?) (s.player.sequencer.act true request).1).1
      rw [← hfirst]
      exact hrest
    | setVolume volume => exact hrest
    | render length => exact hrest

/-- The sequencer of a session, whatever has happened to it. -/
theorem sequencer_ofSetup [Mul τ] [FrameRounding τ] (setup : Setup σ) (timeline : Timeline τ)
    (ops : List (Operation τ σ)) :
    ((ofSetup setup timeline).operateAll ops).player.sequencer =
      (run (ops.filterMap Operation.asked?) (Sequencer.new timeline setup.registry)).1 :=
  Primed.sequencer_operateAll (.inl rfl) ops

theorem dropped_le_operate (s : Session τ σ) (op : Operation τ σ) :
    s.player.voices.dropped ≤ (s.operate op).player.voices.dropped := by
  cases op with
  | request request => exact dropped_le_act request s
  | setVolume volume => exact SampleBank.dropped_le_send _ _
  | render length => exact Nat.le_refl _

theorem RefusesNothing.operate {s : Session τ σ} (h : s.RefusesNothing) (op : Operation τ σ) :
    (s.operate op).RefusesNothing := by
  cases op with
  | request request => exact h.act request
  | setVolume volume =>
    have hvoices : (s.operate (.setVolume volume)).player.voices =
        s.player.voices.queued [.setVolume volume] := SampleBank.send_of_unbounded h.capacity _
    exact ⟨by rw [hvoices]; exact h.capacity, by rw [hvoices]; exact h.dropped⟩
  | render length => exact ⟨h.capacity, h.dropped⟩

/-- A queue without a bound refuses nothing. -/
theorem RefusesNothing.operateAll {s : Session τ σ} (h : s.RefusesNothing)
    (ops : List (Operation τ σ)) : (s.operateAll ops).RefusesNothing :=
  operateAll_induction h (fun _ op hs => hs.operate op) ops

variable [Mul τ] [FrameRounding τ] {setup : Setup σ}

/-- **Whatever is done with a session**, its parts fit together. -/
theorem Intact.operate {s : Session τ σ} (h : s.Intact setup) (op : Operation τ σ) :
    (s.operate op).Intact setup := by
  cases op with
  | request request => exact h.act request
  | setVolume volume => exact h.setVolume volume
  | render length => exact h.render length

/-- So they do after a whole run. -/
theorem Intact.operateAll {s : Session τ σ} (h : s.Intact setup) (ops : List (Operation τ σ)) :
    (s.operateAll ops).Intact setup :=
  operateAll_induction h (fun _ op hs => hs.operate op) ops

/-- **Whatever happens to a session**, its parts fit together. -/
theorem intact_operateAll (setup : Setup σ) (timeline : Timeline τ)
    (ops : List (Operation τ σ)) : ((ofSetup setup timeline).operateAll ops).Intact setup :=
  (intact_ofSetup setup timeline).operateAll ops

end

/-! ### A short session -/

/-- The short piece at eight frames a second, with a click for every stroke. -/
def shortSetup : Setup Float32 where
  registry := duo
  rate := 8
  channels := 2
  fadeFrames := 1
  ceiling := 1
  capacity := none
  source := ⟨none, fun _ => #[1]⟩

/-- A session with the short piece. -/
def shortSession (ops : List (Operation ℚ Float32)) : Session ℚ Float32 :=
  (ofSetup shortSetup (.ofScore shortPiece)).operateAll ops

/-- The queue of the short session has no bound. -/
theorem refusesNothing_shortSession (ops : List (Operation ℚ Float32)) :
    (shortSession ops).RefusesNothing :=
  RefusesNothing.operateAll ⟨rfl, rfl⟩ ops

/-- The sequencer of the short session has had its requests, and nothing else. -/
theorem sequencer_shortSession (ops : List (Operation ℚ Float32)) :
    (shortSession ops).player.sequencer =
      (run (ops.filterMap Operation.asked?) duoSequencer).1 :=
  sequencer_ofSetup _ _ ops

end Gamelan.Session
