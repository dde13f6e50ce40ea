import Gamelan.Proofs.Performance.Silence
import Gamelan.Proofs.Session.Operations

namespace Gamelan

/-!
# Strokes to come

What the sequencer has sent since the last cut is on its way to the mixer or waits there for its
frame.

* `Setup.bank` — the bank of a session with its sounds loaded, which says what the commands are.
* `Session.Stocked` — that bank, loaded or not yet.
* `Session.Awaits` — the triggers since the last cut are still to come.
* `Session.awaits_operateAll` — they always are, unless a command is refused.
-/

open Sequencer

variable {τ σ : Type}

/-! ### Events without a cut -/

/-- Events without a cut forget nothing. -/
theorem Mixer.mem_pending_of_events [NatCast τ] [Add τ] [Div τ] [Zero σ] [One σ] [LT σ]
    [DecidableLT σ] [Gain σ] {m : Mixer σ} {p : Pending σ} (hp : p ∈ m.pending)
    (b : SampleBank τ σ) (registry : Registry) {E : List (Event τ)}
    (hE : ∀ e ∈ E, e.cutAt? = none) :
    p ∈ (m.applyAll ((callsOf registry E).filterMap b.command?)).pending :=
  Mixer.mem_pending_applyAll hp
    (SampleBank.cancel_not_mem_filterMap (cancel_not_mem_callsOf hE))

/-! ### The sounds of a session -/

section
variable [NatCast τ] [Mul τ] [LT τ] [DecidableLT τ] [FrameRounding τ]

/-- The bank of a session before anything is sent, with its sounds loaded. -/
def Setup.bank (setup : Setup σ) : SampleBank τ σ :=
  (SampleBank.new setup.registry (frameAt setup.rate) setup.source (.empty setup.capacity)).prime.1

/-- Loading the sounds of a bank leaves its instruments and its frames as they were. -/
theorem Setup.bank_frame (setup : Setup σ) : ∃ loaded, (setup.bank : SampleBank τ σ) =
    { (.new setup.registry (frameAt setup.rate) setup.source (.empty setup.capacity) :
        SampleBank τ σ) with loaded := loaded, ready := true } :=
  SampleBank.prime_fst _

/-- The bank of a setup has the atomic instruments of its registry. -/
theorem Setup.instruments_bank (setup : Setup σ) : (setup.bank : SampleBank τ σ).instruments =
    setup.registry.atomics.map fun a => (a.id, a.samples) := by
  obtain ⟨loaded, hbank⟩ := setup.bank_frame (τ := τ)
  rw [hbank]
  rfl

theorem Setup.frameOf_bank (setup : Setup σ) :
    (setup.bank : SampleBank τ σ).frameOf = frameAt setup.rate := by
  obtain ⟨loaded, hbank⟩ := setup.bank_frame (τ := τ)
  rw [hbank]
  rfl

namespace Session

/-- Once its sounds are loaded, the bank of a session is that of its setup, but for the commands on
their way and the refusals. -/
def Stocked (setup : Setup σ) (s : Session τ σ) : Prop :=
  ∃ queue dropped,
    s.player.voices.prime.1 =
      { (setup.bank : SampleBank τ σ) with queue := queue, dropped := dropped }

variable {setup : Setup σ}

/-- A new session has the bank of its setup. -/
theorem stocked_ofSetup [One σ] (setup : Setup σ) (timeline : Timeline τ) :
    (ofSetup setup timeline).Stocked setup :=
  ⟨_, _, rfl⟩

/-- Sending has no say in the sounds. -/
theorem Stocked.of_frame {s s' : Session τ σ} (h : s.Stocked setup) {queue : CommandQueue σ}
    {dropped : Nat} (hvoices : s'.player.voices =
      { s.player.voices with queue := queue, dropped := dropped }) : s'.Stocked setup := by
  obtain ⟨_, _, hbank⟩ := h
  refine ⟨queue, dropped, ?_⟩
  rw [hvoices, SampleBank.prime_frame, hbank]

variable [Gain σ]

/-- A session whose voices are ready sends what the bank of its setup says. -/
theorem Stocked.command?_eq {s : Session τ σ} (h : s.Stocked setup)
    (hready : s.player.voices.ready = true) :
    s.player.voices.command? = setup.bank.command? := by
  obtain ⟨queue, dropped, hbank⟩ := h
  rw [SampleBank.prime_of_ready hready] at hbank
  rw [hbank, SampleBank.command?_frame]

variable [Add τ] [Div τ] [BEq τ] [LE τ] [DecidableLE τ]

/-- A request only adds commands, or refusals. -/
theorem Stocked.act {s : Session τ σ} (h : s.Stocked setup) (request : Request τ) :
    (s.act request).1.Stocked setup := by
  have hvoices : (s.act request).1.player.voices = _ := Player.voices_act request s.player
  split at hvoices
  · -- The bank is primed before it handles the calls.
    let primed : Session τ σ :=
      { s with player := { s.player with voices := s.player.voices.prime.1 } }
    have hprimed : primed.Stocked setup := by
      obtain ⟨queue, dropped, hbank⟩ := h
      refine ⟨queue, dropped, ?_⟩
      rw [← hbank]
      exact SampleBank.prime_of_ready (SampleBank.ready_prime _)
    obtain ⟨queue, dropped, hcalls⟩ := SampleBank.handleAll_frame s.player.voices.prime.1
      (calls (s.player.sequencer.act s.player.readyAnswer request).2)
    exact hprimed.of_frame (hvoices.trans hcalls)
  · obtain ⟨queue, dropped, hcalls⟩ := SampleBank.handleAll_frame s.player.voices
      (calls (s.player.sequencer.act s.player.readyAnswer request).2)
    exact h.of_frame (hvoices.trans hcalls)

variable [Zero σ] [One σ] [LT σ] [DecidableLT σ] [Add σ] [Mul σ] [Div σ] [Neg σ] [NatCast σ]

/-- Whatever is done with a session, its bank stays that of the setup. -/
theorem Stocked.operate {s : Session τ σ} (h : s.Stocked setup) (op : Operation τ σ) :
    (s.operate op).Stocked setup := by
  cases op with
  | request request => exact h.act request
  | setVolume volume =>
    obtain ⟨queue, dropped, hsend⟩ := s.player.voices.send_frame (.setVolume volume)
    exact h.of_frame hsend
  | render length =>
    have hvoices : (s.render length).2.player.voices = s.player.voices.emptied := rfl
    exact h.of_frame hvoices

theorem Stocked.operateAll {s : Session τ σ} (h : s.Stocked setup) (ops : List (Operation τ σ)) :
    (s.operateAll ops).Stocked setup :=
  operateAll_induction h (fun _ op hs => hs.operate op) ops

/-- **What a session sends**, whatever has happened to it: once the sequencer has left its idle state,
the commands are those of the bank of the setup. -/
theorem command?_operateAll (setup : Setup σ) (timeline : Timeline τ) (ops : List (Operation τ σ))
    (h : ((ofSetup setup timeline).operateAll ops).player.sequencer.playback ≠ .idle) :
    ((ofSetup setup timeline).operateAll ops).player.voices.command? = setup.bank.command? := by
  have hprimed : ((ofSetup setup timeline).operateAll ops).Primed :=
    Primed.operateAll (.inl rfl) ops
  exact ((stocked_ofSetup setup timeline).operateAll ops).command?_eq (hprimed.resolve_left h)

end Session

end

/-! ### Waiting for their frames -/

namespace Session

section
variable [NatCast τ] [Add τ] [Div τ] [Mul τ] [LT τ] [DecidableLT τ] [FrameRounding τ]
  [Zero σ] [One σ] [LT σ] [DecidableLT σ] [Gain σ] {setup : Setup σ}

/-- Of the points in a history that no cut follows, all triggers whose frames are not over are to
come. -/
def Awaits (setup : Setup σ) (s : Session τ σ) (H : List (Event τ)) : Prop :=
  ∀ before p later, H = before ++ .played p :: later → (∀ e ∈ later, e.cutAt? = none) →
    ∀ voice frame sample,
      .trigger voice frame sample ∈ (p.calls setup.registry).filterMap setup.bank.command? →
        s.mixer.frame ≤ frame → ⟨frame, voice, .start sample⟩ ∈ s.drained.pending

/-- A point puts its triggers among those to come, and they stay there until the next cut. -/
theorem mem_pending_of_played {m : Mixer σ} (hvoices : m.voices.length = setup.registry.atomics.length)
    {before later : List (Event τ)} {p : Played τ} (hlater : ∀ e ∈ later, e.cutAt? = none)
    {voice frame : Nat} {sample : Array σ}
    (htrigger : .trigger voice frame sample ∈
      (p.calls setup.registry).filterMap setup.bank.command?) :
    ⟨frame, voice, .start sample⟩ ∈ (m.applyAll
      ((callsOf setup.registry (before ++ .played p :: later)).filterMap
        setup.bank.command?)).pending := by
  obtain ⟨call, -, hc⟩ := List.mem_filterMap.1 htrigger
  have hvoice : voice < setup.registry.atomics.length := by
    have hlt := SampleBank.lt_of_command?_eq_trigger hc
    rwa [Setup.instruments_bank, List.length_map] at hlt
  have hcancel : ∀ after, .cancel after ∉ (p.calls setup.registry).filterMap
      (setup.bank : SampleBank τ σ).command? := by
    refine SampleBank.cancel_not_mem_filterMap fun after hafter => ?_
    exact cancel_not_mem_callsOf (H := [.played p]) (by simp [Event.cutAt?]) after
      (List.mem_append_left _ hafter)
  -- The point has its commands taken behind those before it, and nothing later cancels them.
  rw [callsOf_append, callsOf_cons, List.filterMap_append, List.filterMap_append,
    Mixer.applyAll_append, Mixer.applyAll_append]
  refine Mixer.mem_pending_of_events ?_ setup.bank setup.registry hlater
  refine Mixer.mem_pending_of_trigger ?_ htrigger hcancel
  rw [Mixer.length_voices_applyAll, hvoices]
  exact hvoice

/-- A volume takes no stroke back. -/
theorem Awaits.setVolume {s : Session τ σ} {H : List (Event τ)} (h : s.Awaits setup H) (volume : σ)
    (hdropped : (s.setVolume volume).1.player.voices.dropped ≤ s.player.voices.dropped) :
    (s.setVolume volume).1.Awaits setup H := by
  have hvoices : (s.setVolume volume).1.player.voices = s.player.voices.queued [.setVolume volume] :=
    SampleBank.send_eq hdropped
  intro before p later hH hlater voice frame sample htrigger hframe
  have hmixer : (s.setVolume volume).1.mixer = s.mixer := rfl
  rw [drained_of_queued hmixer hvoices]
  refine Mixer.mem_pending_applyAll ?_ (by simp)
  exact h before p later hH hlater voice frame sample htrigger hframe

variable [Add σ] [Mul σ] [Div σ] [Neg σ] [NatCast σ]

/-- Rendering carries out nothing ahead of its frame. -/
theorem Awaits.render {s : Session τ σ} {H : List (Event τ)} (h : s.Awaits setup H)
    (horder : InOrder s.mixer.pending) (length : Nat) :
    (s.render length).2.Awaits setup H := by
  intro before p later hH hlater voice frame sample htrigger hframe
  have hnow : (s.render length).2.mixer.frame = s.mixer.frame + s.framesOf length := by
    rw [render_snd]
    show (s.drained.renderFrames _).2.frame = _
    rw [Mixer.frame_renderFrames]
    show (s.mixer.applyAll _).frame + _ = _
    rw [Mixer.frame_applyAll]
  rw [hnow] at hframe
  rw [drained_render]
  refine Mixer.mem_pending_renderFrames (Mixer.inOrder_applyAll horder _) ?_ ?_
  · exact h before p later hH hlater voice frame sample htrigger (by omega)
  · rw [Mixer.frame_applyAll]
    exact hframe

variable [BEq τ] [LawfulBEq τ] [LE τ] [DecidableLE τ]

omit [Add σ] [Mul σ] [Div σ] [Neg σ] [NatCast σ] in
/-- **A request** forgets nothing unless it cuts, and what it sends behind its last cut is to come. -/
theorem Awaits.act {s : Session τ σ} {H : List (Event τ)} (h : s.Awaits setup H)
    (hintact : s.Intact setup) (request : Request τ)
    (hdropped : (s.act request).1.player.voices.dropped ≤ s.player.voices.dropped)
    (hbank : ∀ p, .played p ∈ H ++ s.player.sequencer.events s.player.readyAnswer request →
      (s.act request).1.player.voices.command? = setup.bank.command?) :
    (s.act request).1.Awaits setup
      (H ++ s.player.sequencer.events s.player.readyAnswer request) := by
  intro before p later hH hlater voice frame sample htrigger hframe
  have hcommands := hbank p (hH ▸ List.mem_append_right _ (List.mem_cons_self ..))
  rw [drained_act request hdropped, calls_act, hintact.registry_eq, hcommands]
  rcases cases_of_append_eq hH with ⟨later', hold, rfl⟩ | ⟨before', hnew⟩
  · -- A point played before the request, which then makes no cut.
    refine Mixer.mem_pending_of_events ?_ setup.bank setup.registry fun e he =>
      hlater e (List.mem_append_right _ he)
    exact h before p later' hold (fun e he => hlater e (List.mem_append_left _ he)) voice frame
      sample htrigger hframe
  · -- A point that the request itself plays.
    rw [hnew]
    refine mem_pending_of_played ?_ hlater htrigger
    rw [drained, Mixer.length_voices_applyAll]
    exact hintact.length_eq

/-- **What was sent since the last cut is to come**, whatever else has happened to a session, unless
a command was refused. -/
theorem awaits_operateAll (setup : Setup σ) (timeline : Timeline τ) (ops : List (Operation τ σ))
    (hdropped : ((ofSetup setup timeline).operateAll ops).player.voices.dropped = 0) :
    ((ofSetup setup timeline).operateAll ops).Awaits setup
      (history (ops.filterMap Operation.asked?) (Sequencer.new timeline setup.registry)) := by
  -- Strokes are lost by what comes behind them, so the induction is on the last operation.
  induction ops using List.reverseRecOn with
  | nil =>
    intro before p later hH
    simp [history] at hH
  | append_singleton ops op ih =>
    let s := (ofSetup setup timeline).operateAll ops
    have hlast : (ofSetup setup timeline).operateAll (ops ++ [op]) = s.operate op :=
      List.foldl_append
    have hle : s.player.voices.dropped ≤ (s.operate op).player.voices.dropped :=
      dropped_le_operate s op
    have hs : s.player.voices.dropped = 0 := by
      rw [← hlast, hdropped] at hle
      exact Nat.le_zero.1 hle
    have hnone : (s.operate op).player.voices.dropped ≤ s.player.voices.dropped := by
      rw [← hlast, hdropped]
      exact Nat.zero_le _
    have hintact : s.Intact setup := intact_operateAll setup timeline ops
    cases op with
    | request request =>
      have hready : s.player.readyAnswer = true :=
        (Primed.operateAll (s := ofSetup setup timeline) (.inl rfl) ops).readyAnswer
      have hsequencer : s.player.sequencer = _ := sequencer_ofSetup setup timeline ops
      have hhistory : history ((ops ++ [Operation.request request]).filterMap Operation.asked?)
          (Sequencer.new timeline setup.registry) =
          history (ops.filterMap Operation.asked?) (Sequencer.new timeline setup.registry) ++
            s.player.sequencer.events s.player.readyAnswer request := by
        rw [List.filterMap_append, history_append, ← hsequencer, hready]
        exact congrArg _ (List.append_nil _)
      rw [hhistory, hlast]
      -- If a point was played, the sequencer has left its idle state and the bank is loaded.
      refine (ih hs).act hintact request hnone fun p hp => ?_
      rw [← hhistory] at hp
      show (s.operate (.request request)).player.voices.command? = _
      rw [← hlast]
      refine command?_operateAll setup timeline _ ?_
      rw [sequencer_ofSetup]
      exact ne_idle_of_played _ _ hp
    | setVolume volume =>
      rw [hlast, List.filterMap_append, List.filterMap_cons_none rfl, List.filterMap_nil,
        List.append_nil]
      exact (ih hs).setVolume volume hnone
    | render length =>
      rw [hlast, List.filterMap_append, List.filterMap_cons_none rfl, List.filterMap_nil,
        List.append_nil]
      exact (ih hs).render hintact.order length

end

end Session

end Gamelan
