import Gamelan.Proofs.Performance.OnTime
import Gamelan.Proofs.Session.Awaiting
import Gamelan.Proofs.Session.Buffering
import Gamelan.Proofs.Sound.Firing

namespace Gamelan

/-!
# Punctuality

A program polls a session at least a block ahead of the clock, and makes its requests at the clock or
later.  Then the mixer takes every command before the frame that it is about, so whatever is not taken
back is carried out at its own frame.

* `Session.Turn`, `Session.turnAll`, `Session.Timely` — what such a program does.
* `Session.blocks`, `Session.requests` — the calls of its mixer, and the requests to its sequencer.
* `Session.Punctual` — nothing on its way is late.
* `Session.sent_of_turns` — every command sent is taken, on its way or counted as refused.
* `Session.carried_out_on_time` — everything is carried out at its own frame.
-/

open Sequencer

variable {σ : Type}

/-! ### Calls and frames -/

/-- The event of a call that is not before a frame is not before it either. -/
theorem SampleBank.le_frame_of_notBefore [Gain σ] {b : SampleBank ℚ σ} {rate frame : Nat} {time : ℚ}
    (hframeOf : b.frameOf = frameAt rate) (htime : (frame : ℚ) ≤ time * rate) {call : VoiceCall ℚ}
    (hcall : call.NotBefore time) {c : Command σ} (hc : b.command? call = some c) {p : Pending σ}
    (hp : c.event? = some p) : frame ≤ p.frame := by
  -- Instants are rounded to frames in order.
  have hle : ∀ x : ℚ, time ≤ x → frame ≤ b.frameOf x := by
    intro x hx
    have hmul : time * (rate : ℚ) ≤ x * rate :=
      mul_le_mul_of_nonneg_right hx (Nat.cast_nonneg rate)
    rw [hframeOf]
    exact le_frameAt (htime.trans hmul)
  cases call with
  | trigger instrument slot x =>
    obtain ⟨voice, -, hc⟩ := Option.bind_eq_some_iff.1 hc
    obtain ⟨sample, -, rfl⟩ := Option.map_eq_some_iff.1 hc
    cases hp
    exact hle x hcall
  | release instrument x =>
    obtain ⟨voice, -, rfl⟩ := Option.map_eq_some_iff.1 hc
    cases hp
    exact hle x hcall
  -- Levels and cancellations are no events.
  | setLevel instrument level =>
    obtain ⟨voice, -, rfl⟩ := Option.map_eq_some_iff.1 hc
    cases hp
  | cancel after =>
    obtain rfl := Option.some.inj hc
    cases hp

/-- A sequencer that stays idle calls for nothing. -/
theorem Sequencer.Moves.callsOf_eq_nil {request : Request ℚ} {s s' : Sequencer ℚ}
    {H : List (Event ℚ)} (h : Moves request s H s') (hidle : s'.playback = .idle)
    (registry : Registry) : s.playback = .idle ∧ callsOf registry H = [] := by
  induction h with
  | nil => exact ⟨hidle, rfl⟩
  | cons first _ ih =>
    obtain ⟨hmiddle, hrest⟩ := ih hidle
    have hs := by_contra fun hne => first.ne_idle hne hmiddle
    refine ⟨hs, ?_⟩
    rw [callsOf_append, hrest, List.append_nil]
    -- From an idle state, only moves without calls lead to one.
    cases first with
    | toggleMute label hrequest => rfl
    | seek hrequest hindex => rfl
    | setTimeline timeline hrequest => rfl
    | prime h => rfl
    | _ => simp_all

namespace Session

/-! ### Turns -/

/-- What a program does with a session: a step of its loop, or a request between two steps. -/
inductive Turn where
  /-- Poll `lookahead` ahead of the clock, then render `block` frames. -/
  | step (lookahead : ℚ) (block : Nat)
  | request (request : Request ℚ)

section
variable [Gain σ]

/-- Whether a turn comes in time: a step looks ahead for a block at least, and a request that gives an
instant as the present one gives none before the clock. -/
def Turn.Timely (s : Session ℚ σ) : Turn → Prop
  | .step lookahead block => (block : ℚ) ≤ lookahead * s.rate
  | .request r => ∀ time, clock? r = some time → s.now ≤ time

/-- The request that a turn makes of the sequencer. -/
def Turn.asked (s : Session ℚ σ) : Turn → Request ℚ
  | .step lookahead _ => .poll (s.now + lookahead)
  | .request r => r

variable [Zero σ] [One σ] [LT σ] [DecidableLT σ] [Add σ] [Mul σ] [Div σ] [Neg σ] [NatCast σ]

/-- A session after a turn. -/
def turn (s : Session ℚ σ) : Turn → Session ℚ σ
  | .step lookahead block => (s.step lookahead block).2.1
  | .request request => (s.act request).1

/-- A session after some turns. -/
def turnAll (s : Session ℚ σ) (turns : List Turn) : Session ℚ σ :=
  turns.foldl turn s

@[simp] theorem rate_turn (s : Session ℚ σ) (t : Turn) : (s.turn t).rate = s.rate := by
  cases t <;> rfl

/-- Whether some turns all come in time. -/
def Timely (s : Session ℚ σ) : List Turn → Prop
  | [] => True
  | t :: rest => t.Timely s ∧ (s.turn t).Timely rest

/-- The calls of the mixer in some turns. -/
def blocks (s : Session ℚ σ) : List Turn → List (Mixer.Block σ)
  | [] => []
  | .step lookahead block :: rest =>
    ⟨(s.act (.poll (s.now + lookahead))).1.player.voices.queue.commands, block * s.mixer.channels⟩ ::
      (s.turn (.step lookahead block)).blocks rest
  | .request request :: rest => (s.turn (.request request)).blocks rest

/-- The requests to the sequencer in some turns, the polls among them. -/
def requests (s : Session ℚ σ) : List Turn → List (Request ℚ)
  | [] => []
  | t :: rest => t.asked s :: (s.turn t).requests rest

/-- The commands of all calls in some turns, as the bank of a setup sends them. -/
def sent (setup : Setup σ) (s : Session ℚ σ) (turns : List Turn) : List (Command σ) :=
  (calls (run ((s.requests turns).map (true, ·)) s.player.sequencer).2).filterMap setup.bank.command?

/-- The mixer after some turns is the one that was called so. -/
theorem mixer_turnAll (s : Session ℚ σ) (turns : List Turn) :
    (s.turnAll turns).mixer = (s.mixer.processAll (s.blocks turns)).2 := by
  induction turns generalizing s with
  | nil => rfl
  | cons t rest ih =>
    show ((s.turn t).turnAll rest).mixer = _
    rw [ih]
    cases t <;> rfl

/-! ### Nothing is late -/

/-- A session in which nothing on its way is about a frame that has been rendered, and whose sequencer
keeps up with the clock. -/
structure Punctual (setup : Setup σ) (s : Session ℚ σ) : Prop where
  intact : s.Intact setup
  primed : s.Primed
  onTime : s.player.sequencer.OnTime s.now
  frame_le : (s.mixer.frame : ℚ) ≤ s.now * setup.rate
  queued : ∀ c ∈ s.player.voices.queue.commands, ∀ p, c.event? = some p → s.mixer.frame ≤ p.frame

variable {setup : Setup σ} {s : Session ℚ σ}

omit [Zero σ] [LT σ] [DecidableLT σ] [Add σ] [Mul σ] [Div σ] [Neg σ] [NatCast σ] [Gain σ] in
/-- A new session has nothing on its way. -/
theorem punctual_ofSetup (setup : Setup σ) (timeline : Timeline ℚ) :
    (ofSetup setup timeline).Punctual setup where
  intact := intact_ofSetup setup timeline
  primed := .inl rfl
  onTime := .new _ timeline setup.registry
  frame_le := by
    have hzero : ((ofSetup setup timeline).mixer.frame : ℚ) = 0 := Nat.cast_zero
    rw [now, frameTime, hzero]
    simp
  queued := by simp [ofSetup, SampleBank.new, CommandQueue.empty]

omit [Zero σ] [One σ] [LT σ] [DecidableLT σ] [Add σ] [Mul σ] [Div σ] [Neg σ] [NatCast σ] in
/-- What a request sends, and what of it is accepted. -/
theorem exists_accepts_act (s : Session ℚ σ) (request : Request ℚ) :
    ∃ b : SampleBank ℚ σ, ∃ accepted,
      b.queue = s.player.voices.queue ∧ b.dropped = s.player.voices.dropped ∧
      b.command? = (s.act request).1.player.voices.command? ∧
      b.Accepts (s.act request).1.player.voices
        ((calls (s.player.sequencer.act s.player.readyAnswer request).2).filterMap b.command?)
        accepted := by
  obtain ⟨loaded, ready, hvoices⟩ := Player.voices_act_frame request s.player
  let b : SampleBank ℚ σ := { s.player.voices with loaded := loaded, ready := ready }
  have hact : (s.act request).1.player.voices =
      b.handleAll (calls (s.player.sequencer.act s.player.readyAnswer request).2) := hvoices
  obtain ⟨accepted, haccepted⟩ :=
    b.accepts_handleAll (calls (s.player.sequencer.act s.player.readyAnswer request).2)
  rw [← hact] at haccepted
  refine ⟨b, accepted, rfl, rfl, ?_, haccepted⟩
  obtain ⟨queue, dropped, hframe⟩ :=
    b.handleAll_frame (calls (s.player.sequencer.act s.player.readyAnswer request).2)
  rw [hact, hframe, SampleBank.command?_frame]

omit [Zero σ] [One σ] [LT σ] [DecidableLT σ] [Add σ] [Mul σ] [Div σ] [Neg σ] [NatCast σ] in
/-- A request at the clock or later sends nothing that is late. -/
theorem Punctual.act (h : s.Punctual setup) (request : Request ℚ)
    (hrequest : ∀ time, clock? request = some time → s.now ≤ time) :
    (s.act request).1.Punctual setup := by
  have hready : s.player.readyAnswer = true := h.primed.readyAnswer
  obtain ⟨honTime, hcalls⟩ := h.onTime.act request hrequest
  have hintact : (s.act request).1.Intact setup := h.intact.act request
  refine ⟨hintact, h.primed.act request, ?_, h.frame_le, ?_⟩
  · show OnTime s.now (s.player.sequencer.act s.player.readyAnswer request).1
    rw [hready]
    exact honTime
  · obtain ⟨b, accepted, hqueue, -, hcommand, haccepted⟩ := s.exists_accepts_act request
    rw [haccepted.bank_eq]
    show ∀ c ∈ b.queue.commands ++ accepted, _
    rw [hqueue, List.forall_mem_append]
    refine ⟨h.queued, fun c hc p hp => ?_⟩
    -- What is accepted is the command of a call, and calls are not before the clock.
    obtain ⟨call, hcall, hc⟩ := List.mem_filterMap.1 (haccepted.sublist.subset hc)
    rw [hready, calls_act] at hcall
    rw [hcommand] at hc
    exact SampleBank.le_frame_of_notBefore hintact.frameOf_eq h.frame_le (hcalls _ call hcall) hc hp

omit [Zero σ] [One σ] [LT σ] [DecidableLT σ] [Add σ] [Mul σ] [Div σ] [Neg σ] [NatCast σ] in
/-- A poll sends nothing that is late. -/
theorem Punctual.poll (h : s.Punctual setup) (horizon : ℚ) :
    (s.act (.poll horizon)).1.Punctual setup := by
  refine h.act _ fun time htime => ?_
  cases htime

omit [Zero σ] [One σ] [LT σ] [DecidableLT σ] [Add σ] [Mul σ] [Div σ] [Neg σ] [NatCast σ] [Gain σ] in
/-- A block ahead of the clock, the clock has not gone past a block. -/
theorem frameTime_add_le {rate frame block : Nat} {lookahead : ℚ}
    (h : (block : ℚ) ≤ lookahead * rate) :
    (frameTime rate (frame + block) : ℚ) ≤ frameTime rate frame ∨
      (frameTime rate (frame + block) : ℚ) ≤ frameTime rate frame + lookahead := by
  obtain rfl | hrate := Nat.eq_zero_or_pos rate
  · -- Without frames in a second, blocks are empty.
    rw [Nat.cast_zero, mul_zero] at h
    obtain rfl : block = 0 := Nat.le_zero.1 (by exact_mod_cast h)
    exact .inl (le_of_eq rfl)
  · have hpos : (0 : ℚ) < rate := by exact_mod_cast hrate
    right
    rw [frameTime, frameTime, max_eq_right hrate, Nat.cast_add, add_div]
    have hblock : (block : ℚ) / rate ≤ lookahead := (div_le_iff₀ hpos).2 h
    linarith

omit [Zero σ] [One σ] [LT σ] [DecidableLT σ] [Add σ] [Mul σ] [Div σ] [Neg σ] [NatCast σ] [Gain σ] in
/-- The clock is not behind the frames rendered. -/
theorem le_frameTime_add_mul {rate frame block : Nat} {lookahead : ℚ}
    (h : (block : ℚ) ≤ lookahead * rate) (hframe : (frame : ℚ) ≤ frameTime rate frame * rate) :
    ((frame + block : Nat) : ℚ) ≤ frameTime rate (frame + block) * rate := by
  obtain rfl | hrate := Nat.eq_zero_or_pos rate
  · rw [Nat.cast_zero, mul_zero] at h
    obtain rfl : block = 0 := Nat.le_zero.1 (by exact_mod_cast h)
    exact hframe
  · have hne : (rate : ℚ) ≠ 0 := by exact_mod_cast hrate.ne'
    rw [frameTime, max_eq_right hrate, div_mul_cancel₀ _ hne]

/-- A step renders the frames of its block. -/
theorem Intact.frame_step (h : s.Intact setup) (lookahead : ℚ) (block : Nat) :
    (s.step lookahead block).2.1.mixer.frame = s.mixer.frame + block := by
  let polled := (s.act (.poll (s.now + lookahead))).1
  have hpolled : polled.Intact setup := h.act _
  have hpos : 0 < polled.mixer.channels := by
    rw [hpolled.channels_eq]
    exact Nat.lt_of_lt_of_le Nat.one_pos (Nat.le_max_left _ _)
  show (polled.render (block * polled.mixer.channels)).2.mixer.frame = _
  rw [render_snd, framesOf_mul hpos]
  show (polled.drained.renderFrames block).2.frame = _
  rw [Mixer.frame_renderFrames, drained, Mixer.frame_applyAll]
  rfl

/-- The clock after a step. -/
theorem Intact.now_step (h : s.Intact setup) (lookahead : ℚ) (block : Nat) :
    (s.step lookahead block).2.1.now = frameTime s.rate (s.mixer.frame + block) := by
  rw [← h.frame_step lookahead block]
  rfl

/-- **A step** takes nothing too late, and the clock does not overtake the sequencer. -/
theorem Punctual.step (h : s.Punctual setup) {lookahead : ℚ} {block : Nat}
    (hblock : (block : ℚ) ≤ lookahead * s.rate) : (s.step lookahead block).2.1.Punctual setup := by
  have hpolled : (s.act (.poll (s.now + lookahead))).1.Punctual setup := h.poll _
  have hnow := h.intact.now_step lookahead block
  refine ⟨hpolled.intact.render _, hpolled.primed, ?_, ?_, ?_⟩
  · rw [hnow]
    show OnTime _ (s.player.sequencer.act s.player.readyAnswer (.poll (s.now + lookahead))).1
    rw [h.primed.readyAnswer]
    exact (h.onTime.poll (s.now + lookahead)).1 _ (frameTime_add_le hblock)
  · rw [hnow, h.intact.frame_step, ← h.intact.rate_eq]
    refine le_frameTime_add_mul hblock ?_
    have hframe_le := h.frame_le
    rwa [now, ← h.intact.rate_eq] at hframe_le
  · show ∀ c ∈ [], _
    simp

/-- Turns that come in time leave nothing late. -/
theorem Punctual.turn (h : s.Punctual setup) {t : Turn} (ht : t.Timely s) :
    (s.turn t).Punctual setup := by
  cases t with
  | step lookahead block => exact h.step ht
  | request request => exact h.act request ht

theorem Punctual.turnAll (h : s.Punctual setup) {turns : List Turn} (hturns : s.Timely turns) :
    (s.turnAll turns).Punctual setup := by
  induction turns generalizing s with
  | nil => exact h
  | cons t rest ih => exact ih (h.turn hturns.1) hturns.2

/-- **Nothing is taken too late.** -/
theorem Punctual.le_frame_of_mem_drains (h : s.Punctual setup) {turns : List Turn}
    (hturns : s.Timely turns) {d : Drain σ} (hd : d ∈ s.mixer.drains (s.blocks turns))
    {p : Pending σ} (hp : d.command.event? = some p) : d.frame ≤ p.frame := by
  induction turns generalizing s with
  | nil => simp [blocks, Mixer.drains] at hd
  | cons t rest ih =>
    have hrest := ih (h.turn hturns.1) hturns.2
    cases t with
    | request request => exact hrest hd
    | step lookahead block =>
      obtain hd | hd := List.mem_append.1 hd
      · have hpolled : (s.act (.poll (s.now + lookahead))).1.Punctual setup := h.poll _
        obtain ⟨c, hc, rfl⟩ := List.mem_map.1 hd
        exact hpolled.queued c hc p hp
      · exact hrest hd

/-! ### Nothing is lost -/

omit [Zero σ] [One σ] [LT σ] [DecidableLT σ] [Add σ] [Mul σ] [Div σ] [Neg σ] [NatCast σ] in
/-- The calls of a request become commands as in the bank of the setup. -/
theorem commands_act (hstocked : s.Stocked setup) (hprimed : s.Primed) (request : Request ℚ) :
    (calls (s.player.sequencer.act true request).2).filterMap
        (s.act request).1.player.voices.command? =
      (calls (s.player.sequencer.act true request).2).filterMap setup.bank.command? := by
  have hready : s.player.readyAnswer = true := hprimed.readyAnswer
  by_cases hidle : (s.player.sequencer.act true request).1.playback = .idle
  · have hnone := (moves_act true request s.player.sequencer).callsOf_eq_nil hidle
      s.player.sequencer.registry
    rw [calls_act, hnone.2]
    rfl
  · have hafter : (s.act request).1.player.voices.ready = true := by
      refine (hprimed.act request).resolve_left ?_
      show (s.player.sequencer.act s.player.readyAnswer request).1.playback ≠ .idle
      rwa [hready]
    rw [(hstocked.act request).command?_eq hafter]

omit [Zero σ] [One σ] [LT σ] [DecidableLT σ] [Add σ] [Mul σ] [Div σ] [Neg σ] [NatCast σ] in
/-- What a request adds to the commands on their way. -/
theorem queue_act (hstocked : s.Stocked setup) (hprimed : s.Primed) (request : Request ℚ) :
    ∃ accepted : List (Command σ),
      (s.act request).1.player.voices.queue.commands =
        s.player.voices.queue.commands ++ accepted ∧
      accepted.Sublist
        ((calls (s.player.sequencer.act true request).2).filterMap setup.bank.command?) ∧
      accepted.length + (s.act request).1.player.voices.dropped =
        ((calls (s.player.sequencer.act true request).2).filterMap setup.bank.command?).length +
          s.player.voices.dropped := by
  obtain ⟨b, accepted, hqueue, hdropped, hcommand, haccepted⟩ := s.exists_accepts_act request
  rw [hcommand, hprimed.readyAnswer, commands_act hstocked hprimed request] at haccepted
  refine ⟨accepted, ?_, haccepted.sublist, ?_⟩
  · rw [haccepted.bank_eq]
    show b.queue.commands ++ accepted = _
    rw [hqueue]
  · rw [← hdropped]
    exact haccepted.length_eq

/-- The commands of the first turn are sent first. -/
theorem sent_cons (hprimed : s.Primed) (t : Turn) (rest : List Turn) :
    s.sent setup (t :: rest) =
      (calls (s.player.sequencer.act true (t.asked s)).2).filterMap setup.bank.command? ++
        (s.turn t).sent setup rest := by
  have hsequencer : (s.turn t).player.sequencer = (s.player.sequencer.act true (t.asked s)).1 := by
    rw [← hprimed.readyAnswer]
    cases t <;> rfl
  rw [sent, sent, requests, List.map_cons, run, andThen_snd, calls_append, List.filterMap_append,
    hsequencer]

/-- The mixer takes what is on its way once the sequencer has been asked, or nothing. -/
theorem exists_taken (t : Turn) (rest : List Turn) :
    ∃ taken, (s.mixer.drains (s.blocks (t :: rest))).map (·.command) =
        taken ++ ((s.turn t).mixer.drains ((s.turn t).blocks rest)).map (·.command) ∧
      (s.act (t.asked s)).1.player.voices.queue.commands =
        taken ++ (s.turn t).player.voices.queue.commands ∧
      (s.act (t.asked s)).1.player.voices.dropped = (s.turn t).player.voices.dropped := by
  cases t with
  | request request => exact ⟨[], rfl, rfl, rfl⟩
  | step lookahead block =>
    refine ⟨(s.act (.poll (s.now + lookahead))).1.player.voices.queue.commands, ?_,
      (List.append_nil _).symm, rfl⟩
    rw [blocks, Mixer.drains, List.map_append, List.map_map]
    exact congrArg (· ++ _) (List.map_id _)

/-- **Every command is taken, on its way or refused**, and the order is kept. -/
theorem sent_of_turns (hstocked : s.Stocked setup) (hprimed : s.Primed) (turns : List Turn) :
    let arrived := (s.mixer.drains (s.blocks turns)).map (·.command) ++
      (s.turnAll turns).player.voices.queue.commands
    let commands := s.player.voices.queue.commands ++ s.sent setup turns
    arrived.Sublist commands ∧
      arrived.length + (s.turnAll turns).player.voices.dropped =
        commands.length + s.player.voices.dropped := by
  induction turns generalizing s with
  | nil => simp [blocks, Mixer.drains, turnAll, sent, requests, run]
  | cons t rest ih =>
    intro arrived commands
    obtain ⟨accepted, hqueue, hsublist, hlength⟩ := queue_act hstocked hprimed (t.asked s)
    obtain ⟨taken, hdrains, htaken, hdropped⟩ := s.exists_taken t rest
    have hturn : (s.turn t).Stocked setup ∧ (s.turn t).Primed := by
      cases t with
      | request request => exact ⟨hstocked.act request, hprimed.act request⟩
      | step lookahead block =>
        have hpolled : (s.act (.poll (s.now + lookahead))).1.Primed := hprimed.act _
        have hact : (s.act (.poll (s.now + lookahead))).1.Stocked setup := hstocked.act _
        exact ⟨hact.operate (.render (block * s.mixer.channels)), hpolled⟩
    obtain ⟨hrest, hrestLength⟩ := ih hturn.1 hturn.2
    have harrived : arrived = taken ++
        (((s.turn t).mixer.drains ((s.turn t).blocks rest)).map (·.command) ++
          ((s.turn t).turnAll rest).player.voices.queue.commands) := by
      rw [← List.append_assoc, ← hdrains]
      rfl
    have hcommands : commands = s.player.voices.queue.commands ++
        ((calls (s.player.sequencer.act true (t.asked s)).2).filterMap setup.bank.command? ++
          (s.turn t).sent setup rest) := by
      rw [← sent_cons hprimed]
    rw [hqueue] at htaken
    constructor
    · -- What arrives comes from what was on its way or was accepted, and from later turns.
      have hfirst := (List.Sublist.refl taken).append hrest
      have hright : taken ++ ((s.turn t).player.voices.queue.commands ++
          (s.turn t).sent setup rest) =
            s.player.voices.queue.commands ++ (accepted ++ (s.turn t).sent setup rest) := by
        rw [← List.append_assoc, ← htaken, List.append_assoc]
      rw [hright] at hfirst
      rw [harrived, hcommands]
      exact hfirst.trans ((List.Sublist.refl _).append (hsublist.append (List.Sublist.refl _)))
    · have htakenLength := congrArg List.length htaken
      rw [harrived, hcommands]
      simp only [List.length_append] at htakenLength hrestLength ⊢
      show _ + ((s.turn t).turnAll rest).player.voices.dropped = _
      omega

/-- **Everything is carried out at its own frame.**  Let a program, turn by turn, step through its loop,
looking at least a block ahead, or make any requests, those that give an instant as the present one
none before the clock.  Then
* every trigger and release that the mixer takes is taken at its frame or before, and those still on
  their way are not about a frame that has been rendered;
* what is taken or on its way are the commands of all calls, in order, but for those refused by a full
  queue;
* the mixer carries out, each once and at its own frame, exactly those that it has a voice for, that
  were not taken back, and whose frames have been rendered;
* to be carried out at a frame is to start or release the voice there: every voice is a new one to
  which, frame by frame, these events have happened, and the gains set by the commands taken. -/
theorem carried_out_on_time (setup : Setup σ) (timeline : Timeline ℚ) (turns : List Turn)
    (hturns : (ofSetup setup timeline : Session ℚ σ).Timely turns) :
    let s : Session ℚ σ := ofSetup setup timeline
    let final := s.turnAll turns
    let queued := final.player.voices.queue.commands
    let drains := s.mixer.drains (s.blocks turns)
    let arrived := drains.map (·.command) ++ queued
    (∀ d ∈ drains, ∀ p, d.command.event? = some p → d.frame ≤ p.frame) ∧
    (∀ c ∈ queued, ∀ p, c.event? = some p → final.mixer.frame ≤ p.frame) ∧
    (arrived.Sublist (s.sent setup turns) ∧
      arrived.length + final.player.voices.dropped = (s.sent setup turns).length) ∧
    final.mixer = (s.mixer.processAll (s.blocks turns)).2 ∧
    ∃ fired : List (Arrival σ),
      s.mixer.firings (s.blocks turns) = fired.map (fun a => (a.event.frame, a.event)) ∧
      fired.Pairwise Arrival.Before ∧
      (∀ a, a ∈ fired ↔ Arrives drains setup.registry.atomics.length a ∧ ¬Cancelled drains a ∧
        a.event.frame < final.mixer.frame) ∧
      ∀ voice < setup.registry.atomics.length, final.mixer.voices[voice]? =
        some (Voice.after final.mixer.fadeFrames (Mixer.loggedSteps voice drains
          (fired.map fun a => (a.event.frame, a.event)) final.mixer.frame)) := by
  intro s final queued drains arrived
  have hs : s.Punctual setup := punctual_ofSetup setup timeline
  have hpunctual : ∀ d ∈ drains, ∀ p, d.command.event? = some p → d.frame ≤ p.frame :=
    fun d hd p hp => hs.le_frame_of_mem_drains hturns hd hp
  have hmixer : final.mixer = (s.mixer.processAll (s.blocks turns)).2 := s.mixer_turnAll turns
  obtain ⟨hsublist, hlength⟩ := sent_of_turns (stocked_ofSetup setup timeline) (.inl rfl) turns
  refine ⟨hpunctual, (hs.turnAll hturns).queued, ⟨hsublist, hlength⟩, hmixer, ?_⟩
  -- The mixer of a session is one that was called block by block; what it took was on time, so
  -- nothing fires late.
  obtain ⟨waiting, fired, h⟩ := (Accounted.new setup.registry.atomics.length setup.channels
    setup.fadeFrames setup.ceiling).processAll (s.blocks turns)
  rw [List.nil_append, List.nil_append] at h
  have hdrained : Accounted _ drains (s.mixer.firings (s.blocks turns))
      (s.mixer.processAll (s.blocks turns)).2 waiting fired := h
  rw [← hmixer] at hdrained
  obtain ⟨hfirings, hbefore, hfired⟩ := hdrained.onTime hpunctual
  refine ⟨fired, hfirings, hbefore, hfired, fun voice hvoice => ?_⟩
  rw [← hfirings, hmixer]
  exact Mixer.voice_eq_logged _ setup.channels setup.fadeFrames setup.ceiling (s.blocks turns) hvoice

end

/-- The short piece, played from the start at eight frames a second, and stopped after four frames, an
eighth of a second ahead: what the mixer takes meanwhile is not late. -/
theorem carried_out_on_time_shortPiece :
    let s : Session ℚ Float32 := ofSetup shortSetup (.ofScore shortPiece)
    let turns : List Turn := [.request (.play 0), .step (1 / 2) 4, .request (.stop (5 / 8)),
      .request (.seek 1 1), .step (2 / 5) 3]
    s.Timely turns ∧ ∀ d ∈ s.mixer.drains (s.blocks turns), ∀ p, d.command.event? = some p →
      d.frame ≤ p.frame := by
  intro s turns
  have hs : s.Intact shortSetup := intact_ofSetup _ _
  have hrate : s.rate = 8 := rfl
  have hstart : s.now = 0 := by
    show ((0 : Nat) : ℚ) / (8 : Nat) = 0
    norm_num
  have hstop : ((s.turn (.request (.play 0))).turn (.step (1 / 2) 4)).now = 1 / 2 := by
    have hplay : (s.turn (.request (.play 0))).Intact shortSetup := hs.act (.play 0)
    have hframe : (s.turn (.request (.play 0))).mixer.frame = 0 := rfl
    rw [turn, hplay.now_step, rate_turn, hrate, hframe, frameTime]
    norm_num
  have htimely : s.Timely turns := by
    simp only [turns, Timely, Turn.Timely, rate_turn, hrate]
    refine ⟨?_, ?_, ?_, ?_, ?_, trivial⟩
    · rintro time ⟨⟩
      exact hstart.le
    · norm_num
    · rintro time ⟨⟩
      rw [hstop]
      norm_num
    · intro time htime
      cases htime
    · norm_num
  exact ⟨htimely, (carried_out_on_time shortSetup (.ofScore shortPiece) turns htimely).1⟩

end Session

end Gamelan
