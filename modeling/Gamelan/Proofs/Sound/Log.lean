import Mathlib.Data.List.Basic
import Gamelan.Proofs.Sound.Pending
import Gamelan.Proofs.Sound.Steps

namespace Gamelan

/-!
# The log of a mixer

A mixer that is called again and again takes commands and carries out events.  With the frame of
each, that is its log.  The log says everything that has happened to its voices, whatever calls it
comes from.

* `Mixer.Block`, `Mixer.processAll` — a mixer called again and again.
* `Mixer.drains`, `Mixer.firings` — the commands it takes, and the events it carries out, which are
  those that `Mixer.fireDue_eq_due` finds due at each frame.
* `Mixer.voiceSteps` — what happens to a voice in some calls.
* `Mixer.loggedSteps` — what a log says about a voice, frame by frame.
* `Mixer.loggedSteps_drains`, `Mixer.loggedSteps_firings` — what one more block of commands, or one
  more frame, adds to it.
* `Mixer.voice_eq_logged` — the voices of a mixer are those that its log tells of.
-/

variable {σ : Type}

open VoiceStep

/-! ### Commands and events -/

/-- The event that a command asks for. -/
def Command.event? : Command σ → Option (Pending σ)
  | .trigger voice frame sample => some ⟨frame, voice, .start sample⟩
  | .release voice frame => some ⟨frame, voice, .release⟩
  | .setGain .. | .setVolume _ | .cancel _ => none

/-- A command that a mixer took, and the frames it had rendered by then. -/
structure Drain (σ : Type) where
  frame : Nat
  command : Command σ

namespace Mixer

/-- A call of a mixer: the commands that were pushed since the last call, and the length of the
buffer to fill. -/
structure Block (σ : Type) where
  commands : List (Command σ)
  length : Nat

/-- The events that the next frame carries out. -/
def due (m : Mixer σ) : List (Pending σ) :=
  m.pending.takeWhile (·.frame ≤ m.frame)

/-- A frame carries out the events that are due, in order, and leaves the others to come. -/
theorem fireDue_eq_due (m : Mixer σ) :
    m.fireDue =
      { m with
        voices := m.due.foldl (fire m.fadeFrames) m.voices
        pending := m.pending.drop m.due.length } := by
  have hdrop : m.pending.drop m.due.length = m.pending.dropWhile (·.frame ≤ m.frame) := by
    have h := List.takeWhile_append_dropWhile (p := fun p : Pending σ => decide (p.frame ≤ m.frame))
      (l := m.pending)
    conv => lhs; rw [← h]
    exact List.drop_left
  rw [hdrop]
  rfl

/-- What some events do to a voice. -/
def eventSteps (voice : Nat) (ps : List (Pending σ)) : List (VoiceStep σ) :=
  (ps.filter (·.voice == voice)).map (·.event.toStep)

/-- Events one after the other do to a voice what all of them do. -/
theorem eventSteps_append (voice : Nat) (ps qs : List (Pending σ)) :
    eventSteps voice (ps ++ qs) = eventSteps voice ps ++ eventSteps voice qs := by
  rw [eventSteps, List.filter_append, List.map_append]
  rfl

/-- Events take no time. -/
theorem frames_eventSteps (voice : Nat) (ps : List (Pending σ)) :
    frames (eventSteps voice ps) = 0 := by
  refine List.countP_eq_zero.2 fun e he => ?_
  obtain ⟨p, -, rfl⟩ := List.mem_map.1 he
  cases p.event <;> simp [VoiceEvent.toStep, isNext]

section
variable [Zero σ] [LT σ] [DecidableLT σ]

/-- What a command does to a voice at once. -/
def commandStep? (voice : Nat) : Command σ → Option (VoiceStep σ)
  | .setGain other gain => if other = voice then some (.setGain (nonNegative gain)) else none
  | .trigger .. | .release .. | .setVolume _ | .cancel _ => none

/-- Commands take no time. -/
theorem frames_commandSteps (voice : Nat) (cs : List (Command σ)) :
    frames (cs.filterMap (commandStep? voice)) = 0 := by
  refine List.countP_eq_zero.2 fun e he => ?_
  obtain ⟨c, -, hc⟩ := List.mem_filterMap.1 he
  cases c with
  | setGain other gain =>
    obtain ⟨-, hgain⟩ := Option.ite_none_right_eq_some.1 hc
    obtain rfl := Option.some.inj hgain
    simp [isNext]
  | _ => cases hc

end

/-! ### Calls -/

section
variable [Zero σ] [One σ] [LT σ] [DecidableLT σ]
variable [Add σ] [Mul σ] [Div σ] [Neg σ] [NatCast σ]

/-- The buffers of some calls, and the mixer after them. -/
def processAll (m : Mixer σ) : List (Block σ) → List (List σ) × Mixer σ
  | [] => ([], m)
  | b :: rest =>
    let (buffer, m) := m.process b.commands b.length
    let (buffers, m) := m.processAll rest
    (buffer :: buffers, m)

/-- The commands taken in some calls, each with the frames rendered by then. -/
def drains (m : Mixer σ) : List (Block σ) → List (Drain σ)
  | [] => []
  | b :: rest =>
    b.commands.map (Drain.mk m.frame) ++ (m.process b.commands b.length).2.drains rest

/-- The events that some frames carry out, each with its frame. -/
def frameFirings (m : Mixer σ) : Nat → List (Nat × Pending σ)
  | 0 => []
  | count + 1 => m.due.map (m.frame, ·) ++ m.renderFrame.2.frameFirings count

/-- The number of frames of a call: the last one may not fit its buffer. -/
def frameCount (m : Mixer σ) (length : Nat) : Nat :=
  (length + m.channels - 1) / m.channels

/-- The events that some calls carry out, each with its frame. -/
def firings (m : Mixer σ) : List (Block σ) → List (Nat × Pending σ)
  | [] => []
  | b :: rest =>
    (m.applyAll b.commands).frameFirings (m.frameCount b.length) ++
      (m.process b.commands b.length).2.firings rest

/-- What happens to a voice in some frames. -/
def frameSteps (voice : Nat) (m : Mixer σ) : Nat → List (VoiceStep σ)
  | 0 => []
  | count + 1 =>
    eventSteps voice m.due ++ [.next] ++ m.renderFrame.2.frameSteps voice count

/-- What happens to a voice in some calls. -/
def voiceSteps (voice : Nat) (m : Mixer σ) : List (Block σ) → List (VoiceStep σ)
  | [] => []
  | b :: rest =>
    b.commands.filterMap (commandStep? voice) ++
      (m.applyAll b.commands).frameSteps voice (m.frameCount b.length) ++
        (m.process b.commands b.length).2.voiceSteps voice rest

/-- A call moves the clock on by the frames that it renders. -/
theorem frame_process (m : Mixer σ) (b : Block σ) :
    (m.process b.commands b.length).2.frame = m.frame + m.frameCount b.length := by
  rw [process_snd, frame_renderFrames, frame_applyAll, frameCount]

end

/-! ### The voices after some calls -/

section
variable [Zero σ] [One σ] [Mul σ] [Div σ] [NatCast σ]

omit [Zero σ] [One σ] [Mul σ] [Div σ] [NatCast σ] in
/-- A change of one voice leaves the others as they are. -/
theorem getElem?_modify_voice {voices : List (Voice σ)} (i voice : Nat) (f : Voice σ → Voice σ) :
    (voices.modify i f)[voice]? = voices[voice]?.map fun v => if i = voice then f v else v := by
  rw [List.getElem?_modify]
  rfl

/-- An event carried out is a step of its voice. -/
theorem voice_fire (fadeFrames voice : Nat) (voices : List (Voice σ)) (p : Pending σ) :
    (fire fadeFrames voices p)[voice]? =
      voices[voice]?.map (Voice.steps fadeFrames (eventSteps voice [p])) := by
  rw [fire, getElem?_modify_voice]
  refine congrArg (Option.map · _) (funext fun v => ?_)
  by_cases hvoice : p.voice = voice
  · rw [if_pos hvoice, eventSteps, List.filter_cons_of_pos (by simpa using hvoice)]
    cases hevent : p.event <;>
      simp only [List.map_cons, hevent, VoiceEvent.toStep, VoiceEvent.act] <;> rfl
  · rw [if_neg hvoice, eventSteps, List.filter_cons_of_neg (by simpa using hvoice)]
    rfl

/-- Events carried out are steps of their voices. -/
theorem voice_foldl_fire (fadeFrames voice : Nat) (ps : List (Pending σ))
    (voices : List (Voice σ)) :
    (ps.foldl (fire fadeFrames) voices)[voice]? =
      voices[voice]?.map (Voice.steps fadeFrames (eventSteps voice ps)) := by
  induction ps generalizing voices with
  | nil => exact (Voice.map_steps_nil ..).symm
  | cons p ps ih =>
    rw [List.foldl_cons, ih, voice_fire, Voice.map_steps_map_steps, ← eventSteps_append]
    rfl

variable [LT σ] [DecidableLT σ]

/-- A command is a step of the voice whose gain it sets, and of no other. -/
theorem voice_apply (m : Mixer σ) (c : Command σ) (voice : Nat) :
    (m.apply c).voices[voice]? =
      m.voices[voice]?.map (Voice.steps m.fadeFrames ([c].filterMap (commandStep? voice))) := by
  cases c with
  | setGain other gain =>
    rw [apply, getElem?_modify_voice]
    refine congrArg (Option.map · _) (funext fun v => ?_)
    by_cases hvoice : other = voice <;> simp [commandStep?, hvoice] <;> rfl
  | trigger other frame sample =>
    rw [apply, voices_schedule]
    exact (Voice.map_steps_nil ..).symm
  | release other frame =>
    rw [apply, voices_schedule]
    exact (Voice.map_steps_nil ..).symm
  | _ => exact (Voice.map_steps_nil ..).symm

/-- Commands are steps of the voices. -/
theorem voice_applyAll (m : Mixer σ) (cs : List (Command σ)) (voice : Nat) :
    (m.applyAll cs).voices[voice]? =
      m.voices[voice]?.map (Voice.steps m.fadeFrames (cs.filterMap (commandStep? voice))) := by
  induction cs generalizing m with
  | nil => exact (Voice.map_steps_nil ..).symm
  | cons c cs ih =>
    rw [applyAll_cons, ih, voice_apply, fadeFrames_apply, Voice.map_steps_map_steps,
      ← List.filterMap_append]
    rfl

variable [Add σ] [Neg σ]

/-- In a frame, a voice goes through the events that are due, and then is rendered. -/
theorem voice_renderFrame (m : Mixer σ) (voice : Nat) :
    m.renderFrame.2.voices[voice]? =
      m.voices[voice]?.map (Voice.steps m.fadeFrames (eventSteps voice m.due ++ [.next])) := by
  rw [← Voice.map_steps_map_steps, ← voice_foldl_fire, voices_renderFrame, List.getElem?_map,
    fireDue_eq_due]
  rfl

/-- The frames of a mixer are steps of its voices. -/
theorem voice_renderFrames (m : Mixer σ) (voice count : Nat) :
    (m.renderFrames count).2.voices[voice]? =
      m.voices[voice]?.map (Voice.steps m.fadeFrames (m.frameSteps voice count)) := by
  induction count generalizing m with
  | zero => exact (Voice.map_steps_nil ..).symm
  | succ count ih =>
    rw [renderFrames_succ, ih, voice_renderFrame, frameSteps]
    exact Voice.map_steps_map_steps ..

/-- Every frame of a mixer is one of each voice. -/
theorem frames_frameSteps (m : Mixer σ) (voice count : Nat) :
    frames (m.frameSteps voice count) = count := by
  induction count generalizing m with
  | zero => rfl
  | succ count ih =>
    rw [frameSteps, frames_append, frames_append, frames_eventSteps, ih, frames_next, frames_nil]
    omega

/-- The calls of a mixer are steps of its voices. -/
theorem voice_processAll (m : Mixer σ) (blocks : List (Block σ)) (voice : Nat) :
    (m.processAll blocks).2.fadeFrames = m.fadeFrames ∧
      (m.processAll blocks).2.frame = m.frame + frames (m.voiceSteps voice blocks) ∧
      (m.processAll blocks).2.voices[voice]? =
        m.voices[voice]?.map (Voice.steps m.fadeFrames (m.voiceSteps voice blocks)) := by
  induction blocks generalizing m with
  | nil => exact ⟨rfl, rfl, (Voice.map_steps_nil ..).symm⟩
  | cons b rest ih =>
    obtain ⟨hfade, hframe, hvoice⟩ := ih (m.process b.commands b.length).2
    have hprocess := process_snd m b.commands b.length
    have hfade' : (m.process b.commands b.length).2.fadeFrames = m.fadeFrames := by
      rw [hprocess, fadeFrames_renderFrames, fadeFrames_applyAll]
    refine ⟨hfade.trans hfade', hframe.trans ?_, hvoice.trans ?_⟩
    · rw [voiceSteps, frames_append, frames_append, frames_commandSteps, frames_frameSteps,
        frame_process]
      omega
    · rw [hfade', voiceSteps, ← Voice.map_steps_map_steps, ← Voice.map_steps_map_steps,
        ← voice_applyAll, ← fadeFrames_applyAll m b.commands, ← voice_renderFrames, frameCount,
        hprocess]

end

/-! ### What a log says about a voice -/

section
variable [Zero σ] [LT σ] [DecidableLT σ]

/-- The gains set for a voice at a frame, as commands of a log. -/
def gainsAt (voice : Nat) (drains : List (Drain σ)) (frame : Nat) : List (VoiceStep σ) :=
  (drains.filter (·.frame == frame)).filterMap fun d => commandStep? voice d.command

/-- What the events of a log that were carried out at a frame do to a voice. -/
def eventsAt (voice : Nat) (firings : List (Nat × Pending σ)) (frame : Nat) : List (VoiceStep σ) :=
  eventSteps voice ((firings.filter (·.1 == frame)).map (·.2))

/-- **What a log says about a voice** once some frames are rendered.  At each of them, its gain is
set by the commands taken, the events carried out at this frame happen to it, and the frame is
rendered.  Commands may have been taken since the last one. -/
def loggedSteps (voice : Nat) (drains : List (Drain σ)) (firings : List (Nat × Pending σ))
    (count : Nat) : List (VoiceStep σ) :=
  (List.range count).flatMap (fun frame =>
      gainsAt voice drains frame ++ eventsAt voice firings frame ++ [.next]) ++
    gainsAt voice drains count

variable {voice : Nat} {drains : List (Drain σ)} {firings : List (Nat × Pending σ)} {count : Nat}

/-- Of entries made at one frame, all are about it, and none is about another. -/
theorem filter_frame_map {α β : Type} (frameOf : β → Nat) (entry : α → β)
    (hentry : ∀ a, frameOf (entry a) = count) (as : List α) (frame : Nat) :
    (as.map entry).filter (frameOf · == frame) = if count = frame then as.map entry else [] := by
  split
  · next heq => exact List.filter_eq_self.2 (by simp [hentry, heq])
  · next hne => exact List.filter_eq_nil_iff.2 (by simp [hentry, hne])

/-- Commands taken at another frame set no gain at this one. -/
theorem gainsAt_append_of_ne {frame : Nat} (h : count ≠ frame) (cs : List (Command σ)) :
    gainsAt voice (drains ++ cs.map (Drain.mk count)) frame = gainsAt voice drains frame := by
  rw [gainsAt, List.filter_append, filter_frame_map Drain.frame (Drain.mk count) fun _ => rfl,
    if_neg h, List.append_nil, gainsAt]

/-- Commands taken at this frame come behind those taken before. -/
theorem gainsAt_append (cs : List (Command σ)) :
    gainsAt voice (drains ++ cs.map (Drain.mk count)) count =
      gainsAt voice drains count ++ cs.filterMap (commandStep? voice) := by
  rw [gainsAt, List.filter_append, filter_frame_map Drain.frame (Drain.mk count) fun _ => rfl,
    if_pos rfl, List.filterMap_append, List.filterMap_map, gainsAt]
  rfl

/-- No command is taken at a frame that is still to come. -/
theorem gainsAt_of_le (hdrains : ∀ d ∈ drains, d.frame ≤ count) :
    gainsAt voice drains (count + 1) = [] := by
  have hnone : drains.filter (·.frame == count + 1) = [] := by
    refine List.filter_eq_nil_iff.2 fun d hd => ?_
    have := hdrains d hd
    simp
    omega
  rw [gainsAt, hnone, List.filterMap_nil]

omit [Zero σ] [LT σ] [DecidableLT σ] in
/-- Events carried out at another frame do nothing at this one. -/
theorem eventsAt_append_of_ne {frame : Nat} (h : count ≠ frame) (ps : List (Pending σ)) :
    eventsAt voice (firings ++ ps.map (count, ·)) frame = eventsAt voice firings frame := by
  rw [eventsAt, List.filter_append, filter_frame_map Prod.fst (count, ·) fun _ => rfl, if_neg h,
    List.append_nil, eventsAt]

omit [Zero σ] [LT σ] [DecidableLT σ] in
/-- The first events to be carried out at a frame are all that happens at it. -/
theorem eventsAt_append (hfirings : ∀ f ∈ firings, f.1 < count) (ps : List (Pending σ)) :
    eventsAt voice (firings ++ ps.map (count, ·)) count = eventSteps voice ps := by
  have hnone : firings.filter (·.1 == count) = [] := by
    refine List.filter_eq_nil_iff.2 fun f hf => ?_
    simpa using Nat.ne_of_lt (hfirings f hf)
  rw [eventsAt, List.filter_append, hnone, List.nil_append,
    filter_frame_map Prod.fst (count, ·) fun _ => rfl, if_pos rfl, List.map_map]
  exact congrArg (eventSteps voice) (List.map_id _)

/-- **More commands** only set a gain once more. -/
theorem loggedSteps_drains (cs : List (Command σ)) :
    loggedSteps voice (drains ++ cs.map (Drain.mk count)) firings count =
      loggedSteps voice drains firings count ++ cs.filterMap (commandStep? voice) := by
  have hframes : ∀ frame ∈ List.range count,
      gainsAt voice (drains ++ cs.map (Drain.mk count)) frame ++ eventsAt voice firings frame ++
          [.next] =
        gainsAt voice drains frame ++ eventsAt voice firings frame ++ [.next] := by
    intro frame hframe
    rw [gainsAt_append_of_ne (Nat.ne_of_gt (List.mem_range.1 hframe))]
  rw [loggedSteps, List.flatMap_congr hframes, gainsAt_append, ← List.append_assoc]
  rfl

/-- **One more frame** carries out its events, and is rendered. -/
theorem loggedSteps_firings (hdrains : ∀ d ∈ drains, d.frame ≤ count)
    (hfirings : ∀ f ∈ firings, f.1 < count) (ps : List (Pending σ)) :
    loggedSteps voice drains (firings ++ ps.map (count, ·)) (count + 1) =
      loggedSteps voice drains firings count ++ eventSteps voice ps ++ [.next] := by
  have hframes : ∀ frame ∈ List.range count,
      gainsAt voice drains frame ++ eventsAt voice (firings ++ ps.map (count, ·)) frame ++ [.next] =
        gainsAt voice drains frame ++ eventsAt voice firings frame ++ [.next] := by
    intro frame hframe
    rw [eventsAt_append_of_ne (Nat.ne_of_gt (List.mem_range.1 hframe))]
  rw [loggedSteps, gainsAt_of_le hdrains, List.append_nil, List.range_succ, List.flatMap_append,
    List.flatMap_congr hframes, List.flatMap_singleton, eventsAt_append hfirings, loggedSteps]
  simp only [List.append_assoc]

end

/-! ### The log of some calls -/

section
variable [Zero σ] [One σ] [LT σ] [DecidableLT σ]
variable [Add σ] [Mul σ] [Div σ] [Neg σ] [NatCast σ]
variable {drains : List (Drain σ)} {firings : List (Nat × Pending σ)}

/-- Events are logged at frames that are rendered. -/
theorem lt_of_mem_frameFirings {m : Mixer σ} {count : Nat} {f : Nat × Pending σ}
    (hf : f ∈ m.frameFirings count) : f.1 < m.frame + count := by
  induction count generalizing m with
  | zero => cases hf
  | succ count ih =>
    obtain hf | hf := List.mem_append.1 hf
    · obtain ⟨p, -, rfl⟩ := List.mem_map.1 hf
      exact Nat.lt_add_of_pos_right (Nat.succ_pos count)
    · have hlt : f.1 < m.frame + 1 + count := ih hf
      omega

/-- What happens to a voice in some frames is what they add to the log. -/
theorem loggedSteps_frameFirings (voice : Nat) (m : Mixer σ)
    (hdrains : ∀ d ∈ drains, d.frame ≤ m.frame)
    (hfirings : ∀ f ∈ firings, f.1 < m.frame) (count : Nat) :
    loggedSteps voice drains (firings ++ m.frameFirings count) (m.frame + count) =
      loggedSteps voice drains firings m.frame ++ m.frameSteps voice count := by
  induction count generalizing m firings with
  | zero => simp [frameFirings, frameSteps]
  | succ count ih =>
    -- With the events of the first frame, the log is one up to the second.
    have hmore : ∀ f ∈ firings ++ m.due.map (m.frame, ·), f.1 < m.frame + 1 := by
      refine List.forall_mem_append.2 ⟨fun f hf => Nat.lt_succ_of_lt (hfirings f hf), ?_⟩
      simp
    have hrest := ih m.renderFrame.2 (fun d hd => Nat.le_succ_of_le (hdrains d hd)) hmore
    rw [show m.renderFrame.2.frame = m.frame + 1 from rfl, loggedSteps_firings hdrains hfirings]
      at hrest
    rw [frameFirings, frameSteps, ← List.append_assoc, Nat.add_comm count 1, ← Nat.add_assoc, hrest]
    simp only [List.append_assoc]

/-- **What happens to a voice** in some calls is what they add to the log. -/
theorem loggedSteps_append (voice : Nat) (m : Mixer σ)
    (hdrains : ∀ d ∈ drains, d.frame ≤ m.frame) (hfirings : ∀ f ∈ firings, f.1 < m.frame)
    (blocks : List (Block σ)) :
    loggedSteps voice (drains ++ m.drains blocks) (firings ++ m.firings blocks)
        (m.processAll blocks).2.frame =
      loggedSteps voice drains firings m.frame ++ m.voiceSteps voice blocks := by
  induction blocks generalizing m drains firings with
  | nil => simp [Mixer.drains, Mixer.firings, voiceSteps, processAll]
  | cons b rest ih =>
    let taken := m.applyAll b.commands
    let next := (m.process b.commands b.length).2
    have htaken : taken.frame = m.frame := frame_applyAll m b.commands
    have hnext : next.frame = m.frame + m.frameCount b.length := frame_process m b
    have hdrains' : ∀ d ∈ drains ++ b.commands.map (Drain.mk m.frame), d.frame ≤ m.frame :=
      List.forall_mem_append.2 ⟨hdrains, by simp⟩
    have hfirings' : ∀ f ∈ firings ++ taken.frameFirings (m.frameCount b.length),
        f.1 < next.frame := by
      refine List.forall_mem_append.2 ⟨fun f hf => ?_, fun f hf => ?_⟩
      · rw [hnext]
        exact Nat.lt_of_lt_of_le (hfirings f hf) (Nat.le_add_right _ _)
      · rw [hnext, ← htaken]
        exact lt_of_mem_frameFirings hf
    -- The block adds its commands, and then its frames; what comes behind it adds to the log so far.
    have hrest := ih next (fun d hd => by rw [hnext]; exact Nat.le_add_right_of_le (hdrains' d hd))
      hfirings'
    have hframes := loggedSteps_frameFirings voice taken (by rwa [htaken]) (by rwa [htaken])
      (m.frameCount b.length)
    rw [htaken, ← hnext, loggedSteps_drains] at hframes
    rw [hframes] at hrest
    rw [Mixer.drains, Mixer.firings, voiceSteps, ← List.append_assoc drains,
      ← List.append_assoc firings]
    refine hrest.trans ?_
    simp only [List.append_assoc]
    rfl

/-- **The voices of a mixer are those that its log tells of**: new ones to which, frame by frame,
the gains set by the commands taken have happened, and the events that were carried out on them. -/
theorem voice_eq_logged (voices channels fadeFrames : Nat) (ceiling : σ) (blocks : List (Block σ))
    {voice : Nat} (hvoice : voice < voices) :
    let m := new voices channels fadeFrames ceiling
    let final := (m.processAll blocks).2
    final.voices[voice]? = some (Voice.after final.fadeFrames
      (loggedSteps voice (m.drains blocks) (m.firings blocks) final.frame)) := by
  intro m final
  obtain ⟨hfade, -, hvoices⟩ := m.voice_processAll blocks voice
  have hnew : m.voices[voice]? = some Voice.new := List.getElem?_replicate_of_lt hvoice
  have hlog : loggedSteps voice ([] ++ m.drains blocks) ([] ++ m.firings blocks) final.frame =
      loggedSteps voice [] [] m.frame ++ m.voiceSteps voice blocks :=
    loggedSteps_append voice m (by simp) (by simp) blocks
  -- A new mixer has no log.
  have hempty : loggedSteps voice [] [] m.frame = ([] : List (VoiceStep σ)) := rfl
  rw [hempty, List.nil_append, List.nil_append, List.nil_append] at hlog
  rw [show final.voices[voice]? = _ from hvoices, hnew, show final.fadeFrames = _ from hfade, hlog]
  rfl

end

end Mixer

end Gamelan
