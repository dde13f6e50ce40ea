import Mathlib
import Gamelan.Proofs.Sound.Firing

namespace Gamelan

/-!
# How often a mixer is called

The sound system calls a mixer for buffers of whatever length it likes, and the commands between two
calls are taken at the second one.  Triggers and releases are for frames, so neither the buffers nor
the calls at which they are taken can be heard, if each is taken before its frame is over.

* `Drain.OnTime`, `Mixer.Punctual` — commands that are taken on time, and calls of whole frames.
* `Mixer.rendered` — what some calls render, one buffer behind the other.
* `Mixer.rendered_eq` — such calls render the frames of a mixer that took all commands at once.
* `Mixer.rendered_eq_of_punctual` — so all such calls render the same.
-/

variable {σ : Type}

/-! ### Commands on time -/

/-- Whether a command asks for an event whose frame is not past when the command is taken. -/
def Drain.OnTime (d : Drain σ) : Prop :=
  ∃ p, d.command.event? = some p ∧ d.frame ≤ p.frame

/-- A command on time is about the frames to come. -/
theorem Drain.OnTime.notBefore {d : Drain σ} (h : d.OnTime) : d.command.NotBefore d.frame := by
  obtain ⟨frame, c⟩ := d
  obtain ⟨p, hp, hle⟩ := h
  cases c with
  | trigger voice time sample =>
    cases hp
    exact hle
  | release voice time =>
    cases hp
    exact hle
  | _ => cases hp

namespace Mixer

variable [Zero σ] [One σ] [LT σ] [DecidableLT σ]
variable [Add σ] [Mul σ] [Div σ] [Neg σ] [NatCast σ]

/-- Calls for whole frames, which take triggers and releases only, all of them on time. -/
structure Punctual (m : Mixer σ) (blocks : List (Block σ)) : Prop where
  whole : ∀ b ∈ blocks, m.channels ∣ b.length
  onTime : ∀ d ∈ m.drains blocks, d.OnTime

/-- What some calls render, one buffer behind the other, and the mixer after them. -/
def rendered (m : Mixer σ) (blocks : List (Block σ)) : List σ × Mixer σ :=
  ((m.processAll blocks).1.flatten, (m.processAll blocks).2)

/-! ### Calls -/

/-- A call does not change the channels. -/
@[simp] theorem channels_process (m : Mixer σ) (cs : List (Command σ)) (length : Nat) :
    (m.process cs length).2.channels = m.channels := by
  rw [process_snd, channels_renderFrames, channels_applyAll]

@[simp] theorem channels_processAll (m : Mixer σ) (blocks : List (Block σ)) :
    (m.processAll blocks).2.channels = m.channels := by
  induction blocks generalizing m with
  | nil => rfl
  | cons b rest ih => exact (ih _).trans (channels_process m b.commands b.length)

/-- A call does not turn the clock back. -/
theorem frame_le_process (m : Mixer σ) (cs : List (Command σ)) (length : Nat) :
    m.frame ≤ (m.process cs length).2.frame := by
  rw [process_snd, frame_renderFrames, frame_applyAll]
  exact Nat.le_add_right _ _

/-- The frames rendered only become more. -/
theorem frame_le_of_mem_drains {m : Mixer σ} {blocks : List (Block σ)} {d : Drain σ}
    (hd : d ∈ m.drains blocks) : m.frame ≤ d.frame := by
  induction blocks generalizing m with
  | nil => cases hd
  | cons b rest ih =>
    rcases List.mem_append.1 hd with hd | hd
    · obtain ⟨c, -, rfl⟩ := List.mem_map.1 hd
      exact Nat.le_refl _
    · exact Nat.le_trans (frame_le_process m b.commands b.length) (ih hd)

/-- All commands are taken, in their order. -/
theorem map_command_drains (m : Mixer σ) (blocks : List (Block σ)) :
    (m.drains blocks).map (·.command) = blocks.flatMap (·.commands) := by
  induction blocks generalizing m with
  | nil => rfl
  | cons b rest ih =>
    rw [drains, List.map_append, ih, List.flatMap_cons, List.map_map]
    exact congrArg (· ++ _) (List.map_id _)

theorem rendered_cons (m : Mixer σ) (b : Block σ) (rest : List (Block σ)) :
    m.rendered (b :: rest) =
      ((m.process b.commands b.length).1 ++
          ((m.process b.commands b.length).2.rendered rest).1,
        ((m.process b.commands b.length).2.rendered rest).2) := rfl

namespace Punctual

variable {m : Mixer σ} {b : Block σ} {rest blocks : List (Block σ)}

theorem tail (h : m.Punctual (b :: rest)) : (m.process b.commands b.length).2.Punctual rest where
  whole b' hb' := by
    rw [channels_process]
    exact h.whole b' (List.mem_cons_of_mem b hb')
  onTime d hd := h.onTime d (List.mem_append_right _ hd)

/-- Whatever is taken on time is about the frames to come. -/
theorem notBefore (h : m.Punctual blocks) :
    ∀ c ∈ blocks.flatMap (·.commands), c.NotBefore m.frame := by
  intro c hc
  rw [← map_command_drains m] at hc
  obtain ⟨d, hd, rfl⟩ := List.mem_map.1 hc
  exact (h.onTime d hd).notBefore.mono (frame_le_of_mem_drains hd)

end Punctual

/-- **Calls on time** render the frames of a mixer that took all commands at once, and leave it as
these frames do. -/
theorem rendered_eq {m : Mixer σ} (hchannels : 0 < m.channels) (horder : InOrder m.pending)
    {blocks : List (Block σ)} (h : m.Punctual blocks) :
    m.rendered blocks =
      (spread m.channels ((m.applyAll (blocks.flatMap (·.commands))).renderFrames
          ((blocks.map (·.length)).sum / m.channels)).1,
        ((m.applyAll (blocks.flatMap (·.commands))).renderFrames
          ((blocks.map (·.length)).sum / m.channels)).2) := by
  induction blocks generalizing m with
  | nil => simp [rendered, processAll, renderFrames, spread]
  | cons b rest ih =>
    obtain ⟨count, hlength⟩ := h.whole b (List.mem_cons_self ..)
    rw [Nat.mul_comm] at hlength
    have htail := h.tail
    rw [hlength, process_eq hchannels] at htail
    have hrest := ih (m := ((m.applyAll b.commands).renderFrames count).2)
      (by simpa using hchannels) (inOrder_renderFrames (inOrder_applyAll horder _) count) htail
    -- The other commands are about frames behind this block, so they can be taken before it.
    have hearly := renderFrames_applyAll (inOrder_applyAll horder b.commands) count
      fun _ c (hc : c ∈ rest.flatMap (·.commands)) => by simpa using htail.notBefore c hc
    have hcount : ((b :: rest).map (·.length)).sum / m.channels =
        count + (rest.map (·.length)).sum / m.channels := by
      rw [List.map_cons, List.sum_cons, hlength, Nat.mul_comm, Nat.mul_add_div hchannels]
    rw [rendered_cons, hlength, process_eq hchannels, hrest, hcount, List.flatMap_cons,
      applyAll_append, renderFrames_add, hearly, spread_append, channels_renderFrames,
      channels_applyAll]

/-- One call for some frames is two calls for a part each, whatever is taken at the first. -/
theorem rendered_add {m : Mixer σ} (hchannels : 0 < m.channels) (cs : List (Command σ))
    (first second : Nat) :
    m.rendered [⟨cs, first * m.channels⟩, ⟨[], second * m.channels⟩] =
      m.rendered [⟨cs, (first + second) * m.channels⟩] := by
  have hsecond : ∀ m' : Mixer σ, m'.channels = m.channels →
      m'.process [] (second * m.channels) =
        (spread m.channels (m'.renderFrames second).1, (m'.renderFrames second).2) := by
    intro m' h
    rw [← h, process_eq (h ▸ hchannels)]
    rfl
  simp only [rendered, processAll, process_eq hchannels, renderFrames_add, List.flatten_cons,
    List.flatten_nil, List.append_nil, spread_append]
  rw [hsecond _ (by simp)]

/-- **What is rendered does not depend on the calls.**  A mixer was called with anything before.
From then on it takes triggers and releases only, in some order, each before its frame is over, and
renders some frames.  In whatever buffers of whole frames it renders them, and at whatever calls it
takes the commands: the samples are the same, and so is the mixer after them, with its voices, the
events to come, the frames on its clock and the samples that were limited.  Calls for two parts of a
buffer render the same as one for the whole, whatever they take. -/
theorem rendered_eq_of_punctual (voices channels fadeFrames : Nat) (ceiling : σ)
    (earlier : List (Block σ)) :
    let m := ((new voices channels fadeFrames ceiling).processAll earlier).2
    (∀ blocks blocks', m.Punctual blocks → m.Punctual blocks' →
      blocks.flatMap (·.commands) = blocks'.flatMap (·.commands) →
      (blocks.map (·.length)).sum = (blocks'.map (·.length)).sum →
      m.rendered blocks = m.rendered blocks') ∧
    ∀ cs first second,
      m.rendered [⟨cs, first * m.channels⟩, ⟨[], second * m.channels⟩] =
        m.rendered [⟨cs, (first + second) * m.channels⟩] := by
  intro m
  have hchannels : 0 < m.channels := by
    rw [show m.channels = _ from channels_processAll _ earlier]
    exact Nat.lt_of_lt_of_le Nat.zero_lt_one (Nat.le_max_left 1 channels)
  obtain ⟨_, _, haccount⟩ := (Accounted.new voices channels fadeFrames ceiling).processAll earlier
  refine ⟨fun blocks blocks' h h' hcommands hlength => ?_, rendered_add hchannels⟩
  rw [rendered_eq hchannels haccount.inOrder h, rendered_eq hchannels haccount.inOrder h',
    hcommands, hlength]

/-- A stroke and its release, taken at once and rendered in one buffer, or taken at calls for two
frames, for none and for four. -/
theorem rendered_eq_of_punctual_stroke :
    let m := ((new 1 2 2 (1 : ℚ)).processAll [⟨[.setGain 0 (1 / 2)], 2⟩]).2
    let stroke := Command.trigger 0 2 #[(1 : ℚ), 1, 1, 1, 1]
    let release := Command.release 0 4
    m.rendered [⟨[stroke, release], 12⟩] =
        m.rendered [⟨[stroke], 4⟩, ⟨[release], 0⟩, ⟨[], 8⟩] ∧
      (m.rendered [⟨[stroke, release], 12⟩]).1 =
        [0, 0, 1 / 2, 1 / 2, 1 / 2, 1 / 2, 1 / 2, 1 / 2, 1 / 4, 1 / 4, 0, 0] := by
  have honce : (((new 1 2 2 (1 : ℚ)).processAll [⟨[.setGain 0 (1 / 2)], 2⟩]).2.drains
      [⟨[.trigger 0 2 #[(1 : ℚ), 1, 1, 1, 1], .release 0 4], 12⟩]) =
      [⟨1, .trigger 0 2 #[1, 1, 1, 1, 1]⟩, ⟨1, .release 0 4⟩] := by cbv
  have hthrice : (((new 1 2 2 (1 : ℚ)).processAll [⟨[.setGain 0 (1 / 2)], 2⟩]).2.drains
      [⟨[.trigger 0 2 #[(1 : ℚ), 1, 1, 1, 1]], 4⟩, ⟨[.release 0 4], 0⟩, ⟨[], 8⟩]) =
      [⟨1, .trigger 0 2 #[1, 1, 1, 1, 1]⟩, ⟨3, .release 0 4⟩] := by cbv
  have hsamples : (((new 1 2 2 (1 : ℚ)).processAll [⟨[.setGain 0 (1 / 2)], 2⟩]).2.rendered
      [⟨[.trigger 0 2 #[(1 : ℚ), 1, 1, 1, 1], .release 0 4], 12⟩]).1 =
      [0, 0, 1 / 2, 1 / 2, 1 / 2, 1 / 2, 1 / 2, 1 / 2, 1 / 4, 1 / 4, 0, 0] := by cbv
  have hchannels :
      ((new 1 2 2 (1 : ℚ)).processAll [⟨[.setGain 0 (1 / 2)], 2⟩]).2.channels = 2 := by cbv
  -- In both runs each command is taken before its frame is over.
  refine ⟨(rendered_eq_of_punctual 1 2 2 (1 : ℚ) [⟨[.setGain 0 (1 / 2)], 2⟩]).1 _ _ ⟨?_, ?_⟩
    ⟨?_, ?_⟩ rfl rfl, hsamples⟩
  · rw [hchannels]
    simp
  · rw [honce]
    simp [Drain.OnTime, Command.event?]
  · rw [hchannels]
    simp
  · rw [hthrice]
    simp [Drain.OnTime, Command.event?]

end Mixer

end Gamelan
