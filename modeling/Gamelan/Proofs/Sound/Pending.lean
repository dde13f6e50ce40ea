import Gamelan.Sound.Mixer

namespace Gamelan

/-!
# The events to come

The events that a mixer expects are kept in the order of their frames.  So a command that is about
later frames only has the same effect before some frames are rendered as after them.

* `InOrder`, `upTo`, `beyond` — events by frame, and the two parts of them at a frame.
* `Mixer.inOrder_applyAll`, `Mixer.inOrder_renderFrames` — the order is kept.
* `Command.NotBefore` — a command that leaves alone what comes before a frame.
* `Mixer.mem_pending_applyAll`, `Mixer.mem_pending_renderFrames` — what is to come stays so until it
  is cancelled or its frame is rendered.
* `Mixer.renderFrames_applyAll` — such commands can be taken early.
* `Mixer.spread`, `Mixer.process_eq` — a block is some frames, on every channel.
-/

variable {σ : Type}

/-! ### Order -/

/-- Events by frame. -/
def InOrder (pending : List (Pending σ)) : Prop :=
  pending.Pairwise fun p q => p.frame ≤ q.frame

/-- The events up to a frame. -/
def upTo (frame : Nat) (pending : List (Pending σ)) : List (Pending σ) :=
  pending.filter (·.frame ≤ frame)

/-- The events after a frame. -/
def beyond (frame : Nat) (pending : List (Pending σ)) : List (Pending σ) :=
  pending.filter (frame < ·.frame)

/-- An event is up to a frame if its own is. -/
@[simp] theorem mem_upTo {frame : Nat} {pending : List (Pending σ)} {p : Pending σ} :
    p ∈ upTo frame pending ↔ p ∈ pending ∧ p.frame ≤ frame := by
  simp [upTo]

/-- An event is beyond a frame if its own is. -/
@[simp] theorem mem_beyond {frame : Nat} {pending : List (Pending σ)} {p : Pending σ} :
    p ∈ beyond frame pending ↔ p ∈ pending ∧ frame < p.frame := by
  simp [beyond]

/-- Without the first event, the others are in order. -/
theorem InOrder.tail {p : Pending σ} {rest : List (Pending σ)} (h : InOrder (p :: rest)) :
    InOrder rest :=
  (List.pairwise_cons.1 h).2

theorem InOrder.filter {pending : List (Pending σ)} (h : InOrder pending) (f : Pending σ → Bool) :
    InOrder (pending.filter f) :=
  List.Pairwise.filter f h

/-- The events up to a frame are in order. -/
protected theorem InOrder.upTo {pending : List (Pending σ)} (h : InOrder pending) (frame : Nat) :
    InOrder (upTo frame pending) :=
  h.filter _

protected theorem InOrder.beyond {pending : List (Pending σ)} (h : InOrder pending) (frame : Nat) :
    InOrder (beyond frame pending) :=
  h.filter _

/-- In order, what is up to a frame comes first. -/
theorem InOrder.takeWhile_eq {pending : List (Pending σ)} (h : InOrder pending) (frame : Nat) :
    pending.takeWhile (·.frame ≤ frame) = upTo frame pending := by
  induction pending with
  | nil => rfl
  | cons p rest ih =>
    by_cases hp : p.frame ≤ frame
    · simp [upTo, hp, ih h.tail]
    · -- Everything behind `p` is as late as `p`.
      have hrest : ∀ q ∈ rest, ¬q.frame ≤ frame := by
        intro q hq hle
        exact hp (Nat.le_trans ((List.pairwise_cons.1 h).1 q hq) hle)
      simpa [upTo, hp] using hrest

/-- In order, what is after a frame comes last. -/
theorem InOrder.dropWhile_eq {pending : List (Pending σ)} (h : InOrder pending) (frame : Nat) :
    pending.dropWhile (·.frame ≤ frame) = beyond frame pending := by
  induction pending with
  | nil => rfl
  | cons p rest ih =>
    by_cases hp : p.frame ≤ frame
    · simp [beyond, hp, ih h.tail]
    · have hrest : ∀ q ∈ rest, frame < q.frame := by
        intro q hq
        exact Nat.lt_of_lt_of_le (Nat.lt_of_not_le hp) ((List.pairwise_cons.1 h).1 q hq)
      simpa [beyond, hp, Nat.lt_of_not_le hp] using (List.filter_eq_self.2 (by simpa using hrest)).symm

/-- In order, events are those up to a frame, then those after it. -/
theorem InOrder.upTo_append_beyond {pending : List (Pending σ)} (h : InOrder pending)
    (frame : Nat) : upTo frame pending ++ beyond frame pending = pending := by
  rw [← h.takeWhile_eq, ← h.dropWhile_eq, List.takeWhile_append_dropWhile]

namespace Mixer

/-! ### One more event -/

/-- In order, an event goes behind those up to its frame. -/
theorem insertPending_eq {pending : List (Pending σ)} (h : InOrder pending) (p : Pending σ) :
    insertPending p pending = upTo p.frame pending ++ p :: beyond p.frame pending := by
  rw [insertPending, h.takeWhile_eq, h.dropWhile_eq]

/-- There it keeps the order. -/
theorem inOrder_insertPending {pending : List (Pending σ)} (h : InOrder pending) (p : Pending σ) :
    InOrder (insertPending p pending) := by
  rw [insertPending_eq h]
  refine List.pairwise_append.2 ⟨h.filter _, List.pairwise_cons.2 ⟨?_, h.filter _⟩, ?_⟩
  · intro q hq
    exact Nat.le_of_lt (mem_beyond.1 hq).2
  · intro q hq r hr
    have hle := (mem_upTo.1 hq).2
    rcases List.mem_cons.1 hr with rfl | hr
    · exact hle
    · exact Nat.le_trans hle (Nat.le_of_lt (mem_beyond.1 hr).2)

/-- Nothing is lost when an event is put in its place. -/
@[simp] theorem mem_insertPending {pending : List (Pending σ)} {p q : Pending σ} :
    q ∈ insertPending p pending ↔ q = p ∨ q ∈ pending := by
  rw [insertPending, List.mem_append, List.mem_cons, or_left_comm, ← List.mem_append,
    List.takeWhile_append_dropWhile]

/-- A later event is not among those up to a frame. -/
theorem upTo_insertPending {pending : List (Pending σ)} (h : InOrder pending) {p : Pending σ}
    {frame : Nat} (hp : frame < p.frame) :
    upTo frame (insertPending p pending) = upTo frame pending := by
  rw [insertPending_eq h]
  calc upTo frame (upTo p.frame pending ++ p :: beyond p.frame pending)
      = upTo frame (upTo p.frame pending) ++ upTo frame (beyond p.frame pending) := by
        simp [upTo, Nat.not_le.2 hp]
    _ = upTo frame (upTo p.frame pending ++ beyond p.frame pending) := (List.filter_append ..).symm
    _ = upTo frame pending := by rw [h.upTo_append_beyond]

/-- A later event joins those after a frame. -/
theorem beyond_insertPending {pending : List (Pending σ)} (h : InOrder pending) {p : Pending σ}
    {frame : Nat} (hp : frame < p.frame) :
    beyond frame (insertPending p pending) = insertPending p (beyond frame pending) := by
  rw [insertPending_eq h, insertPending_eq (h.beyond frame)]
  simp only [upTo, beyond, List.filter_append, List.filter_cons, hp, decide_true, if_true,
    List.filter_filter, Bool.and_comm]

theorem inOrder_schedule {m : Mixer σ} (h : InOrder m.pending) (p : Pending σ) :
    InOrder (m.schedule p).pending := by
  unfold schedule
  split
  · exact inOrder_insertPending h p
  · exact h

/-- Scheduling takes no time. -/
@[simp] theorem frame_schedule (m : Mixer σ) (p : Pending σ) : (m.schedule p).frame = m.frame := by
  unfold schedule
  split <;> rfl

@[simp] theorem channels_schedule (m : Mixer σ) (p : Pending σ) :
    (m.schedule p).channels = m.channels := by
  unfold schedule
  split <;> rfl

@[simp] theorem fadeFrames_schedule (m : Mixer σ) (p : Pending σ) :
    (m.schedule p).fadeFrames = m.fadeFrames := by
  unfold schedule
  split <;> rfl

/-- Scheduling does nothing to the voices yet. -/
@[simp] theorem voices_schedule (m : Mixer σ) (p : Pending σ) :
    (m.schedule p).voices = m.voices := by
  unfold schedule
  split <;> rfl

/-! ### Firing -/

/-- Events bring no voice and take none. -/
theorem length_foldl_fire (fadeFrames : Nat) (ps : List (Pending σ)) (voices : List (Voice σ)) :
    (ps.foldl (fire fadeFrames) voices).length = voices.length := by
  induction ps generalizing voices with
  | nil => rfl
  | cons p ps ih => rw [List.foldl_cons, ih, fire, List.length_modify]

@[simp] theorem length_fireDue (m : Mixer σ) : m.fireDue.voices.length = m.voices.length :=
  length_foldl_fire _ _ _

/-- The events up to its frame are carried out, and the others are left to come. -/
theorem fireDue_eq {m : Mixer σ} (h : InOrder m.pending) :
    m.fireDue =
      { m with
        voices := (upTo m.frame m.pending).foldl (fire m.fadeFrames) m.voices
        pending := beyond m.frame m.pending } := by
  rw [← h.takeWhile_eq, ← h.dropWhile_eq]
  rfl

/-- An event of a later frame can be scheduled before those of a frame are carried out. -/
theorem fireDue_schedule {m : Mixer σ} (h : InOrder m.pending) {p : Pending σ}
    (hp : m.frame < p.frame) : (m.schedule p).fireDue = m.fireDue.schedule p := by
  by_cases hvoice : p.voice < m.voices.length
  · rw [fireDue_eq (inOrder_schedule h p), schedule, if_pos hvoice, schedule, length_fireDue,
      if_pos hvoice, fireDue_eq h]
    simp only [upTo_insertPending h hp, beyond_insertPending h hp]
  · rw [schedule, if_neg hvoice, schedule, length_fireDue, if_neg hvoice]

/-! ### Commands -/

section
variable [Zero σ] [One σ] [LT σ] [DecidableLT σ]

/-- A mixer after some commands. -/
def applyAll (m : Mixer σ) (cs : List (Command σ)) : Mixer σ :=
  cs.foldl apply m

@[simp] theorem applyAll_nil (m : Mixer σ) : m.applyAll [] = m := rfl

@[simp] theorem applyAll_cons (m : Mixer σ) (c : Command σ) (cs : List (Command σ)) :
    m.applyAll (c :: cs) = (m.apply c).applyAll cs := rfl

/-- Commands can be taken in two goes. -/
@[simp] theorem applyAll_append (m : Mixer σ) (cs more : List (Command σ)) :
    m.applyAll (cs ++ more) = (m.applyAll cs).applyAll more :=
  List.foldl_append

/-- What every one of some commands keeps, they keep together. -/
theorem applyAll_induction {motive : Mixer σ → Prop} {m : Mixer σ} {cs : List (Command σ)}
    (h : motive m) (happly : ∀ m, ∀ c ∈ cs, motive m → motive (m.apply c)) :
    motive (m.applyAll cs) :=
  List.foldlRecOn (motive := motive) cs apply h fun m hm c hc => happly m c hc hm

/-- A command takes no time. -/
@[simp] theorem frame_apply (m : Mixer σ) (c : Command σ) : (m.apply c).frame = m.frame := by
  cases c <;> simp [apply]

@[simp] theorem channels_apply (m : Mixer σ) (c : Command σ) :
    (m.apply c).channels = m.channels := by
  cases c <;> simp [apply]

/-- No command changes the length of a fade. -/
@[simp] theorem fadeFrames_apply (m : Mixer σ) (c : Command σ) :
    (m.apply c).fadeFrames = m.fadeFrames := by
  cases c <;> simp [apply]

/-- A command brings no voice and takes none. -/
@[simp] theorem length_voices_apply (m : Mixer σ) (c : Command σ) :
    (m.apply c).voices.length = m.voices.length := by
  cases c <;> simp [apply]

@[simp] theorem frame_applyAll (m : Mixer σ) (cs : List (Command σ)) :
    (m.applyAll cs).frame = m.frame :=
  applyAll_induction (motive := (·.frame = m.frame)) rfl fun m' c _ h =>
    (frame_apply m' c).trans h

@[simp] theorem channels_applyAll (m : Mixer σ) (cs : List (Command σ)) :
    (m.applyAll cs).channels = m.channels :=
  applyAll_induction (motive := (·.channels = m.channels)) rfl fun m' c _ h =>
    (channels_apply m' c).trans h

@[simp] theorem fadeFrames_applyAll (m : Mixer σ) (cs : List (Command σ)) :
    (m.applyAll cs).fadeFrames = m.fadeFrames :=
  applyAll_induction (motive := (·.fadeFrames = m.fadeFrames)) rfl fun m' c _ h =>
    (fadeFrames_apply m' c).trans h

@[simp] theorem length_voices_applyAll (m : Mixer σ) (cs : List (Command σ)) :
    (m.applyAll cs).voices.length = m.voices.length :=
  applyAll_induction (motive := (·.voices.length = m.voices.length)) rfl fun m' c _ h =>
    (length_voices_apply m' c).trans h

/-- A command keeps the order. -/
theorem inOrder_apply {m : Mixer σ} (h : InOrder m.pending) (c : Command σ) :
    InOrder (m.apply c).pending := by
  cases c with
  | trigger voice frame sample => exact inOrder_schedule h _
  | release voice frame => exact inOrder_schedule h _
  | setGain voice gain => exact h
  | setVolume volume => exact h
  | cancel after => exact h.filter _

/-- Commands keep the order. -/
theorem inOrder_applyAll {m : Mixer σ} (h : InOrder m.pending) (cs : List (Command σ)) :
    InOrder (m.applyAll cs).pending :=
  applyAll_induction (motive := fun m' => InOrder m'.pending) h fun _ c _ hm => inOrder_apply hm c

end

end Mixer

/-- A command that leaves alone whatever comes before a frame. -/
def Command.NotBefore (frame : Nat) : Command σ → Prop
  | .trigger _ time _ => frame ≤ time
  | .release _ time => frame ≤ time
  | .cancel after => frame ≤ after
  | .setGain .. | .setVolume _ => False

/-- What leaves alone all before a frame leaves alone all before an earlier one. -/
theorem Command.NotBefore.mono {frame earlier : Nat} {c : Command σ} (h : c.NotBefore frame)
    (hle : earlier ≤ frame) : c.NotBefore earlier := by
  cases c with
  | setGain voice gain => exact h
  | setVolume volume => exact h
  | _ => exact Nat.le_trans hle h

/-- A cancellation leaves alone the events up to its frame. -/
theorem upTo_filter {frame after : Nat} (h : frame ≤ after) (pending : List (Pending σ)) :
    upTo frame (pending.filter (·.frame ≤ after)) = upTo frame pending := by
  rw [upTo, List.filter_filter]
  refine List.filter_congr fun p _ => ?_
  by_cases hp : p.frame ≤ frame
  · simp [hp, Nat.le_trans hp h]
  · simp [hp]

/-- A cancellation can be carried out on the later events alone. -/
theorem beyond_filter (frame after : Nat) (pending : List (Pending σ)) :
    beyond frame (pending.filter (·.frame ≤ after)) =
      (beyond frame pending).filter (·.frame ≤ after) := by
  rw [beyond, beyond, List.filter_filter, List.filter_filter]
  exact List.filter_congr fun p _ => Bool.and_comm _ _

namespace Mixer

variable [Zero σ] [One σ] [LT σ] [DecidableLT σ]

/-- A command about later frames can be taken before the events of this frame are carried out. -/
theorem fireDue_apply {m : Mixer σ} (h : InOrder m.pending) {c : Command σ}
    (hc : c.NotBefore (m.frame + 1)) : (m.apply c).fireDue = m.fireDue.apply c := by
  cases c with
  | trigger voice frame sample => exact fireDue_schedule h hc
  | release voice frame => exact fireDue_schedule h hc
  | cancel after =>
    have hafter : m.frame ≤ after := Nat.le_of_succ_le hc
    have hkept : InOrder (m.apply (.cancel after)).pending := inOrder_apply h _
    rw [fireDue_eq hkept, fireDue_eq h]
    simp only [apply, upTo_filter hafter, beyond_filter]
  | setGain voice gain => exact hc.elim
  | setVolume volume => exact hc.elim

/-! ### What is still to come -/

omit [Zero σ] [One σ] [LT σ] [DecidableLT σ] in
/-- Scheduling an event forgets no other. -/
theorem mem_pending_schedule {m : Mixer σ} {p : Pending σ} (hp : p ∈ m.pending) (q : Pending σ) :
    p ∈ (m.schedule q).pending := by
  unfold schedule
  split
  · exact mem_insertPending.2 (.inr hp)
  · exact hp

/-- Only a cancellation makes a mixer forget an event. -/
theorem mem_pending_apply {m : Mixer σ} {p : Pending σ} (hp : p ∈ m.pending) {c : Command σ}
    (hc : ∀ after, c ≠ .cancel after) : p ∈ (m.apply c).pending := by
  cases c with
  | trigger voice frame sample => exact mem_pending_schedule hp _
  | release voice frame => exact mem_pending_schedule hp _
  | setGain voice gain => exact hp
  | setVolume volume => exact hp
  | cancel after => exact absurd rfl (hc after)

/-- Commands without a cancellation forget nothing. -/
theorem mem_pending_applyAll {m : Mixer σ} {p : Pending σ} (hp : p ∈ m.pending)
    {cs : List (Command σ)} (hcs : ∀ after, .cancel after ∉ cs) : p ∈ (m.applyAll cs).pending := by
  refine applyAll_induction (motive := fun m' => p ∈ m'.pending) hp fun m' c hc hm => ?_
  exact mem_pending_apply hm fun after heq => hcs after (heq ▸ hc)

/-- A trigger among some commands is to come, unless a cancellation is among them too. -/
theorem mem_pending_of_trigger {m : Mixer σ} {voice frame : Nat} {sample : Array σ}
    (hvoice : voice < m.voices.length) {cs : List (Command σ)}
    (hmem : .trigger voice frame sample ∈ cs) (hcs : ∀ after, .cancel after ∉ cs) :
    ⟨frame, voice, .start sample⟩ ∈ (m.applyAll cs).pending := by
  obtain ⟨before, later, rfl⟩ := List.append_of_mem hmem
  rw [applyAll_append, applyAll_cons]
  have hput : (⟨frame, voice, .start sample⟩ : Pending σ) ∈
      ((m.applyAll before).apply (.trigger voice frame sample)).pending := by
    rw [apply, schedule, if_pos (by rwa [length_voices_applyAll])]
    exact mem_insertPending.2 (.inl rfl)
  refine mem_pending_applyAll hput fun after hafter => hcs after ?_
  exact List.mem_append_right _ (List.mem_cons_of_mem _ hafter)

/-! ### Rendering -/

variable [Add σ] [Mul σ] [Div σ] [Neg σ] [NatCast σ]

theorem inOrder_renderFrame {m : Mixer σ} (h : InOrder m.pending) :
    InOrder m.renderFrame.2.pending := by
  show InOrder m.fireDue.pending
  rw [fireDue_eq h]
  exact h.beyond m.frame

/-- A command about later frames can be taken before a frame is rendered. -/
theorem renderFrame_apply {m : Mixer σ} (h : InOrder m.pending) {c : Command σ}
    (hc : c.NotBefore (m.frame + 1)) :
    (m.apply c).renderFrame = (m.renderFrame.1, m.renderFrame.2.apply c) := by
  -- Such a command is about the events to come, and a frame leaves those alone.
  rw [renderFrame, fireDue_apply h hc, renderFrame]
  cases c with
  | trigger voice frame sample =>
    by_cases hvoice : voice < m.voices.length <;> simp [apply, schedule, hvoice]
  | release voice frame =>
    by_cases hvoice : voice < m.voices.length <;> simp [apply, schedule, hvoice]
  | cancel after => rfl
  | setGain voice gain => exact hc.elim
  | setVolume volume => exact hc.elim

theorem renderFrames_succ (m : Mixer σ) (count : Nat) :
    m.renderFrames (count + 1) =
      (m.renderFrame.1 :: (m.renderFrame.2.renderFrames count).1,
        (m.renderFrame.2.renderFrames count).2) := rfl

/-- What every frame keeps, some frames keep. -/
theorem renderFrames_induction {motive : Mixer σ → Prop} {m : Mixer σ} (h : motive m)
    (hframe : ∀ m, motive m → motive m.renderFrame.2) (count : Nat) :
    motive (m.renderFrames count).2 := by
  induction count generalizing m with
  | zero => exact h
  | succ count ih => exact ih (hframe m h)

/-- The clock counts the frames that are rendered. -/
@[simp] theorem frame_renderFrames (m : Mixer σ) (count : Nat) :
    (m.renderFrames count).2.frame = m.frame + count := by
  induction count generalizing m with
  | zero => rfl
  | succ count ih =>
    rw [renderFrames_succ, ih]
    show m.frame + 1 + count = _
    omega

/-- Some frames are as many values. -/
@[simp] theorem length_renderFrames (m : Mixer σ) (count : Nat) :
    (m.renderFrames count).1.length = count := by
  induction count generalizing m with
  | zero => rfl
  | succ count ih => rw [renderFrames_succ, List.length_cons, ih]

/-- Rendering keeps the order. -/
theorem inOrder_renderFrames {m : Mixer σ} (h : InOrder m.pending) (count : Nat) :
    InOrder (m.renderFrames count).2.pending :=
  renderFrames_induction (motive := fun m' => InOrder m'.pending) h
    (fun _ hm => inOrder_renderFrame hm) count

/-- An event is to come until its frame. -/
theorem mem_pending_renderFrames {m : Mixer σ} (h : InOrder m.pending) {p : Pending σ}
    (hp : p ∈ m.pending) {count : Nat} (hcount : m.frame + count ≤ p.frame) :
    p ∈ (m.renderFrames count).2.pending := by
  induction count generalizing m with
  | zero => exact hp
  | succ count ih =>
    have hfirst : p ∈ m.renderFrame.2.pending := by
      show p ∈ m.fireDue.pending
      rw [fireDue_eq h]
      exact mem_beyond.2 ⟨hp, by omega⟩
    refine ih (inOrder_renderFrame h) hfirst ?_
    show m.frame + 1 + count ≤ p.frame
    omega

/-- Frames can be rendered in two goes. -/
theorem renderFrames_add (m : Mixer σ) (first second : Nat) :
    m.renderFrames (first + second) =
      ((m.renderFrames first).1 ++ ((m.renderFrames first).2.renderFrames second).1,
        ((m.renderFrames first).2.renderFrames second).2) := by
  induction first generalizing m with
  | zero => simp [renderFrames]
  | succ first ih => rw [Nat.succ_add, renderFrames_succ, ih, renderFrames_succ, List.cons_append]

/-- A command about later frames can be taken before some frames are rendered. -/
theorem renderFrames_apply {m : Mixer σ} (h : InOrder m.pending) (count : Nat) {c : Command σ}
    (hc : 0 < count → c.NotBefore (m.frame + count)) :
    (m.apply c).renderFrames count =
      ((m.renderFrames count).1, (m.renderFrames count).2.apply c) := by
  induction count generalizing m with
  | zero => rfl
  | succ count ih =>
    have hfirst := renderFrame_apply h ((hc (Nat.succ_pos _)).mono (by omega))
    have hrest := ih (inOrder_renderFrame h) fun _ => by
      have hlast := hc (Nat.succ_pos _)
      rwa [Nat.add_comm count 1, ← Nat.add_assoc] at hlast
    rw [renderFrames_succ, hfirst, hrest, renderFrames_succ]

/-- **Commands can be taken early.**  Some frames are the same with commands that are about later
frames only, and these have the same effect before as after them. -/
theorem renderFrames_applyAll {m : Mixer σ} (h : InOrder m.pending) (count : Nat)
    {cs : List (Command σ)} (hcs : 0 < count → ∀ c ∈ cs, c.NotBefore (m.frame + count)) :
    (m.applyAll cs).renderFrames count =
      ((m.renderFrames count).1, (m.renderFrames count).2.applyAll cs) := by
  induction cs generalizing m with
  | nil => rfl
  | cons c cs ih =>
    have hc := renderFrames_apply h count (c := c) fun hpos => hcs hpos c (List.mem_cons_self ..)
    rw [applyAll_cons, ih (inOrder_apply h c), hc, applyAll_cons]
    intro hpos q hq
    rw [frame_apply]
    exact hcs hpos q (List.mem_cons_of_mem _ hq)

/-- Frames do not change the channels. -/
@[simp] theorem channels_renderFrames (m : Mixer σ) (count : Nat) :
    (m.renderFrames count).2.channels = m.channels :=
  renderFrames_induction (motive := (·.channels = m.channels)) rfl (fun _ h => h) count

/-- Frames do not change the length of a fade. -/
@[simp] theorem fadeFrames_renderFrames (m : Mixer σ) (count : Nat) :
    (m.renderFrames count).2.fadeFrames = m.fadeFrames :=
  renderFrames_induction (motive := (·.fadeFrames = m.fadeFrames)) rfl (fun _ h => h) count

/-- The voices after a frame. -/
theorem voices_renderFrame (m : Mixer σ) :
    m.renderFrame.2.voices = m.fireDue.voices.map fun v => (v.next m.fadeFrames).2 := by
  show (m.fireDue.voices.map (Voice.next m.fadeFrames)).map (·.2) = _
  rw [List.map_map]
  rfl

/-- Frames bring no voice and take none. -/
@[simp] theorem length_voices_renderFrames (m : Mixer σ) (count : Nat) :
    (m.renderFrames count).2.voices.length = m.voices.length := by
  refine renderFrames_induction (motive := (·.voices.length = m.voices.length)) rfl ?_ count
  intro m' h
  rw [voices_renderFrame, List.length_map, length_fireDue, h]

/-! ### Blocks -/

/-- Frames as they stand in a buffer: every channel carries the same mix. -/
def spread (channels : Nat) (frames : List σ) : List σ :=
  frames.flatMap (List.replicate channels)

omit [Zero σ] [One σ] [LT σ] [DecidableLT σ] [Add σ] [Mul σ] [Div σ] [Neg σ] [NatCast σ] in
/-- A buffer has a sample of each frame on each channel. -/
@[simp] theorem length_spread (channels : Nat) (frames : List σ) :
    (spread channels frames).length = frames.length * channels := by
  induction frames with
  | nil => simp [spread]
  | cons x frames ih =>
    rw [spread, List.flatMap_cons, List.length_append, ← spread, ih, List.length_replicate,
      List.length_cons, Nat.succ_mul, Nat.add_comm]

omit [Zero σ] [One σ] [LT σ] [DecidableLT σ] [Add σ] [Mul σ] [Div σ] [Neg σ] [NatCast σ] in
/-- Buffers of some frames can be put together. -/
theorem spread_append (channels : Nat) (frames more : List σ) :
    spread channels (frames ++ more) = spread channels frames ++ spread channels more :=
  List.flatMap_append

/-- The first frames of a longer rendering. -/
theorem take_spread_renderFrames (channels : Nat) (m : Mixer σ) {frames total : Nat}
    (h : frames ≤ total) :
    (spread channels (m.renderFrames total).1).take (frames * channels) =
      spread channels (m.renderFrames frames).1 := by
  obtain ⟨rest, rfl⟩ := Nat.exists_eq_add_of_le h
  rw [renderFrames_add, spread_append, List.take_left' (by simp)]

/-- The mixer after a block: the commands are taken first, and a last frame that does not fit counts
all the same. -/
theorem process_snd (m : Mixer σ) (cs : List (Command σ)) (length : Nat) :
    (m.process cs length).2 =
      ((m.applyAll cs).renderFrames ((length + m.channels - 1) / m.channels)).2 := by
  rw [← channels_applyAll m cs]
  rfl

omit [Zero σ] [One σ] [LT σ] [DecidableLT σ] [Add σ] [Mul σ] [Div σ] [Neg σ] [NatCast σ] in
/-- The samples of some frames fit them all. -/
theorem frames_of_block {channels : Nat} (h : 0 < channels) (block : Nat) :
    (block * channels + channels - 1) / channels = block := by
  rw [Nat.add_sub_assoc h, Nat.mul_comm, Nat.mul_add_div h,
    Nat.div_eq_of_lt (Nat.sub_lt h Nat.one_pos), Nat.add_zero]

/-- A block that holds a number of frames. -/
theorem process_eq {m : Mixer σ} (hchannels : 0 < m.channels) (cs : List (Command σ))
    (block : Nat) :
    m.process cs (block * m.channels) =
      (spread m.channels ((m.applyAll cs).renderFrames block).1,
        ((m.applyAll cs).renderFrames block).2) := by
  have hprocess : m.process cs (block * m.channels) =
      ((spread (m.applyAll cs).channels ((m.applyAll cs).renderFrames
          ((block * m.channels + (m.applyAll cs).channels - 1) / (m.applyAll cs).channels)).1).take
            (block * m.channels),
        ((m.applyAll cs).renderFrames
          ((block * m.channels + (m.applyAll cs).channels - 1) / (m.applyAll cs).channels)).2) :=
    rfl
  rw [hprocess, channels_applyAll, frames_of_block hchannels, List.take_of_length_le (by simp)]

end Mixer

end Gamelan
