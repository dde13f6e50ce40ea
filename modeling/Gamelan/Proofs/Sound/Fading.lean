import Gamelan.Proofs.Sound.Pending

namespace Gamelan

/-!
# Fading

A voice that was released fades for a number of frames and is silent then, unless it is started
again.  So a mixer falls silent once it expects nothing but the release of every voice.

* `Voice.FadeAtMost`, `Voice.FadesWithin` — how many frames of its fade a voice has to go.
* `Mixer.FadesShort` — no voice has more than a whole fade to go; kept by everything.
* `Mixer.EndsAt` — a mixer that expects a release of every voice, and no event after it.
* `Mixer.Fading` — a mixer that expects nothing, and whose voices all fade.
* `Mixer.EndsAt.silent` — when a mixer falls silent.
-/

variable {σ : Type}

namespace Voice

/-! ### Voices -/

/-- If a voice is fading, it has at most so many frames of its fade to go. -/
def FadeAtMost (count : Nat) (v : Voice σ) : Prop :=
  ∀ s left, v.sounding? = some s → s.fade? = some left → left ≤ count

/-- If a voice sounds it is fading, and has at most so many frames of its fade to go. -/
def FadesWithin (count : Nat) (v : Voice σ) : Prop :=
  ∀ s, v.sounding? = some s → ∃ left ≤ count, s.fade? = some left

/-- A voice that fades within some frames has no longer fade than that. -/
theorem FadesWithin.fadeAtMost {count : Nat} {v : Voice σ} (h : v.FadesWithin count) :
    v.FadeAtMost count := by
  intro s left hs hleft
  obtain ⟨left', hle, hfade⟩ := h s hs
  rw [hleft] at hfade
  obtain rfl := Option.some.inj hfade
  exact hle

/-- A sample that is started does not fade. -/
theorem fadeAtMost_start (v : Voice σ) (sample : Array σ) (count : Nat) :
    (v.start sample).FadeAtMost count := by
  intro s left hs hleft
  obtain rfl := Option.some.inj hs
  cases hleft

/-- A voice that is released fades. -/
theorem FadeAtMost.release {count : Nat} {v : Voice σ} (h : v.FadeAtMost count) :
    (v.release count).FadesWithin count := by
  intro s hs
  obtain ⟨before, hbefore, rfl⟩ := Option.map_eq_some_iff.1 hs
  cases hfade : before.fade? with
  | none => exact ⟨count, Nat.le_refl _, rfl⟩
  | some left => exact ⟨left, h before left hbefore hfade, rfl⟩

section
variable [Zero σ] [One σ] [Mul σ] [Div σ] [NatCast σ]

/-- A frame makes no fade longer. -/
theorem FadeAtMost.next {count : Nat} {v : Voice σ} (h : v.FadeAtMost count) (fadeFrames : Nat) :
    (v.next fadeFrames).2.FadeAtMost count := by
  intro s left hs hleft
  unfold Voice.next at hs
  split at hs
  · exact h s left hs hleft
  · next before hbefore =>
    split at hs
    · cases hs
    · cases hs
    · next x fade? hsample hfade =>
      obtain rfl := Option.some.inj hs
      obtain ⟨left', hleft', rfl⟩ := Option.map_eq_some_iff.1 hleft
      exact Nat.le_trans (Nat.sub_le _ _) (h before left' hbefore hleft')

/-- A frame takes one from the frames to go. -/
theorem FadesWithin.next {count : Nat} {v : Voice σ} (h : v.FadesWithin count)
    (fadeFrames : Nat) : (v.next fadeFrames).2.FadesWithin (count - 1) := by
  intro s hs
  unfold Voice.next at hs
  split at hs
  · next hnone =>
    rw [hnone] at hs
    cases hs
  · next before hbefore =>
    -- At the end of the sound or of the fade, the voice is silent.
    split at hs
    · cases hs
    · cases hs
    · next x fade? hsample hzero =>
      obtain rfl := Option.some.inj hs
      obtain ⟨left, hle, hfade⟩ := h before hbefore
      exact ⟨left - 1, Nat.sub_le_sub_right hle 1, by rw [hfade]; rfl⟩

/-- At the end of its fade, a voice contributes nothing more. -/
theorem FadesWithin.next_of_zero {v : Voice σ} (h : v.FadesWithin 0) (fadeFrames : Nat) :
    (v.next fadeFrames).1 = 0 ∧ (v.next fadeFrames).2.isSounding = false := by
  unfold Voice.next
  cases hs : v.sounding? with
  | none => exact ⟨rfl, by simp [isSounding, hs]⟩
  | some s =>
    obtain ⟨left, hle, hfade⟩ := h s hs
    obtain rfl := Nat.le_zero.1 hle
    simp only [hfade]
    cases s.sample[s.position]? with
    | none => exact ⟨rfl, rfl⟩
    | some x => exact ⟨rfl, rfl⟩

end

end Voice

namespace Mixer

/-! ### Events on a voice -/

/-- A voice after an event. -/
theorem fadeAtMost_act {fadeFrames : Nat} {v : Voice σ} (h : v.FadeAtMost fadeFrames)
    (e : VoiceEvent σ) : (VoiceEvent.act fadeFrames v e).FadeAtMost fadeFrames := by
  cases e with
  | start sample => exact v.fadeAtMost_start sample fadeFrames
  | release => exact h.release.fadeAtMost

/-- What holds of all entries, and is kept by a change, holds after the change of one. -/
theorem forall_mem_modify {α : Type} {motive : α → Prop} {f : α → α} {xs : List α} (i : Nat)
    (h : ∀ x ∈ xs, motive x) (hf : ∀ x, motive x → motive (f x)) :
    ∀ x ∈ xs.modify i f, motive x := by
  induction xs generalizing i with
  | nil => simp
  | cons y ys ih =>
    obtain ⟨hy, hys⟩ := List.forall_mem_cons.1 h
    cases i with
    | zero =>
      rw [List.modify_zero_cons]
      exact List.forall_mem_cons.2 ⟨hf y hy, hys⟩
    | succ i =>
      rw [List.modify_succ_cons]
      exact List.forall_mem_cons.2 ⟨hy, ih i hys⟩

/-- Events make no fade longer than a whole one. -/
theorem fadeAtMost_foldl_fire {fadeFrames : Nat} (ps : List (Pending σ)) {voices : List (Voice σ)}
    (h : ∀ v ∈ voices, v.FadeAtMost fadeFrames) :
    ∀ v ∈ ps.foldl (fire fadeFrames) voices, v.FadeAtMost fadeFrames := by
  induction ps generalizing voices with
  | nil => exact h
  | cons p ps ih =>
    exact ih (forall_mem_modify p.voice h fun v hv => fadeAtMost_act hv p.event)

/-- Releases let voices fade, and more releases leave them so. -/
theorem fadesWithin_foldl_fire {fadeFrames : Nat} {releases : List (Pending σ)}
    (hreleases : ∀ p ∈ releases, p.event = .release) {voices : List (Voice σ)}
    (h : ∀ v ∈ voices, v.FadeAtMost fadeFrames) {i : Nat} {v : Voice σ}
    (hv : (releases.foldl (fire fadeFrames) voices)[i]? = some v)
    (hi : (∃ p ∈ releases, p.voice = i) ∨ ∀ w, voices[i]? = some w → w.FadesWithin fadeFrames) :
    v.FadesWithin fadeFrames := by
  -- Either a release of the voice is still to come, or one was before and the voice is fading.
  induction releases generalizing voices with
  | nil =>
    rcases hi with ⟨p, hp, -⟩ | hi
    · cases hp
    · exact hi v hv
  | cons p rest ih =>
    obtain ⟨hp, hrest⟩ := List.forall_mem_cons.1 hreleases
    have hfire : fire fadeFrames voices p = voices.modify p.voice (Voice.release · fadeFrames) := by
      rw [fire, hp]
      rfl
    rw [List.foldl_cons, hfire] at hv
    refine ih hrest (forall_mem_modify p.voice h fun w hw => hw.release.fadeAtMost) hv ?_
    by_cases hvoice : p.voice = i
    · -- This release is one of the voice.
      right
      intro w hw
      rw [hvoice, List.getElem?_modify_eq] at hw
      obtain ⟨u, hu, rfl⟩ := Option.map_eq_some_iff.1 hw
      exact (h u (List.mem_of_getElem? hu)).release
    · rcases hi with ⟨q, hq, hqi⟩ | hi
      · rcases List.mem_cons.1 hq with rfl | hq
        · exact absurd hqi hvoice
        · exact .inl ⟨q, hq, hqi⟩
      · right
        intro w hw
        rw [List.getElem?_modify_ne _ _ hvoice] at hw
        exact hi w hw

/-! ### Short fades -/

/-- No voice has more than a whole fade to go. -/
def FadesShort (m : Mixer σ) : Prop :=
  ∀ v ∈ m.voices, v.FadeAtMost m.fadeFrames

/-- Events that are due make no fade longer than a whole one. -/
theorem FadesShort.fireDue {m : Mixer σ} (h : m.FadesShort) : m.fireDue.FadesShort :=
  fadeAtMost_foldl_fire _ h

section
variable [Zero σ] [One σ] [LT σ] [DecidableLT σ]

theorem FadesShort.apply {m : Mixer σ} (h : m.FadesShort) (c : Command σ) :
    (m.apply c).FadesShort := by
  have hschedule : ∀ p : Pending σ, (m.schedule p).FadesShort := by
    intro p
    unfold schedule
    split
    · exact h
    · exact h
  cases c with
  | trigger voice frame sample => exact hschedule _
  | release voice frame => exact hschedule _
  | setGain voice gain => exact forall_mem_modify voice h fun v hv => hv
  | setVolume volume => exact h
  | cancel after => exact h

theorem FadesShort.applyAll {m : Mixer σ} (h : m.FadesShort) (cs : List (Command σ)) :
    (m.applyAll cs).FadesShort :=
  applyAll_induction h fun _ c _ hm => hm.apply c

variable [Add σ] [Mul σ] [Div σ] [Neg σ] [NatCast σ]

theorem FadesShort.renderFrame {m : Mixer σ} (h : m.FadesShort) : m.renderFrame.2.FadesShort := by
  intro v hv
  rw [voices_renderFrame] at hv
  obtain ⟨w, hw, rfl⟩ := List.mem_map.1 hv
  exact (h.fireDue w hw).next _

/-- Frames make no fade longer than a whole one. -/
theorem FadesShort.renderFrames {m : Mixer σ} (h : m.FadesShort) (count : Nat) :
    (m.renderFrames count).2.FadesShort :=
  renderFrames_induction h (fun _ hm => hm.renderFrame) count

end

/-! ### The last releases -/

/-- A mixer that expects no event after a frame, and a release of every voice at that frame behind
all other events. -/
structure EndsAt (frame : Nat) (m : Mixer σ) : Prop where
  order : InOrder m.pending
  fades : m.FadesShort
  pending_eq : ∃ before releases, m.pending = before ++ releases ∧
    (∀ p ∈ before, p.frame ≤ frame) ∧
    (∀ p ∈ releases, p.frame = frame ∧ p.event = .release) ∧
    ∀ voice < m.voices.length, ∃ p ∈ releases, p.voice = voice

/-- Nothing is to come after the frame of the end. -/
theorem EndsAt.le {frame : Nat} {m : Mixer σ} (h : m.EndsAt frame) :
    ∀ p ∈ m.pending, p.frame ≤ frame := by
  obtain ⟨before, releases, hpending, hbefore, hreleases, -⟩ := h.pending_eq
  intro p hp
  rw [hpending] at hp
  rcases List.mem_append.1 hp with hp | hp
  · exact hbefore p hp
  · exact Nat.le_of_eq (hreleases p hp).1

/-- At that frame, every voice fades. -/
theorem EndsAt.fireDue {frame : Nat} {m : Mixer σ} (h : m.EndsAt frame) (hle : frame ≤ m.frame) :
    m.fireDue.pending = [] ∧ ∀ v ∈ m.fireDue.voices, v.FadesWithin m.fadeFrames := by
  have hdue : ∀ p ∈ m.pending, p.frame ≤ m.frame := fun p hp => Nat.le_trans (h.le p hp) hle
  have hall : upTo m.frame m.pending = m.pending :=
    List.filter_eq_self.2 fun p hp => decide_eq_true (hdue p hp)
  have hnone : beyond m.frame m.pending = [] :=
    List.filter_eq_nil_iff.2 fun p hp => by simpa using hdue p hp
  obtain ⟨before, releases, hpending, -, hreleases, hcover⟩ := h.pending_eq
  rw [fireDue_eq h.order, hall, hnone, hpending, List.foldl_append]
  refine ⟨rfl, fun v hv => ?_⟩
  -- Behind all other events stands a release of this voice.
  obtain ⟨i, hi⟩ := List.mem_iff_getElem?.1 hv
  have hlength : i < m.voices.length := by
    have hlt := (List.getElem?_eq_some_iff.1 hi).1
    rwa [length_foldl_fire, length_foldl_fire] at hlt
  exact fadesWithin_foldl_fire (fun p hp => (hreleases p hp).2)
    (fadeAtMost_foldl_fire before h.fades) hi (.inl (hcover i hlength))

section
variable [Zero σ] [One σ] [LT σ] [DecidableLT σ]

/-- Releases at a frame come behind all events up to it. -/
theorem applyAll_releases {frame : Nat} (voices : List Nat) {m : Mixer σ}
    (h : ∀ p ∈ m.pending, p.frame ≤ frame) :
    m.applyAll (voices.map (Command.release · frame)) =
      { m with
        pending := m.pending ++
          (voices.filter (· < m.voices.length)).map (⟨frame, ·, .release⟩) } := by
  induction voices generalizing m with
  | nil => simp
  | cons voice rest ih =>
    -- Nothing to come is after the frame, so a release goes to the end.
    have hinsert : insertPending ⟨frame, voice, .release⟩ m.pending =
        m.pending ++ [⟨frame, voice, .release⟩] := by
      have hall : ∀ p ∈ m.pending, decide (p.frame ≤ frame) = true :=
        fun p hp => decide_eq_true (h p hp)
      have htake : (m.pending ++ []).takeWhile (·.frame ≤ frame) = m.pending ++ [] :=
        List.takeWhile_append_of_pos hall
      have hdrop : (m.pending ++ ([] : List (Pending σ))).dropWhile (·.frame ≤ frame) = [] :=
        List.dropWhile_append_of_pos hall
      rw [List.append_nil] at htake hdrop
      rw [insertPending, htake, hdrop]
    rw [List.map_cons, applyAll_cons, apply, schedule, hinsert]
    by_cases hvoice : voice < m.voices.length
    · rw [if_pos hvoice, ih]
      · simp [hvoice]
      · intro p hp
        rcases List.mem_append.1 hp with hp | hp
        · exact h p hp
        · have hlast : p = ⟨frame, voice, .release⟩ := List.mem_singleton.1 hp
          exact Nat.le_of_eq (congrArg Pending.frame hlast)
    · rw [if_neg hvoice, ih h]
      simp [hvoice]

/-- **A cut**: the events after a frame are forgotten, and voices are released at it. -/
theorem applyAll_cut (m : Mixer σ) (frame : Nat) (voices : List Nat) :
    m.applyAll (.cancel frame :: voices.map (Command.release · frame)) =
      { m with
        pending := upTo frame m.pending ++
          (voices.filter (· < m.voices.length)).map (⟨frame, ·, .release⟩) } :=
  applyAll_releases voices fun _ hp => (mem_upTo.1 hp).2

/-- A cut that releases every voice leaves a mixer that ends at it. -/
theorem endsAt_cut {m : Mixer σ} (horder : InOrder m.pending) (hfades : m.FadesShort) {frame : Nat}
    {voices : List Nat} (hvoices : ∀ voice < m.voices.length, voice ∈ voices) :
    (m.applyAll (.cancel frame :: voices.map (Command.release · frame))).EndsAt frame where
  order := inOrder_applyAll horder _
  fades := hfades.applyAll _
  pending_eq := by
    rw [applyAll_cut]
    refine ⟨_, _, rfl, fun p hp => (mem_upTo.1 hp).2, ?_, ?_⟩
    · intro p hp
      obtain ⟨voice, -, rfl⟩ := List.mem_map.1 hp
      exact ⟨rfl, rfl⟩
    · intro voice hlt
      refine ⟨⟨frame, voice, .release⟩, List.mem_map.2 ⟨voice, ?_, rfl⟩, rfl⟩
      exact List.mem_filter.2 ⟨hvoices voice hlt, decide_eq_true hlt⟩

end

/-! ### Falling silent -/

/-- A mixer that expects nothing, and whose voices all fade, with so many frames to go. -/
structure Fading (count : Nat) (m : Mixer σ) : Prop where
  pending : m.pending = []
  fades : ∀ v ∈ m.voices, v.FadesWithin count

/-- With nothing to come, nothing is carried out. -/
theorem fireDue_of_nil {m : Mixer σ} (h : m.pending = []) : m.fireDue = m := by
  cases m
  obtain rfl := h
  rfl

/-- Where no voice sounds, none is listed. -/
theorem sounding_eq_nil {m : Mixer σ} (h : ∀ v ∈ m.voices, v.isSounding = false) :
    m.sounding = [] := by
  refine List.filter_eq_nil_iff.2 fun i _ => ?_
  rw [isSounding]
  split
  · next v hv => simp [h v (List.mem_of_getElem? hv)]
  · simp

section
variable [Zero σ] [One σ] [LT σ] [DecidableLT σ] [Add σ] [Mul σ] [Div σ] [Neg σ] [NatCast σ]

/-- A frame before the last releases. -/
theorem EndsAt.renderFrame {frame : Nat} {m : Mixer σ} (h : m.EndsAt frame)
    (hlt : m.frame < frame) : m.renderFrame.2.EndsAt frame where
  order := inOrder_renderFrame h.order
  fades := h.fades.renderFrame
  pending_eq := by
    obtain ⟨before, releases, hpending, hbefore, hreleases, hcover⟩ := h.pending_eq
    -- The releases are after this frame, so none of them is carried out.
    have hkept : beyond m.frame releases = releases := by
      refine List.filter_eq_self.2 fun p hp => decide_eq_true ?_
      rw [(hreleases p hp).1]
      exact hlt
    refine ⟨beyond m.frame before, releases, ?_, fun p hp => hbefore p (mem_beyond.1 hp).1,
      hreleases, ?_⟩
    · show m.fireDue.pending = _
      rw [fireDue_eq h.order, hpending]
      show beyond m.frame (before ++ releases) = _
      rw [beyond, List.filter_append, ← beyond, ← beyond, hkept]
    · rw [voices_renderFrame, List.length_map, length_fireDue]
      exact hcover

/-- Up to the last releases, they are still to come. -/
theorem EndsAt.renderFrames {frame : Nat} {m : Mixer σ} (h : m.EndsAt frame) {count : Nat}
    (hle : m.frame + count ≤ max m.frame frame) : (m.renderFrames count).2.EndsAt frame := by
  induction count generalizing m with
  | zero => exact h
  | succ count ih =>
    -- There is a frame to wait, so the releases are not due yet.
    have hlt : m.frame < frame := by omega
    refine ih (h.renderFrame hlt) ?_
    show m.frame + 1 + count ≤ max (m.frame + 1) frame
    omega

/-- A frame takes one from the frames that are left. -/
theorem Fading.renderFrame {count : Nat} {m : Mixer σ} (h : m.Fading count) :
    m.renderFrame.2.Fading (count - 1) where
  pending := by
    show m.fireDue.pending = []
    rw [fireDue_of_nil h.pending, h.pending]
  fades := by
    intro v hv
    rw [voices_renderFrame, fireDue_of_nil h.pending] at hv
    obtain ⟨w, hw, rfl⟩ := List.mem_map.1 hv
    exact (h.fades w hw).next _

/-- Some frames take as many. -/
theorem Fading.renderFrames {count : Nat} {m : Mixer σ} (h : m.Fading count) (frames : Nat) :
    (m.renderFrames frames).2.Fading (count - frames) := by
  induction frames generalizing m count with
  | zero => exact h
  | succ frames ih =>
    have hrest := ih h.renderFrame
    rwa [Nat.sub_sub, Nat.add_comm 1] at hrest

/-- At the end of the fades, the voices contribute nothing, and are silent after it. -/
theorem Fading.silent {m : Mixer σ} (h : m.Fading 0) :
    (∀ v ∈ m.fireDue.voices, (v.next m.fadeFrames).1 = 0) ∧
      ∀ v ∈ m.renderFrame.2.voices, v.isSounding = false := by
  rw [voices_renderFrame, fireDue_of_nil h.pending]
  refine ⟨fun v hv => ((h.fades v hv).next_of_zero _).1, fun v hv => ?_⟩
  obtain ⟨w, hw, rfl⟩ := List.mem_map.1 hv
  exact ((h.fades w hw).next_of_zero _).2

/-- The frame of the last releases. -/
theorem EndsAt.fading {frame : Nat} {m : Mixer σ} (h : m.EndsAt frame) (hle : frame ≤ m.frame) :
    m.renderFrame.2.Fading (m.fadeFrames - 1) where
  pending := (h.fireDue hle).1
  fades := by
    intro v hv
    rw [voices_renderFrame] at hv
    obtain ⟨w, hw, rfl⟩ := List.mem_map.1 hv
    exact ((h.fireDue hle).2 w hw).next _

/-- From the last releases on, every frame takes one from the fades. -/
theorem EndsAt.fading_renderFrames {frame : Nat} {m : Mixer σ} (h : m.EndsAt frame) {count : Nat}
    (hlt : max m.frame frame < m.frame + count) :
    (m.renderFrames count).2.Fading
      (m.fadeFrames - (m.frame + count - max m.frame frame)) := by
  -- Some frames to wait, the frame of the releases, and some frames of the fades.
  obtain ⟨wait, rest, hwait, rfl⟩ : ∃ wait rest, m.frame + wait = max m.frame frame ∧
      count = wait + (1 + rest) :=
    ⟨max m.frame frame - m.frame, m.frame + count - max m.frame frame - 1, by omega, by omega⟩
  have hdue : frame ≤ (m.renderFrames wait).2.frame := by
    rw [frame_renderFrames]
    omega
  have hfading := ((h.renderFrames (Nat.le_of_eq hwait)).fading hdue).renderFrames rest
  rw [fadeFrames_renderFrames, Nat.sub_sub] at hfading
  have hgone : m.frame + (wait + (1 + rest)) - max m.frame frame = 1 + rest := by omega
  rw [hgone, renderFrames_add, renderFrames_add _ 1 rest]
  exact hfading

/-- **A mixer falls silent** after the last releases.  Nothing is to come after their frame; once a
whole fade has passed, no voice contributes anything, and a frame later none is sounding. -/
theorem EndsAt.silent {frame fade : Nat} {m : Mixer σ} (h : m.EndsAt frame)
    (hfade : m.fadeFrames = fade) (hpos : 0 < fade) (count : Nat) :
    let start := max m.frame frame
    let later := (m.renderFrames count).2
    (∀ p ∈ later.pending, p.frame ≤ frame) ∧
      (start + fade ≤ later.frame → ∀ v ∈ later.fireDue.voices, (v.next fade).1 = 0) ∧
      (start + fade < later.frame → later.sounding = [] ∧ later.pending = []) := by
  intro start later
  have hframe : later.frame = m.frame + count := frame_renderFrames m count
  have hlast : later.fadeFrames = fade := (fadeFrames_renderFrames m count).trans hfade
  by_cases hcount : m.frame + count ≤ start
  · exact ⟨(h.renderFrames hcount).le, by omega, by omega⟩
  · have hfading := h.fading_renderFrames (Nat.lt_of_not_le hcount)
    refine ⟨?_, fun hle => ?_, fun hlt => ?_⟩
    · rw [hfading.pending]
      simp
    · have hgone : m.fadeFrames - (m.frame + count - max m.frame frame) = 0 := by omega
      rw [hgone] at hfading
      rw [← hlast]
      exact hfading.silent.1
    · -- The frame before this one was the last of the fades.
      obtain ⟨n, rfl⟩ : ∃ n, count = n + 1 := ⟨count - 1, by omega⟩
      have hbefore : max m.frame frame < m.frame + n := by omega
      have hgone : m.fadeFrames - (m.frame + n - max m.frame frame) = 0 := by omega
      have hend := h.fading_renderFrames hbefore
      rw [hgone] at hend
      have hnext : later = (m.renderFrames n).2.renderFrame.2 := by
        show (m.renderFrames (n + 1)).2 = _
        rw [renderFrames_add]
        rfl
      refine ⟨sounding_eq_nil ?_, hfading.pending⟩
      rw [hnext]
      exact hend.silent.2

end

end Mixer

end Gamelan
