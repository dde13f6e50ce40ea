import Mathlib
import Gamelan.Proofs.Sound.Fading
import Gamelan.Proofs.Sound.Log

namespace Gamelan

/-!
# The frames of a voice

What a voice renders at a frame depends on few things that have happened to it: its last start, the
first release after it, and the gain that was set last.

* `Voice.valueAt` — a frame, from the frames of the start and of the release.
* `Voice.sounding?_steps` — what becomes of a sample that is played.
* `Voice.value_after` — what a voice renders, whatever has happened to it.
* `Mixer.voices_fireDue` — this is what happens to the voices of a mixer.
-/

variable {σ : Type}

open VoiceStep

namespace Voice

variable [Zero σ] [One σ] [Mul σ] [Div σ] [NatCast σ]

/-! ### The gain -/

/-- A frame leaves the gain as it is. -/
theorem gain_next (fadeFrames : Nat) (v : Voice σ) : (v.next fadeFrames).2.gain = v.gain := by
  unfold Voice.next
  split
  · rfl
  · split <;> rfl

/-- The gain of a voice is the one that was set last. -/
theorem gain_steps (fadeFrames : Nat) (H : List (VoiceStep σ)) (v : Voice σ) :
    (v.steps fadeFrames H).gain = gainAfter v.gain H := by
  induction H generalizing v with
  | nil => rfl
  | cons e rest ih =>
    rw [steps_cons, ih, gainAfter, gainAfter]
    cases e with
    | setGain gain =>
      rw [show (VoiceStep.setGain gain :: rest).filterMap gain? =
          gain :: rest.filterMap gain? from rfl, List.getLast?_cons]
      rfl
    | next =>
      rw [show (VoiceStep.next :: rest).filterMap gain? = rest.filterMap gain? from rfl, step,
        gain_next]
    | _ => rfl

/-! ### A sample that is played -/

/-- Where the sample or the fade is over, a voice falls silent. -/
theorem next_of_over (fadeFrames : Nat) {v : Voice σ} {s : Sounding σ} (h : v.sounding? = some s)
    (hover : s.sample[s.position]? = none ∨ s.fade? = some 0) :
    v.next fadeFrames = (0, v.silence) := by
  simp only [Voice.next, h]
  split
  · rfl
  · rfl
  · next x fade? hsample hfade =>
    rcases hover with hnone | hzero
    · rw [hnone] at hsample
      cases hsample
    · exact absurd hzero hfade

/-- Before that, it renders a frame of the sample and moves on. -/
theorem next_of_sounding (fadeFrames : Nat) {v : Voice σ} {s : Sounding σ}
    (h : v.sounding? = some s) {x : σ} (hsample : s.sample[s.position]? = some x)
    (hfade : s.fade? ≠ some 0) :
    v.next fadeFrames =
      (x * v.gain * envelope fadeFrames s.fade?,
        { v with sounding? := some ⟨s.sample, s.position + 1, s.fade?.map (· - 1)⟩ }) := by
  cases hs : s.fade? with
  | none => simp only [Voice.next, h, hsample, hs]
  | some left =>
    cases left with
    | zero => exact absurd hs hfade
    | succ left => simp only [Voice.next, h, hsample, hs]

/-- A silent voice stays silent until it is started. -/
theorem sounding?_steps_of_none (fadeFrames : Nat) {H : List (VoiceStep σ)}
    (hstart : ∀ sample, .start sample ∉ H) {v : Voice σ} (h : v.sounding? = none) :
    (v.steps fadeFrames H).sounding? = none := by
  induction H generalizing v with
  | nil => exact h
  | cons e rest ih =>
    refine ih (fun sample hmem => hstart sample (List.mem_cons_of_mem _ hmem)) ?_
    cases e with
    | start sample => exact absurd (List.mem_cons_self ..) (hstart sample)
    | release => simp [step, Voice.release, h]
    | setGain gain => exact h
    | next => simp [step, Voice.next, h]

/-- **What becomes of a sample that is played.**  As long as no other one is started, and once it
fades at the latest, frames are all that counts: each moves on in the sample and takes one from the
frames left of the fade, up to the end of either. -/
theorem sounding?_steps (fadeFrames : Nat) {H : List (VoiceStep σ)}
    (hstart : ∀ sample, .start sample ∉ H) {v : Voice σ} {sample : Array σ} {position : Nat}
    {fade? : Option Nat} (h : v.sounding? = some ⟨sample, position, fade?⟩)
    (hrelease : fade? = none → .release ∉ H) (hposition : position ≤ sample.size) :
    (v.steps fadeFrames H).sounding? =
      if position + frames H ≤ sample.size ∧ fade?.all (frames H ≤ ·) then
        some ⟨sample, position + frames H, fade?.map (· - frames H)⟩
      else none := by
  induction H generalizing v position fade? with
  | nil => cases fade? <;> simpa [steps, hposition] using h
  | cons e rest ih =>
    have hstart' : ∀ sample, .start sample ∉ rest :=
      fun sample hmem => hstart sample (List.mem_cons_of_mem _ hmem)
    have hrelease' : fade? = none → .release ∉ rest :=
      fun hfade hmem => hrelease hfade (List.mem_cons_of_mem _ hmem)
    rw [steps_cons]
    cases e with
    | start other => exact absurd (List.mem_cons_self ..) (hstart other)
    | release =>
      -- It fades already, and goes on as before.
      cases fade? with
      | none => exact absurd (List.mem_cons_self ..) (hrelease rfl)
      | some left =>
        rw [frames_release]
        exact ih hstart' (by simp [step, Voice.release, h]) hrelease' hposition
    | setGain gain =>
      rw [frames_setGain]
      exact ih hstart' h hrelease' hposition
    | next =>
      rw [frames_next]
      by_cases hover : sample[position]? = none ∨ fade? = some 0
      · -- One of both is over at this frame, and the voice is silent from it on.
        have hsilent : (v.next fadeFrames).2.sounding? = none := by
          rw [next_of_over fadeFrames h hover]
          rfl
        rw [step, sounding?_steps_of_none fadeFrames hstart' hsilent, if_neg]
        rintro ⟨hle, hall⟩
        rcases hover with hnone | rfl
        · rw [Array.getElem?_eq_none_iff] at hnone
          omega
        · simp at hall
      · rw [not_or] at hover
        obtain ⟨x, hx⟩ := Option.ne_none_iff_exists'.1 hover.1
        have hlt : position < sample.size := (Array.getElem?_eq_some_iff.1 hx).1
        have hnext : (v.next fadeFrames).2.sounding? =
            some ⟨sample, position + 1, fade?.map (· - 1)⟩ := by
          rw [next_of_sounding fadeFrames h hx hover.2]
        rw [step, ih hstart' hnext (fun hfade => hrelease' (Option.map_eq_none_iff.1 hfade)) hlt]
        cases fade? with
        | none => simp [Nat.add_assoc, Nat.add_comm 1]
        | some left =>
          have hleft : left ≠ 0 := fun hzero => hover.2 (congrArg some hzero)
          have hall : frames rest ≤ left - 1 ↔ frames rest + 1 ≤ left := by omega
          simp [Nat.add_assoc, Nat.add_comm 1, hall, Nat.sub_sub]

/-- The next frame of a sample that is played, some steps later. -/
theorem value_steps (fadeFrames : Nat) {H : List (VoiceStep σ)}
    (hstart : ∀ sample, .start sample ∉ H) {v : Voice σ} {sample : Array σ} {position : Nat}
    {fade? : Option Nat} (h : v.sounding? = some ⟨sample, position, fade?⟩)
    (hrelease : fade? = none → .release ∉ H) (hposition : position ≤ sample.size) :
    ((v.steps fadeFrames H).next fadeFrames).1 =
      match sample[position + frames H]? with
      | none => 0
      | some x =>
        if fade?.all (frames H < ·) then
          x * gainAfter v.gain H * envelope fadeFrames (fade?.map (· - frames H))
        else 0 := by
  have hstate := sounding?_steps fadeFrames hstart h hrelease hposition
  have hnone : ∀ v : Voice σ, v.sounding? = none → (v.next fadeFrames).1 = 0 := by
    intro v hv
    simp only [Voice.next, hv]
  cases hx : sample[position + frames H]? with
  | none =>
    -- The sample is over, or the voice is silent already.
    split at hstate
    · rw [next_of_over fadeFrames hstate (.inl hx)]
    · exact hnone _ hstate
  | some x =>
    have hle : position + frames H ≤ sample.size := (Array.getElem?_eq_some_iff.1 hx).1.le
    have hgain := gain_steps fadeFrames H v
    cases fade? with
    | none =>
      rw [if_pos ⟨hle, rfl⟩] at hstate
      rw [next_of_sounding fadeFrames hstate hx (fun hzero => by cases hzero), hgain]
      rfl
    | some left =>
      by_cases hlt : frames H < left
      · rw [if_pos ⟨hle, by simpa using hlt.le⟩] at hstate
        have hfade : some (left - frames H) ≠ some 0 := by
          simpa using Nat.sub_ne_zero_of_lt hlt
        rw [next_of_sounding fadeFrames hstate hx hfade, hgain]
        simp [hlt]
      · -- The fade is over, or the voice is silent already.
        have hover : ((v.steps fadeFrames H).next fadeFrames).1 = 0 := by
          split at hstate
          · have hzero : (some left).map (· - frames H) = some 0 := by simp; omega
            rw [next_of_over fadeFrames hstate (.inr hzero)]
          · exact hnone _ hstate
        simp [hover, hlt]

/-! ### The value of a frame -/

/-- A frame of a voice at some gain: its last start was at a frame, and the first release after it
at another one, if there was one. -/
def valueAt (fadeFrames : Nat) (gain : σ) (sample : Array σ) (start : Nat) (release? : Option Nat)
    (frame : Nat) : σ :=
  match sample[frame - start]? with
  | none => 0
  | some x =>
    match release? with
    | none => x * gain * 1
    | some release =>
      if frame < release + fadeFrames then
        x * gain * (((fadeFrames - (frame - release) : Nat) : σ) / (fadeFrames : σ))
      else 0

/-- A sample that was not released. -/
theorem value_of_started (fadeFrames start : Nat) {H : List (VoiceStep σ)}
    (hstart : ∀ sample, .start sample ∉ H) (hrelease : .release ∉ H) {v : Voice σ}
    {sample : Array σ} (h : v.sounding? = some ⟨sample, 0, none⟩) :
    ((v.steps fadeFrames H).next fadeFrames).1 =
      valueAt fadeFrames (gainAfter v.gain H) sample start none (start + frames H) := by
  rw [value_steps fadeFrames hstart h (fun _ => hrelease) (Nat.zero_le _), valueAt,
    Nat.add_sub_cancel_left, Nat.zero_add]
  cases sample[frames H]? <;> rfl

/-- A sample that was released. -/
theorem value_of_released (fadeFrames start : Nat) {mid rest : List (VoiceStep σ)}
    (hstart : ∀ sample, .start sample ∉ mid ++ .release :: rest) (hrelease : .release ∉ mid)
    {v : Voice σ} {sample : Array σ} (h : v.sounding? = some ⟨sample, 0, none⟩) :
    ((v.steps fadeFrames (mid ++ .release :: rest)).next fadeFrames).1 =
      valueAt fadeFrames (gainAfter v.gain (mid ++ .release :: rest)) sample start
        (some (start + frames mid)) (start + frames (mid ++ .release :: rest)) := by
  have hmid : ∀ sample, .start sample ∉ mid :=
    fun sample hmem => hstart sample (List.mem_append_left _ hmem)
  have hrest : ∀ sample, .start sample ∉ rest :=
    fun sample hmem => hstart sample (List.mem_append_right _ (List.mem_cons_of_mem _ hmem))
  have hmiddle := sounding?_steps fadeFrames hmid h (fun _ => hrelease) (Nat.zero_le _)
  have hgain : gainAfter ((v.steps fadeFrames mid).step fadeFrames .release).gain rest =
      gainAfter v.gain (mid ++ .release :: rest) := by
    rw [← gain_steps fadeFrames, ← gain_steps fadeFrames, steps_append]
    rfl
  have hframe : start + frames (mid ++ .release :: rest) = start + frames mid + frames rest := by
    rw [frames_append, frames_release, Nat.add_assoc]
  have hindex : start + frames mid + frames rest - start = 0 + frames mid + frames rest := by omega
  rw [steps_append, steps_cons, hframe, valueAt, hindex]
  by_cases hle : frames mid ≤ sample.size
  · -- The release comes while the sample is played, and lets it fade.
    rw [if_pos ⟨by omega, rfl⟩] at hmiddle
    have hfading : ((v.steps fadeFrames mid).step fadeFrames .release).sounding? =
        some ⟨sample, 0 + frames mid, some fadeFrames⟩ := by
      simp [step, Voice.release, hmiddle]
    rw [value_steps fadeFrames hrest hfading (fun hfade => by cases hfade) (by omega), hgain]
    cases sample[0 + frames mid + frames rest]? with
    | none => rfl
    | some x => simp [envelope]
  · -- The sample is over, so there is nothing to release.
    rw [if_neg (by omega)] at hmiddle
    have hsilent : ((v.steps fadeFrames mid).step fadeFrames .release).sounding? = none := by
      simp [step, Voice.release, hmiddle]
    have hover : sample[0 + frames mid + frames rest]? = none :=
      Array.getElem?_eq_none (by omega)
    rw [hover]
    simp only [Voice.next, sounding?_steps_of_none fadeFrames hrest hsilent]

/-! ### The fade -/

/-- Whatever happens to a voice, it has at most a whole fade to go. -/
theorem FadeAtMost.steps {fadeFrames : Nat} {v : Voice σ} (h : v.FadeAtMost fadeFrames)
    (H : List (VoiceStep σ)) : (v.steps fadeFrames H).FadeAtMost fadeFrames := by
  induction H generalizing v with
  | nil => exact h
  | cons e rest ih =>
    refine ih ?_
    cases e with
    | start sample => exact v.fadeAtMost_start sample fadeFrames
    | release => exact h.release.fadeAtMost
    | setGain gain => exact h
    | next => exact h.next fadeFrames

/-- A voice that fades on had a frame of its fade to go, and has one less. -/
theorem fade?_next (fadeFrames : Nat) {v : Voice σ} {s s' : Sounding σ} {left : Nat}
    (h : v.sounding? = some s) (hfade : s.fade? = some left)
    (h' : (v.next fadeFrames).2.sounding? = some s') : left ≠ 0 ∧ s'.fade? = some (left - 1) := by
  by_cases hover : s.sample[s.position]? = none ∨ s.fade? = some 0
  · rw [next_of_over fadeFrames h hover] at h'
    cases h'
  · rw [not_or] at hover
    obtain ⟨x, hx⟩ := Option.ne_none_iff_exists'.1 hover.1
    rw [next_of_sounding fadeFrames h hx hover.2] at h'
    obtain rfl := Option.some.inj h'
    refine ⟨?_, by rw [hfade]; rfl⟩
    rintro rfl
    exact hover.2 hfade

/-- A part of a fade is more than nothing and at most everything. -/
theorem envelope_pos_le_one {fadeFrames left : Nat} (hle : left ≤ fadeFrames) (hleft : left ≠ 0) :
    (0 : ℚ) < envelope fadeFrames (some left) ∧ (envelope fadeFrames (some left) : ℚ) ≤ 1 := by
  have hpos : (0 : ℚ) < left := Nat.cast_pos.2 (Nat.pos_of_ne_zero hleft)
  have hcast : (left : ℚ) ≤ fadeFrames := Nat.cast_le.2 hle
  exact ⟨div_pos hpos (hpos.trans_le hcast), (div_le_one (hpos.trans_le hcast)).2 hcast⟩

/-! ### Everything that a voice renders -/

/-- **The frames of a voice.**  Whatever has happened to a voice, its next frame is

* nothing, if it was never started;
* if there was no release after its last start, the frame of that sample, as many frames behind its
  first as the voice is behind the start, at the gain that was set last; and nothing behind the end
  of the sample;
* if there was one, the same, times the part that is left of the fade, counted from the first
  release after the start, whatever came after it; and nothing once the fade is over.

While it fades, it never has more than a whole fade to go, each frame takes one from it, and what is
left is more than nothing and at most everything. -/
theorem value_after (fadeFrames : Nat) (H : List (VoiceStep σ)) :
    let v := after fadeFrames H
    let value := (v.next fadeFrames).1
    ((∀ sample, .start sample ∉ H) → value = 0) ∧
    (∀ before sample later, H = before ++ .start sample :: later →
      (∀ other, .start other ∉ later) →
      (.release ∉ later →
        value = valueAt fadeFrames (gainAfter 1 H) sample (frames before) none (frames H)) ∧
      ∀ mid rest, later = mid ++ .release :: rest → .release ∉ mid →
        value = valueAt fadeFrames (gainAfter 1 H) sample (frames before)
          (some (frames (before ++ .start sample :: mid))) (frames H)) ∧
    ∀ s left, v.sounding? = some s → s.fade? = some left →
      left ≤ fadeFrames ∧
      (left ≠ 0 → 0 < fadeFrames ∧
        (0 : ℚ) < envelope fadeFrames (some left) ∧ (envelope fadeFrames (some left) : ℚ) ≤ 1) ∧
      ∀ s', (v.next fadeFrames).2.sounding? = some s' → left ≠ 0 ∧ s'.fade? = some (left - 1) := by
  refine ⟨fun hstart => ?_, ?_, fun s left hs hleft => ?_⟩
  · have hsilent := sounding?_steps_of_none fadeFrames hstart (v := new) rfl
    simp only [Voice.next, after, hsilent]
  · rintro before sample later rfl hstart
    -- The gain that counts is the one set last, before the start or behind it.
    have hgain : gainAfter (((after fadeFrames before).start sample).gain) later =
        gainAfter 1 (before ++ .start sample :: later) := by
      rw [← gain_steps fadeFrames later ((after fadeFrames before).start sample),
        show (1 : σ) = new.gain from rfl, ← gain_steps fadeFrames, steps_append]
      rfl
    rw [after, steps_append, steps_cons, frames_append, frames_start, ← hgain]
    refine ⟨fun hrelease => ?_, ?_⟩
    · exact value_of_started fadeFrames (frames before) hstart hrelease rfl
    · rintro mid rest rfl hrelease
      rw [frames_append, frames_start]
      exact value_of_released fadeFrames (frames before) hstart hrelease rfl
  · have hle : left ≤ fadeFrames :=
      FadeAtMost.steps (v := new) (fun s left h => by cases h) H s left hs hleft
    exact ⟨hle, fun hne => ⟨Nat.lt_of_lt_of_le (Nat.pos_of_ne_zero hne) hle,
      envelope_pos_le_one hle hne⟩, fun s' hs' => fade?_next fadeFrames hs hleft hs'⟩

/-- A sample of four frames, released at its second frame and again at its third. -/
theorem value_after_released_twice :
    let H : List (VoiceStep ℚ) :=
      [.setGain (1 / 2), .start #[1, 1, 1, 1], .next, .release, .next, .release]
    ((after 3 H).next 3).1 = valueAt 3 (1 / 2) #[1, 1, 1, 1] 0 (some 1) 2 ∧
      valueAt 3 (1 / 2 : ℚ) #[1, 1, 1, 1] 0 (some 1) 2 = 1 / 3 := by
  have hvalue := ((value_after (σ := ℚ) 3
    [.setGain (1 / 2), .start #[1, 1, 1, 1], .next, .release, .next, .release]).2.1
      [.setGain (1 / 2)] #[1, 1, 1, 1] [.next, .release, .next, .release] rfl (by simp)).2
      [.next] [.next, .release] rfl (by simp)
  exact ⟨hvalue, by norm_num [valueAt]⟩

end Voice

/-! ### The voices of a mixer -/

namespace Mixer

variable [Zero σ] [One σ] [Mul σ] [Div σ] [NatCast σ] [LT σ] [DecidableLT σ] [Add σ] [Neg σ]

/-- **The voices of a mixer.**  Whatever a new mixer was called with, right before its next frame
every voice is one to which its gains, and the events carried out on it, have happened in their
order, and as many frames as the mixer has rendered.  A fade has at least one frame. -/
theorem voices_fireDue (voices channels fadeFrames : Nat) (ceiling : σ)
    (blocks : List (Block σ)) {voice : Nat} (hvoice : voice < voices) :
    let m := new voices channels fadeFrames ceiling
    let final := (m.processAll blocks).2
    let H := m.voiceSteps voice blocks ++ eventSteps voice final.due
    0 < final.fadeFrames ∧ frames H = final.frame ∧
      final.fireDue.voices[voice]? = some (Voice.after final.fadeFrames H) := by
  intro m final H
  obtain ⟨hfade, hframe, hvoices⟩ := m.voice_processAll blocks voice
  have hnew : m.voices[voice]? = some Voice.new := List.getElem?_replicate_of_lt hvoice
  refine ⟨?_, ?_, ?_⟩
  · rw [show final.fadeFrames = m.fadeFrames from hfade]
    exact Nat.lt_of_lt_of_le Nat.zero_lt_one (Nat.le_max_left 1 fadeFrames)
  · rw [frames_append, frames_eventSteps, Nat.add_zero]
    exact (Nat.zero_add _).symm.trans hframe.symm
  · rw [fireDue_eq_due]
    show (final.due.foldl (fire final.fadeFrames) final.voices)[voice]? = _
    rw [voice_foldl_fire, show final.voices[voice]? = _ from hvoices, hnew,
      show final.fadeFrames = m.fadeFrames from hfade, Voice.map_steps_map_steps]
    rfl

end Mixer

end Gamelan
