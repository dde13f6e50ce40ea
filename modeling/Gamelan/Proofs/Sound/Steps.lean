import Gamelan.Sound.Mixer

namespace Gamelan

/-!
# What happens to a voice

A voice is started and released, its gain is set, and its frames are rendered, in any order.

* `VoiceStep`, `VoiceStep.frames` — what can happen to a voice, and the frames rendered meanwhile.
* `VoiceStep.gainAfter` — the gain in effect after some steps.
* `Voice.steps`, `Voice.after` — a voice, and a new one, to which it has happened.
-/

variable {σ : Type}

/-! ### Steps -/

/-- What can happen to a voice. -/
inductive VoiceStep (σ : Type) where
  | start (sample : Array σ)
  | release
  | setGain (gain : σ)
  /-- A frame is rendered. -/
  | next
deriving Repr

namespace VoiceStep

def gain? : VoiceStep σ → Option σ
  | setGain gain => some gain
  | _ => none

/-- The gain in effect after some steps of a voice that had a gain before. -/
def gainAfter (gain : σ) (H : List (VoiceStep σ)) : σ :=
  (H.filterMap gain?).getLast?.getD gain

def isNext : VoiceStep σ → Bool
  | next => true
  | _ => false

/-- The frames rendered in some steps. -/
def frames (H : List (VoiceStep σ)) : Nat :=
  H.countP isNext

@[simp] theorem frames_nil : frames ([] : List (VoiceStep σ)) = 0 := rfl

/-- Frames of steps one after the other add up. -/
@[simp] theorem frames_append (H K : List (VoiceStep σ)) :
    frames (H ++ K) = frames H + frames K :=
  List.countP_append

/-- A start takes no time. -/
@[simp] theorem frames_start (sample : Array σ) (H : List (VoiceStep σ)) :
    frames (.start sample :: H) = frames H :=
  List.countP_cons_of_neg (by simp [isNext])

@[simp] theorem frames_release (H : List (VoiceStep σ)) : frames (.release :: H) = frames H :=
  List.countP_cons_of_neg (by simp [isNext])

@[simp] theorem frames_setGain (gain : σ) (H : List (VoiceStep σ)) :
    frames (.setGain gain :: H) = frames H :=
  List.countP_cons_of_neg (by simp [isNext])

@[simp] theorem frames_next (H : List (VoiceStep σ)) : frames (.next :: H) = frames H + 1 :=
  List.countP_cons_of_pos rfl

end VoiceStep

/-! ### A voice after some steps -/

namespace Voice

variable [Zero σ] [One σ] [Mul σ] [Div σ] [NatCast σ]

/-- A voice after a step. -/
def step (fadeFrames : Nat) (v : Voice σ) : VoiceStep σ → Voice σ
  | .start sample => v.start sample
  | .release => v.release fadeFrames
  | .setGain gain => { v with gain := gain }
  | .next => (v.next fadeFrames).2

/-- A voice after some steps. -/
def steps (fadeFrames : Nat) (H : List (VoiceStep σ)) (v : Voice σ) : Voice σ :=
  H.foldl (step fadeFrames) v

/-- A new voice after some steps. -/
def after (fadeFrames : Nat) (H : List (VoiceStep σ)) : Voice σ :=
  new.steps fadeFrames H

theorem steps_cons (fadeFrames : Nat) (e : VoiceStep σ) (H : List (VoiceStep σ)) (v : Voice σ) :
    v.steps fadeFrames (e :: H) = (v.step fadeFrames e).steps fadeFrames H := rfl

/-- Steps can be taken in two goes. -/
theorem steps_append (fadeFrames : Nat) (H K : List (VoiceStep σ)) (v : Voice σ) :
    v.steps fadeFrames (H ++ K) = (v.steps fadeFrames H).steps fadeFrames K :=
  List.foldl_append

theorem map_steps_nil (fadeFrames : Nat) (v? : Option (Voice σ)) :
    v?.map (steps fadeFrames []) = v? :=
  Option.map_id' ..

/-- Steps can be taken in two goes, if there is a voice. -/
theorem map_steps_map_steps (fadeFrames : Nat) (H K : List (VoiceStep σ)) (v? : Option (Voice σ)) :
    (v?.map (steps fadeFrames H)).map (steps fadeFrames K) =
      v?.map (steps fadeFrames (H ++ K)) := by
  rw [Option.map_map]
  exact congrArg (Option.map · v?) (funext fun v => (steps_append fadeFrames H K v).symm)

end Voice

/-- What an event does to its voice. -/
def VoiceEvent.toStep : VoiceEvent σ → VoiceStep σ
  | .start sample => .start sample
  | .release => .release

end Gamelan
