namespace Gamelan

/-!
# Voices

A voice plays one sample at a time.  A release lets the sample fade out over a number of frames; a
new start cuts it.

* `Sounding` — a sample being played.
* `Voice` — a gain and possibly a sample.
* `Voice.start`, `release`, `next` — what can happen to a voice.
-/

/-- A sample being played. -/
structure Sounding (σ : Type) where
  sample : Array σ
  /-- The next frame of the sample. -/
  position : Nat
  /-- The frames left of its fade, once it is released. -/
  fade? : Option Nat
deriving Repr

/-- A player of one sample at a time. -/
structure Voice (σ : Type) where
  gain : σ
  sounding? : Option (Sounding σ)
deriving Repr

namespace Voice

variable {σ : Type}

/-- A silent voice at full gain. -/
def new [One σ] : Voice σ where
  gain := 1
  sounding? := none

def isSounding (v : Voice σ) : Bool :=
  v.sounding?.isSome

/-- Play a sample from its first frame. -/
def start (v : Voice σ) (sample : Array σ) : Voice σ :=
  { v with sounding? := some ⟨sample, 0, none⟩ }

/-- Begin a fade of some frames, unless there is one already. -/
def release (v : Voice σ) (fadeFrames : Nat) : Voice σ :=
  { v with sounding? := v.sounding?.map fun s =>
      { s with fade? := some (s.fade?.getD fadeFrames) } }

def silence (v : Voice σ) : Voice σ :=
  { v with sounding? := none }

/-- The factor of a sample with `left` frames of its fade to go. -/
def envelope [One σ] [Div σ] [NatCast σ] (fadeFrames : Nat) : Option Nat → σ
  | none => 1
  | some left => (left : σ) / (fadeFrames : σ)

variable [Zero σ] [One σ] [Mul σ] [Div σ] [NatCast σ]

/-- The next frame of a voice, and the voice after it. -/
def next (fadeFrames : Nat) (v : Voice σ) : σ × Voice σ :=
  match v.sounding? with
  | none => (0, v)
  | some s =>
    match s.sample[s.position]?, s.fade? with
    | none, _ => (0, v.silence)
    | some _, some 0 => (0, v.silence)
    | some x, fade? =>
      (x * v.gain * envelope fadeFrames fade?,
        { v with sounding? := some ⟨s.sample, s.position + 1, fade?.map (· - 1)⟩ })

end Voice

end Gamelan
