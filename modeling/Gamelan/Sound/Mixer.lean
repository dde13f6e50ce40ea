import Gamelan.Sound.Command
import Gamelan.Sound.Limiter
import Gamelan.Sound.Voice

namespace Gamelan

/-!
# The mixer

The mixer takes its commands, starts and releases voices when their frame comes, adds the voices up,
and sends the sum through the volume and the limiter.  Its count of frames is the clock that the
sequencer is polled with.

* `Mixer` — the states.
* `Mixer.apply` — the effect of a command.
* `Mixer.frame` — one frame of the mix.
* `Mixer.process` — a block: commands first, then frames.
-/

/-- What happens to a voice at a frame. -/
inductive VoiceEvent (σ : Type) where
  | start (sample : Array σ)
  | release
deriving Repr

/-- An event to come. -/
structure Pending (σ : Type) where
  frame : Nat
  voice : Nat
  event : VoiceEvent σ
deriving Repr

/-- The state of a mixer. -/
structure Mixer (σ : Type) where
  voices : List (Voice σ)
  /-- The events to come, by frame, and in order of arrival within a frame. -/
  pending : List (Pending σ)
  /-- The frames rendered so far. -/
  frame : Nat
  volume : σ
  limiter : Limiter σ
  channels : Nat
  /-- The length of a release. -/
  fadeFrames : Nat
deriving Repr

namespace Mixer

variable {σ : Type}

/-- A silent mixer. -/
def new [One σ] (voices channels fadeFrames : Nat) (ceiling : σ) : Mixer σ where
  voices := List.replicate voices Voice.new
  pending := []
  frame := 0
  volume := 1
  limiter := .ofCeiling ceiling
  channels := max 1 channels
  fadeFrames := max 1 fadeFrames

/-- The frames of a release at a sample rate: 30 ms of them. -/
def releaseFrames (rate : Nat) : Nat :=
  ((rate : Float32) * 0.03).toUInt64.toNat

def isSounding (m : Mixer σ) (voice : Nat) : Bool :=
  match m.voices[voice]? with
  | some v => v.isSounding
  | none => false

/-- The indices of the voices that sound. -/
def sounding (m : Mixer σ) : List Nat :=
  (List.range m.voices.length).filter m.isSounding

/-! ### Events -/

/-- Put an event behind all events up to its frame. -/
def insertPending (p : Pending σ) (pending : List (Pending σ)) : List (Pending σ) :=
  pending.takeWhile (·.frame ≤ p.frame) ++ p :: pending.dropWhile (·.frame ≤ p.frame)

/-- Expect an event on a voice that exists. -/
def schedule (m : Mixer σ) (p : Pending σ) : Mixer σ :=
  if p.voice < m.voices.length then { m with pending := insertPending p m.pending } else m

/-- A voice after an event. -/
def VoiceEvent.act (fadeFrames : Nat) (v : Voice σ) : VoiceEvent σ → Voice σ
  | .start sample => v.start sample
  | .release => v.release fadeFrames

/-- The voices after an event. -/
def fire (fadeFrames : Nat) (voices : List (Voice σ)) (p : Pending σ) : List (Voice σ) :=
  voices.modify p.voice fun v => VoiceEvent.act fadeFrames v p.event

/-- Carry out the events whose frame has come. -/
def fireDue (m : Mixer σ) : Mixer σ :=
  { m with
    voices := (m.pending.takeWhile (·.frame ≤ m.frame)).foldl (fire m.fadeFrames) m.voices
    pending := m.pending.dropWhile (·.frame ≤ m.frame) }

/-! ### Commands -/

variable [Zero σ] [One σ] [LT σ] [DecidableLT σ]

/-- The mixer after a command. -/
def apply (m : Mixer σ) : Command σ → Mixer σ
  | .trigger voice frame sample => m.schedule ⟨frame, voice, .start sample⟩
  | .release voice frame => m.schedule ⟨frame, voice, .release⟩
  | .setGain voice gain =>
    { m with voices := m.voices.modify voice fun v => { v with gain := nonNegative gain } }
  | .setVolume volume => { m with volume := clamp 0 1 volume }
  | .cancel after => { m with pending := m.pending.filter (·.frame ≤ after) }

/-! ### Rendering -/

variable [Add σ] [Mul σ] [Div σ] [Neg σ] [NatCast σ]

/-- One frame of the mix, and the mixer after it. -/
def renderFrame (m : Mixer σ) : σ × Mixer σ :=
  let m := m.fireDue
  let stepped := m.voices.map (Voice.next m.fadeFrames)
  let mix := (stepped.map (·.1)).foldl (· + ·) 0
  let (x, limiter) := m.limiter.process (mix * m.volume)
  (x, { m with voices := stepped.map (·.2), limiter := limiter, frame := m.frame + 1 })

/-- Some frames of the mix, and the mixer after them. -/
def renderFrames (m : Mixer σ) : Nat → List σ × Mixer σ
  | 0 => ([], m)
  | count + 1 =>
    let (x, m) := m.renderFrame
    let (xs, m) := m.renderFrames count
    (x :: xs, m)

/-- Take some commands, then fill a buffer of `length` samples.  Every channel carries the same mix,
and a last frame that does not fit counts all the same. -/
def process (m : Mixer σ) (commands : List (Command σ)) (length : Nat) : List σ × Mixer σ :=
  let m := commands.foldl apply m
  let (frames, final) := m.renderFrames ((length + m.channels - 1) / m.channels)
  ((frames.flatMap (List.replicate m.channels)).take length, final)

end Mixer

/-! ### The clock -/

/-- The time at which a frame starts, in seconds.  A rate of zero counts as one. -/
def frameTime {τ : Type} [NatCast τ] [Div τ] (rate frame : Nat) : τ :=
  ((frame : Nat) : τ) / ((max 1 rate : Nat) : τ)

end Gamelan
