namespace Gamelan

/-!
# Commands to the mixer

The side that plans sends commands to the side that renders through a queue of bounded length.
Frames are counted from the start of the rendering.

* `Command` — the commands, for samples made of amplitudes `σ`.
* `CommandQueue` — the queue between the two sides.
-/

/-- A command to the mixer. -/
inductive Command (σ : Type) where
  /-- Start a sample on a voice at a frame, cutting what it plays. -/
  | trigger (voice frame : Nat) (sample : Array σ)
  /-- Fade a voice from a frame on. -/
  | release (voice frame : Nat)
  /-- Set the gain of a voice at once. -/
  | setGain (voice : Nat) (gain : σ)
  /-- Set the volume of the mix at once. -/
  | setVolume (volume : σ)
  /-- Forget the triggers and releases after a frame. -/
  | cancel (after : Nat)
deriving Repr

/-- Commands on their way, the oldest first. -/
structure CommandQueue (σ : Type) where
  /-- How many commands it can hold; `none` is no bound. -/
  capacity : Option Nat
  commands : List (Command σ)
deriving Repr

namespace CommandQueue

variable {σ : Type}

/-- An empty queue. -/
def empty (capacity : Option Nat) : CommandQueue σ where
  capacity := capacity
  commands := []

def isFull (q : CommandQueue σ) : Bool :=
  match q.capacity with
  | some capacity => capacity ≤ q.commands.length
  | none => false

/-- The queue with one more command, unless it is full. -/
def push? (q : CommandQueue σ) (c : Command σ) : Option (CommandQueue σ) :=
  if q.isFull then none else some { q with commands := q.commands ++ [c] }

/-- The queue without its commands. -/
def clear (q : CommandQueue σ) : CommandQueue σ :=
  { q with commands := [] }

end CommandQueue

/-! ### Failures of the audio output -/

/-- Why there is no sound. -/
inductive AudioError where
  | noOutputDevice
  | deviceConfig (detail : String)
  | streamBuild (detail : String)
  | streamPlay (detail : String)
  /-- The mixer does not take its commands fast enough. -/
  | queueFull
deriving DecidableEq, Repr

/-- The wording of a failure. -/
def AudioError.message : AudioError → String
  | noOutputDevice => "no audio output device found"
  | deviceConfig detail => s!"device config error: {detail}"
  | streamBuild detail => s!"stream build error: {detail}"
  | streamPlay detail => s!"stream play error: {detail}"
  | queueFull => "audio command ring buffer is full"

end Gamelan
