import Gamelan.Ensemble.Pitch

namespace Gamelan

/-!
# Calls to the voices

Whatever makes the sound is a bank of voices, one for each atomic instrument.  It is prepared once,
becomes ready at some time, and takes calls that carry instants in seconds.

* `VoiceCall` — the calls.
* `VoiceBank` — what a bank of voices is.
* `Recorder` — a silent bank that logs its calls.
-/

/-- A call to a bank of voices. -/
inductive VoiceCall (τ : Type) where
  /-- Start the sample of a slot. -/
  | trigger (instrument : String) (slot : Slot) (time : τ)
  /-- Let an instrument fade. -/
  | release (instrument : String) (time : τ)
  /-- Set the level of an instrument in decibels. -/
  | setLevel (instrument : String) (level : Float32)
  /-- Forget what is to happen after an instant. -/
  | cancel (after : τ)
deriving Repr

/-- A bank of voices with states `β`, which may have notices `ν` to give. -/
class VoiceBank (τ ν : outParam Type) (β : Type) where
  /-- Load the samples. -/
  prime : β → β × List ν
  isReady : β → Bool
  /-- Whether the bank would be ready if it were primed now. -/
  readyOncePrimed : β → Bool
  /-- Take a call. -/
  handle : β → VoiceCall τ → β × List ν
  readyOncePrimed_eq : ∀ bank, readyOncePrimed bank = isReady (prime bank).1

namespace VoiceCall

variable {τ : Type}

/-- The instrument, slot and time of a trigger. -/
def trigger? : VoiceCall τ → Option (String × Slot × τ)
  | trigger instrument slot time => some (instrument, slot, time)
  | _ => none

/-- The instrument of a release. -/
def released? : VoiceCall τ → Option String
  | release instrument _ => some instrument
  | _ => none

end VoiceCall

/-! ### The recorder -/

/-- A bank that makes no sound and logs its calls. -/
structure Recorder (τ : Type) where
  calls : List (VoiceCall τ)
  primed : Bool
  ready : Bool
  /-- Whether it stays unready after priming until its loading is finished. -/
  deferred : Bool
deriving Repr

namespace Recorder

variable {τ : Type}

/-- A recorder before priming. -/
def new (deferred : Bool) : Recorder τ where
  calls := []
  primed := false
  ready := false
  deferred := deferred

def prime (r : Recorder τ) : Recorder τ :=
  { r with primed := true, ready := !r.deferred }

/-- Loading is over; before priming there is none. -/
def finishLoading (r : Recorder τ) : Recorder τ :=
  if r.primed then { r with ready := true } else r

def handle (r : Recorder τ) (call : VoiceCall τ) : Recorder τ :=
  { r with calls := r.calls ++ [call] }

/-- The log so far, and the recorder with an empty one. -/
def takeCalls (r : Recorder τ) : List (VoiceCall τ) × Recorder τ :=
  (r.calls, { r with calls := [] })

/-- The triggers of the log. -/
def triggers (r : Recorder τ) : List (String × Slot × τ) :=
  r.calls.filterMap VoiceCall.trigger?

/-- The instruments released, in order. -/
def releases (r : Recorder τ) : List String :=
  r.calls.filterMap VoiceCall.released?

instance : VoiceBank τ Empty (Recorder τ) where
  prime r := (r.prime, [])
  isReady r := r.ready
  readyOncePrimed r := !r.deferred
  handle r call := (r.handle call, [])
  readyOncePrimed_eq _ := rfl

end Recorder

end Gamelan
