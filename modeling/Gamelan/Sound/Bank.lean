import Gamelan.Ensemble.Registry
import Gamelan.Performance.VoiceCall
import Gamelan.Sound.Command
import Gamelan.Sound.Amplitude
import Gamelan.Sound.SoundSource
import Gamelan.Time

namespace Gamelan

/-!
# The sample bank

The bank of voices that feeds the mixer: one voice for each atomic instrument and one sound for each
of its slots.  Calls come with times in seconds and leave as commands stamped with frames.

* `SampleBank` — the states.
* `frameAt` — the frame of an instant.
* `SampleBank.handle` — what becomes of a call.
-/

/-- Times that can be rounded to frames. -/
class FrameRounding (τ : Type) where
  /-- The nearest whole number of a time that is not negative; halves go up. -/
  round : τ → Nat

/-- Words of 64 bits: what is beyond them becomes the largest. -/
instance : FrameRounding Float where
  round t := t.round.toUInt64.toNat

/-- The frame of an instant, at a rate.  What is before the start counts as the start. -/
def frameAt {τ : Type} [NatCast τ] [Mul τ] [LT τ] [DecidableLT τ] [FrameRounding τ]
    (rate : Nat) (time : τ) : Nat :=
  FrameRounding.round
    ((if ((0 : Nat) : τ) < time then time else ((0 : Nat) : τ)) * ((rate : Nat) : τ))

/-- What a bank reports. -/
inductive BankNotice where
  | loading (n : LoadingNotice)
  /-- The queue refused a command; `count` have been refused by now. -/
  | dropped (reason : AudioError) (count : Nat)
  | noVoice (instrument : String)
  | noBuffer (instrument : String) (slot : Slot)
deriving DecidableEq, Repr

/-- The state of a bank. -/
structure SampleBank (τ σ : Type) where
  /-- The instruments by voice, with the file names of their slots. -/
  instruments : List (String × List String)
  /-- The frame of an instant. -/
  frameOf : τ → Nat
  source : SoundSource (Array σ)
  /-- The sounds by voice and slot, once they are loaded. -/
  loaded : List (List (Array σ))
  ready : Bool
  queue : CommandQueue σ
  /-- How many commands were refused. -/
  dropped : Nat

namespace SampleBank

variable {τ σ : Type}

/-- A bank before priming, with a voice for each atomic instrument of a registry. -/
def new (registry : Registry) (frameOf : τ → Nat) (source : SoundSource (Array σ))
    (queue : CommandQueue σ) : SampleBank τ σ where
  instruments := registry.atomics.map fun a => (a.id, a.samples)
  frameOf := frameOf
  source := source
  loaded := []
  ready := false
  queue := queue
  dropped := 0

/-- The voice of an instrument. -/
def voice? (b : SampleBank τ σ) (instrument : String) : Option Nat :=
  b.instruments.findIdx? (·.1 == instrument)

/-- The sound of a slot of an instrument. -/
def buffer? (b : SampleBank τ σ) (instrument : String) (slot : Slot) : Option (Array σ) :=
  (b.voice? instrument).bind fun voice => (b.loaded[voice]?).bind (·[slot]?)

/-- Load all sounds, once. -/
def prime (b : SampleBank τ σ) : SampleBank τ σ × List BankNotice :=
  if b.ready then (b, [])
  else
    let (loaded, notices) := b.source.loadAll (b.instruments.map (·.2))
    ({ b with loaded := loaded, ready := true }, notices.map .loading)

/-- Send a command.  A full queue refuses it. -/
def send (b : SampleBank τ σ) (c : Command σ) : SampleBank τ σ × List BankNotice :=
  match b.queue.push? c with
  | some queue => ({ b with queue := queue }, [])
  | none => ({ b with dropped := b.dropped + 1 }, [.dropped .queueFull (b.dropped + 1)])

def setVolume (b : SampleBank τ σ) (volume : σ) : SampleBank τ σ × List BankNotice :=
  b.send (.setVolume volume)

/-- The bank after a call.  What is not one of its instruments has no voice. -/
def handle [Gain σ] (b : SampleBank τ σ) (call : VoiceCall τ) : SampleBank τ σ × List BankNotice :=
  match call with
  | .trigger instrument slot time =>
    match b.voice? instrument with
    | none => (b, [.noVoice instrument])
    | some voice =>
      match b.buffer? instrument slot with
      | none => (b, [.noBuffer instrument slot])
      | some sample => b.send (.trigger voice (b.frameOf time) sample)
  | .release instrument time =>
    match b.voice? instrument with
    | none => (b, [])
    | some voice => b.send (.release voice (b.frameOf time))
  | .setLevel instrument level =>
    match b.voice? instrument with
    | none => (b, [])
    | some voice => b.send (.setGain voice (Gain.ofDecibels level))
  | .cancel after => b.send (.cancel (b.frameOf after))

/-- Once primed, a bank is ready. -/
theorem ready_prime (b : SampleBank τ σ) : b.prime.1.ready = true := by
  unfold prime
  split <;> simp_all

instance [Gain σ] : VoiceBank τ BankNotice (SampleBank τ σ) where
  prime := prime
  isReady b := b.ready
  readyOncePrimed _ := true
  handle := handle
  readyOncePrimed_eq b := (ready_prime b).symm

end SampleBank

end Gamelan
