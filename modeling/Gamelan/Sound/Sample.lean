import Gamelan.Sound.Resampling
import Gamelan.Sound.Wave

namespace Gamelan

/-!
# Samples

A sample is a mono recording at a rate.  It comes from a WAVE file, whose channels are averaged and
whose rate is brought to the one that is asked for.

* `Sample` — the recordings.
* `SampleError` — why there is none.
* `Sample.ofWave`, `Sample.load` — a sample from the bytes of a file, and from a file.
-/

/-- A mono recording. -/
structure Sample where
  points : Array Float32
  rate : Nat
deriving Repr

/-- Why there is no sample. -/
inductive SampleError where
  | cannotOpen (path : String) (reason : FileError)
  | wave (error : WaveError)
  | empty
deriving DecidableEq, Repr

/-- The wording of an error. -/
def SampleError.message : SampleError → String
  | cannotOpen path reason => s!"cannot open {path}: {reason.message}"
  | wave error => s!"WAV error: {error.message}"
  | empty => "WAV file contains no samples"

namespace Sample

/-- The averages of whole frames of interleaved channels. -/
def average (channels : Nat) (samples : List Float32) : List Float32 :=
  if _h : 0 < channels ∧ (samples.take channels).length = channels then
    (samples.take channels).foldl (· + ·) 0 / Float32.ofNat channels ::
      average channels (samples.drop channels)
  else []
termination_by samples.length
decreasing_by
  have := _h.2
  simp only [List.length_take, List.length_drop] at this ⊢
  omega

/-- The sample of a WAVE file, at a rate. -/
def ofWave (rate : Nat) (bytes : List UInt8) : Except SampleError Sample := do
  let (format, samples) ← (decodeWave bytes).mapError .wave
  let mono := (average format.channels samples).toArray
  if mono.isEmpty then throw .empty
  return ⟨if format.rate = rate then mono else resample Float mono format.rate rate, rate⟩

/-- The sample of a file, at a rate.  A directory can be opened but not read. -/
def load (path : String) (content : FileContent) (rate : Nat) : Except SampleError Sample :=
  match content with
  | .ok bytes => ofWave rate bytes
  | .error .isDirectory => .error (.wave (.unreadable .isDirectory))
  | .error reason => .error (.cannotOpen path reason)

end Sample

end Gamelan
