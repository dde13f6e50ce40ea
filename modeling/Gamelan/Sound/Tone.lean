import Gamelan.Sound.Amplitude
import Gamelan.Sound.Noise

namespace Gamelan

/-!
# Struck tones

What is heard in place of a missing sample: a decaying fundamental with an inharmonic overtone, like
a small metal bar, and a short strike of noise.
-/

namespace Tone

/-- How long a tone lasts, in seconds. -/
def length : Float := 0.6

/-- How long the strike lasts, in seconds. -/
def strikeLength : Float := 0.012

/-- The frequency of the overtone, over that of the fundamental. -/
def overtoneRatio : Float := 2.76

/-- The largest amplitude of a tone. -/
def peak : Float32 := 0.6

/-- A full turn. -/
def tau : Float := 6.283185307179586

/-- The whole frames in a length of time. -/
def frames (rate : Nat) (seconds : Float) : Nat :=
  (Float.ofNat rate * seconds).toUInt64.toNat

/-- The bar without its strike, `t` seconds after it. -/
def ringing (frequency t : Float) : Float :=
  let decay := t / length
  let body := (tau * frequency * t).sin * (-decay * 6.0).exp
  let overtone := (tau * frequency * overtoneRatio * t).sin * (-decay * 14.0).exp * 0.35
  body + overtone

/-- The noise of the strike, growing fainter from frame to frame. -/
def strike (rate : Nat) (seed : UInt64) : Array Float :=
  let count := frames rate strikeLength
  ((noise seed count).mapIdx fun i x =>
    x * (1.0 - Float.ofNat i / Float.ofNat count) * 0.5).toArray

/-- The largest amplitude of a sample, on either side. -/
def largest (points : List Float32) : Float32 :=
  points.foldl (fun m x => if m < x.abs then x.abs else m) 0

/-- A sample brought to the peak amplitude, unless it is silent. -/
def normalize (points : List Float32) : List Float32 :=
  let largest := largest points
  if 0 < largest then points.map (· * (peak / largest)) else points

end Tone

/-- A struck tone of some frequency. -/
def struckTone (frequency : Float) (rate : Nat) (seed : UInt64) : Array Float32 :=
  let strike := Tone.strike rate seed
  let points := (List.range (Tone.frames rate Tone.length)).map fun i =>
    (Tone.ringing frequency (Float.ofNat i / Float.ofNat rate) + strike.getD i 0.0).toFloat32
  (Tone.normalize points).toArray

end Gamelan
