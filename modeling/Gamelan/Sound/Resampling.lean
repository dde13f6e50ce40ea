import Gamelan.Sound.Amplitude
import Gamelan.Time

namespace Gamelan

/-!
# Resampling

A sample recorded at one rate is played at another by reading between its points along straight
lines.  Positions between points are numbers of a type `ρ`, amplitudes of a type `σ`.
-/

/-- Positions between the points of a sample. -/
class Position (ρ σ : Type) where
  /-- The point at or before a position. -/
  floor : ρ → Nat
  /-- The point at or after a position. -/
  ceil : ρ → Nat
  /-- How far a position is past a point, as a factor of amplitudes. -/
  toAmplitude : ρ → σ

instance : Position Float Float32 where
  floor x := x.toUInt64.toNat
  ceil x := x.ceil.toUInt64.toNat
  toAmplitude := Float.toFloat32

/-- The point that is read for a position: the one at or before it, or the last one after the end. -/
def indexAt {ρ σ : Type} [Position ρ σ] (points : Array σ) (position : ρ) : Nat :=
  min (Position.floor σ position) (points.size - 1)

variable {σ : Type} (ρ : Type) [Position ρ σ] [NatCast ρ] [Mul ρ] [Div ρ] [Sub ρ]
  [Zero σ] [One σ] [Add σ] [Sub σ] [Mul σ]

/-- The amplitude at a position of a sample: on the line between the two points around it, or the
last point after the end. -/
def interpolate (points : Array σ) (position : ρ) : σ :=
  let index := indexAt points position
  let fraction : σ := Position.toAmplitude (position - ((index : Nat) : ρ))
  let here := points[index]?.getD 0
  match points[index + 1]? with
  | some next => here * (1 - fraction) + next * fraction
  | none => here

/-- A sample of rate `source` at rate `target`.  With fewer than two points, or without a rate, there
is nothing to read between. -/
def resample (points : Array σ) (source target : Nat) : Array σ :=
  if points.size < 2 ∨ source = 0 ∨ target = 0 then points
  else
    let ratio : ρ := ((source : Nat) : ρ) / ((target : Nat) : ρ)
    let length := Position.ceil σ (((points.size : Nat) : ρ) / ratio)
    ((List.range length).map fun i => interpolate ρ points (((i : Nat) : ρ) * ratio)).toArray

end Gamelan
