namespace Gamelan

/-!
# Amplitudes

Samples, gains and volumes are numbers of one type `σ`, which is left open like the type of times: a
program renders with `Float32`, and laws hold whatever the arithmetic is.

* `Gain` — amplitudes that levels in decibels can be turned into.
* `nonNegative`, `clamp` — limits, with care for what is no number.
-/

/-- Whole numbers as short floating-point numbers, rounded to nearest. -/
instance natCastFloat32 : NatCast Float32 := ⟨Float32.ofNat⟩

/-- Amplitudes that stand for levels in decibels. -/
class Gain (σ : Type) where
  ofDecibels : Float32 → σ

/-- Twenty decibels are a factor of ten. -/
instance : Gain Float32 where
  ofDecibels level := Float32.pow 10.0 (level / 20.0)

variable {σ : Type} [LT σ] [DecidableLT σ]

/-- An amplitude that is not negative: zero in place of anything that is not above zero. -/
def nonNegative [Zero σ] (x : σ) : σ :=
  if 0 < x then x else 0

/-- The nearest amplitude from `low` to `high`.  What cannot be compared stays as it is. -/
def clamp (low high x : σ) : σ :=
  if x < low then low else if high < x then high else x

end Gamelan
