import Gamelan.Sound.Amplitude

namespace Gamelan

/-!
# The limiter

The mix is cut off at a ceiling on both sides, and the cuts are counted.
-/

/-- A ceiling, and how many samples were above it. -/
structure Limiter (σ : Type) where
  ceiling : σ
  clipped : Nat
deriving Repr

namespace Limiter

/-- A limiter that has seen no samples. -/
def ofCeiling {σ : Type} (ceiling : σ) : Limiter σ where
  ceiling := ceiling
  clipped := 0

/-- The ceiling of the mix. -/
def masterCeiling : Float32 := 0.95

variable {σ : Type} [Neg σ] [LT σ] [DecidableLT σ]

/-- Whether a sample is above the ceiling, on either side. -/
def exceeds (l : Limiter σ) (x : σ) : Prop :=
  l.ceiling < x ∨ l.ceiling < -x

instance (l : Limiter σ) (x : σ) : Decidable (l.exceeds x) :=
  inferInstanceAs (Decidable (l.ceiling < x ∨ l.ceiling < -x))

/-- The limited sample, and the limiter after it. -/
def process (l : Limiter σ) (x : σ) : σ × Limiter σ :=
  (clamp (-l.ceiling) l.ceiling x,
    if l.exceeds x then { l with clipped := l.clipped + 1 } else l)

end Limiter

end Gamelan
