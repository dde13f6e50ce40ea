import Gamelan.Sound.Bank
import Gamelan.Sound.Mixer
import Mathlib

namespace Gamelan

/-!
# Frames of exact times

Exact times are rounded to the nearest frame, and halves go up.

* `frameAt_eq` — the frame of an instant.
* `frameAt_mono` — the frames are in the order of the instants.
* `frameAt_lt_iff` — they tell instants apart that are not in one frame.
* `le_frameAt` — an instant that is not before a frame is not rounded to one before it.
* `frameAt_frameTime` — a frame is the frame of its own start.
-/

instance : FrameRounding ℚ where
  round t := ⌊t + 1 / 2⌋₊

/-- The frame of an instant is the nearest one, and the later one of two. -/
theorem frameAt_eq (rate : Nat) (t : ℚ) : frameAt rate t = ⌊max t 0 * (rate : ℚ) + 1 / 2⌋₊ := by
  show ⌊(if ((0 : Nat) : ℚ) < t then t else ((0 : Nat) : ℚ)) * (rate : ℚ) + 1 / 2⌋₊ = _
  rw [Nat.cast_zero]
  by_cases h : 0 < t
  · rw [if_pos h, max_eq_left h.le]
  · rw [if_neg h, max_eq_right (not_lt.1 h)]

/-- The frames are in the order of the instants. -/
theorem frameAt_mono (rate : Nat) {t u : ℚ} (h : t ≤ u) : frameAt rate t ≤ frameAt rate u := by
  rw [frameAt_eq, frameAt_eq]
  have hmax : max t 0 ≤ max u 0 := max_le_max_right 0 h
  have hmul : max t 0 * (rate : ℚ) ≤ max u 0 * (rate : ℚ) :=
    mul_le_mul_of_nonneg_right hmax (Nat.cast_nonneg rate)
  exact Nat.floor_le_floor (by linarith)

/-- A later frame is that of a later instant. -/
theorem lt_of_frameAt_lt {rate : Nat} {t u : ℚ} (h : frameAt rate t < frameAt rate u) : t < u := by
  by_contra hle
  exact absurd (frameAt_mono rate (not_lt.1 hle)) (Nat.not_le.2 h)

/-- A later instant has a later frame, unless it is in the same one. -/
theorem frameAt_lt_iff {rate : Nat} {t u : ℚ} (h : u ≤ t ∨ frameAt rate u ≠ frameAt rate t) :
    frameAt rate t < frameAt rate u ↔ t < u := by
  refine ⟨lt_of_frameAt_lt, fun hlt => ?_⟩
  have hne : frameAt rate u ≠ frameAt rate t := h.resolve_left (not_le.2 hlt)
  exact lt_of_le_of_ne (frameAt_mono rate hlt.le) hne.symm

/-- An instant that is not before a frame is not rounded to one before it. -/
theorem le_frameAt {rate n : Nat} {t : ℚ} (h : (n : ℚ) ≤ t * rate) : n ≤ frameAt rate t := by
  have hmul : t * (rate : ℚ) ≤ max t 0 * (rate : ℚ) :=
    mul_le_mul_of_nonneg_right (le_max_left t 0) (Nat.cast_nonneg rate)
  rw [frameAt_eq]
  exact Nat.le_floor (by linarith)

/-- A frame is the frame of its own start. -/
theorem frameAt_frameTime {rate : Nat} (hrate : 0 < rate) (frame : Nat) :
    frameAt rate (frameTime rate frame : ℚ) = frame := by
  have hpos : (0 : ℚ) < (rate : ℚ) := by exact_mod_cast hrate
  have htime : (frameTime rate frame : ℚ) = (frame : ℚ) / (rate : ℚ) := by
    rw [frameTime, max_eq_right hrate]
  have hnonneg : (0 : ℚ) ≤ (frame : ℚ) / (rate : ℚ) := by positivity
  rw [frameAt_eq, htime, max_eq_left hnonneg, div_mul_cancel₀ _ hpos.ne',
    Nat.floor_eq_iff (by positivity)]
  constructor <;> linarith

end Gamelan
