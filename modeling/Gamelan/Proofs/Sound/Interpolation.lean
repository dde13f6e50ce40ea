import Gamelan.Sound.Resampling
import Mathlib

namespace Gamelan

/-!
# Resampling by straight lines

With exact positions and amplitudes, a sample at another rate is read off the lines between its
points, and off a level line behind the last one.

* `IsOnLine` — the heights of those lines.
* `isOnLine_interpolate` — an interpolated amplitude is such a height.
* `size_resample`, `getElem_resample` — a resampled sample, point by point.
* `resample_reads_lines` — what that says of its length, its points and their range.
-/

instance : Position ℚ ℚ where
  floor x := ⌊x⌋₊
  ceil x := ⌈x⌉₊
  toAmplitude x := x

/-! ### Reading a point -/

/-- Whatever positions are, only points of the sample are read. -/
theorem indexAt_lt {ρ σ : Type} [Position ρ σ] {points : Array σ} (h : 0 < points.size)
    (position : ρ) : indexAt points position < points.size := by
  have hle : indexAt points position ≤ points.size - 1 := Nat.min_le_right _ _
  omega

/-- Whether `y` is the height at a position of the lines that join some points, where the point at
place `j` stands at position `j`.  Behind the last point the line is level. -/
structure IsOnLine (points : Array ℚ) (position y : ℚ) : Prop where
  between : ∀ j (h : j + 1 < points.size), (j : ℚ) ≤ position → position ≤ j + 1 →
    y = points[j] + (position - j) * (points[j + 1] - points[j])
  level : ∀ last (h : points.size = last + 1), (last : ℚ) ≤ position → y = points[last]

section
variable {points : Array ℚ} {position y : ℚ}

/-- A position is between two points or not before the last one. -/
theorem exists_place (h : 0 < points.size) (hposition : 0 ≤ position) :
    (∃ j, j + 1 < points.size ∧ (j : ℚ) ≤ position ∧ position < j + 1) ∨
      ∃ last, points.size = last + 1 ∧ (last : ℚ) ≤ position := by
  have hfloor : (⌊position⌋₊ : ℚ) ≤ position := Nat.floor_le hposition
  by_cases hinside : ⌊position⌋₊ + 1 < points.size
  · exact .inl ⟨⌊position⌋₊, hinside, hfloor, Nat.lt_floor_add_one position⟩
  · obtain ⟨last, hlast⟩ : ∃ last, points.size = last + 1 := ⟨points.size - 1, by omega⟩
    have hle : (last : ℚ) ≤ ⌊position⌋₊ := by
      have : last ≤ ⌊position⌋₊ := by omega
      exact_mod_cast this
    exact .inr ⟨last, hlast, hle.trans hfloor⟩

/-- Between two points, the value is on the line from one to the other. -/
theorem interpolate_of_lt {j : Nat} (hj : j + 1 < points.size) (hle : (j : ℚ) ≤ position)
    (hlt : position < j + 1) :
    interpolate ℚ points position =
      points[j] * (1 - (position - j)) + points[j + 1] * (position - j) := by
  have hfloor : ⌊position⌋₊ = j :=
    (Nat.floor_eq_iff (le_trans (Nat.cast_nonneg j) hle)).mpr ⟨hle, hlt⟩
  have hindex : indexAt points position = j := by
    show min ⌊position⌋₊ (points.size - 1) = j
    omega
  simp only [interpolate, hindex, Array.getElem?_eq_getElem hj,
    Array.getElem?_eq_getElem (Nat.lt_of_succ_lt hj), Option.getD_some]
  rfl

/-- Behind the last point, its value stays. -/
theorem interpolate_of_last {last : Nat} (hlast : points.size = last + 1)
    (hle : (last : ℚ) ≤ position) : interpolate ℚ points position = points[last] := by
  have hfloor : last ≤ ⌊position⌋₊ := Nat.le_floor hle
  have hindex : indexAt points position = last := by
    show min ⌊position⌋₊ (points.size - 1) = last
    omega
  have hnone : points[last + 1]? = none := Array.getElem?_eq_none (by omega)
  have hsome : points[last]? = some points[last] := Array.getElem?_eq_getElem (by omega)
  simp only [interpolate, hindex, hnone, hsome, Option.getD_some]

/-- **An interpolated amplitude is on the lines between the points.** -/
theorem isOnLine_interpolate (h : 0 < points.size) (hposition : 0 ≤ position) :
    IsOnLine points position (interpolate ℚ points position) := by
  rcases exists_place h hposition with ⟨k, hk, hle, hlt⟩ | ⟨final, hfinal, hle⟩
  · rw [interpolate_of_lt hk hle hlt]
    refine ⟨fun j hj hleft hright => ?_, fun last hlast hafter => ?_⟩
    · -- Its line is the one from `k`, and at the point `k` the one that ends there, too.
      have hjk : j < k + 1 := by
        have : (j : ℚ) < ((k + 1 : Nat) : ℚ) := by push_cast; linarith
        exact_mod_cast this
      have hkj : k ≤ j + 1 := by
        have : (k : ℚ) ≤ ((j + 1 : Nat) : ℚ) := by push_cast; linarith
        exact_mod_cast this
      obtain rfl | rfl : k = j ∨ k = j + 1 := by omega
      · ring
      · -- The position is that of the point in the middle.
        push_cast at hle ⊢
        have heq : position = j + 1 := le_antisymm hright hle
        rw [heq]
        ring
    · have hafter' : (last : ℚ) < ((k + 1 : Nat) : ℚ) := by push_cast; linarith
      have : last < k + 1 := by exact_mod_cast hafter'
      omega
  · rw [interpolate_of_last hfinal hle]
    refine ⟨fun j hj hleft hright => ?_, fun last hlast _ => ?_⟩
    · -- A line that holds the position ends at the last point.
      have hle' : (final : ℚ) ≤ ((j + 1 : Nat) : ℚ) := by push_cast; linarith
      have : final ≤ j + 1 := by exact_mod_cast hle'
      obtain rfl : final = j + 1 := by omega
      push_cast at hle
      have heq : position = j + 1 := le_antisymm hright hle
      rw [heq]
      ring
    · obtain rfl : last = final := by omega
      rfl

namespace IsOnLine

/-- At a point, the lines have its height. -/
theorem eq_of_point (h : IsOnLine points position y) {j : Nat} (hj : j < points.size)
    (hposition : position = j) : y = points[j] := by
  rcases Nat.lt_or_ge (j + 1) points.size with hnext | hend
  · have hy := h.between j hnext (by rw [hposition]) (by rw [hposition]; linarith)
    rw [hy, hposition]
    ring
  · exact h.level j (by omega) (by rw [hposition])

/-- A height is between those of two points. -/
theorem exists_bounds (h : IsOnLine points position y) (hsize : 0 < points.size)
    (hposition : 0 ≤ position) : ∃ low ∈ points, ∃ high ∈ points, low ≤ y ∧ y ≤ high := by
  rcases exists_place hsize hposition with ⟨j, hj, hle, hlt⟩ | ⟨last, hlast, hle⟩
  · have hy := h.between j hj hle hlt.le
    have hleft : points[j] ∈ points := Array.getElem_mem _
    have hright : points[j + 1] ∈ points := Array.getElem_mem _
    -- The line rises from the lower of the two or falls to it.
    rcases le_total points[j] points[j + 1] with hup | hdown
    · exact ⟨_, hleft, _, hright, by nlinarith, by nlinarith⟩
    · exact ⟨_, hright, _, hleft, by nlinarith, by nlinarith⟩
  · have hy : y = points[last] := h.level last hlast hle
    have hmem : points[last] ∈ points := Array.getElem_mem _
    exact ⟨_, hmem, _, hmem, hy.ge, hy.le⟩

end IsOnLine

end

/-! ### All points -/

section
variable {points : Array ℚ} {source target : Nat}

/-- There are as many frames as fit the length of the source, at the new rate. -/
theorem size_resample (hpoints : 2 ≤ points.size) (hsource : 0 < source) (htarget : 0 < target) :
    (resample ℚ points source target).size = ⌈(points.size * target / source : ℚ)⌉₊ := by
  have hread : ¬ (points.size < 2 ∨ source = 0 ∨ target = 0) := by omega
  have hratio : (points.size : ℚ) / (source / target) = points.size * target / source := by
    rw [div_div_eq_mul_div]
  simp only [resample, if_neg hread, List.size_toArray, List.length_map, List.length_range, hratio]
  rfl

/-- Each of them is interpolated at its own place in the source. -/
theorem getElem_resample (hpoints : 2 ≤ points.size) (hsource : 0 < source) (htarget : 0 < target)
    {i : Nat} (hi : i < (resample ℚ points source target).size) :
    (resample ℚ points source target)[i] = interpolate ℚ points (i * source / target) := by
  have hread : ¬ (points.size < 2 ∨ source = 0 ∨ target = 0) := by omega
  have hratio : (i : ℚ) * (source / target) = i * source / target := by rw [mul_div_assoc]
  simp only [resample, if_neg hread, List.getElem_toArray, List.getElem_map, List.getElem_range,
    hratio]

end

/-- **Resampling reads exact heights off the lines between the points.**  A sample of at least two points
has, at another rate, as many points as fit its length, rounded up.  Each of them is read at a place
of the sample, is the height of the lines at its position, and lies between two of its points.  Where
a position is the place of a point, it is that point. -/
theorem resample_reads_lines (points : Array ℚ) (source target : Nat) (hpoints : 2 ≤ points.size)
    (hsource : 0 < source) (htarget : 0 < target) :
    (resample ℚ points source target).size = ⌈(points.size * target / source : ℚ)⌉₊ ∧
      (∀ (i : Nat) (y : ℚ), (resample ℚ points source target)[i]? = some y →
        indexAt points (i * source / target : ℚ) < points.size ∧
          y = interpolate ℚ points (i * source / target : ℚ) ∧
          IsOnLine points (i * source / target) y ∧
          ∃ low ∈ points, ∃ high ∈ points, low ≤ y ∧ y ≤ high) ∧
      ∀ (i j : Nat) (hj : j < points.size), (i * source / target : ℚ) = j →
        (resample ℚ points source target)[i]? = some points[j] := by
  have hsize : 0 < points.size := by omega
  have honLine : ∀ i (hi : i < (resample ℚ points source target).size),
      IsOnLine points (i * source / target) (resample ℚ points source target)[i] := by
    intro i hi
    rw [getElem_resample hpoints hsource htarget]
    exact isOnLine_interpolate hsize (by positivity)
  refine ⟨size_resample hpoints hsource htarget, fun i y hy => ?_, fun i j hj hposition => ?_⟩
  · obtain ⟨hi, rfl⟩ := Array.getElem?_eq_some_iff.mp hy
    exact ⟨indexAt_lt hsize _, getElem_resample hpoints hsource htarget hi, honLine i hi,
      (honLine i hi).exists_bounds hsize (by positivity)⟩
  · -- A position before the end of the sample is that of one of the points.
    have hi : i < (resample ℚ points source target).size := by
      have hsource' : (0 : ℚ) < source := by exact_mod_cast hsource
      have htarget' : (0 : ℚ) < target := by exact_mod_cast htarget
      have hlt : (i * source / target : ℚ) < points.size := by
        rw [hposition]
        exact_mod_cast hj
      rw [size_resample hpoints hsource htarget, Nat.lt_ceil, lt_div_iff₀ hsource']
      rwa [div_lt_iff₀ htarget'] at hlt
    rw [Array.getElem?_eq_getElem hi, (honLine i hi).eq_of_point hj hposition]

/-- Three points at three halves of their rate: five points, the fourth of them the last of the three. -/
theorem resample_reads_lines_threePoints :
    2 ≤ (#[0, 3, 9] : Array ℚ).size ∧ 0 < 2 ∧ 0 < 3 ∧
      (resample ℚ (#[0, 3, 9] : Array ℚ) 2 3).size = 5 ∧
      (∀ (i : Nat) (y : ℚ), (resample ℚ (#[0, 3, 9] : Array ℚ) 2 3)[i]? = some y →
        IsOnLine #[0, 3, 9] (i * 2 / 3) y) ∧
      (resample ℚ (#[0, 3, 9] : Array ℚ) 2 3)[3]? = some 9 := by
  have hpoints : 2 ≤ (#[0, 3, 9] : Array ℚ).size := Nat.le_succ 2
  obtain ⟨hsize, hread, hexact⟩ :=
    resample_reads_lines #[0, 3, 9] 2 3 hpoints (by decide) (by decide)
  refine ⟨hpoints, by decide, by decide, hsize.trans ?_, fun i y hy => ?_,
    hexact 3 2 (Nat.lt_succ_self 2) (by norm_num)⟩
  · norm_num [Nat.ceil_eq_iff]
  · exact_mod_cast (hread i y hy).2.2.1

example : resample ℚ (#[0, 3, 9] : Array ℚ) 2 3 = #[0, 2, 5, 9, 9] := by cbv

end Gamelan
