import Gamelan.Timeline

namespace Gamelan.Timeline

/-!
# Time runs on

The points of a timeline that is laid out from a score follow each other without a gap: each sounds
for a beat at its own tempo, and the next one comes right then, in the same section or in another.

* `RunsOn` — points that follow each other without a gap.
* `runsOn_ofScore` — the points of a score do.
* `RunsOn.drop` — and so do the last of them.
* `tempo_pos_of_mem_ofScore` — none of them has tempo zero.
-/

section
variable {τ : Type} [NatCast τ] [Add τ] [Div τ]

/-- Points without a gap from one instant to another. -/
def RunsOn (time : τ) (points : List (Point τ)) (stop : τ) : Prop :=
  match points with
  | [] => time = stop
  | p :: rest => p.time = time ∧ RunsOn (time + beatLength ((p.tempo : Nat) : τ)) rest stop

/-- Points without a gap can be put behind points without a gap. -/
theorem RunsOn.append {time middle stop : τ} {points more : List (Point τ)}
    (h : RunsOn time points middle) (h' : RunsOn middle more stop) :
    RunsOn time (points ++ more) stop := by
  induction points generalizing time with
  | nil =>
    rw [RunsOn] at h
    rw [h]
    exact h'
  | cons p rest ih => exact ⟨h.1, ih h.2⟩

/-- What is left of points without a gap starts with its own first point. -/
theorem RunsOn.drop {time stop : τ} {points rest : List (Point τ)} {first : Point τ} {count : Nat}
    (h : RunsOn time points stop) (hdrop : points.drop count = first :: rest) :
    RunsOn first.time (first :: rest) stop := by
  induction points generalizing time count with
  | nil => simp at hdrop
  | cons p points ih =>
    cases count with
    | zero =>
      rw [List.drop_zero] at hdrop
      rw [hdrop] at h
      refine ⟨rfl, ?_⟩
      rw [h.1]
      exact h.2
    | succ count => exact ih h.2 hdrop

/-- The points of a section, and the instant after them. -/
theorem runsOn_sectionPoints (s : Section) (index step : Nat) (time : τ) (count : Nat) :
    RunsOn time (sectionPoints s index step time count).1
      (sectionPoints s index step time count).2 := by
  induction count generalizing index step time with
  | zero => rfl
  | succ count ih => exact ⟨rfl, ih _ _ _⟩

/-- **The points of all sections** come without a gap. -/
theorem runsOn_pointsFrom (index : Nat) (time : τ) (sections : List Section) :
    ∃ stop, RunsOn time (pointsFrom index time sections) stop := by
  induction sections generalizing index time with
  | nil => exact ⟨time, rfl⟩
  | cons s rest ih =>
    obtain ⟨stop, hstop⟩ := ih (index + s.length) (sectionPoints s index 0 time s.length).2
    exact ⟨stop, (runsOn_sectionPoints s index 0 time s.length).append hstop⟩

/-- **The points of a score leave no gap.** -/
theorem runsOn_ofScore (score : Score) :
    ∃ stop : τ, RunsOn ((0 : Nat) : τ) (ofScore score).points stop :=
  runsOn_pointsFrom 0 _ score.sections

/-! ### Tempos -/

/-- All points of a section have its tempo. -/
theorem tempo_of_mem_sectionPoints {s : Section} {index step : Nat} {time : τ} {count : Nat}
    {p : Point τ} (h : p ∈ (sectionPoints s index step time count).1) :
    p.tempo = s.effectiveTempo := by
  induction count generalizing index step time with
  | zero => cases h
  | succ count ih =>
    rcases List.mem_cons.1 h with rfl | h
    · rfl
    · exact ih h

/-- The tempo of a point is that of a section. -/
theorem exists_tempo_of_mem_pointsFrom {index : Nat} {time : τ} {sections : List Section}
    {p : Point τ} (h : p ∈ pointsFrom index time sections) :
    ∃ s ∈ sections, p.tempo = s.effectiveTempo := by
  induction sections generalizing index time with
  | nil => cases h
  | cons s rest ih =>
    rcases List.mem_append.1 h with h | h
    · exact ⟨s, List.mem_cons_self .., tempo_of_mem_sectionPoints h⟩
    · obtain ⟨other, hmem, htempo⟩ := ih h
      exact ⟨other, List.mem_cons_of_mem _ hmem, htempo⟩

/-- No point of a score has tempo zero. -/
theorem tempo_pos_of_mem_ofScore {score : Score} {p : Point τ}
    (h : p ∈ (ofScore score).points) : 0 < p.tempo := by
  obtain ⟨s, -, htempo⟩ := exists_tempo_of_mem_pointsFrom h
  rw [htempo]
  exact s.effectiveTempo_pos

end

end Gamelan.Timeline
