import Gamelan.Proofs.Timeline.Continuity
import Gamelan.Proofs.Timeline.Layout

namespace Gamelan

/-!
# The times of a score

The clock of a timeline is never set: it runs on by a beat from point to point, whatever sections come
between.  In exact numbers the time of a point is therefore a sum over the sections before it, and the
timeline lasts as long as all sections together.

* `Section.seconds` — how long a section lasts.
* `RunsOn.next`, `RunsOn.pairwise_lt`, `RunsOn.duration_eq` — times of points without a gap.
* `time_sectionPoints`, `time_pointsFrom` — the time of a step.
* `pointsFrom_congr` — only quotients by the tempos of the sections count.
* `times_of_score` — the times of a score.
-/

/-- How long some steps of a section last, in exact numbers. -/
def Section.beats (s : Section) (count : Nat) : ℚ :=
  count * beatLength (s.effectiveTempo : ℚ)

/-- How long a section lasts. -/
def Section.seconds (s : Section) : ℚ :=
  s.beats s.length

/-- One more step takes one beat more. -/
theorem Section.beats_succ (s : Section) (count : Nat) :
    s.beats (count + 1) = beatLength (s.effectiveTempo : ℚ) + s.beats count := by
  rw [beats, beats, Nat.cast_add_one, add_mul, one_mul, add_comm]

/-- A beat takes some time. -/
theorem beatLength_pos {tempo : Nat} (h : 0 < tempo) : 0 < beatLength (tempo : ℚ) := by
  unfold beatLength
  positivity

namespace Timeline

/-! ### Points without a gap -/

section
variable {τ : Type} [NatCast τ] [Add τ] [Div τ] {time stop : τ} {points : List (Point τ)}

/-- The first point comes at the start. -/
theorem RunsOn.head {p : Point τ} (h : RunsOn time points stop) (hp : points[0]? = some p) :
    p.time = time := by
  cases points with
  | nil => simp at hp
  | cons first rest =>
    obtain rfl : first = p := Option.some.inj hp
    exact h.1

/-- A point comes a beat after the point before it. -/
theorem RunsOn.next {k : Nat} {p q : Point τ} (h : RunsOn time points stop)
    (hp : points[k]? = some p) (hq : points[k + 1]? = some q) :
    q.time = p.time + beatLength ((p.tempo : Nat) : τ) := by
  obtain ⟨hk, hnext⟩ := List.getElem?_eq_some_iff.1 hq
  obtain ⟨hk', hfirst⟩ := List.getElem?_eq_some_iff.1 hp
  have hdrop : points.drop k = p :: q :: points.drop (k + 2) := by
    rw [List.drop_eq_getElem_cons hk', List.drop_eq_getElem_cons hk, hfirst, hnext]
  exact (h.drop hdrop).2.1

/-- The last point sounds for a beat, up to the end. -/
theorem RunsOn.last {last : Point τ} (h : RunsOn time (points ++ [last]) stop) :
    last.time + beatLength ((last.tempo : Nat) : τ) = stop :=
  (h.drop List.drop_left).2

end

section
variable {time stop : ℚ} {points : List (Point ℚ)}

/-- Where every beat takes some time, no point comes before the start. -/
theorem RunsOn.le_time (h : RunsOn time points stop) (htempo : ∀ p ∈ points, 0 < p.tempo) :
    ∀ p ∈ points, time ≤ p.time := by
  induction points generalizing time with
  | nil => simp
  | cons p rest ih =>
    obtain ⟨htime, hrest⟩ := h
    obtain ⟨hp, htempos⟩ := List.forall_mem_cons.1 htempo
    have hbeat := beatLength_pos hp
    refine List.forall_mem_cons.2 ⟨le_of_eq htime.symm, fun q hq => ?_⟩
    have := ih hrest htempos q hq
    linarith

/-- **Times increase** where every beat takes some time. -/
theorem RunsOn.pairwise_lt (h : RunsOn time points stop) (htempo : ∀ p ∈ points, 0 < p.tempo) :
    points.Pairwise fun p q => p.time < q.time := by
  induction points generalizing time with
  | nil => exact List.Pairwise.nil
  | cons p rest ih =>
    obtain ⟨htime, hrest⟩ := h
    obtain ⟨hp, htempos⟩ := List.forall_mem_cons.1 htempo
    refine List.pairwise_cons.2 ⟨fun q hq => ?_, ih hrest htempos⟩
    have hbeat := beatLength_pos hp
    have := hrest.le_time htempos q hq
    linarith

/-- A timeline without a gap lasts up to its end. -/
theorem RunsOn.duration_eq (h : RunsOn 0 points stop) : (Timeline.mk points).duration = stop := by
  obtain rfl | ⟨before, last, rfl⟩ := List.eq_nil_or_concat points
  · exact h
  · rw [List.concat_eq_append] at h ⊢
    rw [duration, List.getLast?_concat]
    exact h.last

end

/-! ### The time of a step -/

section
variable (s : Section) (index step : Nat) (time : ℚ) (count : Nat)

/-- A section stops when all its beats are over. -/
theorem sectionPoints_stop :
    (sectionPoints s index step time count).2 = time + s.beats count := by
  induction count generalizing index step time with
  | zero => simp [sectionPoints, Section.beats]
  | succ count ih => rw [sectionPoints, ih, Section.beats_succ, add_assoc]

variable {s index step time count}

/-- Each step of a section comes after the beats before it. -/
theorem time_sectionPoints {i : Nat} {p : Point ℚ}
    (h : (sectionPoints s index step time count).1[i]? = some p) : p.time = time + s.beats i := by
  induction count generalizing index step time i with
  | zero => simp [sectionPoints] at h
  | succ count ih =>
    cases i with
    | zero =>
      obtain rfl := Option.some.inj h
      simp [Section.beats]
    | succ i =>
      rw [sectionPoints, List.getElem?_cons_succ] at h
      rw [ih h, Section.beats_succ, add_assoc]

/-- **The time of a step**: the sections before it, and the steps before it in its own. -/
theorem time_pointsFrom {sections : List Section} {j : Nat} {p : Point ℚ}
    (hs : sections[j]? = some s) (hstep : step < s.length)
    (h : (pointsFrom index time sections)[stepsBefore sections j + step]? = some p) :
    p.time = time + ((sections.take j).map Section.seconds).sum + s.beats step := by
  induction sections generalizing index time j with
  | nil => simp at hs
  | cons first rest ih =>
    rw [pointsFrom_cons] at h
    cases j with
    | zero =>
      obtain rfl : first = s := by simpa using hs
      -- The step is in the first section, or the clock stands at the end of that one.
      rw [stepsBefore_zero, Nat.zero_add, List.getElem?_append_left] at h
      · simp [time_sectionPoints h]
      · rw [length_sectionPoints]
        exact hstep
    | succ j =>
      rw [stepsBefore_cons_succ, Nat.add_assoc, List.getElem?_append_right, length_sectionPoints,
        Nat.add_sub_cancel_left] at h
      · rw [ih (by simpa using hs) h, sectionPoints_stop, List.take_succ_cons, List.map_cons,
          List.sum_cons, Section.seconds, add_assoc time]
      · rw [length_sectionPoints]
        exact Nat.le_add_right _ _

/-- All sections follow each other without a gap, for as long as they last together. -/
theorem runsOn_pointsFrom_seconds (index : Nat) (time : ℚ) (sections : List Section) :
    RunsOn time (pointsFrom index time sections) (time + (sections.map Section.seconds).sum) := by
  induction sections generalizing index time with
  | nil => exact (add_zero time).symm
  | cons s rest ih =>
    have hfirst := runsOn_sectionPoints s index 0 time s.length
    have hrest := ih (index + s.length) (sectionPoints s index 0 time s.length).2
    rw [sectionPoints_stop, add_assoc] at hrest
    rw [sectionPoints_stop] at hfirst
    rw [pointsFrom_cons, sectionPoints_stop, List.map_cons, List.sum_cons]
    exact hfirst.append hrest

/-- The points of a score run on from zero, for as long as its sections last together. -/
theorem runsOn_ofScore_seconds (score : Score) :
    RunsOn (0 : ℚ) (ofScore score).points (score.sections.map Section.seconds).sum := by
  have h := runsOn_pointsFrom_seconds 0 0 score.sections
  rw [zero_add] at h
  exact h

/-- **The time of a step** is that of all sections before it, and of the steps before it in its
own. -/
theorem time_ofScore {score : Score} {j : Nat} {p : Point ℚ} (hs : score.sections[j]? = some s)
    (hstep : step < s.length) (h : (ofScore score).get? (score.start j + step) = some p) :
    p.time = ((score.sections.take j).map Section.seconds).sum + s.beats step := by
  rw [time_pointsFrom hs hstep h, Nat.cast_zero, zero_add]

end

/-! ### Other quotients -/

section
variable {τ : Type} [NatCast τ] [Add τ] {div div' : Div τ}

/-- The points of a section depend on how its own beat is divided only. -/
theorem sectionPoints_congr {s : Section}
    (h : @beatLength τ _ div ((s.effectiveTempo : Nat) : τ) =
      @beatLength τ _ div' ((s.effectiveTempo : Nat) : τ))
    (index step : Nat) (time : τ) (count : Nat) :
    @sectionPoints τ _ _ div s index step time count =
      @sectionPoints τ _ _ div' s index step time count := by
  induction count generalizing index step time with
  | zero => rfl
  | succ count ih => simp only [sectionPoints, h, ih]

/-- Two ways to divide that agree on the tempos of some sections give them the same points. -/
theorem pointsFrom_congr {sections : List Section}
    (h : ∀ s ∈ sections, @beatLength τ _ div ((s.effectiveTempo : Nat) : τ) =
      @beatLength τ _ div' ((s.effectiveTempo : Nat) : τ))
    (index : Nat) (time : τ) :
    @pointsFrom τ _ _ div index time sections = @pointsFrom τ _ _ div' index time sections := by
  induction sections generalizing index time with
  | nil => rfl
  | cons s rest ih =>
    obtain ⟨hs, hrest⟩ := List.forall_mem_cons.1 h
    simp only [pointsFrom, sectionPoints_congr hs, ih hrest]

/-- How long a timeline lasts depends on the quotients by the tempos of its points. -/
theorem duration_congr {t : Timeline τ}
    (h : ∀ p ∈ t.points, @beatLength τ _ div ((p.tempo : Nat) : τ) =
      @beatLength τ _ div' ((p.tempo : Nat) : τ)) :
    @duration τ _ _ div t = @duration τ _ _ div' t := by
  unfold duration
  split
  · next last hlast => rw [h last (List.mem_of_getLast? hlast)]
  · rfl

end

end Timeline

/-- **The times of a score**, in exact numbers.  The first point is at time zero, and a point comes a
beat of the point before it after that point, in the same section or in another one with any number of
empty sections between.  So times increase.  A step comes after the beats of all sections before its
own and of the steps before it, and the timeline lasts for the beats of all sections.  No tempo is
zero, and nothing depends on what a quotient by zero is. -/
theorem times_of_score (score : Score) :
    let timeline : Timeline ℚ := .ofScore score
    let beat (s : Section) : ℚ := 60 / s.effectiveTempo
    let seconds (s : Section) : ℚ := s.length * beat s
    (∀ p, timeline.get? 0 = some p → p.time = 0) ∧
    (∀ k p q, timeline.get? k = some p → timeline.get? (k + 1) = some q →
      q.time = p.time + 60 / p.tempo) ∧
    (timeline.points.Pairwise fun p q => p.time < q.time) ∧
    (∀ j s, score.sections[j]? = some s → ∀ step < s.length,
      ∃ p, timeline.get? (((score.sections.take j).map Section.length).sum + step) = some p ∧
        p.sectionId = s.id ∧ p.sectionStep = step ∧ p.tempo = s.effectiveTempo ∧
        p.time = ((score.sections.take j).map seconds).sum + step * beat s) ∧
    timeline.duration = (score.sections.map seconds).sum ∧
    (∀ s ∈ score.sections, s.effectiveTempo = (if s.tempo = 0 then 120 else s.tempo) ∧
      s.effectiveTempo ≠ 0) ∧
    ∀ divide : ℚ → ℚ → ℚ, (∀ x y, y ≠ 0 → divide x y = x / y) →
      @Timeline.ofScore ℚ _ _ ⟨divide⟩ score = timeline ∧
        @Timeline.duration ℚ _ _ ⟨divide⟩ timeline = timeline.duration := by
  intro timeline beat seconds
  have hruns := Timeline.runsOn_ofScore_seconds score
  have htempo : ∀ p ∈ timeline.points, 0 < p.tempo := fun p hp =>
    Timeline.tempo_pos_of_mem_ofScore hp
  refine ⟨fun p hp => hruns.head hp, fun k p q hp hq => hruns.next hp hq, hruns.pairwise_lt htempo,
    ?_, hruns.duration_eq, fun s _ => ⟨rfl, s.effectiveTempo_pos.ne'⟩, fun divide hdivide => ?_⟩
  · intro j s hs step hstep
    obtain ⟨time, hpoint⟩ := Timeline.get?_ofScore (τ := ℚ) hs hstep
    exact ⟨_, hpoint, rfl, rfl, rfl, Timeline.time_ofScore hs hstep hpoint⟩
  · -- Every tempo that is divided by is that of a section or a point.
    have hbeat : ∀ tempo : Nat, 0 < tempo →
        @beatLength ℚ _ ⟨divide⟩ (tempo : ℚ) = beatLength (tempo : ℚ) :=
      fun tempo hpos => hdivide _ _ (Nat.cast_ne_zero.2 hpos.ne')
    have hpoints := Timeline.pointsFrom_congr
      (fun (s : Section) (_ : s ∈ score.sections) => hbeat _ s.effectiveTempo_pos) 0 ((0 : Nat) : ℚ)
    exact ⟨congrArg Timeline.mk hpoints,
      Timeline.duration_congr fun p hp => hbeat _ (htempo p hp)⟩

/-- An empty section takes no time, and a tempo of zero is played at 120. -/
example : let two : Track := ⟨"gong", ['x', 'x']⟩
    (Timeline.ofScore ⟨"", "", [⟨0, "", 0, [two]⟩, ⟨1, "", 90, []⟩, ⟨2, "", 60, [two]⟩]⟩ :
      Timeline ℚ).points.map Point.time = [0, 1 / 2, 1, 2] := by cbv

end Gamelan
