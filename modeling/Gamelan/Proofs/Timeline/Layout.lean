import Gamelan.Timeline
import Mathlib

namespace Gamelan

/-!
# The layout of a score

A timeline numbers the steps of a score: section after section, step after step.  At each step it has
the symbols that are written there, in the order of the tracks.

* `Section.le_length`, `Section.exists_length_eq` — a section is as long as its longest track.
* `Score.start` — how many steps come before a section.
* `Score.written?`, `Score.actionPlace` — what is written at a place, and where it is found in the
  timeline.
* `layout_of_score` — the timeline has every step and every symbol of the score once, and no others.
-/

/-! ### The length of a section -/

/-- The greatest of some numbers is not less than any of them. -/
theorem le_foldl_max (lengths : List Nat) (least : Nat) :
    least ≤ lengths.foldl max least ∧ ∀ n ∈ lengths, n ≤ lengths.foldl max least := by
  induction lengths generalizing least with
  | nil => simp
  | cons first rest ih =>
    obtain ⟨hleast, hrest⟩ := ih (max least first)
    refine ⟨le_trans (le_max_left _ _) hleast, fun n hn => ?_⟩
    rcases List.mem_cons.1 hn with rfl | hn
    · exact le_trans (le_max_right _ _) hleast
    · exact hrest n hn

/-- It is one of them, or the least one allowed. -/
theorem foldl_max_eq_or_mem (lengths : List Nat) (least : Nat) :
    lengths.foldl max least = least ∨ lengths.foldl max least ∈ lengths := by
  induction lengths generalizing least with
  | nil => exact .inl rfl
  | cons first rest ih =>
    rw [List.foldl_cons]
    rcases ih (max least first) with h | h
    · rw [h]
      rcases le_total first least with hle | hle
      · exact .inl (max_eq_left hle)
      · exact .inr (by rw [max_eq_right hle]; exact List.mem_cons_self)
    · exact .inr (List.mem_cons_of_mem _ h)

namespace Section

variable {s : Section}

/-- No track is longer than its section. -/
theorem le_length {t : Track} (h : t ∈ s.tracks) : t.steps.length ≤ s.length :=
  (le_foldl_max _ 0).2 _ (List.mem_map_of_mem h)

/-- A section with a step in it has a track that is as long as the section. -/
theorem exists_length_eq (h : 0 < s.length) : ∃ t ∈ s.tracks, t.steps.length = s.length := by
  rcases foldl_max_eq_or_mem (s.tracks.map (·.steps.length)) 0 with hzero | hmem
  · exact absurd hzero h.ne'
  · exact List.mem_map.1 hmem

/-- Without a track that has steps, a section has none. -/
theorem length_eq_zero (h : ∀ t ∈ s.tracks, t.steps = []) : s.length = 0 := by
  by_contra hne
  obtain ⟨t, ht, hlength⟩ := exists_length_eq (Nat.pos_of_ne_zero hne)
  rw [h t ht] at hlength
  exact hne hlength.symm

end Section

/-! ### What a filter keeps -/

section
variable {α β : Type} (f : α → Option β)

/-- How many of the first `i` items of a list are kept. -/
def keptBefore (xs : List α) (i : Nat) : Nat :=
  (xs.take i).countP fun x => (f x).isSome

variable {f}

/-- The first entry counts if it is kept. -/
theorem keptBefore_cons_succ (x : α) (xs : List α) (i : Nat) :
    keptBefore f (x :: xs) (i + 1) = keptBefore f xs i + if (f x).isSome then 1 else 0 := by
  rw [keptBefore, List.take_succ_cons, List.countP_cons, keptBefore]

/-- An item that is kept comes behind those kept before it. -/
theorem getElem?_filterMap_keptBefore {xs : List α} {i : Nat} {x : α} {b : β}
    (hx : xs[i]? = some x) (hb : f x = some b) :
    (xs.filterMap f)[keptBefore f xs i]? = some b := by
  induction xs generalizing i with
  | nil => simp at hx
  | cons first rest ih =>
    cases i with
    | zero =>
      obtain rfl : first = x := by simpa using hx
      simp [keptBefore, hb]
    | succ i =>
      have hrest : (rest.filterMap f)[keptBefore f rest i]? = some b := ih (by simpa using hx)
      rw [keptBefore_cons_succ]
      cases hfirst : f first <;> simp [hfirst, hrest]

/-- All that is left comes from an item that is kept. -/
theorem exists_of_getElem?_filterMap {xs : List α} {m : Nat} {b : β}
    (h : (xs.filterMap f)[m]? = some b) :
    ∃ i x, xs[i]? = some x ∧ f x = some b ∧ keptBefore f xs i = m := by
  induction xs generalizing m with
  | nil => simp at h
  | cons first rest ih =>
    cases hfirst : f first with
    | none =>
      rw [List.filterMap_cons_none hfirst] at h
      obtain ⟨i, x, hx, hb, hm⟩ := ih h
      exact ⟨i + 1, x, hx, hb, by simp [keptBefore_cons_succ, hfirst, hm]⟩
    | some kept =>
      rw [List.filterMap_cons_some hfirst] at h
      cases m with
      | zero =>
        obtain rfl : kept = b := by simpa using h
        exact ⟨0, first, rfl, hfirst, rfl⟩
      | succ m =>
        obtain ⟨i, x, hx, hb, hm⟩ := ih (by simpa using h)
        exact ⟨i + 1, x, hx, hb, by simp [keptBefore_cons_succ, hfirst, hm]⟩

/-- Later items come later. -/
theorem keptBefore_lt {xs : List α} {i i' : Nat} {x : α} {b : β} (hx : xs[i]? = some x)
    (hb : f x = some b) (h : i < i') : keptBefore f xs i < keptBefore f xs i' := by
  induction xs generalizing i i' with
  | nil => simp at hx
  | cons first rest ih =>
    obtain ⟨i', rfl⟩ : ∃ n, i' = n + 1 := ⟨i' - 1, by omega⟩
    rw [keptBefore_cons_succ]
    cases i with
    | zero =>
      obtain rfl : first = x := by simpa using hx
      simp [keptBefore, hb]
    | succ i =>
      have hrest : rest[i]? = some x := by simpa using hx
      have hlt : i < i' := by omega
      have := ih hrest hlt
      rw [keptBefore_cons_succ]
      omega

/-- So no two items are kept in one place. -/
theorem keptBefore_inj {xs : List α} {i i' : Nat} {x x' : α} {b b' : β} (hx : xs[i]? = some x)
    (hb : f x = some b) (hx' : xs[i']? = some x') (hb' : f x' = some b')
    (h : keptBefore f xs i = keptBefore f xs i') : i = i' := by
  rcases Nat.lt_trichotomy i i' with hlt | heq | hgt
  · exact absurd h (keptBefore_lt hx hb hlt).ne
  · exact heq
  · exact absurd h (keptBefore_lt hx' hb' hgt).ne'

end

/-! ### Where sections start -/

/-- How many steps some sections have before the one at index `j`. -/
def stepsBefore (sections : List Section) (j : Nat) : Nat :=
  ((sections.take j).map Section.length).sum

@[simp] theorem stepsBefore_zero (sections : List Section) : stepsBefore sections 0 = 0 := rfl

@[simp] theorem stepsBefore_cons_succ (s : Section) (sections : List Section) (j : Nat) :
    stepsBefore (s :: sections) (j + 1) = s.length + stepsBefore sections j := rfl

/-- A section ends before any later one starts. -/
theorem stepsBefore_add_length_le {sections : List Section} {j j' : Nat} {s : Section}
    (hs : sections[j]? = some s) (h : j < j') :
    stepsBefore sections j + s.length ≤ stepsBefore sections j' := by
  induction sections generalizing j j' with
  | nil => simp at hs
  | cons first rest ih =>
    obtain ⟨j', rfl⟩ : ∃ n, j' = n + 1 := ⟨j' - 1, by omega⟩
    rw [stepsBefore_cons_succ]
    cases j with
    | zero =>
      obtain rfl : first = s := by simpa using hs
      rw [stepsBefore_zero]
      omega
    | succ j =>
      have hrest : rest[j]? = some s := by simpa using hs
      have hlt : j < j' := by omega
      have := ih hrest hlt
      rw [stepsBefore_cons_succ]
      omega

/-- No two steps have one number. -/
theorem stepsBefore_add_inj {sections : List Section} {j j' step step' : Nat} {s s' : Section}
    (hs : sections[j]? = some s) (hstep : step < s.length) (hs' : sections[j']? = some s')
    (hstep' : step' < s'.length)
    (h : stepsBefore sections j + step = stepsBefore sections j' + step') :
    j = j' ∧ step = step' := by
  rcases Nat.lt_trichotomy j j' with hlt | rfl | hgt
  · have := stepsBefore_add_length_le hs hlt
    omega
  · exact ⟨rfl, by omega⟩
  · have := stepsBefore_add_length_le hs' hgt
    omega

/-- Every number below the number of all steps is that of a step. -/
theorem exists_stepsBefore_add {sections : List Section} {k : Nat}
    (h : k < (sections.map Section.length).sum) :
    ∃ j s step, sections[j]? = some s ∧ step < s.length ∧ stepsBefore sections j + step = k := by
  induction sections generalizing k with
  | nil => simp at h
  | cons first rest ih =>
    rw [List.map_cons, List.sum_cons] at h
    by_cases hfirst : k < first.length
    · exact ⟨0, first, k, rfl, hfirst, Nat.zero_add k⟩
    · obtain ⟨j, s, step, hs, hstep, hk⟩ := ih (k := k - first.length) (by omega)
      exact ⟨j + 1, s, step, hs, hstep, by rw [stepsBefore_cons_succ]; omega⟩

/-! ### The points of a timeline -/

namespace Timeline

section
variable {τ : Type} [NatCast τ] [Add τ] [Div τ]

/-- A section has as many points as steps. -/
theorem length_sectionPoints (s : Section) (index step : Nat) (time : τ) (count : Nat) :
    (sectionPoints s index step time count).1.length = count := by
  induction count generalizing index step time with
  | zero => rfl
  | succ count ih => rw [sectionPoints, List.length_cons, ih]

/-- The points of a section are its steps, in order. -/
theorem getElem?_sectionPoints (s : Section) (index step : Nat) (time : τ) {count i : Nat}
    (h : i < count) : ∃ time' : τ, (sectionPoints s index step time count).1[i]? =
      some ⟨index + i, s.id, step + i, time', s.effectiveTempo, s.actions (step + i)⟩ := by
  induction count generalizing index step time i with
  | zero => omega
  | succ count ih =>
    rw [sectionPoints]
    cases i with
    | zero => exact ⟨time, rfl⟩
    | succ i =>
      obtain ⟨time', hpoint⟩ := ih (index + 1) (step + 1)
        (time + beatLength ((s.effectiveTempo : Nat) : τ)) (Nat.lt_of_succ_lt_succ h)
      refine ⟨time', ?_⟩
      rw [List.getElem?_cons_succ, hpoint]
      simp only [Nat.add_assoc, Nat.add_comm 1]

theorem pointsFrom_cons (index : Nat) (time : τ) (s : Section) (rest : List Section) :
    pointsFrom index time (s :: rest) = (sectionPoints s index 0 time s.length).1 ++
      pointsFrom (index + s.length) (sectionPoints s index 0 time s.length).2 rest := rfl

/-- There are as many points as the sections have steps. -/
theorem length_pointsFrom (index : Nat) (time : τ) (sections : List Section) :
    (pointsFrom index time sections).length = (sections.map Section.length).sum := by
  induction sections generalizing index time with
  | nil => rfl
  | cons s rest ih =>
    rw [pointsFrom_cons, List.length_append, length_sectionPoints, ih, List.map_cons, List.sum_cons]

/-- The point of a step stands behind those of the steps before it. -/
theorem getElem?_pointsFrom (index : Nat) (time : τ) {sections : List Section} {j step : Nat}
    {s : Section} (hs : sections[j]? = some s) (hstep : step < s.length) :
    ∃ time' : τ, (pointsFrom index time sections)[stepsBefore sections j + step]? =
      some ⟨index + stepsBefore sections j + step, s.id, step, time', s.effectiveTempo,
        s.actions step⟩ := by
  induction sections generalizing index time j with
  | nil => simp at hs
  | cons first rest ih =>
    rw [pointsFrom_cons]
    cases j with
    | zero =>
      obtain rfl : first = s := by simpa using hs
      -- The step is one of the first section.
      obtain ⟨time', hpoint⟩ := getElem?_sectionPoints first index 0 time hstep
      refine ⟨time', ?_⟩
      rw [stepsBefore_zero, Nat.zero_add, List.getElem?_append_left, hpoint]
      · simp only [Nat.add_zero, Nat.zero_add]
      · rw [length_sectionPoints]
        exact hstep
    | succ j =>
      -- It is one behind the first section, which goes on in the index and the time.
      obtain ⟨time', hpoint⟩ := ih (index + first.length)
        (sectionPoints first index 0 time first.length).2 (by simpa using hs)
      refine ⟨time', ?_⟩
      rw [stepsBefore_cons_succ, Nat.add_assoc, List.getElem?_append_right, length_sectionPoints,
        Nat.add_sub_cancel_left, hpoint]
      · simp only [Nat.add_assoc]
      · rw [length_sectionPoints]
        exact Nat.le_add_right _ _

end

/-- The action at a place of a timeline: an index of a point, and an index among its actions. -/
def action? {τ : Type} (t : Timeline τ) (place : Nat × Nat) : Option Action :=
  (t.get? place.1).bind fun p => p.actions[place.2]?

end Timeline

/-! ### What is written -/

/-- A place in a score: a section, a track of it and a step of that, all by their indices. -/
structure Place where
  sectionIndex : Nat
  trackIndex : Nat
  step : Nat

namespace Score

/-- How many steps come before a section. -/
def start (score : Score) (j : Nat) : Nat :=
  stepsBefore score.sections j

/-- The number of steps. -/
def length (score : Score) : Nat :=
  (score.sections.map Section.length).sum

/-- What is written at a place: its symbol with the label of its track.  There is nothing behind the
end of a track, and nothing where the track has a space. -/
def written? (score : Score) (place : Place) : Option Action := do
  let s ← score.sections[place.sectionIndex]?
  let t ← s.tracks[place.trackIndex]?
  let symbol ← t.steps[place.step]?
  if symbol = ' ' then none else some ⟨t.label, symbol⟩

/-- Where a timeline has what is written at a place: the point of the step, and how many tracks
before this one have a symbol there. -/
def actionPlace (score : Score) (place : Place) : Nat × Nat :=
  (score.start place.sectionIndex + place.step,
    match score.sections[place.sectionIndex]? with
    | some s => keptBefore (·.action? place.step) s.tracks place.trackIndex
    | none => 0)

/-- What is written at a place is an action of a track of a section. -/
theorem written?_eq_some_iff {score : Score} {place : Place} {a : Action} :
    score.written? place = some a ↔ ∃ s, score.sections[place.sectionIndex]? = some s ∧
      ∃ t, s.tracks[place.trackIndex]? = some t ∧ t.action? place.step = some a := by
  have haction : ∀ t : Track, t.action? place.step =
      (t.steps[place.step]?).bind fun symbol =>
        if symbol = ' ' then none else some ⟨t.label, symbol⟩ := by
    intro t
    rw [Track.action?]
    cases t.steps[place.step]? <;> simp [restSymbol]
  simp only [written?, Option.bind_eq_bind, Option.bind_eq_some_iff, haction]

/-- What is written at a step of a track is within the section. -/
theorem lt_length_of_action? {s : Section} {t : Track} {i step : Nat} {a : Action}
    (ht : s.tracks[i]? = some t) (ha : t.action? step = some a) : step < s.length := by
  have hstep : step < t.steps.length := by
    rw [Track.action?] at ha
    split at ha
    · next symbol hsymbol => exact (List.getElem?_eq_some_iff.1 hsymbol).1
    · cases ha
  exact lt_of_lt_of_le hstep (Section.le_length (List.mem_of_getElem? ht))

end Score

/-! ### The timeline of a score -/

namespace Timeline

section
variable {τ : Type} [NatCast τ] [Add τ] [Div τ] {score : Score}

/-- A timeline is as long as its score. -/
theorem length_ofScore (score : Score) : (ofScore score : Timeline τ).length = score.length :=
  length_pointsFrom 0 _ score.sections

/-- The points of a score are numbered below its length. -/
theorem lt_length_of_get? {k : Nat} {p : Point τ} (h : (ofScore score).get? k = some p) :
    k < score.length := by
  rw [← length_ofScore (τ := τ) score]
  exact (List.getElem?_eq_some_iff.1 h).1

/-- The point of a step of a section. -/
theorem get?_ofScore {j step : Nat} {s : Section} (hs : score.sections[j]? = some s)
    (hstep : step < s.length) : ∃ time : τ, (ofScore score).get? (score.start j + step) =
      some ⟨score.start j + step, s.id, step, time, s.effectiveTempo, s.actions step⟩ := by
  obtain ⟨time, hpoint⟩ := getElem?_pointsFrom 0 ((0 : Nat) : τ) hs hstep
  rw [Nat.zero_add] at hpoint
  exact ⟨time, hpoint⟩

/-- The actions of the point of a step are those of its section. -/
theorem action?_ofScore {j step : Nat} {s : Section} (hs : score.sections[j]? = some s)
    (hstep : step < s.length) (m : Nat) :
    (ofScore score : Timeline τ).action? (score.start j + step, m) = (s.actions step)[m]? := by
  obtain ⟨time, hpoint⟩ := get?_ofScore (τ := τ) hs hstep
  rw [action?, hpoint]
  rfl

/-- What is written at a place stands in the timeline. -/
theorem action?_actionPlace {place : Place} {a : Action} (h : score.written? place = some a) :
    (ofScore score : Timeline τ).action? (score.actionPlace place) = some a := by
  obtain ⟨s, hs, t, ht, ha⟩ := Score.written?_eq_some_iff.1 h
  rw [Score.actionPlace, hs, action?_ofScore hs (Score.lt_length_of_action? ht ha)]
  exact getElem?_filterMap_keptBefore ht ha

/-- Nothing stands in the timeline that is not written. -/
theorem exists_written_of_action? {place : Nat × Nat} {a : Action}
    (h : (ofScore score : Timeline τ).action? place = some a) :
    ∃ written, score.written? written = some a ∧ score.actionPlace written = place := by
  obtain ⟨k, m⟩ := place
  obtain ⟨p, hp, -⟩ := Option.bind_eq_some_iff.1 h
  obtain ⟨j, s, step, hs, hstep, rfl⟩ := exists_stepsBefore_add (lt_length_of_get? hp)
  rw [show stepsBefore score.sections j = score.start j from rfl, action?_ofScore hs hstep] at h
  obtain ⟨i, t, ht, ha, rfl⟩ := exists_of_getElem?_filterMap h
  refine ⟨⟨j, i, step⟩, Score.written?_eq_some_iff.2 ⟨s, hs, t, ht, ha⟩, ?_⟩
  rw [Score.actionPlace, hs]
  rfl

/-- Two places that are written on do not stand in one place of the timeline. -/
theorem actionPlace_inj {place place' : Place} {a a' : Action} (h : score.written? place = some a)
    (h' : score.written? place' = some a')
    (heq : score.actionPlace place = score.actionPlace place') : place = place' := by
  obtain ⟨j, i, step⟩ := place
  obtain ⟨j', i', step'⟩ := place'
  obtain ⟨s, hs, t, ht, ha⟩ := Score.written?_eq_some_iff.1 h
  obtain ⟨s', hs', t', ht', ha'⟩ := Score.written?_eq_some_iff.1 h'
  rw [Score.actionPlace, Score.actionPlace, hs, hs', Prod.mk.injEq] at heq
  -- The point tells the section and the step, and the rank in it tells the track.
  obtain ⟨hj, hstep⟩ := stepsBefore_add_inj hs (Score.lt_length_of_action? ht ha) hs'
    (Score.lt_length_of_action? ht' ha') heq.1
  obtain rfl : j = j' := hj
  obtain rfl : step = step' := hstep
  obtain rfl : s = s' := Option.some.inj (hs.symm.trans hs')
  obtain rfl : i = i' := keptBefore_inj ht ha ht' ha' heq.2
  rfl

end

/-- A section without steps leaves no mark on a timeline. -/
theorem pointsFrom_of_length_eq_zero {τ : Type} [NatCast τ] [Add τ] [Div τ] {s : Section}
    (h : s.length = 0) (index : Nat) (time : τ) (before after : List Section) :
    pointsFrom index time (before ++ s :: after) = pointsFrom index time (before ++ after) := by
  induction before generalizing index time with
  | nil =>
    rw [List.nil_append, List.nil_append, pointsFrom_cons, h]
    rfl
  | cons first before ih =>
    rw [List.cons_append, pointsFrom_cons, ih, List.cons_append, pointsFrom_cons]

end Timeline

/-- **A timeline is its score, step by step.**  It has as many points as the sections have steps,
and a section has as many as its longest track.  The point of a step stands behind all steps of the
sections before and those of its own section before it; it bears that number, the id of its section,
the step and the tempo, and has the symbols of the tracks that reach so far and do not rest, in their
order.  Every symbol of the score stands in one place of the timeline, and every place of the
timeline has one symbol of the score.  Sections without steps leave no mark. -/
theorem layout_of_score {τ : Type} [NatCast τ] [Add τ] [Div τ] (score : Score) :
    let timeline : Timeline τ := .ofScore score
    timeline.length = (score.sections.map Section.length).sum ∧
    (∀ s ∈ score.sections, (∀ t ∈ s.tracks, t.steps.length ≤ s.length) ∧
      (0 < s.length → ∃ t ∈ s.tracks, t.steps.length = s.length)) ∧
    (∀ j s, score.sections[j]? = some s → ∀ step < s.length,
      let k := ((score.sections.take j).map Section.length).sum + step
      ∃ p, timeline.get? k = some p ∧ p.index = k ∧ p.sectionId = s.id ∧ p.sectionStep = step ∧
        p.tempo = (if s.tempo = 0 then 120 else s.tempo) ∧
        p.actions = s.tracks.filterMap fun t => (t.steps[step]?).bind fun symbol =>
          if symbol = ' ' then none else some ⟨t.label, symbol⟩) ∧
    (∀ place a, score.written? place = some a →
      timeline.action? (score.actionPlace place) = some a) ∧
    Set.BijOn score.actionPlace {place | (score.written? place).isSome}
      {place | (timeline.action? place).isSome} ∧
    ∀ before s after, score.sections = before ++ s :: after → (∀ t ∈ s.tracks, t.steps = []) →
      timeline = .ofScore { score with sections := before ++ after } := by
  intro timeline
  refine ⟨Timeline.length_ofScore score, fun s _ => ⟨fun t => Section.le_length,
    Section.exists_length_eq⟩, ?_, fun place a => Timeline.action?_actionPlace, ⟨?_, ?_, ?_⟩, ?_⟩
  · intro j s hs step hstep k
    obtain ⟨time, hpoint⟩ := Timeline.get?_ofScore (τ := τ) hs hstep
    refine ⟨_, hpoint, rfl, rfl, rfl, rfl, ?_⟩
    refine List.filterMap_congr fun t _ => ?_
    rw [Track.action?]
    cases t.steps[step]? <;> simp [restSymbol]
  -- The places of the score go into those of the timeline, one to one, and onto all of them.
  · intro place hplace
    obtain ⟨a, ha⟩ := Option.isSome_iff_exists.1 hplace
    exact Option.isSome_iff_exists.2 ⟨a, Timeline.action?_actionPlace ha⟩
  · intro place hplace place' hplace' heq
    obtain ⟨a, ha⟩ := Option.isSome_iff_exists.1 hplace
    obtain ⟨a', ha'⟩ := Option.isSome_iff_exists.1 hplace'
    exact Timeline.actionPlace_inj ha ha' heq
  · intro place hplace
    obtain ⟨a, ha⟩ := Option.isSome_iff_exists.1 hplace
    obtain ⟨written, hwritten, heq⟩ := Timeline.exists_written_of_action? ha
    exact ⟨written, Option.isSome_iff_exists.2 ⟨a, hwritten⟩, heq⟩
  · intro before s after hsections hempty
    have hpoints := Timeline.pointsFrom_of_length_eq_zero (Section.length_eq_zero hempty) 0
      ((0 : Nat) : τ) before after
    rw [← hsections] at hpoints
    exact congrArg Timeline.mk hpoints

end Gamelan
