import Gamelan.Performance.Sequencer
import Gamelan.Proofs.Notation.Volume
import Gamelan.Proofs.Notation.WellFormed
import Gamelan.Proofs.Timeline.Layout

namespace Gamelan

open Notation Text

/-!
# Positions and points

A position of a timeline is found from a section and a step, by the first point of the section.  A
point bears the section and the step that its position is found from.  Positions are words of 64 bits;
where a sum wraps around, it ends up before the first point of the section, and so in another one.

* `Score.Numbered` — the scores whose sections bear their positions.
* `exists_step_of_get?` — a point is that of a step.
* `findIdx?_ofScore` — the first point of a section.
* `position?_ofScore` — the position of a step.
* `seek_finds_points` — seeking in the timeline of a source text.
-/

/-- Whether every section bears its position as its number, and the steps can be numbered by words of 64
bits. -/
structure Score.Numbered (score : Score) : Prop where
  ids : ∀ i (s : Section), score.sections[i]? = some s → s.id = i
  length : score.length < Nat.pow 2 64

/-- A score that is read is numbered, since a source text has a length of 64 bits. -/
theorem Notation.numbered_parse {source : List Char} (h : byteLength source < Nat.pow 2 64) :
    (parse source).Numbered where
  ids i s hs := by
    have hids := congrArg (·[i]?) (wellFormed_parse source).ids
    obtain ⟨hi, rfl⟩ := List.getElem?_eq_some_iff.1 hs
    simpa [hi] using hids
  length := Nat.lt_of_le_of_lt (length_parse_le source) h

namespace Timeline

/-! ### Positions of any timeline -/

section
variable {τ : Type} {t : Timeline τ} {i first : Nat}

/-- Whether the first point of a section is at an index. -/
def IsFirst (t : Timeline τ) (i first : Nat) : Prop :=
  (∃ p, t.get? first = some p ∧ p.sectionId = i) ∧
    ∀ k < first, ∀ p, t.get? k = some p → p.sectionId ≠ i

/-- A search for a section finds its first point. -/
theorem findIdx?_eq_some_iff_isFirst :
    t.points.findIdx? (·.sectionId == i) = some first ↔ t.IsFirst i first := by
  rw [List.findIdx?_eq_some_iff_getElem]
  constructor
  · rintro ⟨hfirst, hid, hbefore⟩
    refine ⟨⟨_, List.getElem?_eq_getElem hfirst, eq_of_beq hid⟩, fun k hk p hp heq => ?_⟩
    obtain ⟨hlt, rfl⟩ := List.getElem?_eq_some_iff.1 hp
    exact hbefore k hk (beq_iff_eq.2 heq)
  · rintro ⟨⟨p, hp, hid⟩, hbefore⟩
    obtain ⟨hfirst, rfl⟩ := List.getElem?_eq_some_iff.1 hp
    refine ⟨hfirst, beq_iff_eq.2 hid, fun k hk heq => ?_⟩
    exact hbefore k hk _ (List.getElem?_eq_getElem _) (eq_of_beq heq)

/-- A position is as far behind the first point of its section as the step says, in words of 64 bits,
if the point there is of that section. -/
theorem position?_eq_some_iff {step k : Nat} : t.position? i step = some k ↔
    ∃ first, t.IsFirst i first ∧ (first + step) % Nat.pow 2 64 = k ∧
      ∃ p, t.get? k = some p ∧ p.sectionId = i := by
  simp only [← findIdx?_eq_some_iff_isFirst]
  rw [position?]
  split
  · next hnone => simp [hnone]
  · next first hfirst =>
    simp only [hfirst, Option.some.injEq, exists_eq_left']
    constructor
    · intro h
      split at h
      · next p hp =>
        split at h
        · next hid =>
          obtain rfl := Option.some.inj h
          exact ⟨rfl, p, hp, eq_of_beq hid⟩
        · cases h
      · cases h
    · rintro ⟨rfl, p, hp, rfl⟩
      simp [hp]

end

/-! ### Positions in a score -/

section
variable {τ : Type} [NatCast τ] [Add τ] [Div τ] {score : Score}

/-- In a numbered score a point is that of a step of the section it bears. -/
theorem step_of_get? (hscore : score.Numbered) {k : Nat} {p : Point τ}
    (h : (ofScore score).get? k = some p) :
    ∃ s, score.sections[p.sectionId]? = some s ∧ p.sectionStep < s.length ∧
      score.start p.sectionId + p.sectionStep = k := by
  obtain ⟨j, s, step, hs, hstep, hstart⟩ := exists_stepsBefore_add (lt_length_of_get? h)
  obtain ⟨time, hpoint⟩ := get?_ofScore (τ := τ) hs hstep
  rw [show score.start j + step = k from hstart, h] at hpoint
  obtain rfl := Option.some.inj hpoint
  obtain rfl : s.id = j := hscore.ids j s hs
  exact ⟨s, hs, hstep, hstart⟩

/-- The first point of a section is that of its first step, and a section without steps has none. -/
theorem isFirst_ofScore (hscore : score.Numbered) {i first : Nat} :
    (ofScore score : Timeline τ).IsFirst i first ↔
      ∃ s, score.sections[i]? = some s ∧ 0 < s.length ∧ score.start i = first := by
  constructor
  · rintro ⟨⟨p, hp, rfl⟩, hbefore⟩
    obtain ⟨s, hs, hstep, rfl⟩ := step_of_get? hscore hp
    have hlength : 0 < s.length := Nat.zero_lt_of_lt hstep
    obtain ⟨time, hpoint⟩ := get?_ofScore (τ := τ) hs hlength
    refine ⟨s, hs, hlength, ?_⟩
    -- The first step of the section has a point of its own, and none of the section comes before.
    by_contra hne
    exact hbefore _ (by omega) _ hpoint (hscore.ids _ s hs)
  · rintro ⟨s, hs, hlength, rfl⟩
    obtain ⟨time, hpoint⟩ := get?_ofScore (τ := τ) hs hlength
    refine ⟨⟨_, hpoint, hscore.ids i s hs⟩, fun k hk p hp => ?_⟩
    rintro rfl
    obtain ⟨-, -, -, hstart⟩ := step_of_get? hscore hp
    omega

/-- **The position of a step** is behind the steps before it, and only steps have a position. -/
theorem position?_ofScore (hscore : score.Numbered) {i step k : Nat} (hstep : step < Nat.pow 2 64) :
    (ofScore score : Timeline τ).position? i step = some k ↔
      ∃ s, score.sections[i]? = some s ∧ step < s.length ∧ score.start i + step = k := by
  have hlength := hscore.length
  rw [position?_eq_some_iff]
  constructor
  · rintro ⟨first, hfirst, rfl, p, hp, hid⟩
    obtain ⟨s, hs, -, rfl⟩ := (isFirst_ofScore hscore).1 hfirst
    obtain ⟨s', hs', hlt, hstart⟩ := step_of_get? hscore hp
    rw [hid] at hs' hstart
    obtain rfl : s = s' := Option.some.inj (hs.symm.trans hs')
    obtain hsum | hsum := Nat.lt_or_ge (score.start i + step) (Nat.pow 2 64)
    · rw [Nat.mod_eq_of_lt hsum] at hstart ⊢
      exact ⟨s, hs, by omega, rfl⟩
    · -- A sum that wraps around ends up before the section.
      have hstart' : (score.start i + step) % Nat.pow 2 64 < Nat.pow 2 64 :=
        Nat.mod_lt _ (Nat.pow_pos (by decide))
      have hwrap : (score.start i + step) % Nat.pow 2 64 < score.start i := by
        rw [Nat.mod_eq_sub_mod hsum, Nat.mod_eq_of_lt (by omega)]
        omega
      omega
  · rintro ⟨s, hs, hlt, rfl⟩
    obtain ⟨time, hpoint⟩ := get?_ofScore (τ := τ) hs hlt
    have hindex := lt_length_of_get? hpoint
    exact ⟨score.start i, (isFirst_ofScore hscore).2 ⟨s, hs, Nat.zero_lt_of_lt hlt, rfl⟩,
      Nat.mod_eq_of_lt (hindex.trans hlength), _, hpoint, hscore.ids i s hs⟩

/-- What is no step has no position. -/
theorem position?_ofScore_eq_none (hscore : score.Numbered) {i step : Nat}
    (hstep : step < Nat.pow 2 64)
    (hnone : ∀ s, score.sections[i]? = some s → ¬step < s.length) :
    (ofScore score : Timeline τ).position? i step = none := by
  refine Option.eq_none_iff_forall_ne_some.2 fun k hk => ?_
  obtain ⟨s, hs, hlt, -⟩ := (position?_ofScore hscore hstep).1 hk
  exact hnone s hs hlt

/-- A point stands at the position of the section and the step that it bears. -/
theorem position?_of_get? (hscore : score.Numbered) {k : Nat} {p : Point τ}
    (h : (ofScore score).get? k = some p) :
    (ofScore score : Timeline τ).position? p.sectionId p.sectionStep = some k := by
  obtain ⟨s, hs, hlt, hstart⟩ := step_of_get? hscore h
  have hstep : p.sectionStep < Nat.pow 2 64 := by
    have hk := lt_length_of_get? h
    have hlength := hscore.length
    omega
  exact (position?_ofScore hscore hstep).2 ⟨s, hs, hlt, hstart⟩

end

end Timeline

/-! ### Seeking -/

namespace Sequencer

variable {τ : Type} [NatCast τ] [Add τ] [Div τ] [BEq τ] [LE τ] [DecidableLE τ] [LT τ] [DecidableLT τ]

/-- A seek to a position puts the cursor there. -/
theorem act_seek_of_eq_some {s : Sequencer τ} {i step k : Nat}
    (h : s.timeline.position? i step = some k) (ready : Bool) :
    s.act ready (.seek i step) = ({ s with cursor := k, sent := [] }, []) := by
  rw [act, seek?, h]
  rfl

/-- A seek to no position changes nothing. -/
theorem act_seek_of_eq_none {s : Sequencer τ} {i step : Nat}
    (h : s.timeline.position? i step = none) (ready : Bool) :
    s.act ready (.seek i step) = (s, []) := by
  rw [act, seek?, h]
  rfl

/-- **Positions and points are inverse.**  In the timeline of a source text, whose length has 64 bits,
a section is known by its position.  A section and a step, even one as large as a word of 64 bits, have
a position just if the section has that step: behind all steps of the sections before it.  Every point
stands at the position of the section and the step that it bears.  So a seek succeeds just for the steps
of sections, the cursor is then at the point of that section and step, and a seek that fails changes
nothing and asks for nothing. -/
theorem seek_finds_points (source : List Char) (hsource : byteLength source < Nat.pow 2 64) :
    let score := parse source
    let timeline : Timeline τ := .ofScore score
    (∀ i (opened : Section), score.sections[i]? = some opened → opened.id = i) ∧
    (∀ i, ∀ step < Nat.pow 2 64, timeline.position? i step =
      match score.sections[i]? with
      | some opened =>
        if step < opened.length then some (((score.sections.take i).map Section.length).sum + step)
        else none
      | none => none) ∧
    (∀ k p, timeline.get? k = some p → timeline.position? p.sectionId p.sectionStep = some k) ∧
    ∀ (ready : Bool) (s : Sequencer τ), s.timeline = timeline → ∀ i, ∀ step < Nat.pow 2 64,
      let request : Request τ := .seek i step
      let after := (s.act ready request).1
      (∀ opened, score.sections[i]? = some opened → step < opened.length →
        result? request s after = some true ∧
          ∃ p, after.current? = some p ∧ p.sectionId = i ∧ p.sectionStep = step) ∧
      ((∀ opened, score.sections[i]? = some opened → ¬step < opened.length) →
        result? request s after = some false ∧ s.act ready request = (s, [])) := by
  intro score timeline
  have hscore : score.Numbered := numbered_parse hsource
  -- The numbers of a score of a source text fit a word, so no sum of lengths wraps around.
  have hposition : ∀ i, ∀ step < Nat.pow 2 64, ∀ opened, score.sections[i]? = some opened →
      step < opened.length → timeline.position? i step = some (score.start i + step) :=
    fun i step hstep opened hopened hlt =>
      (Timeline.position?_ofScore hscore hstep).2 ⟨opened, hopened, hlt, rfl⟩
  refine ⟨hscore.ids, fun i step hstep => ?_, fun k p hp => Timeline.position?_of_get? hscore hp,
    fun ready s hs i step hstep => ⟨fun opened hopened hlt => ?_, fun hnone => ?_⟩⟩
  · split
    · next opened hopened =>
      split
      · next hlt => exact hposition i step hstep opened hopened hlt
      · next hge =>
        refine Timeline.position?_ofScore_eq_none hscore hstep fun other hother => ?_
        rwa [Option.some.inj (hother.symm.trans hopened)]
    · next hnone =>
      refine Timeline.position?_ofScore_eq_none hscore hstep fun other hother => ?_
      rw [hnone] at hother
      cases hother
  -- A seek goes to the position, and there is the point of the section and the step.
  · have hfound := hposition i step hstep opened hopened hlt
    obtain ⟨time, hpoint⟩ := Timeline.get?_ofScore (τ := τ) hopened hlt
    rw [show Timeline.ofScore score = s.timeline from hs.symm] at hpoint
    rw [← hs] at hfound
    refine ⟨by rw [result?, hfound]; rfl, ?_⟩
    rw [act_seek_of_eq_some hfound]
    exact ⟨_, hpoint, hscore.ids i opened hopened, rfl⟩
  · have hmissing := Timeline.position?_ofScore_eq_none (τ := τ) hscore hstep hnone
    rw [show Timeline.ofScore score = s.timeline from hs.symm] at hmissing
    exact ⟨by rw [result?, hmissing]; rfl, act_seek_of_eq_none hmissing ready⟩

/-- A text with an empty section between two others. -/
def gapSource : List Char :=
  "[] gong |xx| [] [] gong |xx|".toList

/-- The steps of `gapSource` have positions across the empty section, which has none itself; a step
that wraps around has none either. -/
theorem seek_finds_points_gapSource :
    byteLength gapSource < Nat.pow 2 64 ∧
      let timeline : Timeline ℚ := .ofScore (parse gapSource)
      timeline.position? 1 0 = none ∧ timeline.position? 2 1 = some 3 ∧
        timeline.position? 2 (Nat.pow 2 64 - 1) = none := by
  have hsource : byteLength gapSource < Nat.pow 2 64 := by
    have hlength : byteLength gapSource = 28 := by cbv
    rw [hlength]
    norm_num
  have hsections : (parse gapSource).sections =
      [⟨0, "", 0, [⟨"gong", ['x', 'x']⟩]⟩, ⟨1, "", 0, []⟩, ⟨2, "", 0, [⟨"gong", ['x', 'x']⟩]⟩] := by
    cbv
  have hposition := (seek_finds_points (τ := ℚ) gapSource hsource).2.1
  rw [hsections] at hposition
  refine ⟨hsource, hposition 1 0 (by norm_num), hposition 2 1 (by norm_num),
    hposition 2 (Nat.pow 2 64 - 1) (by norm_num)⟩

end Sequencer

end Gamelan
