import Gamelan.Proofs.Performance.Muting
import Gamelan.Proofs.Performance.Pass

namespace Gamelan.Sequencer

/-!
# Runs that differ in toggles

Toggles of the muted labels may be put anywhere into a run: all other requests go as before, and the
calls of a label are there or not by the toggles of that label alone.

* `withoutToggles`, `checkpoints` — what runs that differ in toggles have in common.
* `SameBut` — two sequencers that differ in which of some labels are muted.
* `SameBut.run` — such sequencers stay so, and are heard alike on all other labels.
* `mem_muted_run_iff` — which labels are muted in the end.
* `mute_toggles_are_orthogonal` — what toggles do to a run.
-/

variable {τ : Type}

/-! ### Toggles in a run -/

/-- A run without the toggles of some labels. -/
def withoutTogglesOf (labels : String → Bool) (steps : List (Bool × Request τ)) :
    List (Bool × Request τ) :=
  steps.filter fun q => !(toggledLabel? q.2).any labels

/-- A run without toggles. -/
def withoutToggles (steps : List (Bool × Request τ)) : List (Bool × Request τ) :=
  withoutTogglesOf (fun _ => true) steps

/-- How often a run toggles a label. -/
def toggleCount (label : String) (steps : List (Bool × Request τ)) : Nat :=
  steps.countP fun q => toggledLabel? q.2 == some label

theorem withoutTogglesOf_cons_of_none (labels : String → Bool) {q : Bool × Request τ}
    (h : toggledLabel? q.2 = none) (rest : List (Bool × Request τ)) :
    withoutTogglesOf labels (q :: rest) = q :: withoutTogglesOf labels rest :=
  List.filter_cons_of_pos (by simp [h])

/-- A toggle stays in the run unless it is for one of the labels. -/
theorem withoutTogglesOf_cons_toggle (labels : String → Bool) (ready : Bool) (label : String)
    (rest : List (Bool × Request τ)) :
    withoutTogglesOf labels ((ready, .toggleMute label) :: rest) =
      if labels label then withoutTogglesOf labels rest
      else (ready, .toggleMute label) :: withoutTogglesOf labels rest := by
  rw [withoutTogglesOf, List.filter_cons]
  cases hlabel : labels label <;> simp [toggledLabel?, hlabel, withoutTogglesOf]

section
variable [NatCast τ] [Add τ] [Div τ] [BEq τ] [LE τ] [DecidableLE τ] [LT τ] [DecidableLT τ]

/-- The states of a run after each request, those to mute and to sound again apart. -/
def checkpoints : List (Bool × Request τ) → Sequencer τ → List (Sequencer τ)
  | [], _ => []
  | (ready, request) :: rest, s =>
    let next := (s.act ready request).1
    if (toggledLabel? request).isSome then checkpoints rest next
    else next :: checkpoints rest next

end

/-! ### What a toggle does -/

/-- A label that is put in its place is one label more. -/
theorem insertLabel_perm (label : String) (labels : List String) :
    (insertLabel label labels).Perm (label :: labels) := by
  induction labels with
  | nil => exact .refl _
  | cons other rest ih =>
    rw [insertLabel]
    split
    · exact .refl _
    · exact (ih.cons other).trans (.swap label other rest)

/-- No label is muted twice. -/
theorem nodup_muted_toggleMute (label : String) {s : Sequencer τ} (h : s.muted.Nodup) :
    (s.toggleMute label).muted.Nodup := by
  simp only [toggleMute, isMuted, List.contains_iff_mem]
  split
  · exact h.erase label
  · next hmem => exact (insertLabel_perm label s.muted).nodup_iff.2 (List.nodup_cons.2 ⟨hmem, h⟩)

/-- A toggle is for one label only. -/
theorem mem_muted_toggleMute {label : String} {s : Sequencer τ} (h : s.muted.Nodup)
    (other : String) : other ∈ (s.toggleMute label).muted ↔
      if other = label then other ∉ s.muted else other ∈ s.muted := by
  simp only [toggleMute, isMuted, List.contains_iff_mem]
  by_cases hmem : label ∈ s.muted
  · rw [if_pos hmem]
    by_cases hother : other = label
    · simp [hother, hmem, h.mem_erase_iff]
    · simp [hother, List.mem_erase_of_ne hother]
  · rw [if_neg hmem, (insertLabel_perm label s.muted).mem_iff, List.mem_cons]
    by_cases hother : other = label
    · simp [hother, hmem]
    · simp [hother]

/-! ### Labels apart -/

/-- The calls of a log that are made, but for those of some labels. -/
def heardApart (labels : String → Bool) (cs : List (LoggedCall τ)) : List (VoiceCall τ) :=
  heardCalls (cs.filter fun c => !c.label?.any labels)

/-- What is heard apart from some labels, in a log of two parts. -/
@[simp] theorem heardApart_append (labels : String → Bool) (first second : List (LoggedCall τ)) :
    heardApart labels (first ++ second) = heardApart labels first ++ heardApart labels second := by
  simp [heardApart]

/-- What is heard of other labels depends on whether these are muted. -/
theorem heardApart_muting {labels : String → Bool} {muted muted' : List String}
    (h : ∀ label, labels label = false → (label ∈ muted ↔ label ∈ muted'))
    (cs : List (LoggedCall τ)) :
    heardApart labels (cs.map (LoggedCall.muting muted)) =
      heardApart labels (cs.map (LoggedCall.muting muted')) := by
  simp only [heardApart, heardCalls, List.filter_filter, List.filter_map, List.map_map]
  refine congrArg (List.map _) (List.filter_congr fun c _ => ?_)
  obtain ⟨call, label?, _⟩ := c
  cases label? with
  | none => rfl
  | some label =>
    cases hlabel : labels label with
    | true => simp [LoggedCall.muting, hlabel]
    | false => simp [LoggedCall.muting, LoggedCall.heard, hlabel, h label hlabel]

/-- Two sequencers that differ at most in which ones of some labels are muted. -/
structure SameBut (labels : String → Bool) (s s' : Sequencer τ) : Prop where
  course : s.muting [] = s'.muting []
  muted_iff : ∀ label, labels label = false → (label ∈ s.muted ↔ label ∈ s'.muted)
  nodup : s.muted.Nodup
  nodup' : s'.muted.Nodup

namespace SameBut

variable {labels : String → Bool} {s s' : Sequencer τ}

/-- One of the labels is muted or sounded again in one of the two. -/
theorem toggleMute_left (h : SameBut labels s s') {label : String} (hlabel : labels label = true) :
    SameBut labels (s.toggleMute label) s' where
  course := h.course
  muted_iff other hother := by
    have hne : other ≠ label := by
      rintro rfl
      rw [hlabel] at hother
      cases hother
    rw [mem_muted_toggleMute h.nodup, if_neg hne]
    exact h.muted_iff other hother
  nodup := nodup_muted_toggleMute label h.nodup
  nodup' := h.nodup'

/-- A label is muted or sounded again in both. -/
theorem toggleMute (h : SameBut labels s s') (label : String) :
    SameBut labels (s.toggleMute label) (s'.toggleMute label) where
  course := h.course
  muted_iff other hother := by
    rw [mem_muted_toggleMute h.nodup, mem_muted_toggleMute h.nodup', h.muted_iff other hother]
  nodup := nodup_muted_toggleMute label h.nodup
  nodup' := nodup_muted_toggleMute label h.nodup'

section
variable [NatCast τ] [Add τ] [Div τ] [BEq τ] [LE τ] [DecidableLE τ] [LT τ] [DecidableLT τ]

/-- A request that is no toggle keeps two sequencers as alike as they are. -/
theorem act (h : SameBut labels s s') (ready : Bool) {request : Request τ}
    (hrequest : toggledLabel? request = none) :
    SameBut labels (s.act ready request).1 (s'.act ready request).1 where
  course := by
    rw [← (act_muting [] ready hrequest s).1, h.course, (act_muting [] ready hrequest s').1]
  muted_iff label hlabel := by
    rw [muted_act ready hrequest, muted_act ready hrequest]
    exact h.muted_iff label hlabel
  nodup := by rw [muted_act ready hrequest]; exact h.nodup
  nodup' := by rw [muted_act ready hrequest]; exact h.nodup'

/-- And it adds the same calls to their logs, of which the same ones are heard. -/
theorem requestLog (h : SameBut labels s s') (ready : Bool) {request : Request τ}
    (hrequest : toggledLabel? request = none) :
    (s.requestLog ready request).map (·.call) = (s'.requestLog ready request).map (·.call) ∧
      heardApart labels (s.requestLog ready request) =
        heardApart labels (s'.requestLog ready request) := by
  have hlog := (act_muting s.muted ready hrequest (s.muting [])).2
  have hlog' := (act_muting s'.muted ready hrequest (s.muting [])).2
  rw [muting_muting, muting_muted] at hlog
  rw [h.course, muting_muting, muting_muted, ← h.course] at hlog'
  rw [hlog, hlog']
  refine ⟨?_, heardApart_muting h.muted_iff _⟩
  rw [List.map_map, List.map_map]
  rfl

/-- **Runs that differ in toggles of some labels** go the same way, with the same log, and are heard
alike on all other labels. -/
theorem run (h : SameBut labels s s') (steps : List (Bool × Request τ)) :
    SameBut labels (run steps s).1 (run (withoutTogglesOf labels steps) s').1 ∧
      (log steps s).map (·.call) = (log (withoutTogglesOf labels steps) s').map (·.call) ∧
      heardApart labels (log steps s) =
        heardApart labels (log (withoutTogglesOf labels steps) s') := by
  -- The second run leaves out the toggles of the labels, so the two go on together but for these.
  induction steps generalizing s s' with
  | nil => exact ⟨h, rfl, rfl⟩
  | cons q rest ih =>
    obtain ⟨ready, request⟩ := q
    cases hrequest : toggledLabel? request with
    | none =>
      obtain ⟨hcall, hheard⟩ := h.requestLog ready hrequest
      obtain ⟨hrest, hcalls, hheards⟩ := ih (h.act ready hrequest)
      rw [withoutTogglesOf_cons_of_none labels hrequest]
      refine ⟨hrest, ?_, ?_⟩
      · rw [log, log, List.map_append, List.map_append, hcall, hcalls]
      · rw [log, log, heardApart_append, heardApart_append, hheard, hheards]
    | some label =>
      obtain rfl := eq_toggleMute_of_toggledLabel? hrequest
      rw [withoutTogglesOf_cons_toggle]
      cases hlabel : labels label with
      | true => exact ih (h.toggleMute_left hlabel)
      | false => exact ih (h.toggleMute label)

end

end SameBut

section
variable [NatCast τ] [Add τ] [Div τ] [BEq τ] [LE τ] [DecidableLE τ] [LT τ] [DecidableLT τ]

/-- **A label is muted after an odd number of toggles**, if it was not at first. -/
theorem mem_muted_run_iff (label : String) (steps : List (Bool × Request τ)) {s : Sequencer τ}
    (h : s.muted.Nodup) : label ∈ (run steps s).1.muted ↔
      (label ∈ s.muted ↔ Even (toggleCount label steps)) := by
  induction steps generalizing s with
  | nil => simp [run, toggleCount]
  | cons q rest ih =>
    obtain ⟨ready, request⟩ := q
    rw [run, andThen_fst]
    cases hrequest : toggledLabel? request with
    | none =>
      rw [ih (by rwa [muted_act ready hrequest]), muted_act ready hrequest, toggleCount, toggleCount,
        List.countP_cons_of_neg (by simp [hrequest])]
    | some other =>
      obtain rfl := eq_toggleMute_of_toggledLabel? hrequest
      rw [act, ih (nodup_muted_toggleMute other h), mem_muted_toggleMute h]
      by_cases hlabel : label = other
      · rw [if_pos hlabel, toggleCount, toggleCount,
          List.countP_cons_of_pos (by simp [hrequest, hlabel]), Nat.even_add_one]
        tauto
      · rw [if_neg hlabel, toggleCount, toggleCount,
          List.countP_cons_of_neg (by simp [hrequest, Ne.symm hlabel])]

/-- The states of a run between its requests are those of the run without toggles. -/
theorem map_muting_checkpoints (steps : List (Bool × Request τ)) (s : Sequencer τ) :
    (checkpoints steps s).map (muting []) = checkpoints (withoutToggles steps) (s.muting []) := by
  induction steps generalizing s with
  | nil => rfl
  | cons q rest ih =>
    obtain ⟨ready, request⟩ := q
    cases hrequest : toggledLabel? request with
    | none =>
      rw [withoutToggles, withoutTogglesOf_cons_of_none _ hrequest, ← withoutToggles, checkpoints,
        checkpoints, hrequest, if_neg (by simp), if_neg (by simp), List.map_cons, ih,
        (act_muting [] ready hrequest s).1]
    | some label =>
      obtain rfl := eq_toggleMute_of_toggledLabel? hrequest
      rw [withoutToggles, withoutTogglesOf_cons_toggle, if_pos rfl, ← withoutToggles, checkpoints]
      exact ih (s.toggleMute label)

/-- Without toggles, the same labels are muted all along. -/
theorem muted_of_mem_log {steps : List (Bool × Request τ)} {s : Sequencer τ} {c : LoggedCall τ}
    (hc : c ∈ log (withoutToggles steps) s) : c.muted = s.muted := by
  induction steps generalizing s with
  | nil => cases hc
  | cons q rest ih =>
    obtain ⟨ready, request⟩ := q
    cases hrequest : toggledLabel? request with
    | none =>
      rw [withoutToggles, withoutTogglesOf_cons_of_none _ hrequest, log] at hc
      rcases List.mem_append.1 hc with hc | hc
      · exact muted_of_mem_requestLog hc
      · rw [ih hc, muted_act ready hrequest]
    | some label =>
      obtain rfl := eq_toggleMute_of_toggledLabel? hrequest
      rw [withoutToggles, withoutTogglesOf_cons_toggle, if_pos rfl] at hc
      exact ih hc

/-- With nothing muted, everything is heard. -/
theorem calls_run_withoutToggles (steps : List (Bool × Request τ)) {s : Sequencer τ}
    (h : s.muted = []) :
    calls (run (withoutToggles steps) s).2 = (log (withoutToggles steps) s).map (·.call) := by
  rw [calls_run_eq_heard, heardCalls, List.filter_eq_self.2]
  intro c hc
  have hmuted : c.muted = [] := (muted_of_mem_log hc).trans h
  simp [LoggedCall.heard, hmuted]

/-- **Mute toggles are orthogonal.**  Two runs that differ in their toggles only are in the same
state after each of their other requests, but for the muted labels.  Of the calls that the run
without toggles makes, each makes those that are of no action or whose label was not muted then,
which it was after an odd number of toggles.  And if the two runs differ in the toggles of one label
only, they make the same calls but for those of that label. -/
theorem mute_toggles_are_orthogonal (timeline : Timeline τ) (registry : Registry)
    (steps steps' : List (Bool × Request τ)) (h : withoutToggles steps = withoutToggles steps') :
    let s := new timeline registry
    (checkpoints steps s).map (muting []) = (checkpoints steps' s).map (muting []) ∧
      calls (run (withoutToggles steps) s).2 = (log steps s).map (·.call) ∧
      calls (run steps s).2 = ((log steps s).filter LoggedCall.heard).map (·.call) ∧
      (∀ before q after, steps = before ++ q :: after →
        ∀ c ∈ (run before s).1.requestLog q.1 q.2, ∀ label,
          label ∈ c.muted ↔ Odd (toggleCount label before)) ∧
      ∀ label, withoutTogglesOf (· == label) steps = withoutTogglesOf (· == label) steps' →
        heardApart (· == label) (log steps s) = heardApart (· == label) (log steps' s) := by
  intro s
  -- Either run is compared with the one that has none of the toggles in question.
  have hsame : ∀ labels, SameBut labels s s := fun labels =>
    ⟨rfl, fun _ _ => Iff.rfl, List.nodup_nil, List.nodup_nil⟩
  refine ⟨?_, ?_, calls_run_eq_heard steps s, ?_, ?_⟩
  · rw [map_muting_checkpoints, map_muting_checkpoints, h]
  · rw [calls_run_withoutToggles steps rfl]
    exact ((hsame fun _ => true).run steps).2.1.symm
  · intro before q after _ c hc label
    rw [muted_of_mem_requestLog hc, mem_muted_run_iff label before List.nodup_nil,
      ← Nat.not_even_iff_odd]
    exact ⟨fun hiff heven => List.not_mem_nil (hiff.2 heven),
      fun hodd => ⟨fun hmem => absurd hmem List.not_mem_nil, fun heven => absurd heven hodd⟩⟩
  · intro label hlabel
    rw [((hsame _).run steps).2.2, ((hsame _).run steps').2.2, hlabel]

end

/-- The short piece, with both instruments muted on its first point and one of them from the second
point on.  The label of both still strikes the muted one. -/
theorem mute_toggles_are_orthogonal_shortPiece :
    let steps : List (Bool × Request ℚ) := [(true, .play 0), (true, .toggleMute "rr"),
      (true, .poll 0), (true, .toggleMute "rr"), (true, .toggleMute "r1"), (true, .poll 1)]
    let steps' : List (Bool × Request ℚ) := [(true, .toggleMute "rr"), (true, .play 0),
      (true, .poll 0), (true, .toggleMute "rr"), (true, .poll 1)]
    withoutToggles steps = withoutToggles steps' ∧
      (checkpoints steps duoSequencer).map (muting []) =
        (checkpoints steps' duoSequencer).map (muting []) ∧
      calls (run steps duoSequencer).2 =
        [.setLevel "r1" 0, .setLevel "r2" 0,
          .cancel 0, .release "r1" 0, .release "r2" 0, .release "r1" 0, .release "r2" 0,
          .release "r1" (3 / 8), .trigger "r1" 0 (3 / 8),
          .release "r2" (3 / 8), .trigger "r2" 0 (3 / 8),
          .cancel (1 / 2), .release "r1" (1 / 2), .release "r2" (1 / 2),
          .release "r1" (1 / 2), .release "r2" (1 / 2)] := by
  have h := mute_toggles_are_orthogonal (.ofScore shortPiece : Timeline ℚ) duo
    [(true, .play 0), (true, .toggleMute "rr"), (true, .poll 0), (true, .toggleMute "rr"),
      (true, .toggleMute "r1"), (true, .poll 1)]
    [(true, .toggleMute "rr"), (true, .play 0), (true, .poll 0), (true, .toggleMute "rr"),
      (true, .poll 1)] rfl
  refine ⟨rfl, h.1, h.2.2.1.trans ?_⟩
  cbv

end Gamelan.Sequencer
