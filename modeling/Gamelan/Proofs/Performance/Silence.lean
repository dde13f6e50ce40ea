import Gamelan.Proofs.Ensemble.Members
import Gamelan.Proofs.Performance.History
import Mathlib

namespace Gamelan.Sequencer

/-!
# Silence

Once a sequencer was asked to stop, nothing should go on sounding and nothing should be left to
sound.  A stop sees to it with a cut: the voices forget what they were to do later, and release
every instrument.

* `Silenced` — nothing that a sequence of calls has triggered is left at an instant.
* `settledBy_cut` — a cut leaves nothing of what came before it.
* `silenced_iff_silentFrom` — what a cut leaves that comes too late.
* `trigger_mem_callsOf`, `cancel_not_mem_callsOf` — which events trigger and cancel.
-/

variable {τ : Type}

/-- What stands in two lists on end stands in the first or in the second. -/
theorem cases_of_append_eq {α : Type} {log more before later : List α} {c : α}
    (h : log ++ more = before ++ c :: later) :
    (∃ later', log = before ++ c :: later' ∧ later = later' ++ more) ∨
      ∃ before', more = before' ++ c :: later := by
  rcases List.append_eq_append_iff.1 h with ⟨before', -, hmore⟩ | ⟨later', hlog, hlater⟩
  · exact .inr ⟨before', hmore⟩
  · cases later' with
    | nil => exact .inr ⟨[], hlater.symm⟩
    | cons c' later' =>
      rw [List.cons_append, List.cons.injEq] at hlater
      obtain ⟨rfl, rfl⟩ := hlater
      exact .inl ⟨later', hlog, rfl⟩

/-! ### What is left of a trigger -/

section
variable [LT τ]

/-- A later cancel makes the voices forget what they were to do at an instant. -/
def Cancelled (time : τ) (later : List (VoiceCall τ)) : Prop :=
  ∃ after, .cancel after ∈ later ∧ after < time

variable [LE τ]

/-- A later release lets an instrument fade by an instant. -/
def ReleasedBy (now : τ) (instrument : String) (later : List (VoiceCall τ)) : Prop :=
  ∃ time ≤ now, .release instrument time ∈ later

/-- Later calls leave nothing of a trigger at an instant: if it is still to come it is cancelled,
and if it is not cancelled its instrument is released. -/
structure Settled (now : τ) (instrument : String) (time : τ) (later : List (VoiceCall τ)) :
    Prop where
  cancelled : now < time → Cancelled time later
  released : ¬Cancelled time later → ReleasedBy now instrument later

/-- The triggers of a log are settled by what comes after them, in the log or in `more`. -/
def SettledBy (now : τ) (log more : List (VoiceCall τ)) : Prop :=
  ∀ before instrument slot time later, log = before ++ .trigger instrument slot time :: later →
    Settled now instrument time (later ++ more)

/-- Nothing is left of the triggers of a log at an instant. -/
def Silenced (now : τ) (log : List (VoiceCall τ)) : Prop :=
  ∀ before instrument slot time later, log = before ++ .trigger instrument slot time :: later →
    Settled now instrument time later

variable {now : τ} {log more : List (VoiceCall τ)}

/-- What is settled stays so, whatever comes later. -/
theorem Settled.append {instrument : String} {time : τ} {later : List (VoiceCall τ)}
    (h : Settled now instrument time later) (more : List (VoiceCall τ)) :
    Settled now instrument time (later ++ more) := by
  have hcancelled : Cancelled time later → Cancelled time (later ++ more) :=
    fun ⟨after, hmem, hlt⟩ => ⟨after, List.mem_append_left _ hmem, hlt⟩
  refine ⟨fun hlt => hcancelled (h.cancelled hlt), fun hnot => ?_⟩
  obtain ⟨t, hle, hmem⟩ := h.released fun hback => hnot (hcancelled hback)
  exact ⟨t, hle, List.mem_append_left _ hmem⟩

/-- What is settled stays settled. -/
theorem SettledBy.append (h : SettledBy now log more) (more' : List (VoiceCall τ)) :
    SettledBy now log (more ++ more') := by
  intro before instrument slot time later heq
  rw [← List.append_assoc]
  exact (h before instrument slot time later heq).append more'

/-- A log is silenced if each of its parts is, the first one possibly by the second. -/
theorem silenced_append :
    Silenced now (log ++ more) ↔ SettledBy now log more ∧ Silenced now more := by
  constructor
  · intro h
    refine ⟨fun before instrument slot time later heq => ?_,
      fun before instrument slot time later heq => ?_⟩
    · exact h before instrument slot time (later ++ more) (by rw [heq, List.append_assoc]; rfl)
    · exact h (log ++ before) instrument slot time later (by rw [heq, List.append_assoc])
  · rintro ⟨hlog, hmore⟩ before instrument slot time later heq
    rcases cases_of_append_eq heq with ⟨later', hlog', rfl⟩ | ⟨before', hmore'⟩
    · exact hlog before instrument slot time later' hlog'
    · exact hmore before' instrument slot time later hmore'

theorem settledBy_of_forall_ne
    (h : ∀ instrument slot time, .trigger instrument slot time ∉ log) :
    SettledBy now log more := by
  rintro before instrument slot time later rfl
  exact absurd (List.mem_append_right _ (List.mem_cons_self ..)) (h instrument slot time)

/-- A log is silenced just if its triggers are settled within it. -/
theorem settledBy_nil : SettledBy now log [] ↔ Silenced now log := by
  simp only [SettledBy, Silenced, List.append_nil]

/-- A log without triggers is silenced. -/
theorem silenced_of_forall_ne
    (h : ∀ instrument slot time, .trigger instrument slot time ∉ log) : Silenced now log :=
  settledBy_nil.1 (settledBy_of_forall_ne h)

end

/-! ### Cuts -/

/-- A sweep triggers nothing. -/
@[simp] theorem trigger_not_mem_sweep (registry : Registry) (instrument : String) (slot : Slot)
    (time x : τ) : .trigger instrument slot x ∉ sweep registry time := by
  simp [sweep, releases]

/-- A sweep cancels nothing. -/
@[simp] theorem cancel_not_mem_sweep (registry : Registry) (time after : τ) :
    .cancel after ∉ sweep registry time := by
  simp [sweep, releases]

/-- A cut triggers nothing. -/
@[simp] theorem trigger_not_mem_cut (registry : Registry) (instrument : String) (slot : Slot)
    (time x : τ) : .trigger instrument slot x ∉ cut registry time := by
  simp [cut]

/-- A sweep releases every atomic instrument. -/
theorem release_mem_sweep {registry : Registry} {a : Atomic} (ha : a ∈ registry.atomics)
    (time : τ) : .release a.id time ∈ sweep registry time := by
  obtain ⟨b, hb, hid⟩ := Registry.id_mem_members ha
  refine List.mem_flatMap.2 ⟨a.id, Registry.id_mem_ids ha, List.mem_map.2 ⟨b, hb, ?_⟩⟩
  rw [hid]

/-- Behind the first call of a cut, nothing cancels but what comes after the cut. -/
theorem cancel_not_mem_of_cut {registry : Registry} {start after : τ}
    {log before later : List (VoiceCall τ)} {c : VoiceCall τ} (hlog : ∀ after, .cancel after ∉ log)
    (hc : ∀ after, c ≠ .cancel after) (h : cut registry start ++ log = before ++ c :: later) :
    .cancel after ∉ later := by
  intro hmem
  cases before with
  | nil => exact hc start (List.cons.inj h).1.symm
  | cons c' before =>
    have htail : sweep registry start ++ log = before ++ c :: later := (List.cons.inj h).2
    have hmem' : .cancel after ∈ sweep registry start ++ log := by
      rw [htail]
      exact List.mem_append_right _ (List.mem_cons_of_mem _ hmem)
    rcases List.mem_append.1 hmem' with hmem' | hmem'
    · exact cancel_not_mem_sweep _ _ _ hmem'
    · exact hlog after hmem'

/-- **A cut settles every trigger** of an atomic instrument before it. -/
theorem settledBy_cut [Preorder τ] {registry : Registry} {now time : τ} {log : List (VoiceCall τ)}
    (hle : time ≤ now)
    (hlog : ∀ instrument slot x, .trigger instrument slot x ∈ log →
      instrument ∈ registry.atomics.map (·.id)) :
    SettledBy now log (cut registry time) := by
  rintro before instrument slot x later rfl
  obtain ⟨a, ha, rfl⟩ := List.mem_map.1
    (hlog instrument slot x (List.mem_append_right _ (List.mem_cons_self ..)))
  refine ⟨fun hlt => ?_, fun _ => ?_⟩
  · exact ⟨time, List.mem_append_right _ (List.mem_cons_self ..), lt_of_le_of_lt hle hlt⟩
  · exact ⟨time, hle, List.mem_append_right _ (List.mem_cons_of_mem _ (release_mem_sweep ha time))⟩

/-! ### Between two cuts -/

section
variable [LinearOrder τ]

/-- Of a log whose only cuts are at its start and at `time`, nothing is left at `now`: what falls
after `now` falls after `time` as well, and what does not is released by `now`. -/
def SilentFrom (now time : τ) (log : List (VoiceCall τ)) : Prop :=
  ∀ before instrument slot x later, log = before ++ .trigger instrument slot x :: later →
    (now < x → time < x) ∧ (x ≤ now → ReleasedBy now instrument later)

/-- Between two cuts, the later one alone makes the voices forget. -/
theorem cancelled_iff {registry : Registry} {start time x : τ}
    {log before later : List (VoiceCall τ)} {instrument : String} {slot : Slot}
    (hlog : ∀ after, .cancel after ∉ log)
    (h : cut registry start ++ (log ++ cut registry time) =
      before ++ .trigger instrument slot x :: later) :
    Cancelled x later ↔ time < x := by
  rw [← List.append_assoc] at h
  rcases cases_of_append_eq h with ⟨later', hfirst, rfl⟩ | ⟨before', hcut⟩
  · constructor
    · rintro ⟨after, hmem, hlt⟩
      rcases List.mem_append.1 hmem with hmem | hmem
      · exact absurd hmem (cancel_not_mem_of_cut hlog (by simp) hfirst)
      · rcases List.mem_cons.1 hmem with heq | hmem
        · cases heq
          exact hlt
        · exact absurd hmem (cancel_not_mem_sweep _ _ _)
    · intro hlt
      exact ⟨time, List.mem_append_right _ (List.mem_cons_self ..), hlt⟩
  · -- A cut has no triggers.
    have htrigger : .trigger instrument slot x ∈ cut registry time := by
      rw [hcut]
      exact List.mem_append_right _ (List.mem_cons_self ..)
    exact absurd htrigger (trigger_not_mem_cut _ _ _ _ _)

/-- What is left of a playback that ends after `now`. -/
theorem silenced_iff_silentFrom {registry : Registry} {start time now : τ}
    {log : List (VoiceCall τ)} (hlog : ∀ after, .cancel after ∉ log) (hlt : now < time) :
    Silenced now (cut registry start ++ (log ++ cut registry time)) ↔
      SilentFrom now time (cut registry start ++ (log ++ cut registry time)) := by
  constructor
  · intro h before instrument slot x later heq
    have hsettled := h before instrument slot x later heq
    have hcancelled := cancelled_iff hlog heq
    refine ⟨fun hx => hcancelled.1 (hsettled.cancelled hx), fun hx => hsettled.released ?_⟩
    rw [hcancelled]
    exact not_lt.2 (hx.trans hlt.le)
  · intro h before instrument slot x later heq
    obtain ⟨hafter, hreleased⟩ := h before instrument slot x later heq
    have hcancelled := cancelled_iff hlog heq
    refine ⟨fun hx => hcancelled.2 (hafter hx), fun hnot => hreleased ?_⟩
    rw [hcancelled] at hnot
    by_contra hx
    exact hnot (hafter (not_le.1 hx))

end

/-! ### The calls of events -/

/-- When an event cuts. -/
def Event.cutAt? : Event τ → Option τ
  | started now => some now
  | finished time => some time
  | stopped now => some now
  | _ => none

/-- To forget points cuts nothing. -/
theorem cutAt?_of_forgotten {F : List (Event τ)} (hF : ∀ e ∈ F, e = .forgotten) :
    ∀ e ∈ F, e.cutAt? = none := by
  intro e he
  rw [hF e he]
  rfl

/-- Each start cuts, so there is none where nothing is cut. -/
theorem ne_started_of_cutAt? {E : List (Event τ)} (hE : ∀ e ∈ E, e.cutAt? = none) :
    ∀ e ∈ E, ∀ now, e ≠ .started now := by
  rintro e he now rfl
  cases hE _ he

section
variable [NatCast τ] [Add τ] [Div τ]

/-- A point makes releases, and triggers of atomic instruments. -/
theorem Played.calls_cases {registry : Registry} {p : Played τ} {c : VoiceCall τ}
    (h : c ∈ p.calls registry) :
    (∃ instrument time, c = .release instrument time) ∨
      ∃ instrument slot time, c = .trigger instrument slot time ∧
        instrument ∈ registry.atomics.map (·.id) := by
  rw [Played.calls, calls_flatMap] at h
  obtain ⟨a, -, h⟩ := List.mem_flatMap.1 h
  rw [perform] at h
  split at h
  · cases h
  · split at h
    · rw [calls_map_call, strokes] at h
      split at h
      · obtain ⟨b, -, rfl⟩ := List.mem_map.1 h
        exact .inl ⟨_, _, rfl⟩
      · obtain ⟨⟨id, slot⟩, hresolve, h⟩ := List.mem_flatMap.1 h
        simp only [List.mem_cons, List.not_mem_nil, or_false] at h
        rcases h with rfl | rfl
        · exact .inl ⟨_, _, rfl⟩
        · exact .inr ⟨_, _, _, rfl, Registry.mem_atomics_of_mem_resolve hresolve⟩
    · cases h

/-- Only cuts cancel. -/
theorem cancel_not_mem_callsOf {registry : Registry} {H : List (Event τ)}
    (hH : ∀ e ∈ H, e.cutAt? = none) (after : τ) : .cancel after ∉ callsOf registry H := by
  intro h
  obtain ⟨e, he, h⟩ := List.mem_flatMap.1 h
  have hcut := hH e he
  cases e with
  | levelled => simp [Event.calls] at h
  | played p =>
    rcases Played.calls_cases h with ⟨_, _, heq⟩ | ⟨_, _, _, heq, _⟩
    · cases heq
    · cases heq
  | forgotten => cases h
  | started now => cases hcut
  | finished time => cases hcut
  | stopped now => cases hcut

/-- Only points trigger, and only atomic instruments. -/
theorem trigger_mem_callsOf {registry : Registry} {H : List (Event τ)} {instrument : String}
    {slot : Slot} {x : τ} (h : .trigger instrument slot x ∈ callsOf registry H) :
    (∃ p, .played p ∈ H) ∧ instrument ∈ registry.atomics.map (·.id) := by
  obtain ⟨e, he, h⟩ := List.mem_flatMap.1 h
  cases e with
  | played p =>
    rcases Played.calls_cases h with ⟨_, _, heq⟩ | ⟨_, _, _, heq, hmem⟩
    · cases heq
    · cases heq
      exact ⟨⟨p, he⟩, hmem⟩
  | levelled => simp [Event.calls] at h
  | started now => exact absurd h (trigger_not_mem_cut _ _ _ _ _)
  | finished time => exact absurd h (trigger_not_mem_cut _ _ _ _ _)
  | stopped now => exact absurd h (trigger_not_mem_cut _ _ _ _ _)
  | forgotten => cases h

theorem callsOf_of_forgotten (registry : Registry) {F : List (Event τ)}
    (hF : ∀ e ∈ F, e = .forgotten) : callsOf registry F = [] := by
  refine List.flatMap_eq_nil_iff.2 fun e he => ?_
  rw [hF e he]
  rfl

end

end Gamelan.Sequencer
