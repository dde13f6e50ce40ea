import Gamelan.Proofs.Performance.Silence
import Gamelan.Proofs.Sound.Fading
import Gamelan.Proofs.Sound.Sending

namespace Gamelan

/-!
# A cut reaches the mixer

A cut of the sequencer makes the mixer forget the events after a frame, and releases every voice at
that frame.

* `SampleBank.sweptVoices` — the voices that a sweep releases.
* `SampleBank.command?_cut` — the commands of a cut.
* `SampleBank.mem_sweptVoices` — no voice is left out.
-/

open Sequencer

namespace SampleBank

variable {τ σ : Type}

/-- The voices that a sweep releases, label by label. -/
def sweptVoices (b : SampleBank τ σ) (registry : Registry) : List Nat :=
  (registry.ids.flatMap registry.members).filterMap fun a => b.voice? a.id

variable [Gain σ]

/-- A sweep becomes a release of each voice that it reaches. -/
theorem command?_sweep (b : SampleBank τ σ) (registry : Registry) (time : τ) :
    (sweep registry time).filterMap b.command? =
      (b.sweptVoices registry).map (Command.release · (b.frameOf time)) := by
  have hsweep : sweep registry time =
      (registry.ids.flatMap registry.members).map fun a => .release a.id time := by
    rw [List.map_flatMap]
    rfl
  rw [hsweep, List.filterMap_map, sweptVoices, List.map_filterMap]
  rfl

/-- **The commands of a cut**: a cancellation, and releases at the same frame. -/
theorem command?_cut (b : SampleBank τ σ) (registry : Registry) (time : τ) :
    (cut registry time).filterMap b.command? =
      .cancel (b.frameOf time) ::
        (b.sweptVoices registry).map (Command.release · (b.frameOf time)) := by
  rw [← command?_sweep]
  rfl

/-! ### Every voice -/

omit [Gain σ] in
/-- Ids are given once, so an instrument has the voice of its place. -/
theorem voice?_getElem {b : SampleBank τ σ} {registry : Registry}
    (h : b.instruments = registry.atomics.map fun a => (a.id, a.samples)) {i : Nat}
    (hi : i < registry.atomics.length) : b.voice? registry.atomics[i].id = some i := by
  have hnodup : (registry.atomics.map (·.id)).Nodup :=
    (List.nodup_append.1 registry.wellFormed.ids_nodup).1
  have hlength : i < (registry.atomics.map fun a => (a.id, a.samples)).length := by
    rwa [List.length_map]
  rw [voice?, h, List.findIdx?_eq_some_iff_getElem]
  refine ⟨hlength, by simp, fun j hji => ?_⟩
  -- An earlier instrument has another id.
  have hj : j < registry.atomics.length := Nat.lt_trans hji hi
  have hne := List.pairwise_iff_getElem.1 hnodup j i (by rwa [List.length_map])
    (by rwa [List.length_map]) hji
  simpa using hne

omit [Gain σ] in
/-- **A sweep releases every voice.** -/
theorem mem_sweptVoices {b : SampleBank τ σ} {registry : Registry}
    (h : b.instruments = registry.atomics.map fun a => (a.id, a.samples)) {i : Nat}
    (hi : i < registry.atomics.length) : i ∈ b.sweptVoices registry := by
  have hmem : registry.atomics[i] ∈ registry.atomics := List.getElem_mem hi
  obtain ⟨a, ha, hid⟩ := Registry.id_mem_members hmem
  have hall : a ∈ registry.ids.flatMap registry.members :=
    List.mem_flatMap.2 ⟨_, Registry.id_mem_ids hmem, ha⟩
  refine List.mem_filterMap.2 ⟨a, hall, ?_⟩
  rw [hid]
  exact voice?_getElem h hi

end SampleBank

end Gamelan
