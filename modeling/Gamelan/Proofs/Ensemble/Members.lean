import Gamelan.Ensemble.Registry

namespace Gamelan.Registry

/-!
# What labels stand for

A label stands for atomic instruments of its registry, and the id of an atomic instrument stands for
that instrument.

* `lookup_index` — an index of ids that do not repeat has the place of each.
* `get?_eq_find?` — so a label is that of the first instrument with its id.
* `mem_atomics_of_mem_members` — the members of a label are atomic instruments.
* `id_mem_members` — an atomic instrument is a member of its own id.
-/

/-- Tables without a fault are the tables of their registry. -/
theorem tables_of_ofTables {atomics : List Atomic} {composites : List Composite}
    {registry : Registry} (h : ofTables atomics composites = .ok registry) :
    registry.atomics = atomics ∧ registry.composites = composites := by
  unfold ofTables at h
  split at h
  · cases h
  · cases h
    exact ⟨rfl, rfl⟩

/-! ### The index -/

/-- Among ids that are all different, each is found at its place, whichever end the search starts
from. -/
theorem lookup_reverse_zipIdx {ids : List String} (h : ids.Nodup) (first : Nat) (label : String) :
    (ids.zipIdx first).reverse.lookup label = (ids.idxOf? label).map (· + first) := by
  induction ids generalizing first with
  | nil => rfl
  | cons id rest ih =>
    obtain ⟨hid, hrest⟩ := List.nodup_cons.1 h
    rw [List.zipIdx_cons, List.reverse_cons, List.lookup_append, ih hrest, List.idxOf?_cons]
    by_cases hlabel : id = label
    · -- The id does not come again, so its own entry is the only one.
      have hnone : rest.idxOf? label = none := by
        rw [List.idxOf?_eq_none_iff, ← hlabel]
        exact hid
      simp [hnone, hlabel]
    · have hne : (label == id) = false := beq_false_of_ne (Ne.symm hlabel)
      cases hplace : rest.idxOf? label with
      | none => simp [hlabel, hne, List.lookup_cons]
      | some place => simp [hlabel, Nat.add_assoc, Nat.add_comm 1]

/-- An index of ids that do not repeat has the place of each. -/
theorem lookup_index {ids : List String} (h : ids.Nodup) (label : String) :
    (index ids).lookup label = ids.idxOf? label := by
  rw [index, lookup_reverse_zipIdx h]
  simp

-- Of an id that comes again, the index has the last place.
example : (index ["r1", "r2", "r1"]).lookup "r1" = some 2 := by decide

variable {r : Registry}

/-- The ids of a registry are those of its atomic instruments, then those of its composite ones. -/
theorem ids_eq (r : Registry) : r.ids = r.atomics.map (·.id) ++ r.composites.map (·.id) := by
  simp only [ids, instruments, List.map_append, List.map_map]
  rfl

/-- The index of a registry finds the first place of an id. -/
theorem place?_eq_idxOf? (r : Registry) (label : String) : r.place? label = r.ids.idxOf? label := by
  refine lookup_index ?_ label
  rw [ids_eq]
  exact r.wellFormed.ids_nodup

/-- **A label is that of the first instrument with its id**, and of no other. -/
theorem get?_eq_find? (r : Registry) (label : String) :
    r.get? label = r.instruments.find? (·.id == label) := by
  rw [get?, place?_eq_idxOf?, ids, List.idxOf?, List.findIdx?_map,
    List.find?_eq_bind_findIdx?_getElem?]
  rfl

/-- The labels that are known are the ids. -/
theorem contains_iff_mem_ids {label : String} : r.contains label = true ↔ label ∈ r.ids := by
  rw [contains, place?_eq_idxOf?, List.isSome_idxOf?]

/-! ### Members -/

/-- An atomic instrument that is looked up is one of the registry. -/
theorem mem_atomics_of_atomic? {label : String} {a : Atomic} (h : r.atomic? label = some a) :
    a ∈ r.atomics := by
  rw [atomic?, get?_eq_find?] at h
  split at h
  · next a' hget =>
    obtain rfl := Option.some.inj h
    have hmem : .atomic a' ∈ r.instruments := List.mem_of_find?_eq_some hget
    simpa [instruments] using hmem
  · cases h

/-- The members of a label are atomic instruments of the registry. -/
theorem mem_atomics_of_mem_members {label : String} {a : Atomic} (h : a ∈ r.members label) :
    a ∈ r.atomics := by
  rw [members, get?_eq_find?] at h
  split at h
  · next a' hget =>
    obtain rfl := List.mem_singleton.1 h
    have hmem : .atomic a ∈ r.instruments := List.mem_of_find?_eq_some hget
    simpa [instruments] using hmem
  · next c hget =>
    obtain ⟨member, -, hatomic⟩ := List.mem_filterMap.1 h
    exact mem_atomics_of_atomic? hatomic
  · cases h

/-- What a symbol on a label strikes are atomic instruments of the registry. -/
theorem mem_atomics_of_mem_resolve {label id : String} {symbol : Char} {slot : Slot}
    (h : (id, slot) ∈ r.resolve label symbol) : id ∈ r.atomics.map (·.id) := by
  obtain ⟨a, ha, hslot⟩ := List.mem_filterMap.1 h
  cases hs : a.slot? symbol with
  | none => simp [hs] at hslot
  | some slot' =>
    simp only [hs, Option.map_some, Option.some.injEq, Prod.mk.injEq] at hslot
    rw [← hslot.1]
    exact List.mem_map_of_mem (mem_atomics_of_mem_members ha)

/-- The atomic instruments are looked up before the composite ones. -/
theorem exists_get?_atomic {a : Atomic} (h : a ∈ r.atomics) :
    ∃ b, r.get? a.id = some (.atomic b) ∧ b.id = a.id := by
  have hfound : ((r.atomics.map Instrument.atomic).find? (·.id == a.id)).isSome := by
    rw [List.find?_isSome]
    exact ⟨.atomic a, List.mem_map_of_mem h, beq_self_eq_true _⟩
  obtain ⟨i, hi⟩ := Option.isSome_iff_exists.1 hfound
  obtain ⟨b, -, rfl⟩ := List.mem_map.1 (List.mem_of_find?_eq_some hi)
  refine ⟨b, ?_, ?_⟩
  · rw [get?_eq_find?, instruments, List.find?_append, hi, Option.some_or]
  · have hid := List.find?_some hi
    exact beq_iff_eq.1 hid

/-- An atomic instrument is a member of its own id. -/
theorem id_mem_members {a : Atomic} (h : a ∈ r.atomics) : ∃ b ∈ r.members a.id, b.id = a.id := by
  obtain ⟨b, hget, hid⟩ := exists_get?_atomic h
  refine ⟨b, ?_, hid⟩
  rw [members, hget]
  exact List.mem_singleton_self b

/-- The ids of the atomic instruments are among all ids. -/
theorem id_mem_ids {a : Atomic} (h : a ∈ r.atomics) : a.id ∈ r.ids := by
  have hmem : .atomic a ∈ r.instruments := List.mem_append_left _ (List.mem_map_of_mem h)
  exact List.mem_map_of_mem hmem

end Gamelan.Registry
