import Gamelan.Ensemble.Instrument

namespace Gamelan

/-!
# The registry of instruments

Labels are looked up in a registry.  It is made from tables of atomic and composite instruments,
which must keep four rules; the first one broken is reported.

* `Registry.WellFormed` — the rules.
* `RegistryError` — how tables can break them.
* `Registry.ofTables` — the registry of tables, or what is wrong with them.
* `Registry.index`, `Registry.place?` — where each id stands.
* `Registry.get?`, `members`, `resolve` — the look-ups.
-/

/-- What is wrong with tables of instruments. -/
inductive RegistryError where
  | duplicateId (id : String)
  | unknownMember (composite member : String)
  | alphabetTooLong (id : String) (length max : Nat)
  | sampleCountMismatch (id : String) (alphabet samples : Nat)
deriving DecidableEq, Repr

/-- The wording of an error. -/
def RegistryError.message : RegistryError → String
  | duplicateId id => s!"instrument '{id}' is defined more than once"
  | unknownMember composite member =>
    s!"composite '{composite}' refers to unknown instrument '{member}'"
  | alphabetTooLong id length max =>
    s!"instrument '{id}' has {length} symbols but only {max} pitch slots exist"
  | sampleCountMismatch id alphabet samples =>
    s!"instrument '{id}' has {alphabet} symbols but {samples} samples"

namespace Registry

/-- The rules that the tables of a registry keep. -/
structure WellFormed (atomics : List Atomic) (composites : List Composite) : Prop where
  /-- No id is given twice. -/
  ids_nodup : (atomics.map (·.id) ++ composites.map (·.id)).Nodup
  /-- Every symbol has a pitch. -/
  alphabet_le : ∀ a ∈ atomics, a.alphabet.length ≤ Pitch.all.length
  /-- Every symbol has a sample. -/
  samples_eq : ∀ a ∈ atomics, a.alphabet.length = a.samples.length
  /-- The members of composite instruments are atomic ones. -/
  members_atomic : ∀ c ∈ composites, ∀ member ∈ c.members, member ∈ atomics.map (·.id)

end Registry

/-- The instruments that labels refer to. -/
structure Registry where
  atomics : List Atomic
  composites : List Composite
  wellFormed : Registry.WellFormed atomics composites

namespace Registry

/-! ### Checking tables -/

/-- The first id that is among the ones before it, or among `seen`. -/
def firstRepeated? (seen : List String) : List String → Option String
  | [] => none
  | id :: rest => if id ∈ seen then some id else firstRepeated? (id :: seen) rest

/-- What is wrong with an atomic instrument on its own. -/
def atomicFault? (a : Atomic) : Option RegistryError :=
  if Pitch.all.length < a.alphabet.length then
    some (.alphabetTooLong a.id a.alphabet.length Pitch.all.length)
  else if a.alphabet.length ≠ a.samples.length then
    some (.sampleCountMismatch a.id a.alphabet.length a.samples.length)
  else none

/-- The first member of a composite instrument that is no atomic one. -/
def compositeFault? (ids : List String) (c : Composite) : Option RegistryError :=
  (c.members.find? fun member => decide (member ∉ ids)).map (.unknownMember c.id)

/-- The first rule that tables break: repeated ids before atomic instruments before composite
ones. -/
def fault? (atomics : List Atomic) (composites : List Composite) : Option RegistryError :=
  match firstRepeated? [] (atomics.map (·.id) ++ composites.map (·.id)) with
  | some id => some (.duplicateId id)
  | none =>
    match atomics.findSome? atomicFault? with
    | some fault => some fault
    | none => composites.findSome? (compositeFault? (atomics.map (·.id)))

/-- Where no id is found to be repeated, none is. -/
theorem firstRepeated?_eq_none {seen ids : List String} (h : firstRepeated? seen ids = none) :
    ids.Nodup ∧ ∀ id ∈ ids, id ∉ seen := by
  induction ids generalizing seen with
  | nil => simp
  | cons id rest ih =>
    rw [firstRepeated?] at h
    split at h
    · cases h
    · next hid =>
      obtain ⟨hnodup, hseen⟩ := ih h
      refine ⟨List.nodup_cons.2 ⟨fun hmem => hseen id hmem (by simp), hnodup⟩, ?_⟩
      intro other hother
      rcases List.mem_cons.1 hother with rfl | hrest
      · exact hid
      · exact fun hmem => hseen other hrest (List.mem_cons_of_mem _ hmem)

/-- An atomic instrument without a fault has a symbol for each sample, and no more symbols than
there are pitches. -/
theorem atomicFault?_eq_none {a : Atomic} (h : atomicFault? a = none) :
    a.alphabet.length ≤ Pitch.all.length ∧ a.alphabet.length = a.samples.length := by
  unfold atomicFault? at h
  split at h
  · cases h
  · split at h
    · cases h
    · omega

/-- Tables without a fault keep the rules. -/
theorem wellFormed_of_fault? {atomics : List Atomic} {composites : List Composite}
    (h : fault? atomics composites = none) : WellFormed atomics composites := by
  unfold fault? at h
  split at h
  · cases h
  · next hids =>
    split at h
    · cases h
    · next hatomics =>
      rw [List.findSome?_eq_none_iff] at hatomics h
      refine ⟨(firstRepeated?_eq_none hids).1, fun a ha => (atomicFault?_eq_none (hatomics a ha)).1,
        fun a ha => (atomicFault?_eq_none (hatomics a ha)).2, fun c hc member hmember => ?_⟩
      have := h c hc
      simp only [compositeFault?, Option.map_eq_none_iff, List.find?_eq_none, decide_eq_true_eq,
        Decidable.not_not] at this
      exact this member hmember

/-- The registry of tables, or the first fault of the tables. -/
def ofTables (atomics : List Atomic) (composites : List Composite) : Except RegistryError Registry :=
  match h : fault? atomics composites with
  | some fault => .error fault
  | none => .ok ⟨atomics, composites, wellFormed_of_fault? h⟩

/-! ### Looking up -/

/-- All instruments, the atomic ones first. -/
def instruments (r : Registry) : List Instrument :=
  r.atomics.map .atomic ++ r.composites.map .composite

/-- The ids of all instruments. -/
def ids (r : Registry) : List String :=
  r.instruments.map (·.id)

/-- Ids by their places.  Entries are made in order, each ahead of those before it, so an id that comes
again would be found at its last place. -/
def index (ids : List String) : List (String × Nat) :=
  ids.zipIdx.reverse

/-- The place of a label among the instruments. -/
def place? (r : Registry) (label : String) : Option Nat :=
  (index r.ids).lookup label

/-- The instrument of a label. -/
def get? (r : Registry) (label : String) : Option Instrument :=
  (r.place? label).bind fun place => r.instruments[place]?

/-- Whether a label is known. -/
def contains (r : Registry) (label : String) : Bool :=
  (r.place? label).isSome

/-- The atomic instrument of a label. -/
def atomic? (r : Registry) (label : String) : Option Atomic :=
  match r.get? label with
  | some (.atomic a) => some a
  | _ => none

/-- The atomic instruments that a label stands for. -/
def members (r : Registry) (label : String) : List Atomic :=
  match r.get? label with
  | some (.atomic a) => [a]
  | some (.composite c) => c.members.filterMap r.atomic?
  | none => []

/-- The strokes of a symbol on a label: instruments and slots.  A member without the symbol has
none. -/
def resolve (r : Registry) (label : String) (symbol : Char) : List (String × Slot) :=
  (r.members label).filterMap fun a => (a.slot? symbol).map fun slot => (a.id, slot)

end Registry

end Gamelan
