import Gamelan.Proofs.Ensemble.Members
import Mathlib.Data.List.Basic

namespace Gamelan.Registry

/-!
# Which tables make a registry

Tables make a registry just if they keep its rules.  Otherwise the first fault is reported: the ids are
looked through first, then the atomic instruments one by one, then the composite ones.  A registry that
is made answers for the tables it is made of.

* `FirstFault` — the first fault of some tables, rule by rule.
* `fault?_eq_none_iff`, `fault?_eq_some_iff` — it is what checking finds.
* `get?_eq`, `atomic?_eq_find?` — looking a label up is a search of the tables.
* `map_id_members` — a composite instrument has all of its members.
* `resolve_eq`, `valid_of_mem_resolve` — a symbol strikes the first place it has with each of them.
* `tables_make_registry` — all of it together.
-/

/-! ### The first fault -/

/-- Whether an atomic instrument has a pitch and a sample for each symbol. -/
def Fits (a : Atomic) : Prop :=
  a.alphabet.length ≤ 10 ∧ a.alphabet.length = a.samples.length

/-- The first fault of some tables.  No rule is looked at before the ones above it are kept. -/
inductive FirstFault (atomics : List Atomic) (composites : List Composite) : RegistryError → Prop where
  /-- An id comes again, the first one to do so. -/
  | repeated {before after : List String} {id : String}
      (hids : atomics.map (·.id) ++ composites.map (·.id) = before ++ id :: after)
      (hbefore : before.Nodup) (hid : id ∈ before) :
      FirstFault atomics composites (.duplicateId id)
  /-- An atomic instrument has more symbols than there are pitches. -/
  | tooLong {before after : List Atomic} {a : Atomic}
      (hids : (atomics.map (·.id) ++ composites.map (·.id)).Nodup)
      (hatomics : atomics = before ++ a :: after) (hbefore : ∀ b ∈ before, Fits b)
      (hlength : 10 < a.alphabet.length) :
      FirstFault atomics composites (.alphabetTooLong a.id a.alphabet.length 10)
  /-- An atomic instrument has too many samples, or too few. -/
  | miscounted {before after : List Atomic} {a : Atomic}
      (hids : (atomics.map (·.id) ++ composites.map (·.id)).Nodup)
      (hatomics : atomics = before ++ a :: after) (hbefore : ∀ b ∈ before, Fits b)
      (hlength : a.alphabet.length ≤ 10) (hsamples : a.alphabet.length ≠ a.samples.length) :
      FirstFault atomics composites (.sampleCountMismatch a.id a.alphabet.length a.samples.length)
  /-- A composite instrument has a member that is no atomic instrument, the first one of that kind. -/
  | stranger {before after : List Composite} {c : Composite} {known rest : List String}
      {member : String} (hids : (atomics.map (·.id) ++ composites.map (·.id)).Nodup)
      (hatomics : ∀ a ∈ atomics, Fits a) (hcomposites : composites = before ++ c :: after)
      (hbefore : ∀ b ∈ before, ∀ id ∈ b.members, id ∈ atomics.map (·.id))
      (hmembers : c.members = known ++ member :: rest)
      (hknown : ∀ id ∈ known, id ∈ atomics.map (·.id)) (hmember : member ∉ atomics.map (·.id)) :
      FirstFault atomics composites (.unknownMember c.id member)

/-- The first repeated id is one that has come before or was seen already, where everything before
it is new. -/
theorem firstRepeated?_eq_some_iff {seen ids : List String} {id : String} :
    firstRepeated? seen ids = some id ↔ ∃ before after, ids = before ++ id :: after ∧
      before.Nodup ∧ (∀ other ∈ before, other ∉ seen) ∧ (id ∈ before ∨ id ∈ seen) := by
  induction ids generalizing seen with
  | nil => simp [firstRepeated?]
  | cons first rest ih =>
    rw [firstRepeated?]
    split
    · next hseen =>
      constructor
      · rintro ⟨⟩
        exact ⟨[], rest, rfl, List.nodup_nil, by simp, .inr hseen⟩
      · rintro ⟨before, after, hids, -, hnew, -⟩
        cases before with
        | nil => rw [(List.cons.inj hids).1]
        | cons other before =>
          rw [(List.cons.inj hids).1] at hseen
          exact absurd hseen (hnew other List.mem_cons_self)
    · next hseen =>
      -- What is seen before the rest is seen, or it is the first id.
      rw [ih]
      constructor
      · rintro ⟨before, after, rfl, hnodup, hnew, hid⟩
        refine ⟨first :: before, after, rfl, List.nodup_cons.2 ⟨fun hfirst => ?_, hnodup⟩, ?_, ?_⟩
        · exact hnew first hfirst List.mem_cons_self
        · refine List.forall_mem_cons.2 ⟨hseen, fun other hother hmem => ?_⟩
          exact hnew other hother (List.mem_cons_of_mem _ hmem)
        · rw [List.mem_cons, or_left_comm, ← or_assoc] at hid
          rwa [List.mem_cons]
      · rintro ⟨before, after, hids, hnodup, hnew, hid⟩
        cases before with
        | nil =>
          obtain ⟨rfl, rfl⟩ := List.cons.inj hids
          exact absurd (hid.resolve_left List.not_mem_nil) hseen
        | cons other before =>
          obtain ⟨rfl, rfl⟩ := List.cons.inj hids
          obtain ⟨hfirst, hnodup⟩ := List.nodup_cons.1 hnodup
          refine ⟨before, after, rfl, hnodup, fun other hother hmem => ?_, ?_⟩
          · rcases List.mem_cons.1 hmem with rfl | hmem
            · exact hfirst hother
            · exact hnew other (List.mem_cons_of_mem _ hother) hmem
          · rwa [List.mem_cons, or_left_comm, ← or_assoc, ← List.mem_cons]

/-- No id comes again just if all are different. -/
theorem firstRepeated?_eq_none_iff {ids : List String} :
    firstRepeated? [] ids = none ↔ ids.Nodup := by
  refine ⟨fun h => (firstRepeated?_eq_none h).1, fun hnodup => ?_⟩
  cases hrepeated : firstRepeated? [] ids with
  | none => rfl
  | some id =>
    obtain ⟨before, after, rfl, -, -, hid⟩ := firstRepeated?_eq_some_iff.1 hrepeated
    have hbefore : id ∈ before := hid.resolve_right List.not_mem_nil
    exact absurd rfl ((List.nodup_append.1 hnodup).2.2 id hbefore id List.mem_cons_self)

/-- An atomic instrument has no fault just if its alphabet fits its samples and the pitches. -/
theorem atomicFault?_eq_none_iff {a : Atomic} : atomicFault? a = none ↔ Fits a := by
  refine ⟨atomicFault?_eq_none, fun h => ?_⟩
  rw [atomicFault?, Pitch.length_all, if_neg (Nat.not_lt.2 h.1), if_neg (not_not_intro h.2)]

/-- A composite instrument has no fault just if all its members are known. -/
theorem compositeFault?_eq_none_iff {ids : List String} {c : Composite} :
    compositeFault? ids c = none ↔ ∀ id ∈ c.members, id ∈ ids := by
  simp [compositeFault?]

/-- **Tables have no fault just if they keep the rules.** -/
theorem fault?_eq_none_iff {atomics : List Atomic} {composites : List Composite} :
    fault? atomics composites = none ↔ WellFormed atomics composites := by
  refine ⟨wellFormed_of_fault?, fun h => ?_⟩
  have hatomics : atomics.findSome? atomicFault? = none :=
    List.findSome?_eq_none_iff.2 fun a ha =>
      atomicFault?_eq_none_iff.2 ⟨h.alphabet_le a ha, h.samples_eq a ha⟩
  have hcomposites : composites.findSome? (compositeFault? (atomics.map (·.id))) = none :=
    List.findSome?_eq_none_iff.2 fun c hc => compositeFault?_eq_none_iff.2 (h.members_atomic c hc)
  simp only [fault?, firstRepeated?_eq_none_iff.2 h.ids_nodup, hatomics, hcomposites]

section
variable {atomics : List Atomic} {composites : List Composite} {fault : RegistryError}

/-- A fault that is found is the first one. -/
theorem firstFault_of_fault? (h : fault? atomics composites = some fault) :
    FirstFault atomics composites fault := by
  unfold fault? at h
  split at h
  · next id hrepeated =>
    obtain ⟨before, after, hids, hbefore, -, hid⟩ := firstRepeated?_eq_some_iff.1 hrepeated
    obtain rfl := Option.some.inj h
    exact .repeated hids hbefore (hid.resolve_right List.not_mem_nil)
  · next hids =>
    rw [firstRepeated?_eq_none_iff] at hids
    split at h
    · next found hfound =>
      obtain ⟨before, a, after, hatomics, hfault, hbefore⟩ := List.findSome?_eq_some_iff.1 hfound
      have hbefore : ∀ b ∈ before, Fits b := fun b hb => atomicFault?_eq_none_iff.1 (hbefore b hb)
      obtain rfl := Option.some.inj h
      -- An alphabet that is too long is reported before its samples are counted.
      unfold atomicFault? at hfault
      split at hfault
      · next hlength =>
        obtain rfl := Option.some.inj hfault
        exact .tooLong hids hatomics hbefore hlength
      · next hlength =>
        split at hfault
        · next hsamples =>
          obtain rfl := Option.some.inj hfault
          exact .miscounted hids hatomics hbefore (Nat.not_lt.1 hlength) hsamples
        · cases hfault
    · next hatomics =>
      rw [List.findSome?_eq_none_iff] at hatomics
      obtain ⟨before, c, after, hcomposites, hfault, hbefore⟩ := List.findSome?_eq_some_iff.1 h
      obtain ⟨member, hmember, rfl⟩ := Option.map_eq_some_iff.1 hfault
      obtain ⟨hstranger, known, rest, hmembers, hknown⟩ :=
        List.find?_eq_some_iff_append.1 hmember
      exact .stranger hids (fun a ha => atomicFault?_eq_none_iff.1 (hatomics a ha)) hcomposites
        (fun b hb => compositeFault?_eq_none_iff.1 (hbefore b hb)) hmembers
        (fun id hid => by simpa using hknown id hid) (of_decide_eq_true hstranger)

/-- The first fault is the one that is found. -/
theorem FirstFault.fault?_eq (h : FirstFault atomics composites fault) :
    fault? atomics composites = some fault := by
  -- A rule is looked at only if those before it hold, and for a record only if those before it keep
  -- it.
  cases h with
  | @repeated before after id hids hbefore hid =>
    have hrepeated : firstRepeated? [] (atomics.map (·.id) ++ composites.map (·.id)) = some id :=
      firstRepeated?_eq_some_iff.2 ⟨before, after, hids, hbefore, by simp, .inl hid⟩
    simp only [fault?, hrepeated]
  | @tooLong before after a hids hatomics hbefore hlength =>
    have hfault : atomicFault? a = some (.alphabetTooLong a.id a.alphabet.length 10) :=
      if_pos hlength
    have hfound := List.findSome?_eq_some_iff.2 ⟨before, a, after, hatomics, hfault,
      fun b hb => atomicFault?_eq_none_iff.2 (hbefore b hb)⟩
    simp only [fault?, firstRepeated?_eq_none_iff.2 hids, hfound]
  | @miscounted before after a hids hatomics hbefore hlength hsamples =>
    have hfault : atomicFault? a =
        some (.sampleCountMismatch a.id a.alphabet.length a.samples.length) := by
      rw [atomicFault?, Pitch.length_all, if_neg (Nat.not_lt.2 hlength), if_pos hsamples]
    have hfound := List.findSome?_eq_some_iff.2 ⟨before, a, after, hatomics, hfault,
      fun b hb => atomicFault?_eq_none_iff.2 (hbefore b hb)⟩
    simp only [fault?, firstRepeated?_eq_none_iff.2 hids, hfound]
  | @stranger before after c known rest member hids hatomics hcomposites hbefore hmembers hknown
      hmember =>
    have hnone : atomics.findSome? atomicFault? = none :=
      List.findSome?_eq_none_iff.2 fun a ha => atomicFault?_eq_none_iff.2 (hatomics a ha)
    have hfault : compositeFault? (atomics.map (·.id)) c = some (.unknownMember c.id member) := by
      refine Option.map_eq_some_iff.2 ⟨member, List.find?_eq_some_iff_append.2 ?_, rfl⟩
      exact ⟨decide_eq_true hmember, known, rest, hmembers,
        fun id hid => by simpa using hknown id hid⟩
    have hfound := List.findSome?_eq_some_iff.2 ⟨before, c, after, hcomposites, hfault,
      fun b hb => compositeFault?_eq_none_iff.2 (hbefore b hb)⟩
    simp only [fault?, firstRepeated?_eq_none_iff.2 hids, hnone, hfound]

/-- **Checking finds the first fault.** -/
theorem fault?_eq_some_iff :
    fault? atomics composites = some fault ↔ FirstFault atomics composites fault :=
  ⟨firstFault_of_fault?, FirstFault.fault?_eq⟩

/-- Tables without a fault make a registry. -/
theorem exists_ofTables_iff :
    (∃ r, ofTables atomics composites = .ok r) ↔ WellFormed atomics composites := by
  rw [← fault?_eq_none_iff]
  unfold ofTables
  split
  · next hfault => simp [hfault]
  · next hfault => simp [hfault]

/-- Tables with a fault are refused for it. -/
theorem ofTables_eq_error_iff :
    ofTables atomics composites = .error fault ↔ FirstFault atomics composites fault := by
  rw [← fault?_eq_some_iff]
  unfold ofTables
  split
  · next hfault => simp [hfault]
  · next hfault => simp [hfault]

end

/-! ### Looking up -/

section
variable {r : Registry}

/-- Where all ids are different, each entry is found by its own. -/
theorem find?_eq_some_of_nodup {α : Type} {id : α → String} {xs : List α} {x : α}
    (h : (xs.map id).Nodup) (hx : x ∈ xs) : xs.find? (id · == id x) = some x := by
  induction xs with
  | nil => cases hx
  | cons first rest ih =>
    obtain ⟨hfirst, hrest⟩ := List.nodup_cons.1 h
    rcases List.mem_cons.1 hx with rfl | hx
    · simp
    · have hne : (id first == id x) = false :=
        beq_false_of_ne fun heq => hfirst (heq ▸ List.mem_map_of_mem hx)
      rw [List.find?_cons_of_neg (by simp [hne]), ih hrest hx]

/-- **Looking a label up is a search of the tables**, of the atomic instruments first. -/
theorem get?_eq (r : Registry) (label : String) :
    r.get? label = ((r.atomics.find? (·.id == label)).map Instrument.atomic).or
      ((r.composites.find? (·.id == label)).map Instrument.composite) := by
  rw [get?_eq_find?, instruments, List.find?_append, List.find?_map, List.find?_map]
  rfl

/-- Looking up an atomic instrument finds the first one with its id. -/
theorem atomic?_eq_find? (r : Registry) (label : String) :
    r.atomic? label = r.atomics.find? (·.id == label) := by
  rw [atomic?, get?_eq]
  cases r.atomics.find? (·.id == label) with
  | some a => rfl
  | none => cases r.composites.find? (·.id == label) <;> rfl

/-- The id of an atomic instrument is its label. -/
theorem get?_atomic {a : Atomic} (h : a ∈ r.atomics) : r.get? a.id = some (.atomic a) := by
  have hnodup := (List.nodup_append.1 r.wellFormed.ids_nodup).1
  rw [get?_eq, find?_eq_some_of_nodup hnodup h]
  rfl

/-- The id of a composite instrument is its label. -/
theorem get?_composite {c : Composite} (h : c ∈ r.composites) :
    r.get? c.id = some (.composite c) := by
  obtain ⟨-, hnodup, hdisjoint⟩ := List.nodup_append.1 r.wellFormed.ids_nodup
  have hnone : r.atomics.find? (·.id == c.id) = none := by
    refine List.find?_eq_none.2 fun a ha heq => ?_
    exact hdisjoint a.id (List.mem_map_of_mem ha) c.id (List.mem_map_of_mem h) (eq_of_beq heq)
  rw [get?_eq, hnone, find?_eq_some_of_nodup hnodup h]
  rfl

/-- A label that is no id stands for nothing. -/
theorem members_of_notMem {label : String} (h : label ∉ r.ids) : r.members label = [] := by
  have hnone : r.get? label = none := by
    rw [get?_eq_find?, List.find?_eq_none]
    exact fun instrument hmem heq => h (eq_of_beq heq ▸ List.mem_map_of_mem hmem)
  rw [members, hnone]

/-- An atomic instrument is its own only member. -/
theorem members_atomic {a : Atomic} (h : a ∈ r.atomics) : r.members a.id = [a] := by
  rw [members, get?_atomic h]

/-- **A composite instrument stands for its members**, in order and with none left out. -/
theorem map_id_members {c : Composite} (h : c ∈ r.composites) :
    (r.members c.id).map (·.id) = c.members := by
  have hmembers : ∀ id ∈ c.members, (r.atomic? id).map (·.id) = some id := by
    intro id hid
    obtain ⟨a, ha, rfl⟩ := List.mem_map.1 (r.wellFormed.members_atomic c h id hid)
    rw [atomic?, get?_atomic ha]
    rfl
  rw [members, get?_composite h]
  rw [List.map_filterMap, List.filterMap_congr hmembers, List.filterMap_some]

/-- **A symbol strikes each member at the first place it has there**, if it has one. -/
theorem resolve_eq (r : Registry) (label : String) (symbol : Char) :
    r.resolve label symbol = (r.members label).flatMap fun a =>
      ((a.alphabet.idxOf? symbol).map fun slot => (a.id, slot)).toList := by
  rw [resolve, List.filterMap_eq_flatMap_toList]
  rfl

/-- What a symbol strikes has a pitch and a sample. -/
theorem valid_of_mem_resolve {label id : String} {symbol : Char} {slot : Slot}
    (h : (id, slot) ∈ r.resolve label symbol) :
    ∃ a ∈ r.members label, a.id = id ∧ a.alphabet[slot]? = some symbol ∧
      (Pitch.ofSlot? slot).isSome ∧ slot < a.samples.length := by
  obtain ⟨a, ha, hslot⟩ := List.mem_filterMap.1 h
  obtain ⟨slot', hfound, heq⟩ := Option.map_eq_some_iff.1 hslot
  obtain ⟨rfl, rfl⟩ := Prod.mk.inj heq
  obtain ⟨hlt, hsymbol, -⟩ := List.findIdx?_eq_some_iff_getElem.1 hfound
  have hatomic := mem_atomics_of_mem_members ha
  have hpitch := r.wellFormed.alphabet_le a hatomic
  refine ⟨a, ha, rfl, ?_, ?_, ?_⟩
  · rw [List.getElem?_eq_getElem hlt, eq_of_beq hsymbol]
  · rw [Pitch.ofSlot?, List.getElem?_eq_getElem (Nat.lt_of_lt_of_le hlt hpitch)]
    rfl
  · rwa [← r.wellFormed.samples_eq a hatomic]

end

/-! ### Tables and their registry -/

/-- **Tables make a registry just if they keep its rules, and it answers for them.**  The rules are that
all ids are different, that every symbol has a pitch and a sample, and that the members of composite
instruments are atomic ones; tables that break one are refused for their first fault.  A registry finds
for every label what a search of its tables finds.  A label stands for its instrument, or for all the
members of it in order, and a symbol strikes each of them at the first place that the symbol has in its
alphabet, where there are a pitch and a sample. -/
theorem tables_make_registry (atomics : List Atomic) (composites : List Composite) :
    let ids := atomics.map (·.id) ++ composites.map (·.id)
    ((∃ r, ofTables atomics composites = .ok r) ↔ ids.Nodup ∧
      (∀ a ∈ atomics, a.alphabet.length ≤ 10 ∧ a.alphabet.length = a.samples.length) ∧
      ∀ c ∈ composites, ∀ member ∈ c.members, ∃ a ∈ atomics, a.id = member) ∧
    (∀ fault, ofTables atomics composites = .error fault ↔ FirstFault atomics composites fault) ∧
    ∀ r, ofTables atomics composites = .ok r →
      (∀ label,
        r.get? label = ((atomics.find? (·.id == label)).map Instrument.atomic).or
          ((composites.find? (·.id == label)).map Instrument.composite) ∧
        (r.contains label = true ↔ label ∈ ids) ∧
        r.atomic? label = atomics.find? (·.id == label)) ∧
      (∀ a ∈ atomics, r.members a.id = [a]) ∧
      (∀ c ∈ composites, (r.members c.id).map (·.id) = c.members ∧
        ∀ a ∈ r.members c.id, a ∈ atomics) ∧
      (∀ label, label ∉ ids → r.members label = []) ∧
      ∀ label symbol,
        r.resolve label symbol = (r.members label).flatMap (fun a =>
          ((a.alphabet.idxOf? symbol).map fun slot => (a.id, slot)).toList) ∧
        ∀ id slot, (id, slot) ∈ r.resolve label symbol →
          ∃ a ∈ atomics, a.id = id ∧ a.alphabet[slot]? = some symbol ∧
            (Pitch.ofSlot? slot).isSome ∧ slot < a.samples.length := by
  intro ids
  refine ⟨?_, fun fault => ofTables_eq_error_iff, fun r hr => ?_⟩
  -- The rules are those that the registry keeps about itself.
  · rw [exists_ofTables_iff]
    constructor
    · intro h
      exact ⟨h.ids_nodup, fun a ha => ⟨h.alphabet_le a ha, h.samples_eq a ha⟩,
        fun c hc member hmember => List.mem_map.1 (h.members_atomic c hc member hmember)⟩
    · rintro ⟨hids, hatomics, hcomposites⟩
      exact ⟨hids, fun a ha => (hatomics a ha).1, fun a ha => (hatomics a ha).2,
        fun c hc member hmember => List.mem_map.2 (hcomposites c hc member hmember)⟩
  · obtain ⟨rfl, rfl⟩ := tables_of_ofTables hr
    refine ⟨fun label => ⟨get?_eq r label, ?_, atomic?_eq_find? r label⟩,
      fun a ha => members_atomic ha,
      fun c hc => ⟨map_id_members hc, fun a ha => mem_atomics_of_mem_members ha⟩,
      fun label hlabel => members_of_notMem (by rwa [ids_eq]),
      fun label symbol => ⟨resolve_eq r label symbol, fun id slot h => ?_⟩⟩
    · rw [contains_iff_mem_ids, ids_eq]
    · obtain ⟨a, ha, hid, hvalid⟩ := valid_of_mem_resolve h
      exact ⟨a, mem_atomics_of_mem_members ha, hid, hvalid⟩

/-- Two instruments that share a symbol. -/
def sharers : List Atomic :=
  [⟨"x", ['a'], ["x.wav"], 0⟩, ⟨"y", ['b', 'a'], ["y1.wav", "y2.wav"], 0⟩]

/-- With a label for both they make a registry; with one that is taken, and stands for nobody, they are
refused for the label. -/
theorem tables_make_registry_sharers :
    (∃ r, ofTables sharers [⟨"xy", ["x", "y"]⟩] = .ok r ∧
      (r.members "xy").map (·.id) = ["x", "y"] ∧ r.atomic? "xy" = none ∧
      r.resolve "y" 'a' = [("y", 1)]) ∧
    ofTables sharers [⟨"x", ["z"]⟩] = .error (.duplicateId "x") := by
  have hrules : (["x", "y", "xy"] : List String).Nodup ∧
      (∀ a ∈ sharers, a.alphabet.length ≤ 10 ∧ a.alphabet.length = a.samples.length) ∧
      ∀ c ∈ ([⟨"xy", ["x", "y"]⟩] : List Composite), ∀ member ∈ c.members,
        ∃ a ∈ sharers, a.id = member := by
    refine ⟨by decide, by decide, ?_⟩
    simp [sharers]
  obtain ⟨hmakes, -, hanswers⟩ := tables_make_registry sharers [⟨"xy", ["x", "y"]⟩]
  obtain ⟨r, hr⟩ := hmakes.2 hrules
  obtain ⟨hfound, hatomic, hcomposite, -, hresolve⟩ := hanswers r hr
  refine ⟨⟨r, hr, (hcomposite ⟨"xy", ["x", "y"]⟩ (by simp)).1, ?_, ?_⟩, ?_⟩
  · rw [(hfound "xy").2.2]
    rfl
  · have hy : r.members "y" = _ := hatomic ⟨"y", ['b', 'a'], ["y1.wav", "y2.wav"], 0⟩ (by simp [sharers])
    rw [(hresolve "y" 'a').1, hy]
    rfl
  · refine ((tables_make_registry sharers [⟨"x", ["z"]⟩]).2.1 _).2 ?_
    exact @FirstFault.repeated _ _ ["x", "y"] [] "x" rfl (by decide) (by decide)

end Gamelan.Registry
