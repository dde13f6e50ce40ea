import Gamelan.Proofs.Sound.Stock

namespace Gamelan

/-!
# Sounds that are shared

Slots with the same file name share its sound, and slots without one share the tone of their place.
No slot can tell: it has the sound that it would have if it were alone.

* `Loader.soundOf` — the sound of a slot alone.
* `Loader.Agrees` — what is kept is what loading it again would give.
* `Loader.Tries` — what becomes of some names: each that is new is tried once.
* `SoundSource.tries` — the names that are tried for some instruments.
* `shared_sounds_are_own` — the sounds of a bank that was primed.
-/

/-- No item of a list is left twice when repetitions are erased. -/
theorem nodup_eraseDups {α : Type} [DecidableEq α] (l : List α) : l.eraseDups.Nodup := by
  induction hlength : l.length using Nat.strongRecOn generalizing l with
  | _ length ih =>
    cases l with
    | nil => exact List.nodup_nil
    | cons a l =>
      -- What is looked at next is not the tail but what a filter leaves of it.
      have hle : (l.filter fun b => !b == a).length ≤ l.length := List.length_filter_le _ _
      rw [List.length_cons] at hlength
      rw [List.eraseDups_cons, List.nodup_cons, List.mem_eraseDups]
      exact ⟨by simp, ih _ (by omega) _ rfl⟩

/-! ### What is kept -/

section
variable {β ν : Type}

/-- The names whose files were tried. -/
def Loading.tried (l : Loading β) : List String :=
  l.missing ++ l.files.map (·.1)

/-- The names that were tried are those with a file, and those whose file is missing. -/
theorem Loading.mem_tried_iff {l : Loading β} {name : String} :
    name ∈ l.tried ↔ name ∈ l.missing ∨ (l.files.lookup name).isSome := by
  have hfiles : (l.files.lookup name).isSome ↔ name ∈ l.files.map (·.1) := by
    rw [List.lookup_isSome_iff, List.mem_map]
    constructor
    · rintro ⟨entry, hentry, hname⟩
      exact ⟨entry, hentry, (beq_iff_eq.mp hname).symm⟩
    · rintro ⟨entry, hentry, rfl⟩
      exact ⟨entry, hentry, beq_self_eq_true _⟩
  rw [hfiles, tried, List.mem_append]

namespace Loader

variable {loader : Loader β ν} {l : Loading β}

/-- The sound of a slot with a file name, whatever else is loaded. -/
def soundOf (loader : Loader β ν) (slot : Slot) (name : String) : β :=
  (loader.load name).1.getD (loader.tone slot)

/-- Whether what is kept is what a loader would give again. -/
structure Agrees (loader : Loader β ν) (l : Loading β) : Prop where
  files : ∀ name sound, l.files.lookup name = some sound → (loader.load name).1 = some sound
  missing : ∀ name ∈ l.missing, (loader.load name).1 = none
  tones : ∀ slot tone, l.tones.lookup slot = some tone → tone = loader.tone slot

/-- Nothing is kept at first. -/
theorem agrees_none (loader : Loader β ν) : loader.Agrees .none where
  files _ _ h := by cases h
  missing _ h := by cases h
  tones _ _ h := by cases h

/-- What becomes of some names, and the notes on the way: each one that was not tried before is tried
once, in the order in which they come first. -/
structure Tries (loader : Loader β ν) (names : List String) (before after : Loading β)
    (notes : List ν) : Prop where
  agrees : loader.Agrees after
  mem_tried_iff : ∀ name, name ∈ after.tried ↔ name ∈ before.tried ∨ name ∈ names
  notes_eq : notes = (names.filter (· ∉ before.tried)).eraseDups.flatMap
    fun name => (loader.load name).2

theorem Tries.nil (h : loader.Agrees l) : loader.Tries [] l l [] where
  agrees := h
  mem_tried_iff name := by simp
  notes_eq := rfl

/-- Names are tried one after the other. -/
theorem Tries.append {names more : List String} {before between after : Loading β}
    {notes later : List ν} (hfirst : loader.Tries names before between notes)
    (hsecond : loader.Tries more between after later) :
    loader.Tries (names ++ more) before after (notes ++ later) where
  agrees := hsecond.agrees
  mem_tried_iff name := by
    rw [hsecond.mem_tried_iff, hfirst.mem_tried_iff, List.mem_append, or_assoc]
  notes_eq := by
    -- The names that are new for the second part are new, and none of the first part.
    have hnew : (more.filter (· ∉ before.tried)).removeAll (names.filter (· ∉ before.tried)) =
        more.filter (· ∉ between.tried) := by
      rw [List.removeAll, List.filter_filter]
      refine List.filter_congr fun name _ => ?_
      have hbetween := hfirst.mem_tried_iff name
      by_cases hbefore : name ∈ before.tried <;> simp [hbetween, hbefore]
    rw [hfirst.notes_eq, hsecond.notes_eq, List.filter_append, List.eraseDups_append, hnew,
      List.flatMap_append]

/-! ### One slot -/

/-- A tone is what a loader gives for the slot, and no file is tried for it. -/
theorem toneOf_spec (h : loader.Agrees l) (slot : Slot) :
    (loader.toneOf slot l).1 = loader.tone slot ∧ loader.Agrees (loader.toneOf slot l).2 ∧
      (loader.toneOf slot l).2.tried = l.tried := by
  unfold toneOf
  split
  · next tone htone => exact ⟨h.tones slot tone htone, h, rfl⟩
  · refine ⟨rfl, { h with tones := fun other tone hother => ?_ }, rfl⟩
    rw [List.lookup_cons] at hother
    split at hother
    · next heq =>
      rw [beq_iff_eq.mp heq]
      exact (Option.some.inj hother).symm
    · exact h.tones other tone hother

/-- A name that was tried is not tried again. -/
theorem Tries.of_tried {name : String} {after : Loading β} (hname : name ∈ l.tried)
    (hagrees : loader.Agrees after) (htried : after.tried = l.tried) :
    loader.Tries [name] l after [] where
  agrees := hagrees
  mem_tried_iff other := by
    rw [htried, List.mem_singleton]
    refine ⟨.inl, fun h => h.elim id ?_⟩
    rintro rfl
    exact hname
  notes_eq := by simp [hname]

/-- A name that was not tried is tried now. -/
theorem Tries.of_new {name : String} {after : Loading β} (hname : name ∉ l.tried)
    (hagrees : loader.Agrees after)
    (htried : ∀ other, other ∈ after.tried ↔ other ∈ l.tried ∨ other = name) :
    loader.Tries [name] l after (loader.load name).2 where
  agrees := hagrees
  mem_tried_iff other := by rw [htried, List.mem_singleton]
  notes_eq := by simp [hname, List.eraseDups_cons]

/-- **A slot has its own sound**, from its file if there is one, and otherwise its tone. -/
theorem loadSlot_spec (h : loader.Agrees l) (slot : Slot) (name : String) :
    (loader.loadSlot slot name l).1 = loader.soundOf slot name ∧
      loader.Tries [name] l (loader.loadSlot slot name l).2.1 (loader.loadSlot slot name l).2.2 := by
  unfold loadSlot
  split
  · next sound hsound =>
    have htried : name ∈ l.tried := Loading.mem_tried_iff.mpr (.inr (by rw [hsound]; rfl))
    exact ⟨by rw [soundOf, h.files name sound hsound, Option.getD_some], .of_tried htried h rfl⟩
  · next hnone =>
    split
    · next hmissing =>
      have hmissing : name ∈ l.missing := List.contains_iff_mem.mp hmissing
      have htried : name ∈ l.tried := Loading.mem_tried_iff.mpr (.inl hmissing)
      -- The tone is that of this slot, not of the slot that found the file missing.
      obtain ⟨htone, hagrees, hsame⟩ := toneOf_spec h slot
      refine ⟨?_, .of_tried htried hagrees hsame⟩
      rw [soundOf, h.missing name hmissing, Option.getD_none]
      exact htone
    · next hmissing =>
      have hmissing : name ∉ l.missing := fun hmem => hmissing (List.contains_iff_mem.mpr hmem)
      have htried : name ∉ l.tried := by
        rw [Loading.mem_tried_iff, hnone]
        simpa using hmissing
      split
      · next sound notes hload =>
        have hnotes : notes = (loader.load name).2 := by rw [hload]
        rw [soundOf, hload]
        refine ⟨rfl, hnotes ▸ .of_new htried { h with files := fun other found hother => ?_ } ?_⟩
        · rw [List.lookup_cons] at hother
          split at hother
          · next heq =>
            rw [beq_iff_eq.mp heq, hload]
            exact hother
          · exact h.files other found hother
        · intro other
          simp [Loading.tried, or_comm, or_left_comm]
      · next notes hload =>
        have hnotes : notes = (loader.load name).2 := by rw [hload]
        have hagrees : loader.Agrees { l with missing := name :: l.missing } :=
          { h with missing := List.forall_mem_cons.mpr ⟨by rw [hload], h.missing⟩ }
        obtain ⟨htone, hagrees, hsame⟩ := toneOf_spec hagrees slot
        rw [soundOf, hload]
        refine ⟨htone, hnotes ▸ .of_new htried hagrees fun other => ?_⟩
        rw [hsame]
        simp [Loading.tried, or_comm]

/-! ### All slots -/

/-- Every slot has its own sound, and no name is tried twice. -/
theorem loadSlots_spec (h : loader.Agrees l) (slot : Slot) (names : List String) :
    (loader.loadSlots slot names l).1 = names.mapIdx (fun i => loader.soundOf (slot + i)) ∧
      loader.Tries names l (loader.loadSlots slot names l).2.1
        (loader.loadSlots slot names l).2.2 := by
  induction names generalizing slot l with
  | nil => exact ⟨rfl, .nil h⟩
  | cons name rest ih =>
    obtain ⟨hsound, htries⟩ := loadSlot_spec h slot name
    obtain ⟨hsounds, hrest⟩ := ih htries.agrees (slot + 1)
    refine ⟨?_, htries.append hrest⟩
    show (loader.loadSlot slot name l).1 ::
      (loader.loadSlots (slot + 1) rest (loader.loadSlot slot name l).2.1).1 = _
    rw [hsound, hsounds, List.mapIdx_cons]
    simp only [Nat.add_zero, Nat.add_assoc, Nat.add_comm 1]

/-- Every slot of every instrument has its own sound, and no name is tried twice. -/
theorem loadInstruments_spec (h : loader.Agrees l) (layout : List (List String)) :
    (loader.loadInstruments layout l).1 = layout.map (·.mapIdx loader.soundOf) ∧
      loader.Tries layout.flatten l (loader.loadInstruments layout l).2.1
        (loader.loadInstruments layout l).2.2 := by
  induction layout generalizing l with
  | nil => exact ⟨rfl, .nil h⟩
  | cons names rest ih =>
    obtain ⟨hsounds, htries⟩ := loadSlots_spec h 0 names
    obtain ⟨hothers, hrest⟩ := ih htries.agrees
    refine ⟨?_, htries.append hrest⟩
    show (loader.loadSlots 0 names l).1 ::
      (loader.loadInstruments rest (loader.loadSlots 0 names l).2.1).1 = _
    rw [hsounds, hothers, List.map_cons]
    simp only [Nat.zero_add]

end Loader

end

namespace SoundSource

variable {β : Type}

/-- The names that are tried when some instruments are loaded, in order: those that a loader meets
which notes each try. -/
def tries (source : SoundSource β) (layout : List (List String)) : List String :=
  let noting : Loader β String := ⟨fun name => ((source.load name).1, [name]), source.tone⟩
  (noting.loadInstruments layout .none).2.2

/-- **Every name is tried once**, when it comes first. -/
theorem tries_eq (source : SoundSource β) (layout : List (List String)) :
    source.tries layout = layout.flatten.eraseDups := by
  rw [tries, (Loader.loadInstruments_spec (Loader.agrees_none _) layout).2.notes_eq]
  simp [Loading.tried, Loading.none, List.filter_eq_self.mpr]

end SoundSource

/-! ### A bank that was primed -/

namespace SampleBank

variable {τ σ : Type}

/-- Every slot of an instrument has its own sound. -/
theorem buffer?_stocked {registry : Registry} {i : Nat} (hi : i < registry.atomics.length)
    {slot : Slot} (hslot : slot < registry.atomics[i].samples.length) (frameOf : τ → Nat)
    (source : SoundSource (Array σ)) (queue : CommandQueue σ) :
    (stocked registry frameOf source queue).buffer? registry.atomics[i].id slot =
      some (source.loader.soundOf slot registry.atomics[i].samples[slot]) := by
  have hstock := stocks_stocked registry frameOf source queue
  have hloaded : (stocked registry frameOf source queue).loaded =
      (registry.atomics.map (·.samples)).map (·.mapIdx source.loader.soundOf) := by
    have hlayout : (registry.atomics.map fun a => (a.id, a.samples)).map (·.2) =
        registry.atomics.map (·.samples) := by rw [List.map_map]; rfl
    rw [← (Loader.loadInstruments_spec (Loader.agrees_none source.loader) _).1, ← hlayout]
    rfl
  rw [buffer?, voice?_getElem hstock.instruments_eq hi, Option.bind_some, hloaded,
    List.getElem?_map, List.getElem?_map, List.getElem?_eq_getElem hi, Option.map_some,
    Option.map_some, Option.bind_some, List.getElem?_mapIdx, List.getElem?_eq_getElem hslot]
  rfl

variable [Gain σ]

/-- A bank that is ready keeps its sounds, whatever it is asked for. -/
theorem carryOutAll_of_ready {b : SampleBank τ σ} (h : b.ready = true) (effects : List (Effect τ)) :
    ∃ queue dropped, (Player.carryOutAll b effects).1 =
      { b with queue := queue, dropped := dropped } := by
  induction effects generalizing b with
  | nil => exact ⟨b.queue, b.dropped, rfl⟩
  | cons effect rest ih =>
    cases effect with
    | prime =>
      have hsame : b.prime.1 = b := prime_of_ready h
      obtain ⟨queue, dropped, hrest⟩ := ih (b := b.prime.1) (by rwa [hsame])
      rw [hsame] at hrest
      exact ⟨queue, dropped, (congrArg (fun b => (Player.carryOutAll b rest).1) hsame).trans hrest⟩
    | call c =>
      obtain ⟨queue, dropped, hcall⟩ := handle_frame b c
      obtain ⟨queue', dropped', hrest⟩ := ih (b := (b.handle c).1) (by rwa [hcall])
      exact ⟨queue', dropped', hrest.trans (by rw [hcall])⟩
    | notice n => exact ih h

/-- A bank that is primed has its sounds, whatever else it is asked for. -/
theorem carryOutAll_of_prime (b : SampleBank τ σ) {effects : List (Effect τ)}
    (h : Effect.prime ∈ effects) :
    ∃ queue dropped, (Player.carryOutAll b effects).1 =
      { b.prime.1 with queue := queue, dropped := dropped } := by
  induction effects generalizing b with
  | nil => cases h
  | cons effect rest ih =>
    cases effect with
    | prime => exact carryOutAll_of_ready (ready_prime b) rest
    | call c =>
      obtain ⟨queue, dropped, hcall⟩ := handle_frame b c
      obtain ⟨queue', dropped', hrest⟩ := ih (b.handle c).1 (by simpa using h)
      rw [hcall, prime_frame] at hrest
      exact ⟨queue', dropped', (congrArg (fun b => (Player.carryOutAll b rest).1) hcall).trans hrest⟩
    | notice n => exact ih b (by simpa using h)

end SampleBank

/-- The sample of a file name, if there is a directory and the file can be loaded. -/
def sampleOf? (files : FileReader) (directory? : Option String) (rate : Nat) (name : String) :
    Option Sample :=
  directory?.bind fun directory =>
    (Sample.load (pathIn directory name) (files (pathIn directory name)) rate).toOption

/-- The standard sound of a slot is its sample, and otherwise the tone of its pitch. -/
theorem soundOf_standardSounds (files : FileReader) (directory? : Option String) (rate : Nat)
    (seed : UInt64) (slot : Slot) (name : String) :
    (standardSounds files directory? rate seed).loader.soundOf slot name =
      ((sampleOf? files directory? rate name).map (·.points)).getD
        ((standardSounds files directory? rate seed).tone slot) := by
  cases directory? with
  | none => rfl
  | some directory =>
    simp only [Loader.soundOf, SoundSource.loader, SoundSource.load, standardSounds, sampleOf?,
      Option.map_some, Option.bind_some]
    cases Sample.load (pathIn directory name) (files (pathIn directory name)) rate <;> rfl

/-- **Sounds that are shared are those of each slot.**  Take the registry of some tables, any files,
rate and seed, and a bank that was primed, whatever else it was asked for.  Every slot of an atomic
instrument has the sample of its file name if that can be loaded, and otherwise the struck tone of its
pitch with the seed of its slot, whichever names and slots the instruments share.  Each name is tried
once, when it comes first, and the bank does not load again. -/
theorem shared_sounds_are_own {τ : Type} {atomics : List Atomic} {composites : List Composite}
    {registry : Registry} (h : Registry.ofTables atomics composites = .ok registry)
    (files : FileReader) (directory? : Option String) (rate : Nat) (seed : UInt64)
    (frameOf : τ → Nat) (queue : CommandQueue Float32) (effects : List (Effect τ))
    (hprime : Effect.prime ∈ effects) :
    let source := standardSounds files directory? rate seed
    let bank := (Player.carryOutAll (SampleBank.new registry frameOf source queue) effects).1
    (∀ a ∈ atomics, ∀ slot (hslot : slot < a.samples.length), ∃ pitch seed',
      Pitch.ofSlot? slot = some pitch ∧ seed'.toNat = (seed.toNat + slot) % Nat.pow 2 64 ∧
        bank.buffer? a.id slot =
          some (((sampleOf? files directory? rate a.samples[slot]).map (·.points)).getD
            (struckTone pitch.frequency rate seed'))) ∧
      source.tries (atomics.map (·.samples)) = (atomics.flatMap (·.samples)).eraseDups ∧
      (source.tries (atomics.map (·.samples))).Nodup ∧ bank.prime = (bank, []) := by
  intro source bank
  obtain ⟨rfl, rfl⟩ := Registry.tables_of_ofTables h
  obtain ⟨queue', dropped, hbank⟩ := SampleBank.carryOutAll_of_prime
    (SampleBank.new registry frameOf source queue) hprime
  have htries := source.tries_eq (registry.atomics.map (·.samples))
  refine ⟨fun a ha slot hslot => ?_, ?_, ?_, ?_⟩
  · obtain ⟨i, hi, rfl⟩ := List.getElem_of_mem ha
    -- A registry keeps its rules: there are no more samples than pitches.
    have hpitch : slot < Pitch.all.length := by
      have hsamples := registry.wellFormed.samples_eq _ ha
      have halphabet := registry.wellFormed.alphabet_le _ ha
      omega
    refine ⟨Pitch.all[slot], seed + UInt64.ofNat slot, List.getElem?_eq_getElem hpitch, ?_, ?_⟩
    · rw [UInt64.toNat_add, UInt64.toNat_ofNat']
      exact Nat.add_mod_mod _ _ _
    · have hbuffer := SampleBank.buffer?_stocked hi hslot frameOf source queue
      rw [soundOf_standardSounds] at hbuffer
      -- So the tone of the slot is never that of the fallback pitch.
      have htone : source.tone slot =
          struckTone Pitch.all[slot].frequency rate (seed + UInt64.ofNat slot) := by
        show struckTone (((Pitch.ofSlot? slot).map Pitch.frequency).getD 440.0) _ _ = _
        rw [Pitch.ofSlot?, List.getElem?_eq_getElem hpitch]
        rfl
      rw [htone] at hbuffer
      rw [← hbuffer]
      show (Player.carryOutAll (SampleBank.new registry frameOf source queue) effects).1.buffer? _ _ = _
      rw [hbank]
      rfl
  · rw [htries, List.flatMap_def]
  · rw [htries]
    exact nodup_eraseDups _
  · have hready : bank.ready = true := by
      show (Player.carryOutAll (SampleBank.new registry frameOf source queue) effects).1.ready = true
      rw [hbank]
      exact SampleBank.ready_prime _
    rw [SampleBank.prime, if_pos hready]

/-- A file with one point, at 8000 frames a second. -/
def bellFile : List UInt8 :=
  tag "RIFF" ++ [37, 0, 0, 0] ++ tag "WAVE" ++ tag "fmt " ++
    [16, 0, 0, 0, 1, 0, 1, 0, 0x40, 0x1F, 0, 0, 0x40, 0x1F, 0, 0, 1, 0, 8, 0] ++
    tag "data" ++ [1, 0, 0, 0, 255]

/-- Two instruments with the same files at other slots. -/
def bells : List Atomic :=
  [⟨"r1", ['E', 'U'], ["bell.wav", "gong.wav"], 0⟩, ⟨"r2", ['U', 'E'], ["gong.wav", "bell.wav"], 0⟩]

/-- One of the files can be loaded, and the other has a tone of its own at each slot. -/
theorem shared_sounds_are_own_bells :
    let files : FileReader := fun path =>
      if path = "sounds/bell.wav" then .ok bellFile else .error .notFound
    let effects : List (Effect ℚ) := [.call (.cancel 0), .prime, .call (.trigger "r1" 0 1), .prime]
    Effect.prime ∈ effects ∧
      ∃ registry, Registry.ofTables bells [] = .ok registry ∧
        let source := standardSounds files (some "sounds") 8000 18446744073709551615
        let bank := (Player.carryOutAll (SampleBank.new registry (frameAt 8000) source
          (.empty (some 8))) effects).1
        (∃ sample, sampleOf? files (some "sounds") 8000 "bell.wav" = some sample ∧
          bank.buffer? "r1" 0 = some sample.points ∧ bank.buffer? "r2" 1 = some sample.points) ∧
        (∃ seed', seed'.toNat = 0 ∧
          bank.buffer? "r1" 1 = some (struckTone (Pitch.mk "E4" 64).frequency 8000 seed')) ∧
        (∃ seed', seed'.toNat = 18446744073709551615 ∧
          bank.buffer? "r2" 0 = some (struckTone (Pitch.mk "D4" 62).frequency 8000 seed')) ∧
        source.tries (bells.map (·.samples)) = ["bell.wav", "gong.wav"] := by
  intro files effects
  have hprime : Effect.prime ∈ effects := by simp [effects]
  obtain ⟨registry, hregistry⟩ : ∃ registry, Registry.ofTables bells [] = .ok registry := ⟨_, rfl⟩
  obtain ⟨hsounds, htries, -⟩ := shared_sounds_are_own hregistry files (some "sounds") 8000
    18446744073709551615 (frameAt 8000) (.empty (some 8)) effects hprime
  have hgong : sampleOf? files (some "sounds") 8000 "gong.wav" = none :=
    Option.isNone_iff_eq_none.mp (by decide +kernel)
  have hbell : (sampleOf? files (some "sounds") 8000 "bell.wav").isSome = true := by decide +kernel
  obtain ⟨sample, hsample⟩ := Option.isSome_iff_exists.mp hbell
  have hr1 : bells[0] ∈ bells := List.getElem_mem _
  have hr2 : bells[1] ∈ bells := List.getElem_mem _
  refine ⟨hprime, registry, hregistry, ⟨sample, hsample, ?_, ?_⟩, ?_, ?_, ?_⟩
  · obtain ⟨pitch, seed', -, -, hbuffer⟩ := hsounds _ hr1 0 (by decide)
    simpa [bells, hsample] using hbuffer
  · obtain ⟨pitch, seed', -, -, hbuffer⟩ := hsounds _ hr2 1 (by decide)
    simpa [bells, hsample] using hbuffer
  · obtain ⟨pitch, seed', hpitch, hseed, hbuffer⟩ := hsounds _ hr1 1 (by decide)
    cases hpitch
    refine ⟨seed', by rw [hseed]; rfl, ?_⟩
    simpa [bells, hgong] using hbuffer
  · obtain ⟨pitch, seed', hpitch, hseed, hbuffer⟩ := hsounds _ hr2 0 (by decide)
    cases hpitch
    refine ⟨seed', by rw [hseed]; rfl, ?_⟩
    simpa [bells, hgong] using hbuffer
  · rw [htries]
    decide

end Gamelan
