import Gamelan.Proofs.Performance.KnownCalls
import Gamelan.Proofs.Performance.Pass
import Gamelan.Proofs.Sound.Cut
import Gamelan.Proofs.Sound.Firing
import Gamelan.Proofs.Sound.Frames

namespace Gamelan

/-!
# Nothing is lost on the way to the mixer

The registry, the bank and the mixer each have a table of their own.  They are aligned: an atomic
instrument has the voice of its place in the registry, that voice has a sound for each symbol of the
instrument, and the mixer has that voice.

* `SoundSource.map_length_loadAll` — a sound is loaded for every file name.
* `SampleBank.stocked` — a bank with its sounds loaded.
* `Registry.exists_of_mem_resolve` — what a symbol on a label strikes.
* `SampleBank.Delivers` — a call becomes one command, and the mixer takes it.
* `nothing_resolved_is_lost` — every call of a sequencer is delivered.
-/

open Sequencer

/-! ### Loading -/

section
variable {β ν : Type} (loader : Loader β ν)

/-- Whatever files can be read, every slot has a sound. -/
theorem Loader.length_loadSlots (slot : Slot) (names : List String) (l : Loading β) :
    (loader.loadSlots slot names l).1.length = names.length := by
  induction names generalizing slot l with
  | nil => rfl
  | cons name rest ih =>
    rw [loadSlots, List.length_cons, List.length_cons, ih]

/-- Each instrument gets as many sounds as it has slots. -/
theorem Loader.map_length_loadInstruments (layout : List (List String)) (l : Loading β) :
    (loader.loadInstruments layout l).1.map List.length = layout.map List.length := by
  induction layout generalizing l with
  | nil => rfl
  | cons names rest ih =>
    rw [loadInstruments, List.map_cons, List.map_cons, ih, length_loadSlots]

theorem SoundSource.map_length_loadAll (source : SoundSource β) (layout : List (List String)) :
    (source.loadAll layout).1.map List.length = layout.map List.length :=
  source.loader.map_length_loadInstruments layout .none

end

/-! ### What a symbol strikes -/

namespace Registry

variable {registry : Registry}

/-- What a symbol on a label strikes is an atomic instrument of the registry, at a slot that it has a
sample for. -/
theorem exists_of_mem_resolve {label instrument : String} {symbol : Char} {slot : Slot}
    (h : (instrument, slot) ∈ registry.resolve label symbol) :
    ∃ (i : Nat) (hi : i < registry.atomics.length), registry.atomics[i].id = instrument ∧
      slot < registry.atomics[i].samples.length := by
  obtain ⟨a, ha, hslot⟩ := List.mem_filterMap.1 h
  obtain ⟨slot', hsymbol, heq⟩ := Option.map_eq_some_iff.1 hslot
  obtain ⟨rfl, rfl⟩ := Prod.mk.inj heq
  have hatomic := mem_atomics_of_mem_members ha
  obtain ⟨i, hi, rfl⟩ := List.getElem_of_mem hatomic
  refine ⟨i, hi, rfl, ?_⟩
  rw [← registry.wellFormed.samples_eq _ hatomic]
  exact (List.findIdx?_eq_some_iff_getElem.1 hsymbol).1

end Registry

/-! ### A bank with its sounds -/

namespace SampleBank

variable {τ σ : Type}

/-- The bank of a registry with its sounds loaded, before anything is sent. -/
def stocked (registry : Registry) (frameOf : τ → Nat) (source : SoundSource (Array σ))
    (queue : CommandQueue σ) : SampleBank τ σ :=
  (SampleBank.new registry frameOf source queue).prime.1

/-- A bank of a registry with some sounds for each of its instruments, whatever it has sent. -/
structure Stocks (b : SampleBank τ σ) (registry : Registry) : Prop where
  instruments_eq : b.instruments = registry.atomics.map fun a => (a.id, a.samples)
  map_length_loaded : b.loaded.map List.length = registry.atomics.map (·.samples.length)

/-- The bank of a registry has sounds for all its instruments. -/
theorem stocks_stocked (registry : Registry) (frameOf : τ → Nat) (source : SoundSource (Array σ))
    (queue : CommandQueue σ) : (stocked registry frameOf source queue).Stocks registry where
  instruments_eq := rfl
  map_length_loaded := by
    show (source.loadAll ((registry.atomics.map _).map _)).1.map List.length = _
    rw [SoundSource.map_length_loadAll, List.map_map, List.map_map]
    rfl

namespace Stocks

variable {b : SampleBank τ σ} {registry : Registry}

/-- What is on its way or refused has no say in the stock. -/
theorem of_frame (h : b.Stocks registry) (queue : CommandQueue σ) (dropped : Nat) :
    ({ b with queue := queue, dropped := dropped } : SampleBank τ σ).Stocks registry :=
  ⟨h.instruments_eq, h.map_length_loaded⟩

/-- Only atomic instruments have a voice. -/
theorem voice?_eq_none (h : b.Stocks registry) {id : String}
    (hid : id ∉ registry.atomics.map (·.id)) : b.voice? id = none := by
  rw [voice?, List.findIdx?_eq_none_iff, h.instruments_eq, List.forall_mem_map]
  intro a ha
  rw [beq_eq_false_iff_ne]
  rintro rfl
  exact hid (List.mem_map_of_mem ha)

/-- There is a sound for each sample of an instrument. -/
theorem exists_buffer (h : b.Stocks registry) {i : Nat} (hi : i < registry.atomics.length)
    {slot : Slot} (hslot : slot < registry.atomics[i].samples.length) :
    ∃ sample, b.buffer? registry.atomics[i].id slot = some sample := by
  have hlengths := congrArg (·[i]?) h.map_length_loaded
  simp only [List.getElem?_map, List.getElem?_eq_getElem hi, Option.map_some] at hlengths
  obtain ⟨sounds, hsounds, hlength⟩ := Option.map_eq_some_iff.1 hlengths
  have hlt : slot < sounds.length := by rwa [hlength]
  refine ⟨sounds[slot], ?_⟩
  rw [buffer?, voice?_getElem h.instruments_eq hi, Option.bind_some, hsounds, Option.bind_some,
    List.getElem?_eq_getElem hlt]

end Stocks

/-! ### Calls that are delivered -/

/-- A call that a bank turns into one command, which it sends, and which a mixer takes for a voice
that it has. -/
def Delivers [Gain σ] [Zero σ] [One σ] [LT σ] [DecidableLT σ] (b : SampleBank τ σ) (m : Mixer σ) :
    VoiceCall τ → Prop
  | .trigger instrument slot time => ∃ voice sample,
      b.voice? instrument = some voice ∧ b.buffer? instrument slot = some sample ∧
      b.handle (.trigger instrument slot time) =
        b.send (.trigger voice (b.frameOf time) sample) ∧
      (m.apply (.trigger voice (b.frameOf time) sample)).pending =
        Mixer.insertPending ⟨b.frameOf time, voice, .start sample⟩ m.pending
  | .release instrument time => ∃ voice,
      b.voice? instrument = some voice ∧
      b.handle (.release instrument time) = b.send (.release voice (b.frameOf time)) ∧
      (m.apply (.release voice (b.frameOf time))).pending =
        Mixer.insertPending ⟨b.frameOf time, voice, .release⟩ m.pending
  | .setLevel instrument level => ∃ voice,
      b.voice? instrument = some voice ∧ voice < m.voices.length ∧
      b.handle (.setLevel instrument level) = b.send (.setGain voice (Gain.ofDecibels level))
  | .cancel after => b.handle (.cancel after) = b.send (.cancel (b.frameOf after))

section
variable [Gain σ] [Zero σ] [One σ] [LT σ] [DecidableLT σ]
variable {b : SampleBank τ σ} {registry : Registry} {m : Mixer σ}

/-- **A bank delivers every call that is known to its registry.** -/
theorem Stocks.delivers (h : b.Stocks registry) (hm : m.voices.length = registry.atomics.length)
    {call : VoiceCall τ} (hcall : call.Known registry) : b.Delivers m call := by
  have hschedule : ∀ p : Pending σ, p.voice < registry.atomics.length →
      (m.schedule p).pending = Mixer.insertPending p m.pending := by
    intro p hp
    rw [Mixer.schedule, if_pos (by rwa [hm])]
  cases call with
  | trigger instrument slot time =>
    obtain ⟨label, symbol, hresolve⟩ := hcall
    -- The voice of an instrument is its place in the registry.
    obtain ⟨i, hi, rfl, hslot⟩ := Registry.exists_of_mem_resolve hresolve
    obtain ⟨sample, hsample⟩ := h.exists_buffer hi hslot
    have hvoice := voice?_getElem h.instruments_eq hi
    exact ⟨i, sample, hvoice, hsample, by simp [handle, hvoice, hsample], hschedule _ hi⟩
  | release instrument time =>
    obtain ⟨label, a, ha, rfl⟩ := hcall
    obtain ⟨i, hi, rfl⟩ := List.getElem_of_mem (Registry.mem_atomics_of_mem_members ha)
    have hvoice := voice?_getElem h.instruments_eq hi
    exact ⟨i, hvoice, by simp [handle, hvoice], hschedule _ hi⟩
  | setLevel instrument level =>
    obtain ⟨a, ha, rfl, rfl⟩ := hcall
    obtain ⟨i, hi, rfl⟩ := List.getElem_of_mem ha
    have hvoice := voice?_getElem h.instruments_eq hi
    exact ⟨i, hvoice, by rwa [hm], by simp [handle, hvoice]⟩
  | cancel after => rfl

end

end SampleBank

/-- **Nothing resolved is lost on the way to the mixer.**  Take the registry of some tables, the bank
of that registry with any of its files readable, and a mixer with as many voices as there are atomic
instruments.  What a symbol on a label strikes has a voice, which is its place in the registry and
one of those of the mixer, and a sound.  Every atomic instrument has the voice of its place, so no two
have the same, and composite instruments have none.  Every call of a sequencer of that registry,
whatever is on its way by then, is sent as one command, which the mixer takes. -/
theorem nothing_resolved_is_lost {τ σ : Type} [NatCast τ] [Add τ] [Div τ] [BEq τ] [LE τ]
    [DecidableLE τ] [LT τ] [DecidableLT τ] [Gain σ] [Zero σ] [One σ] [LT σ] [DecidableLT σ]
    {atomics : List Atomic} {composites : List Composite} {registry : Registry}
    (h : Registry.ofTables atomics composites = .ok registry) (frameOf : τ → Nat)
    (source : SoundSource (Array σ)) (queue : CommandQueue σ) (m : Mixer σ)
    (hm : m.voices.length = atomics.length) :
    let bank := SampleBank.stocked registry frameOf source queue
    (∀ label symbol instrument slot, (instrument, slot) ∈ registry.resolve label symbol →
      ∃ voice sample, bank.voice? instrument = some voice ∧
        (atomics.map (·.id))[voice]? = some instrument ∧ voice < m.voices.length ∧
        bank.buffer? instrument slot = some sample) ∧
      (∀ i (hi : i < atomics.length), bank.voice? atomics[i].id = some i) ∧
      (∀ c ∈ composites, bank.voice? c.id = none) ∧
      ∀ timeline steps, ∀ call ∈ calls (run steps (new timeline registry)).2,
        ∀ queue' dropped,
          ({ bank with queue := queue', dropped := dropped } : SampleBank τ σ).Delivers m call := by
  intro bank
  obtain ⟨rfl, rfl⟩ := Registry.tables_of_ofTables h
  have hstock : bank.Stocks registry := SampleBank.stocks_stocked registry frameOf source queue
  refine ⟨fun label symbol instrument slot hresolve => ?_,
    fun i hi => SampleBank.voice?_getElem hstock.instruments_eq hi,
    fun c hc => hstock.voice?_eq_none ?_, fun timeline steps call hcall queue' dropped =>
      (hstock.of_frame queue' dropped).delivers hm (known_of_mem_run hcall)⟩
  · obtain ⟨i, hi, rfl, hslot⟩ := Registry.exists_of_mem_resolve hresolve
    obtain ⟨sample, hsample⟩ := hstock.exists_buffer hi hslot
    refine ⟨i, sample, SampleBank.voice?_getElem hstock.instruments_eq hi, ?_, by rwa [hm], hsample⟩
    rw [List.getElem?_map, List.getElem?_eq_getElem hi, Option.map_some]
  · -- No id is given twice.
    have hdisjoint := (List.nodup_append.1 registry.wellFormed.ids_nodup).2.2
    exact fun hmem => hdisjoint _ hmem _ (List.mem_map_of_mem hc) rfl

/-- A bank for two instruments and a label for both, without sample files. -/
theorem nothing_resolved_is_lost_duo :
    let bank : SampleBank ℚ Float32 :=
      .stocked duo (frameAt 1000) ⟨none, fun _ => #[1]⟩ (.empty (some 8))
    let m : Mixer Float32 := .new 2 1 30 1
    Registry.ofTables duo.atomics duo.composites = .ok duo ∧
      m.voices.length = duo.atomics.length ∧ ("r2", 0) ∈ duo.resolve "rr" 'E' ∧
      (∃ voice sample, bank.voice? "r2" = some voice ∧
        (duo.atomics.map (·.id))[voice]? = some "r2" ∧ voice < m.voices.length ∧
        bank.buffer? "r2" 0 = some sample) ∧
      bank.voice? "rr" = none := by
  intro bank m
  have htables : Registry.ofTables duo.atomics duo.composites = .ok duo := by rfl
  have hresolve : ("r2", 0) ∈ duo.resolve "rr" 'E' := by decide
  have h := nothing_resolved_is_lost htables (frameAt 1000 : ℚ → Nat) ⟨none, fun _ => #[1]⟩
    (.empty (some 8)) m rfl
  exact ⟨htables, rfl, hresolve, h.1 "rr" 'E' "r2" 0 hresolve,
    h.2.2.1 ⟨"rr", ["r1", "r2"]⟩ (List.mem_singleton_self _)⟩

end Gamelan
