import Gamelan.Ensemble.Pitch
import Gamelan.Sound.Sample
import Gamelan.Sound.Tone

namespace Gamelan

/-!
# Where sounds come from

Every slot of an instrument sounds like its sample file if that can be loaded, and like a struck tone
of its pitch otherwise.  Files are shared by name and tones by slot; no file is tried twice.

* `SoundSource` — files and tones, for sounds of a type `β`.
* `Loader` — the same with notes of any kind on each file that is tried.
* `Loading` — what has been loaded so far.
* `Loader.loadInstruments` — the sounds of all slots of some instruments.
* `SoundSource.loadAll` — these sounds with what is to be reported.
-/

/-- Sound files, if there is a directory of them, and the tones in their place. -/
structure SoundSource (β : Type) where
  file? : Option (String → Except SampleError β)
  tone : Slot → β

/-- What loading reports. -/
inductive LoadingNotice where
  | unavailable (reason : SampleError)
  | loaded (voices files synthesized : Nat)
deriving DecidableEq, Repr

/-- How slots get their sounds. -/
structure Loader (β ν : Type) where
  /-- A try to load a file by its name: its sound if there is one, and the notes on the try. -/
  load : String → Option β × List ν
  tone : Slot → β

/-- The files loaded, the names that could not be, and the tones made. -/
structure Loading (β : Type) where
  files : List (String × β)
  missing : List String
  tones : List (Slot × β)

/-- Nothing is loaded yet. -/
def Loading.none {β : Type} : Loading β where
  files := []
  missing := []
  tones := []

namespace Loader

variable {β ν : Type}

/-- The tone of a slot, made once. -/
def toneOf (loader : Loader β ν) (slot : Slot) (l : Loading β) : β × Loading β :=
  match l.tones.lookup slot with
  | some tone => (tone, l)
  | none => (loader.tone slot, { l with tones := (slot, loader.tone slot) :: l.tones })

/-- The sound of a slot with a file name. -/
def loadSlot (loader : Loader β ν) (slot : Slot) (name : String) (l : Loading β) :
    β × Loading β × List ν :=
  match l.files.lookup name with
  | some sound => (sound, l, [])
  | none =>
    if l.missing.contains name then
      let (tone, l) := loader.toneOf slot l
      (tone, l, [])
    else
      match loader.load name with
      | (some sound, notes) => (sound, { l with files := (name, sound) :: l.files }, notes)
      | (none, notes) =>
        let (tone, l) := loader.toneOf slot { l with missing := name :: l.missing }
        (tone, l, notes)

/-- The sounds of some slots, the first of them `slot`. -/
def loadSlots (loader : Loader β ν) (slot : Slot) :
    List String → Loading β → List β × Loading β × List ν
  | [], l => ([], l, [])
  | name :: rest, l =>
    let (sound, l, notes) := loader.loadSlot slot name l
    let (sounds, l, more) := loader.loadSlots (slot + 1) rest l
    (sound :: sounds, l, notes ++ more)

/-- The sounds of some instruments. -/
def loadInstruments (loader : Loader β ν) :
    List (List String) → Loading β → List (List β) × Loading β × List ν
  | [], l => ([], l, [])
  | names :: rest, l =>
    let (sounds, l, notes) := loader.loadSlots 0 names l
    let (others, l, more) := loader.loadInstruments rest l
    (sounds :: others, l, notes ++ more)

end Loader

namespace SoundSource

variable {β : Type}

/-- The sound of a file.  Without a directory there is none, and no reason to report. -/
def load (source : SoundSource β) (name : String) : Option β × List LoadingNotice :=
  match source.file? with
  | none => (none, [])
  | some file =>
    match file name with
    | .ok sound => (some sound, [])
    | .error reason => (none, [.unavailable reason])

/-- Loading from a source, which reports what is not available. -/
def loader (source : SoundSource β) : Loader β LoadingNotice where
  load := source.load
  tone := source.tone

/-- The sounds of all instruments, given their file names by slot. -/
def loadAll (source : SoundSource β) (layout : List (List String)) :
    List (List β) × List LoadingNotice :=
  let (sounds, l, notices) := source.loader.loadInstruments layout .none
  (sounds, notices ++ [.loaded layout.length l.files.length l.tones.length])

end SoundSource

/-- Sample files, if there is a directory of them, and struck tones, at a rate.  The tone of a slot has
its own seed. -/
def standardSounds (files : FileReader) (directory? : Option String) (rate : Nat) (seed : UInt64) :
    SoundSource (Array Float32) where
  file? := directory?.map fun directory name =>
    let path := pathIn directory name
    (Sample.load path (files path) rate).map (·.points)
  tone slot :=
    struckTone (((Pitch.ofSlot? slot).map Pitch.frequency).getD 440.0) rate (seed + UInt64.ofNat slot)

end Gamelan
