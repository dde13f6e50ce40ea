import Gamelan.Files
import Gamelan.Time
import Gamelan.Yaml.Node
import Gamelan.Yaml.Scalar

namespace Gamelan

/-!
# Settings

What a player may choose for its sessions, kept in a YAML file.  Every setting has a default; fields of
other names are passed over.

* `Settings` — the settings.
* `Settings.parse?` — the settings of a text.
* `Settings.load`, `Settings.ofHome` — the settings in a file, and in the file of a home directory.
-/

/-- The settings of a player. -/
structure Settings where
  /-- The directory of sounds. -/
  soundsDirectory : Option String := none
  masterVolume : Float32 := 0.8
  /-- How far ahead of the clock points are planned, in milliseconds. -/
  lookahead : Nat := 100
  /-- The labels that are muted at the start. -/
  muted : List String := []
  /-- The seed of the sounds that stand in for missing files. -/
  seed : Nat := 42

/-- How far ahead of the clock points are planned, in seconds. -/
def Settings.lookaheadSeconds {τ : Type} [NatCast τ] [Div τ] (s : Settings) : τ :=
  ((s.lookahead : Nat) : τ) / ((1000 : Nat) : τ)

/-! ### Values -/

/-- Scalars whose text means something: those without quotes, and literal ones that are tagged so. -/
def unquoted? (tag : String) : Yaml.Node → Option (List Char)
  | .scalar _ given style text =>
    if style = .plain || (style = .literal && given == some tag.toList) then some text else none
  | _ => none

/-- A whole number of 64 bits. -/
def readWord? (node : Yaml.Node) : Option Nat :=
  (unquoted? "tag:yaml.org,2002:int" node).bind (Yaml.unsigned? (Nat.pow 2 64))

def readFloat? (node : Yaml.Node) : Option Float :=
  (unquoted? "tag:yaml.org,2002:float" node).bind Yaml.float?

/-- A string: any scalar will do. -/
def readString? : Yaml.Node → Option String
  | .scalar _ _ _ text => some (String.ofList text)
  | _ => none

/-- Whether a scalar is nothing in place of a string; `none` if its tag says so and its text does
not. -/
def readsAsNothing? (tag : Option (List Char)) (style : Yaml.Style) (text : List Char) :
    Option Bool :=
  if style ≠ .plain then some false
  else
    match tag with
    | none => some (text.isEmpty || Yaml.isNull text)
    | some tag =>
      if tag == "tag:yaml.org,2002:null".toList then
        if Yaml.isNull text then some true else none
      else some false

/-- A string, or nothing. -/
def readOptional? : Yaml.Node → Option (Option String)
  | .scalar _ tag style text =>
    (readsAsNothing? tag style text).map fun isNothing =>
      if isNothing then none else some (String.ofList text)
  | _ => none

/-- A list of strings, some of them aliases; nothing is the empty list. -/
def readStrings? (root : Yaml.Node) : Yaml.Node → Option (List String)
  | .sequence _ items => items.mapM fun item => readString? (root.resolve item)
  | .scalar _ _ .plain [] => some []
  | _ => none

/-! ### Fields -/

/-- The settings that a file may give. -/
inductive SettingsField where
  | soundsDirectory
  | masterVolume
  | lookahead
  | muted
  | seed
deriving DecidableEq, Repr

namespace SettingsField

def all : List SettingsField :=
  [soundsDirectory, masterVolume, lookahead, muted, seed]

/-- The key of a setting. -/
def name : SettingsField → String
  | soundsDirectory => "sounds_dir"
  | masterVolume => "master_volume"
  | lookahead => "lookahead_ms"
  | muted => "muted"
  | seed => "seed"

/-- The setting of a key. -/
def ofName? (key : String) : Option SettingsField :=
  all.find? (·.name == key)

end SettingsField

namespace Settings

/-- Settings with one of them read from a node. -/
def withField? (root : Yaml.Node) (field : SettingsField) (node : Yaml.Node) (s : Settings) :
    Option Settings :=
  match field with
  | .soundsDirectory => (readOptional? node).map fun d => { s with soundsDirectory := d }
  | .masterVolume => (readFloat? node).map fun v => { s with masterVolume := v.toFloat32 }
  | .lookahead => (readWord? node).map fun n => { s with lookahead := n }
  | .muted => (readStrings? root node).map fun labels => { s with muted := labels }
  | .seed => (readWord? node).map fun n => { s with seed := n }

/-- Settings with the entries of a mapping.  A setting is given once at most; what is behind other
keys does not count. -/
def withEntries? (root : Yaml.Node) (seen : List SettingsField) (s : Settings) :
    List (Yaml.Node × Yaml.Node) → Option Settings
  | [] => some s
  | (key, value) :: rest => do
    let name ← readString? (root.resolve key)
    match SettingsField.ofName? name with
    | none => s.withEntries? root seen rest
    | some field =>
      if seen.contains field then none
      else
        let s ← s.withField? root field (root.resolve value)
        s.withEntries? root (field :: seen) rest

/-- The settings of a document. -/
def ofNode? : Yaml.Node → Option Settings
  | .mapping anchor entries => ({} : Settings).withEntries? (.mapping anchor entries) [] entries
  | .scalar _ _ .plain [] => some {}
  | _ => none

/-- The settings of a text; a text without a document leaves the defaults. -/
def parse? (text : String) : Option Settings := do
  match ← Yaml.readDocument? text with
  | some node => ofNode? node
  | none => some {}

end Settings

/-! ### Files -/

/-- Why settings cannot be had from a file. -/
inductive SettingsError where
  | unreadable (path : String) (reason : FileError)
  | invalid (path : String)
deriving DecidableEq, Repr

/-- The wording of an error. -/
def SettingsError.message : SettingsError → String
  | unreadable path reason => s!"cannot read {path}: {reason.message}"
  | invalid path => s!"invalid config {path}"

namespace Settings

/-- The settings in a file. -/
def load (path : String) (content : FileContent) : Except SettingsError Settings :=
  match readText content with
  | .error reason => .error (.unreadable path reason)
  | .ok text =>
    match parse? text with
    | some s => .ok s
    | none => .error (.invalid path)

/-- The file of settings in a home directory. -/
def homePath : String :=
  ".laras/config.yaml"

/-- The settings in a home directory, and why its file is ignored if it is; a missing file is no
fault. -/
def ofHome (content : FileContent) : Option Settings × Option SettingsError :=
  match content with
  | .error .notFound => (none, none)
  | _ =>
    match load homePath content with
    | .ok s => (some s, none)
    | .error e => (none, some e)

end Settings

end Gamelan
