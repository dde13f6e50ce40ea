import Gamelan.Notation.Reading
import Gamelan.Session
import Gamelan.Settings

namespace Gamelan

/-!
# The log

What the parts of a session report, as records for a log: a level, a message and named fields.

* `Record` — the records.
* `LogEvent` — everything that can be reported, with times `τ`.
* `LogEvent.record` — the record of an event.
-/

/-- How much a record matters. -/
inductive Level where
  | trace
  | debug
  | info
  | warn
deriving DecidableEq, Repr

/-- The part of a program that a record comes from. -/
inductive Origin where
  | notation_
  | sequencer
  | bank
  | files
  | settings
deriving DecidableEq, Repr

/-- The value of a field. -/
inductive FieldValue (τ : Type) where
  | count (n : Nat)
  | number (x : τ)
  | text (s : String)
deriving Repr

/-- A record of a log. -/
structure Record (τ : Type) where
  level : Level
  origin : Origin
  message : String
  fields : List (String × FieldValue τ)
deriving Repr

/-- Everything that can be reported. -/
inductive LogEvent (τ : Type) where
  | remark (r : Notation.Remark)
  | sequencer (n : Notice τ)
  | bank (n : BankNotice)
  /-- A score that cannot be read. -/
  | unreadable (path : String) (reason : FileError)
  /-- Settings that cannot be used. -/
  | ignoredSettings (reason : SettingsError)

/-- The events of a session, of either side. -/
def LogEvent.ofPlayer {τ : Type} : PlayerNotice τ BankNotice → LogEvent τ
  | .sequencer n => .sequencer n
  | .voices n => .bank n

/-- The name of a state of playback. -/
def Playback.name : Playback → String
  | idle => "Idle"
  | priming => "Priming"
  | ready => "Ready"
  | playing => "Playing"

/-- A span as a range. -/
def Notation.Span.range (s : Notation.Span) : String :=
  s!"{s.start}..{s.stop}"

variable {τ : Type}

/-- The record of a remark on a score. -/
def Notation.Remark.record : Notation.Remark → Record τ
  | unparsed span => ⟨.trace, .notation_, "skipping unparsed input", [("span", .text span.range)]⟩
  | unknownMetadata name =>
    ⟨.trace, .notation_, "ignoring unknown metadata", [("name", .text name)]⟩
  | strayTrack span =>
    ⟨.trace, .notation_, "dropping track before any section", [("span", .text span.range)]⟩

/-- The record of a notice of a sequencer. -/
def Notice.record : Notice τ → Record τ
  | playback old new =>
    ⟨.debug, .sequencer, "playback state", [("from", .text old.name), ("to", .text new.name)]⟩
  | started cursor points =>
    ⟨.info, .sequencer, "playback started", [("cursor", .count cursor), ("points", .count points)]⟩
  | stopped cursor => ⟨.info, .sequencer, "playback stopped", [("cursor", .count cursor)]⟩
  | finished => ⟨.info, .sequencer, "playback finished", []⟩
  | tempo old new =>
    ⟨.debug, .sequencer, "tempo change", [("from", .number old), ("to", .number new)]⟩
  | rewound old new =>
    ⟨.debug, .sequencer, "rewinding unplayed points", [("from", .count old), ("to", .count new)]⟩
  | unknownInstrument label =>
    ⟨.trace, .sequencer, "unknown instrument", [("label", .text label)]⟩

/-- The record of a notice of a bank. -/
def BankNotice.record : BankNotice → Record τ
  | loading (.unavailable reason) =>
    ⟨.debug, .bank, "sample unavailable, synthesizing", [("error", .text reason.message)]⟩
  | loading (.loaded voices files synthesized) =>
    ⟨.info, .bank, "voices loaded",
      [("voices", .count voices), ("files", .count files), ("synthesized", .count synthesized)]⟩
  | dropped reason count =>
    ⟨.warn, .bank, "audio command dropped",
      [("error", .text reason.message), ("dropped", .count count)]⟩
  | noVoice instrument => ⟨.trace, .bank, "no voice", [("instrument", .text instrument)]⟩
  | noBuffer instrument slot =>
    ⟨.trace, .bank, "no buffer for slot",
      [("instrument", .text instrument), ("slot", .count slot)]⟩

/-- The record of an event. -/
def LogEvent.record : LogEvent τ → Record τ
  | remark r => r.record
  | sequencer n => n.record
  | bank n => n.record
  | unreadable path reason =>
    ⟨.debug, .files, "score unreadable, using empty text",
      [("path", .text path), ("error", .text reason.message)]⟩
  | ignoredSettings reason =>
    ⟨.warn, .settings, "ignoring config", [("error", .text reason.message)]⟩

end Gamelan
