import Gamelan.Ensemble.Standard
import Gamelan.Files
import Gamelan.Notation.Reading
import Gamelan.Report
import Gamelan.Sound.Command
import Gamelan.Text.Decimal

namespace Gamelan.CommandLine

/-!
# The command line

Arguments are read from left to right, and the first that asks for help, asks for the version or makes
no sense decides.

* `Invocation` — what can be asked for.
* `Invocation.read` — the reading of arguments.
* `Invocation.run` — the answer, given the files.
-/

/-! ### Arguments -/

/-- An argument by its form. -/
inductive Argument where
  /-- Two dashes: no options follow. -/
  | terminator
  /-- Two dashes and a name, perhaps with a value behind an equals sign. -/
  | long (name : String) (value : Option String)
  /-- A dash and letters. -/
  | short (letter : Char)
  /-- Anything else, a single dash included. -/
  | plain (text : String)
deriving DecidableEq, Repr

/-- A long option, without its dashes. -/
def Argument.ofLong (text : List Char) : Argument :=
  let name := String.ofList (text.takeWhile (· != '='))
  match text.dropWhile (· != '=') with
  | _ :: value => long name (some (String.ofList value))
  | [] => long name none

/-- The form of an argument. -/
def Argument.ofString (text : String) : Argument :=
  match text.toList with
  | ['-', '-'] => terminator
  | '-' :: '-' :: rest => ofLong rest
  | '-' :: letter :: _ => short letter
  | _ => plain text

/-! ### What can be asked for -/

/-- The commands. -/
inductive Command where
  | play
  | inspect
  | instruments
deriving DecidableEq, Repr

/-- The options of commands that take a value. -/
inductive ValueOption where
  | mute
  | sounds
  | volume
deriving DecidableEq, Repr

/-- What a command is told. -/
structure Options where
  file : Option String := none
  /-- The labels to mute. -/
  muted : List String := []
  /-- The directory of sounds. -/
  sounds : Option String := none
  volume : Option Float32 := none

/-- The subjects of help. -/
inductive Topic where
  | program
  | command (c : Command)
  | help
deriving DecidableEq, Repr

/-- What can be asked for. -/
inductive Invocation where
  | help (topic : Topic)
  | version
  | perform (command : Command) (options : Options)

/-- Why arguments make no sense. -/
inductive UsageError where
  | noCommand
  | unknownCommand (name : String)
  | unexpectedArgument (argument : String)
  | unexpectedValue (name : String)
  | missingValue (name : String)
  | repeated (name : String)
  | invalidValue (name value : String)
deriving DecidableEq, Repr

/-- The wording of an error. -/
def UsageError.message : UsageError → String
  | noCommand => "a command is required"
  | unknownCommand name => s!"unrecognized subcommand '{name}'"
  | unexpectedArgument argument => s!"unexpected argument '{argument}' found"
  | unexpectedValue name => s!"no value is expected for '{name}'"
  | missingValue name => s!"a value is required for '{name}' but none was supplied"
  | repeated name => s!"the argument '{name}' cannot be used multiple times"
  | invalidValue name value => s!"invalid value '{value}' for '{name}'"

/-! ### Commands and their options -/

def Command.name : Command → String
  | play => "play"
  | inspect => "inspect"
  | instruments => "instruments"

/-- The command of a name. -/
def Command.ofName? (name : String) : Option Command :=
  [play, inspect, instruments].find? (·.name == name)

def ValueOption.name : ValueOption → String
  | mute => "mute"
  | sounds => "sounds"
  | volume => "volume"

/-- The options of a command that take a value. -/
def Command.valueOptions : Command → List ValueOption
  | play => [.mute, .sounds, .volume]
  | _ => []

/-- Whether a command works on a score. -/
def Command.takesFile : Command → Bool
  | instruments => false
  | _ => true

/-- A volume: a decimal number, or a word for one that is not finite. -/
def readVolume? (text : String) : Option Float32 :=
  let (negative, word) := Text.Decimal.readSign text.toList
  let number : Option Float32 :=
    match String.ofList (word.map Char.toLower) with
    | "inf" | "infinity" => some (1 / 0)
    | "nan" => some (0 / 0)
    | _ => none
  match number with
  | some x => some (if negative then -x else x)
  | none => (Text.Decimal.read? text.toList).map (·.toFloat32)

/-- Take a file name: the only one, and not an empty one. -/
def Options.withFile (command : Command) (file : String) (o : Options) : Except UsageError Options :=
  if !command.takesFile || o.file.isSome then .error (.unexpectedArgument file)
  else if file.isEmpty then .error (.invalidValue "[FILE]" file)
  else .ok { o with file := some file }

/-- Take the value of an option. -/
def Options.withValue (option : ValueOption) (value : String) (o : Options) :
    Except UsageError Options :=
  match option with
  | .mute => .ok { o with muted := o.muted ++ [value] }
  | .sounds =>
    if o.sounds.isSome then .error (.repeated "--sounds")
    else if value.isEmpty then .error (.invalidValue "--sounds" value)
    else .ok { o with sounds := some value }
  | .volume =>
    if o.volume.isSome then .error (.repeated "--volume")
    else
      match readVolume? value with
      | some x => .ok { o with volume := some x }
      | none => .error (.invalidValue "--volume" value)

/-! ### Reading -/

/-- The arguments of a command after the end of its options. -/
def readFiles (command : Command) (options : Options) : List String → Except UsageError Invocation
  | [] => .ok (.perform command options)
  | file :: rest => do readFiles command (← options.withFile command file) rest

/-- The arguments of a command. -/
def readOptions (command : Command) (options : Options) :
    List String → Except UsageError Invocation
  | [] => .ok (.perform command options)
  | argument :: rest =>
    match Argument.ofString argument with
    | .terminator => readFiles command options rest
    | .plain file => do readOptions command (← options.withFile command file) rest
    | .short letter =>
      if letter == 'h' then .ok (.help (.command command)) else .error (.unexpectedArgument argument)
    | .long "help" none => .ok (.help (.command command))
    | .long "help" (some _) => .error (.unexpectedValue argument)
    | .long name value =>
      match command.valueOptions.find? (·.name == name), value, rest with
      | none, _, _ => .error (.unexpectedArgument argument)
      | some option, some value, rest => do
        readOptions command (← options.withValue option value) rest
      | some _, none, [] => .error (.missingValue argument)
      | some option, none, value :: rest =>
        match Argument.ofString value with
        | .plain value => do readOptions command (← options.withValue option value) rest
        | _ => .error (.missingValue argument)

/-- The topic that arguments name. -/
def readTopic : List String → Except UsageError Invocation
  | [] => .ok (.help .program)
  | ["help"] => .ok (.help .help)
  | name :: rest =>
    match Command.ofName? name, rest with
    | some command, [] => .ok (.help (.command command))
    | some _, other :: _ => .error (.unknownCommand other)
    | none, _ => .error (.unknownCommand name)

/-- The invocation that arguments make up. -/
def Invocation.read : List String → Except UsageError Invocation
  | [] => .error .noCommand
  | argument :: rest =>
    match Argument.ofString argument with
    | .short 'h' | .long "help" none => .ok (.help .program)
    | .short 'V' | .long "version" none => .ok .version
    | .plain "help" => readTopic rest
    | .plain name =>
      match Command.ofName? name with
      | some command => readOptions command {} rest
      | none => .error (.unknownCommand name)
    | _ => .error (.unexpectedArgument argument)

/-! ### Help -/

/-- What a command does. -/
def Command.about : Command → String
  | play => "Play a score through the default audio output"
  | inspect => "Print the parsed score and its timeline"
  | instruments => "List the built-in instruments"

/-- The lines of help on a command below its first. -/
def Command.helpLines : Command → List String
  | play =>
    ["Usage: laras play [OPTIONS] [FILE]", "",
     "Arguments:",
     "  [FILE]  Score file", "",
     "Options:",
     "      --mute <LABEL>  Mute an instrument label (repeatable)",
     "      --sounds <DIR>  Directory of WAV samples",
     "      --volume <V>    Master volume, 0.0 to 1.0",
     "  -h, --help          Print help"]
  | inspect =>
    ["Usage: laras inspect [FILE]", "",
     "Arguments:",
     "  [FILE]  Score file", "",
     "Options:",
     "  -h, --help  Print help"]
  | instruments =>
    ["Usage: laras instruments", "",
     "Options:",
     "  -h, --help  Print help"]

/-- The lines of help on a topic. -/
def Topic.helpLines : Topic → List String
  | program =>
    ["Notation compiler and player for percussion and vocal scores", "",
     "Usage: laras <COMMAND>", "",
     "Commands:",
     s!"  play         {Command.play.about}",
     s!"  inspect      {Command.inspect.about}",
     s!"  instruments  {Command.instruments.about}",
     "  help         Print this message or the help of the given subcommand(s)", "",
     "Options:",
     "  -h, --help     Print help",
     "  -V, --version  Print version"]
  | command c => [c.about, ""] ++ c.helpLines
  | help =>
    ["Print this message or the help of the given subcommand(s)", "",
     "Usage: laras help [COMMAND]...", "",
     "Arguments:",
     "  [COMMAND]...  Print help for the subcommand(s)"]

/-! ### Answers -/

/-- What a program leaves behind. -/
structure Outcome where
  code : UInt8
  output : String := ""
  /-- What goes to the error output. -/
  complaint : String := ""

/-- The score that commands work on by default. -/
def defaultFile : String :=
  "scores/template.laras"

/-- The file that a command works on. -/
def Options.path (o : Options) : String :=
  o.file.getD defaultFile

/-- The score in a file; one that cannot be read is empty. -/
def scoreOf (content : FileContent) : Score :=
  match readText content with
  | .ok text => Notation.parse text.toList
  | .error _ => .empty

/-- Run a command.  A score with something to play needs an output device, and there is none. -/
def Command.run (files : FileReader) (options : Options) : Command → Outcome
  | play =>
    if (Timeline.ofScore (scoreOf (files options.path)) : Timeline Float).points.isEmpty then
      { code := 0, complaint := "score has nothing to play\n" }
    else
      { code := 1, complaint := s!"failed to open audio output: {AudioError.noOutputDevice.message}\n" }
  | inspect => { code := 0, output := (scoreOf (files options.path)).report }
  | instruments => { code := 0, output := Registry.standard.report }

/-- The answer to an invocation. -/
def Invocation.run (files : FileReader) : Invocation → Outcome
  | help topic => { code := 0, output := joinLines topic.helpLines }
  | version => { code := 0, output := "laras 0.1.0\n" }
  | perform command options => command.run files options

/-- The outcome of the program for its arguments and the files around it. -/
def run (files : FileReader) (arguments : List String) : Outcome :=
  match Invocation.read arguments with
  | .ok invocation => invocation.run files
  | .error e => { code := 2, complaint := s!"error: {e.message}\n" }

/-- The file that the program needs for its arguments. -/
def path? (arguments : List String) : Option String :=
  match Invocation.read arguments with
  | .ok (.perform command options) => if command.takesFile then some options.path else none
  | _ => none

end Gamelan.CommandLine
