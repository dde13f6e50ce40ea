import Gamelan.Yaml.Quoting

namespace Gamelan.Yaml

/-!
# Values in writing

Records are written a field a line, lists an item a line behind a dash; lists stand no deeper than the
key they belong to, and the further lines of a string two columns deeper.

* `Value` — what can be written.
* `Value.write` — a document.
-/

/-- What can be written. -/
inductive Value where
  | number (n : Nat)
  | string (s : String)
  | list (items : List Value)
  | record (fields : List (String × Value))

/-- The end of a line, and the indentation of the next. -/
def nextLine (indent : Nat) : String :=
  "\n" ++ String.ofList (List.replicate indent ' ')

mutual

/-- A value whose first line has been indented. -/
def Value.block (indent : Nat) : Value → String
  | .number n => toString n
  | .string s => writeString (max indent 2) s
  | .list items => writeItems indent items
  | .record fields => writeFields indent fields

/-- What follows a key. -/
def Value.afterKey (indent : Nat) : Value → String
  | .list [] => " []"
  | .list items => nextLine indent ++ writeItems indent items
  | .record [] => " \x7b\x7d"
  | .record fields => nextLine (indent + 2) ++ writeFields (indent + 2) fields
  | .number n => " " ++ toString n
  | .string s => " " ++ writeString (indent + 2) s

/-- The items of a list; an empty list is written in brackets. -/
def writeItems (indent : Nat) : List Value → String
  | [] => "[]"
  | [item] => "- " ++ item.block (indent + 2)
  | item :: rest => "- " ++ item.block (indent + 2) ++ nextLine indent ++ writeItems indent rest

/-- The fields of a record; an empty record is written in braces. -/
def writeFields (indent : Nat) : List (String × Value) → String
  | [] => "\x7b\x7d"
  | [(key, value)] => writeString (indent + 2) key ++ ":" ++ value.afterKey indent
  | (key, value) :: rest =>
    writeString (indent + 2) key ++ ":" ++ value.afterKey indent ++ nextLine indent ++
      writeFields indent rest

end

/-- The document of a value. -/
def Value.write (value : Value) : String :=
  value.block 0 ++ "\n"

end Gamelan.Yaml
