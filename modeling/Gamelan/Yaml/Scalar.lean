import Gamelan.Text.Decimal

namespace Gamelan.Yaml

/-!
# What plain scalars mean

A scalar without quotes is read by its form: nothing, a truth value, a whole number, a floating-point
number, or else a string.

* `isNull`, `isBoolean`, `unsigned?`, `negative?`, `float?` — the forms.
* `readsAsString` — whether a text keeps its meaning without quotes.
-/

/-- Whether a text stands for nothing. -/
def isNull (text : List Char) : Bool :=
  ["null", "Null", "NULL", "~"].any (·.toList == text)

/-- Whether a text is a truth value. -/
def isBoolean (text : List Char) : Bool :=
  ["true", "True", "TRUE", "false", "False", "FALSE"].any (·.toList == text)

/-- A text without a plus sign in front. -/
def dropPlus : List Char → List Char
  | '+' :: rest => rest
  | text => text

/-- Whether a text looks like a decimal number but starts with a needless zero: it is none. -/
def hasNeedlessZero (text : List Char) : Bool :=
  match (Text.Decimal.readSign text).2 with
  | '0' :: rest => !rest.isEmpty && rest.all Char.isDigit
  | _ => false

/-! ### Whole numbers -/

/-- The base that a letter after a zero announces. -/
def base? (letter : Char) : Option Nat :=
  match letter with
  | 'x' => some 16
  | 'o' => some 8
  | 'b' => some 2
  | _ => none

/-- A whole number without a sign, in any base. -/
def natural? (text : List Char) : Option Nat :=
  match text with
  | '0' :: letter :: digits =>
    match base? letter with
    | some base => Text.readDigits? base digits
    | none => if hasNeedlessZero text then none else Text.readDigits? 10 text
  | _ => Text.readDigits? 10 text

/-- The whole number below `bound` that a text is. -/
def unsigned? (bound : Nat) (text : List Char) : Option Nat :=
  (natural? (dropPlus text)).filter (· < bound)

/-- The size of the negative whole number that a text is, if it is not above `bound`. -/
def negative? (bound : Nat) : List Char → Option Nat
  | '-' :: rest => (natural? rest).filter (· ≤ bound)
  | _ => none

/-! ### Floating-point numbers -/

/-- The numbers that are written as words. -/
def floatWord? (text : List Char) : Option Float :=
  if [".inf", ".Inf", ".INF"].any (·.toList == dropPlus text) then some (1 / 0)
  else if ["-.inf", "-.Inf", "-.INF"].any (·.toList == text) then some (-(1 / 0))
  else if [".nan", ".NaN", ".NAN"].any (·.toList == text) then some (0 / 0)
  else none

/-- The floating-point number that a text is; digits write finite numbers only. -/
def float? (text : List Char) : Option Float :=
  match text with
  | '+' :: '+' :: _ | '+' :: '-' :: _ => none
  | _ =>
    match floatWord? text with
    | some x => some x
    | none => ((Text.Decimal.read? (dropPlus text)).map (·.toFloat)).filter (·.isFinite)

/-! ### Strings -/

/-- Whether a text without quotes is a string. -/
def readsAsString (text : List Char) : Bool :=
  !(text.isEmpty || isNull text || isBoolean text || (unsigned? (Nat.pow 2 128) text).isSome
    || (negative? (Nat.pow 2 127) text).isSome || hasNeedlessZero text || (float? text).isSome)

end Gamelan.Yaml
