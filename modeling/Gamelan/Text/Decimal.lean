namespace Gamelan.Text

/-!
# Decimal numbers

Numerals are read exactly, as a whole number times a power of ten, and rounded once at the end.

* `readDigits?` — whole numbers in a base up to sixteen.
* `Decimal` — numbers with a point and an exponent.
* `Decimal.toFloat` — the nearest floating-point number.
-/

/-- The value of a digit, letters standing for ten to fifteen. -/
def digitValue? (c : Char) : Option Nat :=
  if '0' ≤ c ∧ c ≤ '9' then some (c.toNat - '0'.toNat)
  else if 'a' ≤ c ∧ c ≤ 'f' then some (c.toNat - 'a'.toNat + 10)
  else if 'A' ≤ c ∧ c ≤ 'F' then some (c.toNat - 'A'.toNat + 10)
  else none

/-- The whole number after one more digit of a base. -/
def appendDigit? (base value : Nat) (c : Char) : Option Nat :=
  match digitValue? c with
  | some digit => if digit < base then some (base * value + digit) else none
  | none => none

/-- The whole number that one or more digits of a base write. -/
def readDigits? (base : Nat) : List Char → Option Nat
  | [] => none
  | digits => digits.foldlM (appendDigit? base) 0

/-- A decimal number: its sign, and its size as `digits · 10 ^ exponent`. -/
structure Decimal where
  negative : Bool
  digits : Nat
  exponent : Int
deriving DecidableEq, Repr

namespace Decimal

/-! ### Reading -/

/-- A number with a sign in front. -/
def readSign : List Char → Bool × List Char
  | '-' :: rest => (true, rest)
  | '+' :: rest => (false, rest)
  | text => (false, text)

/-- The exponent that ends a number: none, or a letter `e` and a whole number. -/
def readExponent? : List Char → Option Int
  | [] => some 0
  | letter :: rest =>
    if letter == 'e' || letter == 'E' then
      let (negative, digits) := readSign rest
      (readDigits? 10 digits).map fun n => if negative then -(n : Int) else n
    else none

/-- The digits after a point, and what follows them. -/
def readFraction : List Char → List Char × List Char
  | '.' :: rest => (rest.takeWhile Char.isDigit, rest.dropWhile Char.isDigit)
  | text => ([], text)

/-- The number that a text writes: digits on at least one side of a point that may be missing. -/
def read? (text : List Char) : Option Decimal :=
  let (negative, body) := readSign text
  let whole := body.takeWhile Char.isDigit
  let (fraction, rest) := readFraction (body.dropWhile Char.isDigit)
  match readDigits? 10 (whole ++ fraction), readExponent? rest with
  | some digits, some exponent => some ⟨negative, digits, exponent - fraction.length⟩
  | _, _ => none

/-! ### Rounding -/

/-- The power of ten just above a number other than zero. -/
def order (d : Decimal) : Int :=
  (Nat.toDigits 10 d.digits).length + d.exponent

/-- Beyond this power of ten every number is infinite in floating point, and zero at its inverse. -/
def orderLimit : Int := 400

/-- A number of the same rounding whose exponent is no larger than its digits call for. -/
def clamp (d : Decimal) : Decimal :=
  if d.digits = 0 then ⟨d.negative, 0, 0⟩
  else if orderLimit < d.order then ⟨d.negative, 1, orderLimit⟩
  else if d.order < -orderLimit then ⟨d.negative, 0, 0⟩
  else d

/-- The nearest floating-point number. -/
def toFloat (d : Decimal) : Float :=
  let c := d.clamp
  let size := Float.ofScientific c.digits (c.exponent < 0) c.exponent.natAbs
  if c.negative then -size else size

/-- The nearest short floating-point number. -/
def toFloat32 (d : Decimal) : Float32 :=
  let c := d.clamp
  let size := Float32.ofScientific c.digits (c.exponent < 0) c.exponent.natAbs
  if c.negative then -size else size

end Decimal

end Gamelan.Text
