namespace Gamelan.Text

/-!
# Numbers with a fixed number of places

A floating-point number is a whole number of units `2⁻¹⁰⁷⁴`; its decimal places are the nearest ones
to that exact number, a half going to the even neighbour.

* `roundQuotient` — the rounding.
* `fixedPoint` — a number in writing.
-/

/-- A quotient rounded to the nearest whole number, a half to the even one. -/
def roundQuotient (n d : Nat) : Nat :=
  if 2 * (n % d) < d then n / d
  else if d < 2 * (n % d) then n / d + 1
  else n / d + n / d % 2

/-- Rounding leaves whole quotients alone. -/
theorem roundQuotient_mul {d : Nat} (q : Nat) (hd : 0 < d) : roundQuotient (q * d) d = q := by
  simp [roundQuotient, Nat.mul_div_cancel q hd, hd]

/-- Rounding is off by half a unit at most. -/
theorem roundQuotient_near {d : Nat} (n : Nat) (hd : 0 < d) :
    2 * (d * roundQuotient n d) ≤ 2 * n + d ∧ 2 * n ≤ 2 * (d * roundQuotient n d) + d := by
  have hn := Nat.div_add_mod n d
  have hr := Nat.mod_lt n hd
  have hp : n / d % 2 = 0 ∨ n / d % 2 = 1 := Nat.mod_two_eq_zero_or_one _
  unfold roundQuotient
  split
  · omega
  · split
    · rw [Nat.mul_add]; omega
    · rcases hp with hp | hp <;> rw [hp, Nat.mul_add] <;> omega

/-- How many units `2⁻¹⁰⁷⁴` make up the size of a finite number. -/
def units (x : Float) : Nat :=
  let bits := x.toBits.toNat
  let exponent := bits / Nat.pow 2 52 % Nat.pow 2 11
  let fraction := bits % Nat.pow 2 52
  if exponent = 0 then fraction else (Nat.pow 2 52 + fraction) * Nat.pow 2 (exponent - 1)

/-- A whole number of the last of some decimal places, in writing. -/
def placePoint (places n : Nat) : String :=
  let whole := toString (n / Nat.pow 10 places)
  if places = 0 then whole
  else
    let fraction := (toString (n % Nat.pow 10 places)).toList.leftpad places '0'
    whole ++ "." ++ String.ofList fraction

/-- A number with some decimal places. -/
def fixedPoint (places : Nat) (x : Float) : String :=
  let sign := if Nat.pow 2 63 ≤ x.toBits.toNat then "-" else ""
  if x.isNaN then "NaN"
  else if x.isInf then sign ++ "inf"
  else sign ++ placePoint places (roundQuotient (units x * Nat.pow 10 places) (Nat.pow 2 1074))

end Gamelan.Text
