import Knitout.Magnitude.Decimal

/-!
# The shortest decimal that reads back

A magnitude is written with the fewest digits that round to it, and among those with the decimal
nearest to it; of two equally near ones the larger is written. The notation is positional: no
exponent, no point behind a whole number, one zero in front of a leading point.
-/

namespace Knitout

/-- The positional notation of a decimal, without superfluous zeros. -/
def Decimal.render (d : Decimal) : Text :=
  match d.exponent with
  | .ofNat e => natDigits (d.coefficient * Nat.pow 10 e)
  | .negSucc e =>
    let whole := natDigits (d.coefficient / Nat.pow 10 (e + 1))
    let digits := natDigits (d.coefficient % Nat.pow 10 (e + 1))
    let fraction := List.replicate (e + 1 - digits.length) '0' ++ digits
    let kept := (fraction.reverse.dropWhile (· == '0')).reverse
    if kept.isEmpty then whole else whole ++ '.' :: kept

namespace Magnitude

/-- One more than the power of ten of the leading digit of a magnitude other than zero. Below one,
scaling by `10 ^ 340` gives every magnitude a whole part. -/
def top (m : Magnitude) : Int :=
  if unitsPerOne ≤ m.units then (natDigits (m.units / unitsPerOne)).length
  else (natDigits (m.units * Nat.pow 10 340 / unitsPerOne)).length - 340

/-- The magnitude in units of `10 ^ exponent`, as a fraction. -/
def inPowersOfTen (m : Magnitude) : Int → Nat × Nat
  | .ofNat e => (m.units, unitsPerOne * Nat.pow 10 e)
  | .negSucc e => (m.units * Nat.pow 10 (e + 1), unitsPerOne)

/-- The two neighbours of a magnitude among the decimals with `digits` digits, the nearer one
first; the larger one first if they are equally near. -/
def neighbours (m : Magnitude) (digits : Nat) : List Decimal :=
  let exponent := m.top - digits
  let (numerator, denominator) := m.inPowersOfTen exponent
  let below := numerator / denominator
  if denominator ≤ 2 * (numerator % denominator) then [⟨below + 1, exponent⟩, ⟨below, exponent⟩]
  else [⟨below, exponent⟩, ⟨below + 1, exponent⟩]

/-- The value itself as a decimal: a unit is `5 ^ 1074` units of `10 ^ (-1074)`. -/
def exact (m : Magnitude) : Decimal :=
  ⟨m.units * Nat.pow 5 1074, -1074⟩

/-- The shortest decimal that rounds to the magnitude. Seventeen digits always suffice. -/
def shortest (m : Magnitude) : Decimal :=
  if m.units = 0 then ⟨0, 0⟩
  else
    let hit? := (List.range 17).findSome? fun n =>
      (m.neighbours (n + 1)).find? fun d => d.round = .finite m
    hit?.getD m.exact

/-- The text of a magnitude. -/
def render (m : Magnitude) : Text :=
  m.shortest.render

end Magnitude

/-- The text of what rounding gives. -/
def Rounded.render : Rounded → Text
  | .finite m => m.render
  | .overflow => "inf".toList

end Knitout
