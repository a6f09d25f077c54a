import Knitout.Numeral
import Knitout.Magnitude.Basic

/-!
# Decimal literals

A literal is an optional sign, digits with at most one point among them, and an optional exponent.
Its value is a coefficient times a power of ten, which is rounded once, from the exact value.
-/

namespace Knitout

/-- The number `coefficient * 10 ^ exponent`. -/
structure Decimal where
  coefficient : Nat
  exponent : Int
  deriving DecidableEq

/-- A decimal literal: its sign and its magnitude. -/
structure Literal where
  negative : Bool
  decimal : Decimal
  deriving DecidableEq

namespace Decimal

/-- One more than the power of ten of the leading digit: the value lies below `10 ^ top` and, unless
it is zero, is at least `10 ^ (top - 1)`. -/
def top (d : Decimal) : Int :=
  (natDigits d.coefficient).length + d.exponent

/-- The binary64 magnitude nearest to the value. Everything from `10 ^ 310` on is past the largest
magnitude and everything below `10 ^ (-330)` is nearest to zero, so no power of ten larger than
that is ever formed for a number far outside the format. -/
def round (d : Decimal) : Rounded :=
  if d.coefficient = 0 then .finite .zero
  else if 310 < d.top then .overflow
  else if d.top < -330 then .finite .zero
  else
    match d.exponent with
    | .ofNat e => .ofQuotient (d.coefficient * Nat.pow 10 e * Magnitude.unitsPerOne) 1
    | .negSucc e => .ofQuotient (d.coefficient * Magnitude.unitsPerOne) (Nat.pow 10 (e + 1))

end Decimal

namespace Literal

/-- An optional sign: whether it is a minus, and what follows it. -/
def cutSign : Text → Bool × Text
  | '-' :: rest => (true, rest)
  | '+' :: rest => (false, rest)
  | rest => (false, rest)

/-- The power of ten written behind the digits, `e` or `E` and an integer; nothing means none. -/
def exponent? : Text → Option Int
  | [] => some 0
  | c :: rest =>
    if c = 'e' ∨ c = 'E' then
      let (negative, digits) := cutSign rest
      if isDigits digits then
        some (if negative then -(natValue digits : Int) else natValue digits)
      else none
    else none

/-- The digits behind a point, if there is a point, and what follows them. -/
def cutFraction : Text → Text × Text
  | '.' :: rest => (rest.takeWhile Char.isDigit, rest.dropWhile Char.isDigit)
  | rest => ([], rest)

/-- Reads a literal: at least one digit before or behind the point. -/
def ofText? (text : Text) : Option Literal :=
  let (negative, unsigned) := cutSign text
  let whole := unsigned.takeWhile Char.isDigit
  let (fraction, rest) := cutFraction (unsigned.dropWhile Char.isDigit)
  if (whole ++ fraction).isEmpty then none
  else
    (exponent? rest).map fun exponent =>
      ⟨negative, natValue (whole ++ fraction), exponent - fraction.length⟩

end Literal

end Knitout
