/-!
# Finite binary64 magnitudes

A magnitude is a finite binary64 number without its sign, kept as exact data: a significand below
`2 ^ 53` and an exponent, which together stand for `significand * 2 ^ exponent` units of
`2 ^ (-1074)`. Each magnitude has one representation, so equality is equality of value. Main
statement: `ofQuotient` answers with the magnitude nearest to a quotient, an even significand on a
tie, and with `overflow` past the largest.
-/

namespace Knitout

/-- The parts of a magnitude in their one canonical form: the significand has 53 bits unless the
exponent is the smallest, and the exponent stays below that of infinity. -/
def CanonicalParts (significand exponent : Nat) : Prop :=
  significand < 9007199254740992 ∧ (exponent = 0 ∨ 4503599627370496 ≤ significand) ∧
    exponent ≤ 2045

instance (significand exponent : Nat) : Decidable (CanonicalParts significand exponent) := by
  unfold CanonicalParts; infer_instance

/-- A finite binary64 number without its sign. -/
structure Magnitude where
  /-- The leading bits. -/
  significand : Nat
  /-- How many bits follow them down to the unit `2 ^ (-1074)`. -/
  exponent : Nat
  canonical : CanonicalParts significand exponent
  deriving DecidableEq

/-- What rounding to binary64 gives. -/
inductive Rounded where
  | finite (magnitude : Magnitude)
  | overflow
  deriving DecidableEq

namespace Magnitude

/-- The number of units of `2 ^ (-1074)`. -/
def units (m : Magnitude) : Nat :=
  m.significand * Nat.pow 2 m.exponent

/-- How many units make one. -/
def unitsPerOne : Nat := Nat.pow 2 1074

def zero : Magnitude := ⟨0, 0, by decide⟩

/-- The largest finite binary64 number, `(2 ^ 53 - 1) * 2 ^ 971`. -/
def largest : Magnitude := ⟨9007199254740991, 2045, by decide⟩

end Magnitude

/-- The whole number nearest to `numerator / denominator`, the even one on a tie. -/
def nearestEven (numerator denominator : Nat) : Nat :=
  let quotient := numerator / denominator
  let remainder := numerator % denominator
  if 2 * remainder < denominator then quotient
  else if denominator < 2 * remainder then quotient + 1
  else if quotient % 2 = 0 then quotient
  else quotient + 1

namespace Rounded

/-- The magnitude with these parts; parts outside the format are past the largest magnitude. -/
def ofParts (significand exponent : Nat) : Rounded :=
  if h : CanonicalParts significand exponent then .finite ⟨significand, exponent, h⟩ else .overflow

/-- The magnitude nearest to `numerator / denominator` units. The exponent is the least that leaves
at most 53 bits of the quotient; rounding may carry into a 54th bit, which raises it by one. -/
def ofQuotient (numerator denominator : Nat) : Rounded :=
  let exponent := (numerator / denominator).log2 + 1 - 53
  let significand := nearestEven numerator (denominator * Nat.pow 2 exponent)
  if significand = 9007199254740992 then ofParts 4503599627370496 (exponent + 1)
  else ofParts significand exponent

end Rounded

/-- The magnitude that rounding gives, the largest one on overflow. -/
def Rounded.clamp : Rounded → Magnitude
  | .finite m => m
  | .overflow => .largest

/-- The magnitude nearest to a whole number, the largest one if the number is past it. -/
def Magnitude.ofNat (n : Nat) : Magnitude :=
  (Rounded.ofQuotient (n * Magnitude.unitsPerOne) 1).clamp

end Knitout
