import Knitout.Magnitude.Shortest

/-!
# Lengths

Stitch sizes and yarn lengths are finite binary64 numbers with a sign, which zero has too.
-/

namespace Knitout

/-- A finite binary64 number. -/
structure Length where
  negative : Bool
  magnitude : Magnitude
  deriving DecidableEq

namespace Length

/-- The length nearest to a whole number. -/
def ofNat (n : Nat) : Length := ⟨false, .ofNat n⟩

/-- Reads a decimal literal whose value rounds to a finite number. -/
def ofText? (text : Text) : Option Length :=
  (Literal.ofText? text).bind fun literal =>
    match literal.decimal.round with
    | .finite m => some ⟨literal.negative, m⟩
    | .overflow => none

/-- The shortest decimal that reads back, with a minus sign in front if it is negative. -/
def render (length : Length) : Text :=
  if length.negative then '-' :: length.magnitude.render else length.magnitude.render

end Length

end Knitout
