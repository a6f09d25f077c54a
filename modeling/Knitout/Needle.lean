import Knitout.Numeral

/-!
# Needles, directions and feeder locations

A machine has two needle beds that face each other; racking shifts the back bed against the front
one. A column is a position along the beds. A feeder stands just past the needle it last worked, on
the side it was travelling to.
-/

namespace Knitout

/-- One of the two needle beds. -/
inductive Bed where
  | front
  | back
  deriving DecidableEq

/-- The way the carriage travels. -/
inductive Direction where
  | increasing
  | decreasing
  deriving DecidableEq

/-- A loop-holding position on one bed. -/
structure Needle where
  bed : Bed
  index : Int
  deriving DecidableEq

/-- A needle and the side on which a feeder stands after passing it. -/
structure Location where
  needle : Needle
  direction : Direction
  deriving DecidableEq

namespace Bed

/-- The letter of a bed. -/
def letter : Bed → Char
  | .front => 'f'
  | .back => 'b'

/-- The bed that a letter names. -/
def ofLetter? : Char → Option Bed
  | 'f' => some .front
  | 'b' => some .back
  | _ => none

/-- The front bed comes first. -/
def rank : Bed → Nat
  | .front => 0
  | .back => 1

end Bed

namespace Direction

/-- The sign of a direction. -/
def sign : Direction → Char
  | .increasing => '+'
  | .decreasing => '-'

/-- The direction that a one-character word names. -/
def ofText? : Text → Option Direction
  | ['+'] => some .increasing
  | ['-'] => some .decreasing
  | _ => none

def opposite : Direction → Direction
  | .increasing => .decreasing
  | .decreasing => .increasing

/-- The column of a feeder that just passed a needle, relative to the needle's column. -/
def feederOffset : Direction → Int
  | .increasing => 1
  | .decreasing => 0

/-- One needle further in this direction. -/
def step : Direction → Int
  | .increasing => 1
  | .decreasing => -1

/-- The column that a carriage leaves for is one step from the one that it comes from. -/
theorem feederOffset_opposite (direction : Direction) :
    direction.feederOffset = direction.opposite.feederOffset + direction.step := by
  cases direction <;> rfl

end Direction

namespace Needle

def front (index : Int) : Needle := ⟨.front, index⟩

def back (index : Int) : Needle := ⟨.back, index⟩

/-- The column of a needle: racking shifts the back bed. -/
def column (needle : Needle) (racking : Int) : Int :=
  match needle.bed with
  | .front => needle.index
  | .back => needle.index + racking

/-- The column, if it fits a signed 64-bit word. -/
def wordColumn? (needle : Needle) (racking : Int) : Option Int :=
  if isWord (needle.column racking) then some (needle.column racking) else none

/-- Bed letter, point, index. -/
def render (needle : Needle) : Text :=
  needle.bed.letter :: '.' :: intDigits needle.index

/-- Reads bed letter, point and an index that fits a signed 64-bit word. -/
def ofText? (text : Text) : Option Needle :=
  match cutAt? '.' text with
  | some ([letter], digits) => do
    let bed ← Bed.ofLetter? letter
    let index ← intValue? digits
    if isWord index then some ⟨bed, index⟩ else none
  | _ => none

/-- Front bed first, then by index. -/
instance : Ord Needle where
  compare := compareLex (compareOn fun n => n.bed.rank) (compareOn fun n => n.index)

instance : Std.TransOrd Needle :=
  inferInstanceAs (Std.TransCmp (compareLex (compareOn fun n : Needle => n.bed.rank)
    (compareOn fun n : Needle => n.index)))

instance : Std.LawfulEqOrd Needle where
  compare_self := Std.ReflCmp.compare_self
  eq_of_compare {m n} h := by
    obtain ⟨bed, index⟩ := m
    obtain ⟨bed', index'⟩ := n
    have h : (compare bed.rank bed'.rank).then (compare index index') = .eq := h
    rw [Ordering.then_eq_eq] at h
    have hrank := Std.LawfulEqCmp.eq_of_compare h.1
    have hindex := Std.LawfulEqCmp.eq_of_compare h.2
    subst hindex
    cases bed <;> cases bed' <;> simp_all [Bed.rank]

end Needle

namespace Location

/-- The column of the feeder. -/
def column (location : Location) (racking : Int) : Int :=
  location.needle.column racking + location.direction.feederOffset

/-- A carriage that passes the needle comes from one step behind. -/
theorem column_behind (location : Location) (racking : Int) :
    location.needle.column racking + location.direction.opposite.feederOffset =
      location.column racking - location.direction.step := by
  have offset := location.direction.feederOffset_opposite
  unfold column
  omega

/-- A location at a needle goes with its loops to another one; any other stays. -/
def follow (source target : Needle) (location : Location) : Location :=
  if location.needle = source then { location with needle := target } else location

/-- Needle and side, without a gap. -/
def render (location : Location) : Text :=
  location.needle.render ++ [location.direction.sign]

end Location

end Knitout
