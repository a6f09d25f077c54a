import Knitout.Length
import Knitout.Needle

/-!
# Formal instructions

The operations of formal knitout, each with exactly the fields that it has, and instructions, which
say where in a document an operation stands.
-/

namespace Knitout

/-- The number of a yarn, below `2 ^ 32`. -/
abbrev Yarn := Nat

/-- A yarn and the length of it that is fed. -/
structure Strand where
  yarn : Yarn
  length : Length
  deriving DecidableEq

/-- An operation of formal knitout. -/
inductive Operation where
  | knit (direction : Direction) (needle : Needle) (length : Length) (strands : List Strand)
  | tuck (direction : Direction) (needle : Needle) (length : Length) (strands : List Strand)
  | split (direction : Direction) (needle target : Needle) (length : Length)
      (strands : List Strand)
  | miss (direction : Direction) (needle : Needle) (yarn : Yarn)
  | bringIn (direction : Direction) (needle : Needle) (yarn : Yarn)
  | bringOut (direction : Direction) (needle : Needle) (yarn : Yarn)
  | drop (needle : Needle)
  | transfer (needle target : Needle)
  | rack (racking : Int)
  deriving DecidableEq

/-- An operation, the number of its line and the comment behind it. -/
structure Instruction where
  operation : Operation
  line : Nat
  comment : Option Text
  deriving DecidableEq

/-- The first word of an instruction. -/
inductive Mnemonic where
  | knit | tuck | split | miss | bringIn | bringOut | drop | transfer | rack
  deriving DecidableEq

namespace Mnemonic

def word : Mnemonic → Text
  | .knit => "knit".toList
  | .tuck => "tuck".toList
  | .split => "split".toList
  | .miss => "miss".toList
  | .bringIn => "in".toList
  | .bringOut => "out".toList
  | .drop => "drop".toList
  | .transfer => "xfer".toList
  | .rack => "rack".toList

def all : List Mnemonic :=
  [.knit, .tuck, .split, .miss, .bringIn, .bringOut, .drop, .transfer, .rack]

/-- The mnemonic with this word. -/
def ofText? (text : Text) : Option Mnemonic :=
  all.find? fun m => m.word = text

/-- Every mnemonic is read back from its word. -/
theorem ofText?_word (m : Mnemonic) : ofText? m.word = some m := by
  cases m <;> decide

end Mnemonic

/-- The first word of an operation. -/
def Operation.mnemonic : Operation → Mnemonic
  | .knit .. => .knit
  | .tuck .. => .tuck
  | .split .. => .split
  | .miss .. => .miss
  | .bringIn .. => .bringIn
  | .bringOut .. => .bringOut
  | .drop .. => .drop
  | .transfer .. => .transfer
  | .rack .. => .rack

end Knitout
