import Knitout.Instruction.Basic
import Knitout.Lowering.Error

/-!
# Carriers and their yarn numbers

The names of the carriers are numbered in their order: by their own values if these are whole
numbers in increasing order from above zero, else by their places from one.
-/

namespace Knitout

/-- A carrier and the number of its yarn. -/
structure Carrier where
  name : Text
  yarn : Yarn
  deriving DecidableEq

/-- The carriers of a file, in the order of its header. -/
structure CarrierTable where
  carriers : List Carrier
  /-- Whether they are numbered by place. -/
  remapped : Bool
  deriving DecidableEq

namespace CarrierTable

/-- The first name that stands further left already; `seen` are the names to the left. -/
def firstRepeat? (seen : List Text) : List Text → Option Text
  | [] => none
  | name :: rest => if seen.contains name then some name else firstRepeat? (name :: seen) rest

/-- The value of a name made of ASCII digits, if it fits 32 bits. -/
def ownNumber? (name : Text) : Option Yarn :=
  if isDigits name && natValue name ≤ maxHalfWord then some (natValue name) else none

/-- The values of the names, if each has one and they increase from above `low`. -/
def ownNumbers? (low : Nat) : List Text → Option (List Yarn)
  | [] => some []
  | name :: rest =>
    match ownNumber? name with
    | none => none
    | some number =>
      if low < number then (ownNumbers? number rest).map (number :: ·) else none

/-- Number the carriers with these names, which have to be pairwise distinct. -/
def ofNames (names : List Text) : Except LoweringError CarrierTable :=
  match firstRepeat? [] names with
  | some name => .error (.duplicateCarrierName name)
  | none =>
    match ownNumbers? 0 names with
    | some numbers => .ok ⟨List.zipWith Carrier.mk names numbers, false⟩
    | none => .ok ⟨(names.zipIdx 1).map fun (name, place) => ⟨name, place⟩, true⟩

/-- The carrier with a name. -/
def find? (t : CarrierTable) (name : Text) : Option Carrier :=
  t.carriers.find? fun c => c.name = name

/-- The place of the carrier with a name, from zero. -/
def place? (t : CarrierTable) (name : Text) : Option Nat :=
  t.carriers.findIdx? fun c => c.name = name

/-- The carrier with a name, which has to be in the table. -/
def lookup (t : CarrierTable) (name : Text) : Except LoweringError Carrier :=
  match t.find? name with
  | some carrier => .ok carrier
  | none => .error (.unknownCarrier name)

/-- The carriers with these names; a name that is not in the table, or that stands further left
already, is an error. `seen` are the names to the left. -/
def resolveAfter (t : CarrierTable) (seen : List Text) :
    List Text → Except LoweringError (List Carrier)
  | [] => .ok []
  | name :: rest => do
    let carrier ← t.lookup name
    if seen.contains name then .error (.repeatedCarrier name)
    else
      let others ← t.resolveAfter (name :: seen) rest
      .ok (carrier :: others)

/-- The carriers of one operation. -/
def resolve (t : CarrierTable) (names : List Text) : Except LoweringError (List Carrier) :=
  t.resolveAfter [] names

/-- Each name with its number. -/
def mapping (t : CarrierTable) : String :=
  ", ".intercalate (t.carriers.map fun c => s!"'{String.ofList c.name}' -> {c.yarn}")

end CarrierTable

end Knitout
