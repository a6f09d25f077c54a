import Knitout.Header
import Knitout.Loops
import Knitout.Lowering.Output

/-!
# The state of a lowering

What is known between two source lines: which carriers are in and where their feeders stand, how many
loops each needle holds, how the beds are racked, the output and the warnings.
-/

namespace Knitout

/-- Where a carrier is in its life; one without a stage is not in. -/
inductive CarrierStage where
  /-- Its `in` was asked for and waits in this slot for the first use. -/
  | pending (slot : Nat)
  /-- In action: where the feeder stands, and the last loop that it formed. -/
  | active (parked attached : Location)
  deriving DecidableEq

/-- The state of a lowering. -/
structure Context where
  carriers : CarrierTable
  stages : Table Yarn CarrierStage
  loops : Loops
  racking : Int
  output : Output
  warnings : List Diagnostic
  deriving DecidableEq

namespace Context

/-- The state before the first source line. -/
def start (carriers : CarrierTable) : Context :=
  ⟨carriers, ∅, ∅, 0, .empty, []⟩

/-- Add an output line. -/
def emit (c : Context) (content : Content) : Context :=
  { c with output := c.output.emit content }

/-- One more warning. -/
def warn (c : Context) (line : Nat) (kind : Kind) (message : String) : Context :=
  { c with warnings := c.warnings ++ [{ line, severity := .warning, kind, message }] }

/-- Set the stage of a carrier. -/
def setStage (c : Context) (carrier : Carrier) (stage : CarrierStage) : Context :=
  { c with stages := c.stages.insert carrier.yarn stage }

/-- Change the location of a feeder and of its last loop, for every carrier in action. -/
def relocate (c : Context) (parked attached : Location → Location) : Context :=
  let move : CarrierStage → CarrierStage
    | .pending slot => .pending slot
    | .active p a => .active (parked p) (attached a)
  { c with stages := c.stages.mapValues move }

/-! ## Bringing carriers in and out -/

/-- Reserve a line for the `in` of a carrier that is not in. -/
def bringIn (c : Context) (name : Text) : Except LoweringError Context := do
  let carrier ← c.carriers.lookup name
  match c.stages.get? carrier.yarn with
  | some (.active _ _) => .error (.alreadyIn name)
  | some (.pending _) => .error (.alreadyPending name)
  | none =>
    .ok ((c.emit (.pendingIn carrier)).setStage carrier (.pending c.output.slots.size))

/-- Take a carrier out that is in action: at the front-bed needle one past the feeder, facing back
towards it. -/
def bringOut (c : Context) (name : Text) : Except LoweringError Context := do
  let carrier ← c.carriers.lookup name
  match c.stages.get? carrier.yarn with
  | some (.active parked _) =>
    let column := parked.needle.column c.racking + parked.direction.step
    let out := Operation.bringOut parked.direction.opposite (.front column) carrier.yarn
    .ok { c.emit (.operation out) with stages := c.stages.erase carrier.yarn }
  | some (.pending _) => .error (.outPending name)
  | none => .error (.outAbsent name)

/-! ## Racking -/

/-- A location on the front bed in the same column. A feeder stays where it is when the back bed
moves, so its location has to be expressed on the front bed before. -/
def onFrontBed (racking : Int) (location : Location) : Location :=
  match location.needle.bed with
  | .front => location
  | .back => { location with needle := .front (location.needle.column racking) }

/-- Rack the beds by one. -/
def rackStep (c : Context) (step : Int) : Context :=
  let parked := c.relocate (onFrontBed c.racking) id
  { parked with racking := c.racking + step }.emit (.operation (.rack (c.racking + step)))

/-- Rack the beds by a number of steps of one. -/
def rackSteps (c : Context) (step : Int) : Nat → Context
  | 0 => c
  | n + 1 => (c.rackStep step).rackSteps step n

/-- Rack the beds to a target, or remark that they are there. -/
def rack (c : Context) (target : Int) : Context :=
  if target = c.racking then c.emit (.remark .rackNotNeeded)
  else c.rackSteps (target - c.racking).sign (target - c.racking).natAbs

end Context

end Knitout
