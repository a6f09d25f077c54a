import Knitout.Instruction.Basic
import Knitout.Loops

/-!
# Machine states

A state says how the beds are racked, how many loops each needle holds, where the feeder of each
yarn in action stands, and into which loop each yarn was last worked.
-/

namespace Knitout

/-- A snapshot of the machine. -/
structure State where
  racking : Int
  loops : Loops
  carriers : Table Yarn Int
  attachments : Table Yarn Location
  deriving DecidableEq

namespace State

/-- The machine before the first instruction: nothing on it, beds not racked. -/
def initial : State := ⟨0, ∅, ∅, ∅⟩

instance : Inhabited State := ⟨initial⟩

/-- How many loops a needle holds. -/
def loopCount (s : State) (needle : Needle) : Nat :=
  s.loops.count needle

/-- Put all loops of a needle on top of those of another one. -/
def moveLoops (s : State) (source target : Needle) : State :=
  { s with loops := s.loops.move source target }

/-- Let the attachments at a needle follow its loops to another one. -/
def moveAttachments (s : State) (source target : Needle) : State :=
  { s with attachments := s.attachments.mapValues (Location.follow source target) }

/-- Set how many loops a needle holds; none means that it has no entry. -/
def setLoops (s : State) (needle : Needle) (count : Nat) : State :=
  { s with
    loops := if count = 0 then s.loops.erase needle else s.loops.insert needle count }

/-- Attach each of the yarns to the loop at a location. -/
def attach (s : State) (yarns : List Yarn) (location : Location) : State :=
  { s with attachments := yarns.foldl (fun t yarn => t.insert yarn location) s.attachments }

/-- Put the feeder of each of the yarns at a column. -/
def park (s : State) (yarns : List Yarn) (column : Int) : State :=
  { s with carriers := yarns.foldl (fun t yarn => t.insert yarn column) s.carriers }

/-! ## Text -/

/-- One yarn in action: its number, its column, and its attachment or an `x`. -/
def renderCarrier (s : State) (carrier : Yarn × Int) : Text :=
  let attached :=
    match s.attachments.get? carrier.1 with
    | some location => location.render
    | none => ['x']
  " y".toList ++ natDigits carrier.1 ++ ":[".toList ++ intDigits carrier.2 ++ " / ".toList ++
    attached ++ [']']

/-- One needle with loops. -/
def renderLoops (entry : Needle × Nat) : Text :=
  ' ' :: entry.1.render ++ ':' :: natDigits entry.2

/-- The racking, then the yarns in action by number, then the needles with loops, front bed first
and by index. -/
def render (s : State) : Text :=
  "rack:".toList ++ intDigits s.racking ++ s.carriers.entries.flatMap s.renderCarrier ++
    s.loops.entries.flatMap renderLoops

end State

end Knitout
