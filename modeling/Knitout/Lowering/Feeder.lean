import Knitout.Lowering.Context

/-!
# Walking feeders into place

Before a carrier is used its feeder has to stand where the carriage comes from. A feeder that is
elsewhere is walked there with single misses, each of which moves it by one column. Main statement:
`Location.column_advance`.
-/

namespace Knitout

/-- The location one column further: past the same needle if the feeder faces the other way, else
past the next one. -/
def Location.advance (location : Location) (heading : Direction) : Location :=
  if location.direction = heading then
    { location with
      needle := { location.needle with index := location.needle.index + heading.step } }
  else { location with direction := heading }

/-- An advance moves the feeder by one column. -/
theorem Location.column_advance (location : Location) (heading : Direction) (racking : Int) :
    (location.advance heading).column racking = location.column racking + heading.step := by
  obtain ⟨⟨bed, index⟩, direction⟩ := location
  cases bed <;> cases direction <;> cases heading <;>
    simp [Location.advance, Location.column, Needle.column, Direction.feederOffset,
      Direction.step] <;> omega

/-- So many steps lead from a column to another one. -/
theorem Direction.step_between (here there : Int) :
    here + (there - here).natAbs *
      (if 0 < there - here then Direction.increasing else .decreasing).step = there := by
  by_cases up : 0 < there - here
  · simp only [if_pos up, step]
    omega
  · simp only [if_neg up, step]
    omega

/-- Miss a number of times in one direction. The answer is where the feeder then stands, and the
output with the misses. -/
def walk (yarn : Yarn) (heading : Direction) : Nat → Location → Output → Location × Output
  | 0, location, output => (location, output)
  | n + 1, location, output =>
    let next := location.advance heading
    walk yarn heading n next (output.emit (.operation (.miss heading next.needle yarn)))

/-- A walk ends as many columns further as there are misses. -/
theorem column_walk (yarn : Yarn) (heading : Direction) (n : Nat) (location : Location)
    (output : Output) (racking : Int) :
    (walk yarn heading n location output).1.column racking =
      location.column racking + n * heading.step := by
  induction n generalizing location output with
  | zero => simp [walk]
  | succ n ih =>
    rw [walk, ih, Location.column_advance]
    cases heading <;> simp only [Direction.step] <;> omega

namespace Context

/-- Walk a feeder in action to the column of another location. -/
def walkTo (c : Context) (carrier : Carrier) (parked attached goal : Location) : Context :=
  let distance := goal.column c.racking - parked.column c.racking
  let heading : Direction := if 0 < distance then .increasing else .decreasing
  let (location, output) := walk carrier.yarn heading distance.natAbs parked c.output
  { c with output }.setStage carrier (.active location attached)

/-- It is a walk of as many misses as there are columns in between. -/
theorem walkTo_eq (c : Context) (carrier : Carrier) (parked attached goal : Location) :
    ∃ heading n, n = (goal.column c.racking - parked.column c.racking).natAbs ∧
      parked.column c.racking + n * heading.step = goal.column c.racking ∧
      c.walkTo carrier parked attached goal =
        { c with output := (walk carrier.yarn heading n parked c.output).2 }.setStage carrier
          (.active (walk carrier.yarn heading n parked c.output).1 attached) :=
  ⟨_, _, rfl, Direction.step_between _ _, rfl⟩

/-- The `in` of a carrier whose first use comes from this location. -/
def settledIn (c : Context) (carrier : Carrier) (goal : Location) : Operation :=
  .bringIn goal.direction (.front (goal.needle.column c.racking)) carrier.yarn

/-- Get a carrier to where the carriage comes from. Its `in` is settled now if this is its first
use. -/
def position (c : Context) (goal : Location) (carrier : Carrier) : Except LoweringError Context :=
  match c.stages.get? carrier.yarn with
  | none => .error (.carrierNotIn carrier.name)
  | some (.pending slot) =>
    let output := c.output.fill slot (.operation (c.settledIn carrier goal))
    .ok ({ c with output }.setStage carrier (.active goal goal))
  | some (.active parked attached) => .ok (c.walkTo carrier parked attached goal)

/-- Get several carriers there, one after the other. -/
def positionAll (c : Context) (goal : Location) : List Carrier → Except LoweringError Context
  | [] => .ok c
  | carrier :: rest =>
    match c.position goal carrier with
    | .error e => .error e
    | .ok c => c.positionAll goal rest

end Context

end Knitout
