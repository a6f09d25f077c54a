import Knitout.Machine.State

/-!
# The rules of the machine

What each operation needs and what it does. The rules are stated for any range of columns; the
machine that programs run on has the columns of signed 64-bit words (`State.apply`). An operation
that breaks a rule leaves no state behind.
-/

namespace Knitout

/-- A rule that an operation breaks. -/
inductive Fault where
  | yarnNotInAction (yarn : Yarn)
  | yarnMisplaced (yarn : Yarn) (expected actual : Int)
  | sameBed (needle target : Needle)
  | misaligned (needle target : Needle) (racking : Int)
  | dropEmpty (needle : Needle)
  | rackStep (old new : Int)
  | alreadyIn (yarn : Yarn)
  | outOfRange (needle : Needle) (racking : Int)
  deriving DecidableEq

/-- The text of a fault. -/
def Fault.message : Fault → String
  | .yarnNotInAction yarn => s!"Using yarn {yarn}, but it is not in action."
  | .yarnMisplaced yarn expected actual =>
    s!"Expected yarn {yarn} at {expected}, but it is at {actual}."
  | .sameBed needle target =>
    s!"Needle '{String.ofList needle.render}' and target '{String.ofList target.render}' are not on opposite beds."
  | .misaligned needle target racking =>
    s!"Needle '{String.ofList needle.render}' and target '{String.ofList target.render}' are not aligned at racking {racking}."
  | .dropEmpty needle =>
    s!"Can't drop {String.ofList needle.render} because it contains no loops."
  | .rackStep old new => s!"Change in racking isn't by +/-1 -- from {old} to {new}."
  | .alreadyIn yarn => s!"Can't bring in yarn {yarn} because it is already in."
  | .outOfRange needle racking =>
    s!"Needle '{String.ofList needle.render}' is out of range at racking {racking}."

/-- The yarns of a list of strands. -/
def yarnsOf (strands : List Strand) : List Yarn :=
  strands.map (·.yarn)

namespace State

/-- Where a feeder stands that just passed a needle. Both the needle's column and the feeder's have
to be columns of the machine. Travelling down, the feeder stands at the needle's own column. -/
def feederColumn (fits : Int → Bool) (s : State) (needle : Needle) (direction : Direction) :
    Except Fault Int :=
  let column := needle.column s.racking
  if fits column && fits (column + direction.feederOffset) then
    .ok (column + direction.feederOffset)
  else .error (.outOfRange needle s.racking)

/-- The feeder of a yarn has to stand at a column. -/
def checkCarrier (s : State) (expected : Int) (yarn : Yarn) : Except Fault Unit :=
  match s.carriers.get? yarn with
  | none => .error (.yarnNotInAction yarn)
  | some actual =>
    if actual = expected then .ok () else .error (.yarnMisplaced yarn expected actual)

/-- All the feeders have to stand at a column; the first one that does not is the fault. -/
def checkCarriers (s : State) (expected : Int) : List Yarn → Except Fault Unit
  | [] => .ok ()
  | yarn :: rest => do
    s.checkCarrier expected yarn
    s.checkCarriers expected rest

/-- The feeders have to stand where a carriage comes from that passes the needle. -/
def checkApproach (fits : Int → Bool) (s : State) (needle : Needle) (direction : Direction)
    (yarns : List Yarn) : Except Fault Unit := do
  let expected ← s.feederColumn fits needle direction.opposite
  s.checkCarriers expected yarns

/-- Loops move between needles of opposite beds that share a column. -/
def checkAligned (fits : Int → Bool) (s : State) (needle target : Needle) : Except Fault Unit :=
  if needle.bed = target.bed then .error (.sameBed needle target)
  else do
    let here ← s.feederColumn fits needle .decreasing
    let there ← s.feederColumn fits target .decreasing
    if here = there then .ok () else .error (.misaligned needle target s.racking)

/-- Take the feeders past the needle. -/
def carry (fits : Int → Bool) (s : State) (needle : Needle) (direction : Direction)
    (yarns : List Yarn) : Except Fault State := do
  let column ← s.feederColumn fits needle direction
  .ok (s.park yarns column)

/-- The state after an operation, or the first rule that it breaks. -/
def applyWithin (fits : Int → Bool) (s : State) : Operation → Except Fault State
  | .knit direction needle _ strands => do
    let yarns := yarnsOf strands
    s.checkApproach fits needle direction yarns
    let s := (s.setLoops needle yarns.length).attach yarns ⟨needle, direction⟩
    s.carry fits needle direction yarns
  | .tuck direction needle _ strands => do
    let yarns := yarnsOf strands
    s.checkApproach fits needle direction yarns
    let count := match s.loops.get? needle with
      | some count => count + 1
      | none => yarns.length
    let s := if yarns.isEmpty then s else { s with loops := s.loops.insert needle count }
    (s.attach yarns ⟨needle, direction⟩).carry fits needle direction yarns
  | .split direction needle target _ strands => do
    let yarns := yarnsOf strands
    s.checkAligned fits needle target
    s.checkApproach fits needle direction yarns
    let s := s.moveLoops needle target
    let s := if yarns.isEmpty then s
      else { s with loops := s.loops.insert needle yarns.length }
    let s := (s.moveAttachments needle target).attach yarns ⟨needle, direction⟩
    s.carry fits needle direction yarns
  | .miss direction needle yarn => do
    s.checkApproach fits needle direction [yarn]
    s.carry fits needle direction [yarn]
  | .bringIn direction needle yarn =>
    if s.carriers.contains yarn then .error (.alreadyIn yarn)
    else s.carry fits needle direction [yarn]
  | .bringOut direction needle yarn => do
    let expected ← s.feederColumn fits needle direction
    s.checkCarrier expected yarn
    .ok { s with
      carriers := s.carriers.erase yarn
      attachments := s.attachments.erase yarn }
  | .drop needle =>
    if s.loopCount needle = 0 then .error (.dropEmpty needle)
    else .ok { s with loops := s.loops.erase needle }
  | .transfer needle target => do
    s.checkAligned fits needle target
    .ok ((s.moveLoops needle target).moveAttachments needle target)
  | .rack racking =>
    if (s.racking - racking).natAbs = 1 then .ok { s with racking }
    else .error (.rackStep s.racking racking)

/-- The state of the machine after an operation: columns are signed 64-bit words. -/
def apply (s : State) (operation : Operation) : Except Fault State :=
  s.applyWithin isWord operation

end State

end Knitout
