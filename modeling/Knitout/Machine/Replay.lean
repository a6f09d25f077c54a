import Knitout.Machine.Rules

/-!
# Replaying a program

Instructions are applied one after the other. One that breaks a rule is recorded and skipped, so the
next one finds the state that the rejected one found. Main statement: a replay of more instructions
continues a replay of fewer (`Replay.ofInstructions_append`).
-/

namespace Knitout

/-- An instruction that the machine refused. -/
structure Rejection where
  /-- The position among all the instructions, from zero. -/
  index : Nat
  line : Nat
  fault : Fault
  deriving DecidableEq

/-- How far a replay has come. -/
structure Replay where
  /-- The states before the present one, the first one first. -/
  earlier : Array State
  /-- The present state. -/
  final : State
  rejections : Array Rejection
  /-- How many instructions were tried. -/
  tried : Nat
  deriving DecidableEq

namespace Replay

/-- Nothing tried yet. -/
def start : Replay := ⟨#[], .initial, #[], 0⟩

/-- Try one more instruction. -/
def advance (r : Replay) (instruction : Instruction) : Replay :=
  match r.final.apply instruction.operation with
  | .ok next => ⟨r.earlier.push r.final, next, r.rejections, r.tried + 1⟩
  | .error fault =>
    { r with
      rejections := r.rejections.push ⟨r.tried, instruction.line, fault⟩
      tried := r.tried + 1 }

theorem advance_ok {r : Replay} {instruction : Instruction} {next : State}
    (applied : r.final.apply instruction.operation = .ok next) :
    r.advance instruction = ⟨r.earlier.push r.final, next, r.rejections, r.tried + 1⟩ := by
  simp only [advance, applied]

theorem advance_error {r : Replay} {instruction : Instruction} {fault : Fault}
    (refused : r.final.apply instruction.operation = .error fault) :
    r.advance instruction =
      ⟨r.earlier, r.final, r.rejections.push ⟨r.tried, instruction.line, fault⟩, r.tried + 1⟩ := by
  simp only [advance, refused]

/-- Try all instructions in order, from the initial state. -/
def ofInstructions (instructions : List Instruction) : Replay :=
  instructions.foldl advance start

/-- Every state that the machine was in, the initial one first. -/
def trace (r : Replay) : Array State :=
  r.earlier.push r.final

/-- A replay of more instructions continues a replay of fewer. -/
theorem ofInstructions_append (xs ys : List Instruction) :
    ofInstructions (xs ++ ys) = ys.foldl advance (ofInstructions xs) :=
  List.foldl_append

end Replay

end Knitout
