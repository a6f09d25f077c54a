import Knitout.Instruction.Parser
import Knitout.Instruction.Printer
import Knitout.Machine.Replay
import Knitout.Report

/-!
# Checking a program

A program is read line by line: each line gives an instruction, an error or nothing, whatever the
other lines are. What was read is replayed, and both kinds of trouble are reported.
-/

namespace Knitout

/-- A line that is not an instruction. -/
structure LineError where
  line : Nat
  error : SyntaxError
  deriving DecidableEq

/-- What reading a document gave, in the order of the lines. -/
structure Program where
  instructions : List Instruction
  errors : List LineError
  deriving DecidableEq

namespace Program

/-- What reading each line gave, with the number of the line. -/
def outcomes (lines : List Text) : List (Nat × Except SyntaxError (Option Instruction)) :=
  (lines.zipIdx 1).map fun (line, number) => (number, Instruction.ofLine? line number)

/-- Read every line; the first one has number one. -/
def ofLines (lines : List Text) : Program :=
  let read := outcomes lines
  { instructions := read.filterMap fun
      | (_, .ok instruction?) => instruction?
      | (_, .error _) => none
    errors := read.filterMap fun
      | (_, .ok _) => none
      | (number, .error error) => some ⟨number, error⟩ }

/-- Read a document. -/
def ofText (text : Text) : Program :=
  ofLines (lines text)

end Program

/-- A program that was read and replayed. -/
structure Checked where
  program : Program
  replay : Replay
  deriving DecidableEq

/-- Read a document and replay what was read. -/
def check (text : Text) : Checked :=
  let program := Program.ofText text
  ⟨program, .ofInstructions program.instructions⟩

/-- The diagnostic for a line that is not an instruction. -/
def LineError.toDiagnostic (e : LineError) : Diagnostic :=
  { line := e.line, severity := .error, kind := .reading, message := e.error.message }

/-- The diagnostic for a refused instruction; its note quotes the instruction if it is known. -/
def Rejection.toDiagnostic (r : Rejection) (instruction? : Option Instruction) : Diagnostic :=
  let note := match instruction? with
    | some instruction => s!"instruction {r.index}: {String.ofList instruction.operation.render}"
    | none => s!"instruction {r.index}"
  { line := r.line, severity := .error, kind := .replay, message := r.fault.message,
    notes := [note] }

namespace Checked

/-- Nothing went wrong. -/
def isClean (c : Checked) : Bool :=
  c.program.errors.isEmpty && c.replay.rejections.isEmpty

/-- First the lines that are not instructions, then the refused instructions, each in order. -/
def diagnostics (c : Checked) : List Diagnostic :=
  let instructions := c.program.instructions.toArray
  c.program.errors.map LineError.toDiagnostic ++
    c.replay.rejections.toList.map fun r => r.toDiagnostic instructions[r.index]?

end Checked

end Knitout
