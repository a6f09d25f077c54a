import Knitout.Machine.Snapshot
import Knitout.Options.Parser
import Knitout.Program
import Knitout.Session.Basic

/-!
# Running the checker

The checker reads a formal program, replays it, reports what is wrong and sums up. It fails if it
found an error, whatever it was told to show.
-/

namespace Knitout

namespace Checker

/-- The trace, one state per line behind its number, or all states as one JSON object. -/
def traceText (format : OutputFormat) (checked : Checked) : String :=
  match format with
  | .json =>
    let states := checked.replay.trace.toList.map State.toJson
    String.ofList (Json.ofFields [("trace".toList, .array states)]).render ++ "\n"
  | .text =>
    let line := fun (state, index) =>
      let number := natDigits index
      String.ofList (List.replicate (5 - number.length) ' ' ++ number ++ " | ".toList ++
        State.render state) ++ "\n"
    String.join (checked.replay.trace.toList.zipIdx.map line)

/-- The summary on one line. -/
def summaryText (settings : CheckerSettings) (checked : Checked) (errors : Nat) : String :=
  let instructions := checked.program.instructions.length
  let syntaxErrors := checked.program.errors.length
  let faults := checked.replay.rejections.size
  let states := checked.replay.trace.size
  match settings.report.format with
  | .json =>
    let fields : List (Text × Json) := [
      ("file".toList, .string settings.input),
      ("instructions".toList, .number instructions),
      ("syntax_errors".toList, .number syntaxErrors),
      ("validation_errors".toList, .number faults),
      ("states".toList, .number states),
      ("ok".toList, .bool (errors == 0))]
    String.ofList (Json.ofFields fields).render ++ "\n"
  | .text =>
    let input := String.ofList settings.input
    s!"{input}: {instructions} instructions, {syntaxErrors} syntax errors, {faults} validation errors, {states} states\n"

/-- The diagnostics of a checked program, about its file. -/
def diagnostics (settings : CheckerSettings) (checked : Checked) : List Diagnostic :=
  checked.diagnostics.map fun d => d.withFallbackFile (String.ofList settings.input)

/-- Report on a program whose text was read. -/
def report (settings : CheckerSettings) (session : Session) (text : Text) : Outcome :=
  let format := settings.report.format
  let checked := check text
  let found := diagnostics settings checked
  let errors := Report.errorCount found
  let (shown, hidden) := Report.limitErrors settings.maxErrors found
  let session := session.emit format (lines text) shown
  let session :=
    if 0 < hidden && format = .text then
      session.emitLine s!"... {hidden} more errors not shown"
    else session
  let session :=
    if settings.trace then session.print (traceText format checked) else session
  let session :=
    if settings.report.quiet then session
    else session.print (summaryText settings checked errors)
  session.finish (if errors = 0 then 0 else 1)

/-- Run the checker. -/
def run (settings : CheckerSettings) (tree : FileTree) : Outcome :=
  match Session.start tree settings.report.sink with
  | .error e => .failed tree s!"Failed to open diagnostics sink: {e.message}"
  | .ok session =>
    match session.tree.readText settings.input with
    | .error e =>
      (session.emit settings.report.format [] [e.toDiagnostic "read" settings.input]).finish 1
    | .ok text => report settings session text

/-- All the files that a command line lets the checker read or write. -/
def paths (arguments : List Text) (env : Environment) : List Text :=
  match CheckerOptions.ofArguments arguments with
  | .error _ => []
  | .ok options =>
    match CheckerSettings.resolve options env with
    | .error _ => []
    | .ok settings => settings.paths

/-- Run the checker with a command line. -/
def runArguments (arguments : List Text) (env : Environment) (tree : FileTree) : Outcome :=
  match CheckerOptions.ofArguments arguments with
  | .error stop => .stopped tree "fnitout" "fnitout [OPTIONS] <INPUT>" stop
  | .ok options =>
    match CheckerSettings.resolve options env with
    | .error e => .failed tree e.message
    | .ok settings => run settings tree

end Checker

end Knitout
