import Knitout.Lowering.Basic
import Knitout.Options.Parser
import Knitout.Program
import Knitout.Session.Basic

/-!
# Running the converter

The converter lowers a knitout file and writes the result, or reports why it stopped and writes
nothing. On request it checks what it wrote.
-/

namespace Knitout

namespace Converter

/-- What the output is called in diagnostics. -/
def outputName : Target → Text
  | .stdout => "<stdout>".toList
  | .file path => path

/-- Write the lowered program. -/
def write (session : Session) (target : Target) (text : Text) :
    Except FileError Session :=
  match target with
  | .stdout => .ok (session.print (String.ofList text))
  | .file path => do
    let tree ← session.tree.write path (String.ofList text).toUTF8
    .ok { session with tree }

/-- Check the lowered program and report on it; the answer says whether it is clean. -/
def checkOutput (settings : ConverterSettings) (session : Session) (lowered : Lowered) :
    Session × Bool :=
  let checked := check lowered.text
  let name := String.ofList (outputName settings.output)
  let found := checked.diagnostics.map fun d => d.withFallbackFile name
  (session.emit settings.report.format lowered.lines found, checked.isClean)

/-- Report on a lowering that succeeded, and write its result. -/
def succeed (settings : ConverterSettings) (session : Session) (source : List Text)
    (lowered : Lowered) : Outcome :=
  let format := settings.report.format
  let warnings := lowered.warnings.map fun d => d.withFallbackFile (String.ofList settings.input)
  let session := if settings.emitWarnings then session.emit format source warnings else session
  match write session settings.output lowered.text with
  | .error e =>
    (session.emit format [] [e.toDiagnostic "write" (outputName settings.output)]).finish 1
  | .ok session =>
    let warned := settings.warningsAsErrors && 0 < Report.warningCount lowered.warnings
    let (session, clean) :=
      if settings.check then checkOutput settings session lowered else (session, true)
    session.finish (if warned || !clean then 1 else 0)

/-- Report on a lowering that stopped. -/
def fail (settings : ConverterSettings) (session : Session) (source : List Text)
    (failure : LowerFailure) : Outcome :=
  let format := settings.report.format
  let shown := failure.diagnostics.filter fun d =>
    settings.emitWarnings || d.severity != .warning
  let found := shown.map fun d => d.withFallbackFile (String.ofList settings.input)
  let session := session.emit format source found
  let session :=
    if format = .text then
      session.emitLine s!"{String.ofList settings.input}: conversion stopped, no output written"
    else session
  session.finish 1

/-- Run the converter. -/
def run (settings : ConverterSettings) (tree : FileTree) : Outcome :=
  match Session.start tree settings.report.sink with
  | .error e => .failed tree s!"Failed to open diagnostics sink: {e.message}"
  | .ok session =>
    match session.tree.readText settings.input with
    | .error e =>
      (session.emit settings.report.format [] [e.toDiagnostic "read" settings.input]).finish 1
    | .ok text =>
      let source := lines text
      match lowerLines source with
      | .ok lowered => succeed settings session source lowered
      | .error failure => fail settings session source failure

/-- All the files that a command line lets the converter read or write. -/
def paths (arguments : List Text) (env : Environment) : List Text :=
  match ConverterOptions.ofArguments arguments with
  | .error _ => []
  | .ok options =>
    match ConverterSettings.resolve options env with
    | .error _ => []
    | .ok settings => settings.paths

/-- Run the converter with a command line. -/
def runArguments (arguments : List Text) (env : Environment) (tree : FileTree) : Outcome :=
  match ConverterOptions.ofArguments arguments with
  | .error stop => .stopped tree "k2f" "k2f [OPTIONS] <INPUT> <OUTPUT>" stop
  | .ok options =>
    match ConverterSettings.resolve options env with
    | .error e => .failed tree e.message
    | .ok settings => run settings tree

end Converter

end Knitout
