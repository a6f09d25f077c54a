import Knitout.Options.Basic

/-!
# Settings

The command line and the environment together say how a tool runs. A variable of the environment
counts only where the command line says nothing, but one that cannot be read is an error all the
same.
-/

namespace Knitout

/-- The variables that the tools look at. -/
structure Environment where
  quiet : Option Text := none
  format : Option Text := none
  errorFile : Option Text := none
  noWarn : Option Text := none
  warnError : Option Text := none
  deriving DecidableEq

/-- Where diagnostics go. -/
inductive Sink where
  | stderr
  | disabled
  | file (path : Text) (append : Bool)
  deriving DecidableEq

/-- Where the lowered program goes. -/
inductive Target where
  | stdout
  | file (path : Text)
  deriving DecidableEq

/-- How to report. -/
structure ReportSettings where
  quiet : Bool
  format : OutputFormat
  sink : Sink
  deriving DecidableEq

/-- How the checker runs. -/
structure CheckerSettings where
  input : Text
  report : ReportSettings
  trace : Bool
  maxErrors : Option Nat
  deriving DecidableEq

/-- How the converter runs. -/
structure ConverterSettings where
  input : Text
  output : Target
  report : ReportSettings
  emitWarnings : Bool
  warningsAsErrors : Bool
  check : Bool
  deriving DecidableEq

/-- Why a tool cannot run. -/
inductive SettingsError where
  | badBoolean (name : String) (value : Text)
  | badFormat (value : Text)
  | emptyInput
  | emptyOutput
  | outputIsInput
  deriving DecidableEq

namespace SettingsError

/-- The text of an error. -/
def message : SettingsError → String
  | .badBoolean name value => s!"Invalid boolean value for {name}: {String.ofList value}"
  | .badFormat value =>
    s!"Invalid FNITOUT_FORMAT value: {String.ofList value}. Expected one of: text, json"
  | .emptyInput => "INPUT must not be empty"
  | .emptyOutput => "OUTPUT must not be empty"
  | .outputIsInput => "OUTPUT must differ from INPUT"

def toDiagnostic (e : SettingsError) : Diagnostic :=
  { line := 0, severity := .fatal, kind := .options, message := e.message }

end SettingsError

/-! ## Paths -/

/-- The parts of a path between slashes. Empty parts do not count, nor does a single point unless
it is the first part of a path that does not begin at the root. -/
structure PathParts where
  absolute : Bool
  parts : List Text
  deriving DecidableEq

/-- The parts of a path. -/
def PathParts.ofText (path : Text) : PathParts :=
  let pieces := (path.splitOn '/').filter fun piece => !piece.isEmpty
  let isNamed (piece : Text) : Bool := piece != ['.']
  if path.head? = some '/' then ⟨true, pieces.filter isNamed⟩
  else ⟨false, pieces.take 1 ++ (pieces.drop 1).filter isNamed⟩

/-- The parts with a slash between any two; a single point for no parts. -/
def PathParts.render (path : PathParts) : Text :=
  let body := ['/'].intercalate path.parts
  if path.absolute then '/' :: body else if body.isEmpty then ['.'] else body

/-! ## Variables -/

/-- ASCII letters in lower case. -/
def lowerCase (value : Text) : Text :=
  value.map Char.toLower

/-- A variable that says yes or no; blank is as good as unset. -/
def readBoolean (name : String) (value : Option Text) : Except SettingsError (Option Bool) :=
  match value.map fun v => lowerCase (trim v) with
  | none => .ok none
  | some word =>
    if ["1".toList, "true".toList, "yes".toList, "on".toList].contains word then .ok (some true)
    else if ["0".toList, "false".toList, "no".toList, "off".toList].contains word then
      .ok (some false)
    else if word.isEmpty then .ok none
    else .error (.badBoolean name word)

/-- The variable that names the output format. -/
def readFormat (value : Option Text) : Except SettingsError (Option OutputFormat) :=
  match value.map fun v => lowerCase (trim v) with
  | none => .ok none
  | some word =>
    if word.isEmpty then .ok none
    else if word = "text".toList then .ok (some .text)
    else if word = "json".toList then .ok (some .json)
    else .error (.badFormat word)

/-- The variable that names a file; blank is as good as unset. -/
def readPath (value : Option Text) : Option Text :=
  match value.map trim with
  | some [] => none
  | path => path

/-! ## Merging -/

/-- How to report, from the options and the environment. -/
def ReportSettings.resolve (options : ReportOptions) (env : Environment) :
    Except SettingsError ReportSettings := do
  let quiet ← readBoolean "FNITOUT_QUIET" env.quiet
  let format ← readFormat env.format
  let sink :=
    if options.noError then Sink.disabled
    else
      match options.errorFile.or (readPath env.errorFile) with
      | some path => .file path options.errorAppend
      | none => .stderr
  .ok {
    quiet := options.quiet || quiet.getD false
    format := (options.format.or format).getD .text
    sink }

/-- How the checker runs. -/
def CheckerSettings.resolve (options : CheckerOptions) (env : Environment) :
    Except SettingsError CheckerSettings := do
  let report ← ReportSettings.resolve options.report env
  if options.input.isEmpty then .error .emptyInput
  else
    .ok {
      input := options.input
      report
      trace := options.trace
      maxErrors := if options.maxErrors = 0 then none else some options.maxErrors }

/-- How the converter runs. A dash as output means standard output. -/
def ConverterSettings.resolve (options : ConverterOptions) (env : Environment) :
    Except SettingsError ConverterSettings := do
  let report ← ReportSettings.resolve options.report env
  let envNoWarn ← readBoolean "FNITOUT_NO_WARN" env.noWarn
  let envWarnError ← readBoolean "FNITOUT_WERROR" env.warnError
  let noWarn := options.noWarn || (!options.warnError && envNoWarn.getD false)
  let warnError := options.warnError || (!noWarn && envWarnError.getD false)
  if options.output.isEmpty then .error .emptyOutput
  else
    let output := if options.output = ['-'] then Target.stdout else .file options.output
    if output ≠ .stdout && PathParts.ofText options.output = PathParts.ofText options.input then
      .error .outputIsInput
    else
      .ok {
        input := options.input
        output
        report
        emitWarnings := !noWarn && !report.quiet
        warningsAsErrors := warnError
        check := options.check }

/-! ## The files of a run -/

/-- The file that diagnostics go to, if they go to one. -/
def Sink.paths : Sink → List Text
  | .file path _ => [path]
  | .stderr | .disabled => []

/-- The file that the lowered program goes to, if it goes to one. -/
def Target.paths : Target → List Text
  | .file path => [path]
  | .stdout => []

/-- All the files that the checker may read or write. -/
def CheckerSettings.paths (s : CheckerSettings) : List Text :=
  s.input :: s.report.sink.paths

/-- All the files that the converter may read or write. -/
def ConverterSettings.paths (s : ConverterSettings) : List Text :=
  s.input :: s.output.paths ++ s.report.sink.paths

end Knitout
