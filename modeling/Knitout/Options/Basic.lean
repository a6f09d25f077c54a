import Knitout.Report

/-!
# Command-line options

The two tools are the checker, which reads a formal program and replays it, and the converter, which
lowers a knitout file. What their command lines say, before the environment is looked at.
-/

namespace Knitout

/-- The options about reporting, which both tools have. -/
structure ReportOptions where
  format : Option OutputFormat := none
  quiet : Bool := false
  errorFile : Option Text := none
  errorAppend : Bool := false
  noError : Bool := false
  deriving DecidableEq

/-- A command line of the checker. -/
structure CheckerOptions where
  input : Text
  report : ReportOptions := {}
  trace : Bool := false
  /-- How many errors to show; zero means all of them. -/
  maxErrors : Nat := 0
  deriving DecidableEq

/-- A command line of the converter. -/
structure ConverterOptions where
  input : Text
  output : Text
  report : ReportOptions := {}
  noWarn : Bool := false
  warnError : Bool := false
  check : Bool := false
  deriving DecidableEq

/-- Why a command line is refused. -/
inductive UsageError where
  | unknownArgument
  | argumentConflict
  | missingRequiredArgument
  | invalidValue
  | valueValidation
  | tooManyValues
  deriving DecidableEq

/-- Why there is nothing to run. -/
inductive Stop where
  | usage (error : UsageError)
  | help
  | version
  deriving DecidableEq

end Knitout
