import Knitout.Json

/-!
# Diagnostics

A diagnostic says what is wrong, how bad it is, which part of the work found it, and where. It is
shown on one line, with the line of the source that it is about, or as a JSON object.
-/

namespace Knitout

/-- How bad it is. -/
inductive Severity where
  /-- The result stands. -/
  | warning
  /-- The line or instruction is skipped and the run goes on. -/
  | error
  /-- The run stops here. -/
  | fatal
  deriving DecidableEq

/-- Which part of the work found it. -/
inductive Kind where
  | reading
  | replay
  | header
  | extension
  | carrier
  | lowering
  | files
  | options
  deriving DecidableEq

/-- Something to report. Line zero means that it is about no line in particular. -/
structure Diagnostic where
  line : Nat
  severity : Severity
  kind : Kind
  message : String
  file : Option String := none
  notes : List String := []
  deriving DecidableEq

namespace Severity

def word : Severity → String
  | .warning => "warning"
  | .error => "error"
  | .fatal => "fatal"

def label : Severity → String
  | .warning => "WARNING"
  | .error => "ERROR"
  | .fatal => "FATAL"

/-- Errors and fatal errors, not warnings. -/
def isError : Severity → Bool
  | .warning => false
  | .error | .fatal => true

/-- The worse of two. -/
def max : Severity → Severity → Severity
  | .fatal, _ | _, .fatal => .fatal
  | .error, _ | _, .error => .error
  | .warning, .warning => .warning

end Severity

/-- The line of the source that a diagnostic is about, behind its number; nothing for line zero. -/
def contextLine? (source : List Text) (line : Nat) : Option String :=
  match line with
  | 0 => none
  | index + 1 =>
    let number := natDigits line
    let margin := List.replicate (5 - number.length) ' ' ++ number
    let shown := (source[index]?).getD "<source unavailable>".toList
    some (String.ofList (margin ++ " | ".toList ++ shown))

namespace Diagnostic

/-- The code of a diagnostic. Trouble with files and options keeps its code, lowering shares one
with everything fatal, and the rest goes by kind. -/
def code (d : Diagnostic) : String :=
  match d.kind, d.severity with
  | .files, _ => "fio001"
  | .options, _ => "cli001"
  | .lowering, _ | _, .fatal => "k2f101"
  | .reading, _ => "fnp001"
  | .replay, _ => "fnv001"
  | .header, _ => "k2f001"
  | .extension, _ => "k2f002"
  | .carrier, _ => "k2f003"

/-- The diagnostic, said to be about a file unless it already names one. -/
def withFallbackFile (d : Diagnostic) (file : String) : Diagnostic :=
  { d with file := some (d.file.getD file) }

/-- The diagnostic on one line. -/
def summary (d : Diagnostic) : String :=
  s!"{d.line}: {d.severity.label} [{d.code}] - {d.message}"

/-- The diagnostic with the line that it is about and its notes. -/
def describe (d : Diagnostic) (source : List Text) : String :=
  let place := match d.file with
    | some file => s!"{file}:{d.line}"
    | none => s!"{d.line}"
  let heading := s!"{place}: {d.severity.label} [{d.code}]"
  "\n".intercalate <|
    heading :: (contextLine? source d.line).toList ++ d.notes.map ("note: " ++ ·) ++
      [s!"{d.severity.label}: {d.message}"]

/-- The diagnostic as a JSON object. -/
def toJson (d : Diagnostic) : Json :=
  .ofFields [
    ("code".toList, .string d.code.toList),
    ("severity".toList, .string d.severity.word.toList),
    ("message".toList, .string d.message.toList),
    ("file".toList, match d.file with
      | some file => .string file.toList
      | none => .null),
    ("line".toList, .number d.line),
    ("notes".toList, .array (d.notes.map fun note => .string note.toList))]

end Diagnostic

end Knitout
