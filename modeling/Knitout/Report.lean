import Knitout.Diagnostic

/-!
# Reports

What is done with a list of diagnostics: counting them, showing only the first errors, and rendering
them one per line or paragraph.
-/

namespace Knitout

/-- How diagnostics and summaries are written. -/
inductive OutputFormat where
  | text
  | json
  deriving DecidableEq

/-- The text of a diagnostic in a format; only text shows the source. -/
def OutputFormat.render (format : OutputFormat) (source : List Text) (d : Diagnostic) : String :=
  match format with
  | .text => d.describe source
  | .json => String.ofList d.toJson.render

namespace Report

/-- How many of the diagnostics are errors, fatal or not. -/
def errorCount (diagnostics : List Diagnostic) : Nat :=
  diagnostics.countP fun d => d.severity.isError

/-- How many of the diagnostics are warnings. -/
def warningCount (diagnostics : List Diagnostic) : Nat :=
  diagnostics.countP fun d => !d.severity.isError

/-- The worst severity, if there are diagnostics. -/
def maxSeverity? : List Diagnostic → Option Severity
  | [] => none
  | d :: rest => some (rest.foldl (fun worst d => worst.max d.severity) d.severity)

/-- What a limit on the errors has made of the diagnostics so far. -/
structure Selection where
  shown : Array Diagnostic := #[]
  /-- How many errors there were, shown or left out. -/
  errors : Nat := 0
  /-- How many errors are left out. -/
  hidden : Nat := 0

/-- One more diagnostic: an error past the limit is left out, all else is shown. -/
def Selection.add (limit : Nat) (s : Selection) (d : Diagnostic) : Selection :=
  if d.severity.isError then
    let errors := s.errors + 1
    if limit < errors then { s with errors, hidden := s.hidden + 1 }
    else { s with errors, shown := s.shown.push d }
  else { s with shown := s.shown.push d }

/-- All the warnings and the first errors up to a limit, in order, and how many errors are left
out. -/
def limitErrors (limit : Option Nat) (diagnostics : List Diagnostic) : List Diagnostic × Nat :=
  match limit with
  | none => (diagnostics, 0)
  | some limit =>
    let selection := diagnostics.foldl (Selection.add limit) {}
    (selection.shown.toList, selection.hidden)

end Report

end Knitout
