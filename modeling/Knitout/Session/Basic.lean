import Knitout.FileTree

/-!
# Sessions

A session is what a run of a tool has done so far: what it printed and what it changed in the tree
of files. Diagnostics go to the sink, which is opened before anything else is done.
-/

namespace Knitout

/-- An open sink. One that writes to a file keeps its own place in it, unless it appends. -/
inductive OpenSink where
  | disabled
  | stderr
  | appending (place : PathParts)
  | writing (place : PathParts) (offset : Nat)
  deriving DecidableEq

/-- What a run has done so far. -/
structure Session where
  tree : FileTree
  sink : OpenSink
  stdout : String
  stderr : String

/-- How a run ended. -/
structure Outcome where
  code : Nat
  stdout : String
  stderr : String
  tree : FileTree

namespace Session

/-- Open the sink and begin. -/
def start (tree : FileTree) (sink : Sink) : Except FileError Session :=
  match sink with
  | .disabled => .ok ⟨tree, .disabled, "", ""⟩
  | .stderr => .ok ⟨tree, .stderr, "", ""⟩
  | .file path append => do
    let (tree, place) ← tree.openFile path append
    .ok ⟨tree, if append then .appending place else .writing place 0, "", ""⟩

/-- Print to standard output. -/
def print (s : Session) (text : String) : Session :=
  { s with stdout := s.stdout ++ text }

/-- Send one line to the sink. -/
def emitLine (s : Session) (line : String) : Session :=
  let text := line ++ "\n"
  match s.sink with
  | .disabled => s
  | .stderr => { s with stderr := s.stderr ++ text }
  | .appending place => { s with tree := s.tree.append place text.toUTF8 }
  | .writing place offset =>
    { s with
      tree := s.tree.writeAt place offset text.toUTF8
      sink := .writing place (offset + text.toUTF8.size) }

/-- Send diagnostics to the sink. -/
def emit (s : Session) (format : OutputFormat) (source : List Text)
    (diagnostics : List Diagnostic) : Session :=
  diagnostics.foldl (fun s d => s.emitLine (format.render source d)) s

/-- End with an exit code. -/
def finish (s : Session) (code : Nat) : Outcome :=
  ⟨code, s.stdout, s.stderr, s.tree⟩

end Session

/-- A file that cannot be read or written, as a diagnostic; `action` is what was tried. -/
def FileError.toDiagnostic (e : FileError) (action : String) (path : Text) : Diagnostic :=
  { line := 0, severity := .fatal, kind := .files,
    message := s!"Failed to {action} {String.ofList path}: {e.message}",
    file := some (String.ofList path) }

/-- A run that could not even begin. -/
def Outcome.failed (tree : FileTree) (message : String) : Outcome :=
  ⟨1, "", message ++ "\n", tree⟩

/-- A run that ended with the command line: a refused one ends with code two. -/
def Outcome.stopped (tree : FileTree) (name usage : String) : Stop → Outcome
  | .usage _ => ⟨2, "", s!"Usage: {usage}\n", tree⟩
  | .help => ⟨0, s!"Usage: {usage}\n", "", tree⟩
  | .version => ⟨0, s!"{name} 0.1.0\n", "", tree⟩

end Knitout
