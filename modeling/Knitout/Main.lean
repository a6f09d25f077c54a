import Knitout.Session.Checker
import Knitout.Session.Converter

/-!
# The command line

The first argument names the tool and the others are its own. What the run may read is loaded
first, the run itself is a function of that, and what it changed is written back.
-/

namespace Knitout

/-- One of the two tools: what it may touch and what it does. -/
structure Tool where
  paths : List Text → Environment → List Text
  run : List Text → Environment → FileTree → Outcome

/-- The tool with a name. -/
def Tool.ofName? (name : String) : Option Tool :=
  if name = "fnitout" then some ⟨Checker.paths, Checker.runArguments⟩
  else if name = "k2f" then some ⟨Converter.paths, Converter.runArguments⟩
  else none

/-- The variables of the environment that the tools look at. -/
def readEnvironment : IO Environment := do
  let value (name : String) : IO (Option Text) :=
    return (← IO.getEnv name).map String.toList
  return {
    quiet := ← value "FNITOUT_QUIET"
    format := ← value "FNITOUT_FORMAT"
    errorFile := ← value "FNITOUT_ERROR_FILE"
    noWarn := ← value "FNITOUT_NO_WARN"
    warnError := ← value "FNITOUT_WERROR" }

/-- What is at a place; what cannot be read counts as nothing, unless it is a folder. -/
def loadNode (place : PathParts) : IO (Option Node) := do
  try
    return some (.file (← IO.FS.readBinFile (String.ofList place.render)))
  catch
    | .inappropriateType _ 21 _ => return some .folder
    | _ => return none

/-- What is at all the places that following the paths may look at. -/
def loadTree (paths : List Text) : IO FileTree := do
  (paths.flatMap FileTree.places).eraseDups.foldlM (fun tree place => do
    match ← loadNode place with
    | some node => return tree.set place node
    | none => return tree) FileTree.empty

/-- Write the files that a run changed. -/
def storeChanges (paths : List Text) (old new : FileTree) : IO Unit := do
  for place in (paths.flatMap FileTree.places).eraseDups do
    match old.node place, new.node place with
    | some (.file before), some (.file now) =>
      unless before.data = now.data do
        IO.FS.writeBinFile (String.ofList place.render) now
    | none, some (.file now) => IO.FS.writeBinFile (String.ofList place.render) now
    | _, _ => pure ()

/-- Run a tool on the real files. -/
def Tool.perform (tool : Tool) (arguments : List String) : IO UInt32 := do
  let arguments := arguments.map String.toList
  let env ← readEnvironment
  let paths := tool.paths arguments env
  let tree ← loadTree paths
  let outcome := tool.run arguments env tree
  storeChanges paths tree outcome.tree
  IO.print outcome.stdout
  IO.eprint outcome.stderr
  return outcome.code.toUInt32

end Knitout

def main (arguments : List String) : IO UInt32 := do
  match arguments with
  | name :: rest =>
    match Knitout.Tool.ofName? name with
    | some tool => tool.perform rest
    | none =>
      IO.eprintln s!"unknown tool {name}, expected fnitout or k2f"
      return 2
  | [] =>
    IO.eprintln "expected a tool, fnitout or k2f"
    return 2
