import Knitout.Settings

/-!
# Trees of files

What the tools see of a file system: at each place there is a file, a folder or nothing. A path is
followed part by part from the working folder or from the root, and every part but the last has to
be a folder.
-/

namespace Knitout

/-- Why a file cannot be read or written. -/
inductive FileError where
  | notFound
  | notFolder
  | isFolder
  | nameTooLong
  | notText
  deriving DecidableEq

/-- The text of an error, as the operating system words it. -/
def FileError.message : FileError → String
  | .notFound => "No such file or directory (os error 2)"
  | .notFolder => "Not a directory (os error 20)"
  | .isFolder => "Is a directory (os error 21)"
  | .nameTooLong => "File name too long (os error 36)"
  | .notText => "stream did not contain valid UTF-8"

/-- What is at a place. -/
inductive Node where
  | file (content : ByteArray)
  | folder

/-- What is at each place; a place is a path without points and empty parts. -/
structure FileTree where
  node : PathParts → Option Node

namespace FileTree

/-- The tree that only has the working folder. -/
def empty : FileTree where
  node place := if place = ⟨false, []⟩ then some .folder else none

/-- The tree with something else at one place. -/
def set (t : FileTree) (place : PathParts) (node : Node) : FileTree where
  node other := if other = place then some node else t.node other

/-- The longest name, in bytes of UTF-8. -/
def maxNameBytes : Nat := 255

/-- The place that one part of a path leads to: a point stays, two points go up. -/
def enter (place : PathParts) (part : Text) : PathParts :=
  if part = ['.'] then place
  else if part = ['.', '.'] then
    match place.parts.getLast? with
    | none => if place.absolute then place else { place with parts := [['.', '.']] }
    | some last =>
      if last = ['.', '.'] then { place with parts := place.parts ++ [['.', '.']] }
      else { place with parts := place.parts.dropLast }
  else { place with parts := place.parts ++ [part] }

/-- Follow the parts of a path from a place. -/
def follow (t : FileTree) (place : PathParts) : List Text → Except FileError PathParts
  | [] => .ok place
  | part :: rest =>
    match t.node place with
    | none => .error .notFound
    | some (.file _) => .error .notFolder
    | some .folder =>
      if maxNameBytes < (String.ofList part).utf8ByteSize then .error .nameTooLong
      else t.follow (enter place part) rest

/-- Where a path begins: at the root or in the working folder. -/
def origin (path : Text) : PathParts :=
  ⟨path.head? = some '/', []⟩

/-- The names between the slashes of a path. -/
def names (path : Text) : List Text :=
  (path.splitOn '/').filter fun part => !part.isEmpty

/-- The longest path, in bytes of UTF-8. -/
def maxPathBytes : Nat := 4095

/-- The place that a path leads to. -/
def locate (t : FileTree) (path : Text) : Except FileError PathParts :=
  if path.isEmpty then .error .notFound
  else if maxPathBytes < (String.ofList path).utf8ByteSize then .error .nameTooLong
  else t.follow (origin path) (names path)

/-- All the places on the way from a place, the last one included. -/
def placesFrom (place : PathParts) : List Text → List PathParts
  | [] => [place]
  | part :: rest => place :: placesFrom (enter place part) rest

/-- All the places that following a path may look at. -/
def places (path : Text) : List PathParts :=
  placesFrom (origin path) (names path)

/-- Whether a path ends with a slash, so that it can only name a folder. -/
def namesFolder (path : Text) : Bool :=
  path.getLast? = some '/'

/-- The bytes of a file. -/
def read (t : FileTree) (path : Text) : Except FileError ByteArray := do
  let place ← t.locate path
  match t.node place with
  | none => .error .notFound
  | some .folder => .error .isFolder
  | some (.file content) => if namesFolder path then .error .notFolder else .ok content

/-- The text of a file. -/
def readText (t : FileTree) (path : Text) : Except FileError Text := do
  let bytes ← t.read path
  match String.fromUTF8? bytes with
  | some text => .ok text.toList
  | none => .error .notText

/-- Make sure that there is a file to write to; the answer is its place. A new file is empty, and
so is an old one if its bytes are not kept. -/
def openFile (t : FileTree) (path : Text) (keep : Bool) :
    Except FileError (FileTree × PathParts) := do
  let place ← t.locate path
  match t.node place with
  | some .folder => .error .isFolder
  | some (.file _) =>
    if namesFolder path then .error .isFolder
    else if keep then .ok (t, place)
    else .ok (t.set place (.file .empty), place)
  | none =>
    if namesFolder path then .error .isFolder
    else .ok (t.set place (.file .empty), place)

/-- The bytes with some of them replaced from an offset on; a gap before the offset holds zeros. -/
def splice (content : ByteArray) (offset : Nat) (bytes : ByteArray) : ByteArray :=
  let before := content.extract 0 offset
  let gap : ByteArray := ⟨Array.replicate (offset - before.size) 0⟩
  before ++ gap ++ bytes ++ content.extract (offset + bytes.size) content.size

/-- Write bytes into a file that is there. -/
def writeAt (t : FileTree) (place : PathParts) (offset : Nat) (bytes : ByteArray) : FileTree :=
  match t.node place with
  | some (.file content) => t.set place (.file (splice content offset bytes))
  | _ => t

/-- Write bytes behind the end of a file that is there. -/
def append (t : FileTree) (place : PathParts) (bytes : ByteArray) : FileTree :=
  match t.node place with
  | some (.file content) => t.set place (.file (content ++ bytes))
  | _ => t

/-- Replace the bytes of a file, which is created if it is not there. -/
def write (t : FileTree) (path : Text) (bytes : ByteArray) : Except FileError FileTree := do
  let (t, place) ← t.openFile path false
  .ok (t.set place (.file bytes))

end FileTree

end Knitout
