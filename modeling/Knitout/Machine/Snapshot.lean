import Knitout.Json
import Knitout.Machine.State

/-!
# Machine states as JSON
-/

namespace Knitout

/-- A state as a JSON object; needles and yarns are the names of fields. -/
def State.toJson (s : State) : Json :=
  .ofFields [
    ("rack".toList, .number s.racking),
    ("loops".toList, .ofFields (s.loops.entries.map fun (needle, count) =>
      (needle.render, .number count))),
    ("carriers".toList, .ofFields (s.carriers.entries.map fun (yarn, column) =>
      (natDigits yarn, .number column))),
    ("attachments".toList, .ofFields (s.attachments.entries.map fun (yarn, location) =>
      (natDigits yarn, .ofFields [
        ("needle".toList, .string location.needle.render),
        ("direction".toList, .string [location.direction.sign])])))]

end Knitout
