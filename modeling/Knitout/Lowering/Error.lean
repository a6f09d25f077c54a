import Knitout.Diagnostic
import Knitout.Needle

/-!
# What stops a lowering

Each of these ends the lowering at the line where it arises.
-/

namespace Knitout

/-- The largest magnitude of a needle index. -/
def maxNeedleIndex : Nat := 1000000

/-- The largest magnitude of a racking. -/
def maxRacking : Nat := 10000

/-- What a loop operation has to name, besides carriers. -/
inductive Argument where
  | direction
  | needle
  | target
  deriving DecidableEq

/-- The four operations that form, move or pass loops; every synonym stands for one of them. -/
inductive LoopVerb where
  | miss
  | tuck
  | knit
  | split
  deriving DecidableEq

/-- Why a lowering stops. -/
inductive LoweringError where
  | noMagicLine
  | badMagic (line : Text)
  | missingCarriers
  | badGauge (value : Text)
  | duplicateCarrierName (name : Text)
  | inWithoutCarriers
  | outWithoutCarriers
  | unknownCarrier (name : Text)
  | repeatedCarrier (name : Text)
  | alreadyIn (name : Text)
  | alreadyPending (name : Text)
  | outPending (name : Text)
  | outAbsent (name : Text)
  | carrierNotIn (name : Text)
  | rackArity
  | rackNotNumber (token : Text)
  | fractionalRack
  | rackOutOfRange (token : Text)
  | badStitch
  | badStitchNumber
  | missingArgument (verb : LoopVerb) (argument : Argument)
  | badDirection (token : Text)
  | badNeedle (token : Text)
  | slider (token : Text)
  | needleOutOfRange (token : Text)
  | multiCarrierTuck (count : Nat)
  | transferSameBed (needle target : Needle)
  | transferMisaligned (needle target : Needle) (racking : Int)
  | carriersNotAllowed (synonym : Text)
  | missWithoutCarriers
  | unsupportedOperation (word : Text)
  deriving DecidableEq

def Argument.name : Argument → String
  | .direction => "direction"
  | .needle => "needle"
  | .target => "target needle"

def LoopVerb.name : LoopVerb → String
  | .miss => "miss"
  | .tuck => "tuck"
  | .knit => "knit"
  | .split => "split"

namespace LoweringError

/-- Which part of the work an error belongs to. -/
def kind : LoweringError → Kind
  | .noMagicLine | .badMagic _ | .missingCarriers | .badGauge _ | .duplicateCarrierName _ => .header
  | .inWithoutCarriers | .outWithoutCarriers | .unknownCarrier _ | .repeatedCarrier _
  | .alreadyIn _ | .alreadyPending _ | .outPending _ | .outAbsent _ | .carrierNotIn _
  | .carriersNotAllowed _ | .missWithoutCarriers => .carrier
  | _ => .lowering

/-- The text of an error. -/
def message : LoweringError → String
  | .noMagicLine => "No first line to check for magic number."
  | .badMagic line => s!"invalid knitout magic string '{String.ofList line}'"
  | .missingCarriers => "Carriers header not included but is required."
  | .badGauge value =>
    s!"Gauge header's value ('{String.ofList value}') should be a number greater than zero."
  | .duplicateCarrierName name =>
    s!"Carrier name '{String.ofList name}' appears more than once in the Carriers header."
  | .inWithoutCarriers => "Can't bring in no carriers"
  | .outWithoutCarriers => "Can't bring out no carriers"
  | .unknownCarrier name => s!"Carrier '{String.ofList name}' not named in Carriers comment header."
  | .repeatedCarrier name =>
    s!"Carrier '{String.ofList name}' listed more than once in one operation."
  | .alreadyIn name => s!"Can't in '{String.ofList name}' -- it's already in."
  | .alreadyPending name => s!"Can't in '{String.ofList name}' -- it's pending."
  | .outPending name => s!"Can't out '{String.ofList name}' -- it's pending, not in."
  | .outAbsent name => s!"Can't out '{String.ofList name}' -- it isn't in."
  | .carrierNotIn name => s!"Carrier '{String.ofList name}' isn't pending or in."
  | .rackArity => "racking takes one argument"
  | .rackNotNumber token => s!"racking must be a number, got '{String.ofList token}'"
  | .fractionalRack => "quarter-pitch racking conversion not supported yet"
  | .rackOutOfRange token =>
    s!"racking '{String.ofList token}' is outside -{maxRacking}..={maxRacking}"
  | .badStitch => "stitch takes two integer arguments."
  | .badStitchNumber => "x-stitch-number takes one non-negative integer argument."
  | .missingArgument verb argument => s!"{verb.name} is missing its {argument.name}"
  | .badDirection token => s!"invalid direction '{String.ofList token}', expecting + or -"
  | .badNeedle token => s!"invalid needle specification '{String.ofList token}'"
  | .slider token => s!"sliders not supported yet by translation code ('{String.ofList token}')"
  | .needleOutOfRange token =>
    s!"needle '{String.ofList token}' is outside -{maxNeedleIndex}..={maxNeedleIndex}"
  | .multiCarrierTuck count =>
    s!"tuck with {count} carriers has no formal equivalent; use one carrier per tuck."
  | .transferSameBed needle target =>
    s!"can't move loops from {String.ofList needle.render} to {String.ofList target.render}: both are on the same bed."
  | .transferMisaligned needle target racking =>
    s!"can't move loops from {String.ofList needle.render} to {String.ofList target.render}: not aligned at racking {racking}."
  | .carriersNotAllowed synonym =>
    s!"cannot {String.ofList synonym} with carriers (use tuck/knit/split)."
  | .missWithoutCarriers => "it makes no sense to miss with no yarns."
  | .unsupportedOperation word => s!"unsupported operation '{String.ofList word}'."

end LoweringError

/-- An error and the number of the line where it arises. -/
structure FatalError where
  line : Nat
  error : LoweringError
  deriving DecidableEq

namespace FatalError

/-- The error behind its line. -/
def summary (e : FatalError) : String :=
  s!"{e.line}: {e.error.message}"

def toDiagnostic (e : FatalError) : Diagnostic :=
  { line := e.line, severity := .fatal, kind := e.error.kind, message := e.error.message }

end FatalError

end Knitout
