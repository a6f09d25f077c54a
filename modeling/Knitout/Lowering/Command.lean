import Knitout.Instruction.Parser
import Knitout.Lowering.Error

/-!
# The operations of a knitout file

A line is read into a command before anything is done about it. Synonyms are expanded here: `amiss`
is a tuck, `drop` a knit and `xfer` a split, each travelling up and without carriers.
-/

namespace Knitout

/-- What a loop operation is to do with the loops. -/
inductive LoopWork where
  | miss
  | tuck
  | knit
  | split (target : Needle)
  deriving DecidableEq

/-- A loop operation as it is asked for. -/
structure Request where
  work : LoopWork
  direction : Direction
  needle : Needle
  carriers : List Text
  /-- The synonym that was written in place of the operation. -/
  synonym : Option Text
  deriving DecidableEq

/-- What a line asks for. -/
inductive Command where
  | bringIn (names : List Text)
  | bringOut (names : List Text)
  /-- Nothing that the machine has to do. -/
  | idle
  | rack (target : Int)
  | stitch (leading size : Text)
  | stitchNumber (number : Text)
  /-- A setting of the machine that does not touch the loops. -/
  | setting (word : Text)
  /-- An operation of some vendor that is not known. -/
  | vendor (word : Text)
  | loops (request : Request)
  deriving DecidableEq

/-! ## Arguments -/

/-- A racking is a sign, perhaps, and digits, perhaps with a point before the last of them. It is
rounded to binary64; what is then whole and not too large is the racking. -/
def readRacking (token : Text) : Except LoweringError Int :=
  let (negative, unsigned) := Literal.cutSign token
  let (whole, fraction, places) := match cutAt? '.' unsigned with
    | some (whole, fraction) => (whole, fraction, fraction.length)
    | none => ([], unsigned, 0)
  if isDigits fraction && whole.all Char.isDigit then
    match Decimal.round ⟨natValue (whole ++ fraction), -(places : Int)⟩ with
    | .overflow => .error .fractionalRack
    | .finite m =>
      if m.units % Magnitude.unitsPerOne ≠ 0 then .error .fractionalRack
      else if maxRacking * Magnitude.unitsPerOne < m.units then .error (.rackOutOfRange token)
      else
        let racking : Int := m.units / Magnitude.unitsPerOne
        .ok (if negative then -racking else racking)
  else .error (.rackNotNumber token)

/-- A needle is a bed letter, an `s` for a slider, and an index. The index has to fit a signed
64-bit word to be one at all; sliders and indices past the largest are refused. -/
def readSourceNeedle (token : Text) : Except LoweringError Needle :=
  match token with
  | [] => .error (.badNeedle token)
  | letter :: rest =>
    match Bed.ofLetter? letter with
    | none => .error (.badNeedle token)
    | some bed =>
      let (slider, digits) := match rest with
        | 's' :: digits => (true, digits)
        | digits => (false, digits)
      match intValue? digits with
      | none => .error (.badNeedle token)
      | some index =>
        if !isWord index then .error (.badNeedle token)
        else if slider then .error (.slider token)
        else if maxNeedleIndex < index.natAbs then .error (.needleOutOfRange token)
        else .ok ⟨bed, index⟩

/-- Digits, perhaps with a sign in front. -/
def isSignedDigits : Text → Bool
  | '+' :: digits | '-' :: digits => isDigits digits
  | digits => isDigits digits

/-- Digits, perhaps with a plus sign in front. -/
def isUnsignedDigits : Text → Bool
  | '+' :: digits => isDigits digits
  | digits => isDigits digits

/-- Read a needle off the front of the words. -/
def readNeedleArgument (verb : LoopVerb) (argument : Argument) :
    List Text → Except LoweringError (Needle × List Text)
  | [] => .error (.missingArgument verb argument)
  | token :: rest => (readSourceNeedle token).map fun needle => (needle, rest)

/-- Read a direction off the front of the words. -/
def readDirectionArgument (verb : LoopVerb) :
    List Text → Except LoweringError (Direction × List Text)
  | [] => .error (.missingArgument verb .direction)
  | token :: rest =>
    match Direction.ofText? token with
    | some direction => .ok (direction, rest)
    | none => .error (.badDirection token)

/-- Read a request: the direction unless a synonym implies it, the needle, the target of a split,
and the carriers. -/
def readRequest (verb : LoopVerb) (synonym : Option Text) (tokens : List Text) :
    Except LoweringError Request := do
  let (direction, tokens) ← match synonym with
    | some _ => .ok (Direction.increasing, tokens)
    | none => readDirectionArgument verb tokens
  let (needle, tokens) ← readNeedleArgument verb .needle tokens
  match verb with
  | .miss => .ok ⟨.miss, direction, needle, tokens, synonym⟩
  | .tuck => .ok ⟨.tuck, direction, needle, tokens, synonym⟩
  | .knit => .ok ⟨.knit, direction, needle, tokens, synonym⟩
  | .split =>
    let (target, tokens) ← readNeedleArgument verb .target tokens
    .ok ⟨.split target, direction, needle, tokens, synonym⟩

/-! ## Words -/

/-- What the first word of a line announces. -/
inductive Keyword where
  | bringIn
  | bringOut
  | idle
  | rack
  | stitch
  | stitchNumber
  | setting
  | verb (verb : LoopVerb)
  | synonym (verb : LoopVerb)
  deriving DecidableEq

namespace Keyword

/-- The words that are known. -/
def table : List (Text × Keyword) := [
  ("in".toList, .bringIn),
  ("inhook".toList, .bringIn),
  ("out".toList, .bringOut),
  ("outhook".toList, .bringOut),
  ("releasehook".toList, .idle),
  ("pause".toList, .idle),
  ("rack".toList, .rack),
  ("stitch".toList, .stitch),
  ("x-stitch-number".toList, .stitchNumber),
  ("x-presser-mode".toList, .setting),
  ("x-speed-number".toList, .setting),
  ("miss".toList, .verb .miss),
  ("tuck".toList, .verb .tuck),
  ("knit".toList, .verb .knit),
  ("split".toList, .verb .split),
  ("amiss".toList, .synonym .tuck),
  ("drop".toList, .synonym .knit),
  ("xfer".toList, .synonym .split)]

def ofText? (word : Text) : Option Keyword :=
  table.lookup word

end Keyword

namespace Command

/-- Read a command from its first word and the words behind it. -/
def ofWords (word : Text) (tokens : List Text) : Except LoweringError Command :=
  match Keyword.ofText? word with
  | some .bringIn =>
    if tokens.isEmpty then .error .inWithoutCarriers else .ok (.bringIn tokens)
  | some .bringOut =>
    if tokens.isEmpty then .error .outWithoutCarriers else .ok (.bringOut tokens)
  | some .idle => .ok .idle
  | some .rack =>
    match tokens with
    | [token] => (readRacking token).map .rack
    | _ => .error .rackArity
  | some .stitch =>
    match tokens with
    | [leading, size] =>
      if isSignedDigits leading && isSignedDigits size then .ok (.stitch leading size)
      else .error .badStitch
    | _ => .error .badStitch
  | some .stitchNumber =>
    match tokens with
    | [number] =>
      if isUnsignedDigits number then .ok (.stitchNumber number) else .error .badStitchNumber
    | _ => .error .badStitchNumber
  | some .setting => .ok (.setting word)
  | some (.verb verb) => (readRequest verb none tokens).map .loops
  | some (.synonym verb) => (readRequest verb (some word) tokens).map .loops
  | none =>
    if (after? "x-".toList word).isSome then .ok (.vendor word)
    else .error (.unsupportedOperation word)

/-- What a line asks for; nothing if there is only blank before its first semicolon. -/
def ofLine (line : Text) : Except LoweringError (Option Command) :=
  match words (cutComment line).1 with
  | [] => .ok none
  | word :: tokens => (ofWords word tokens).map some

end Command

end Knitout
