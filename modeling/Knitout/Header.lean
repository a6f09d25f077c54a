import Knitout.Carrier

/-!
# The header of a knitout file

The first line names the version of the format. The comment lines behind it that start with two
semicolons and hold a key and a value are the header block; it ends at the first line that is not of
this kind. Oddities are warnings; what cannot be used is an error.
-/

namespace Knitout

/-- What the header says. -/
structure Headers where
  version : Nat
  carriers : List Text
  /-- Needles per inch, if the header says so; a value past binary64 has overflowed. -/
  gauge : Option Rounded
  deriving DecidableEq

/-- The header and where the lines behind it begin, counted from zero. -/
structure HeaderBlock where
  headers : Headers
  bodyStart : Nat
  warnings : List Diagnostic
  deriving DecidableEq

/-- The newest version of the format that is known. -/
def knownVersion : Nat := 2

namespace Headers

/-- The header of a file of the known version that names these carriers and no gauge. -/
def withCarriers (carriers : List Text) : Headers :=
  ⟨knownVersion, carriers, none⟩

/-- The text of the gauge, fifteen needles per inch if the header does not name it. -/
def gaugeText (h : Headers) : Text :=
  match h.gauge with
  | some gauge => gauge.render
  | none => "15".toList

/-! ## The lines of the block -/

/-- The version that a first line names; one that does not fit 32 bits counts as the largest. -/
def readMagic? (line : Text) : Option Nat :=
  match after? ";!knitout-".toList line with
  | some digits => if isDigits digits then some (min (natValue digits) maxHalfWord) else none
  | none => none

/-- A gauge is digits, perhaps with a point behind or between them, and rounds to more than zero. -/
def readGauge? (value : Text) : Option Rounded :=
  let (whole, fraction) := (cutAt? '.' value).getD (value, [])
  if isDigits whole && fraction.all Char.isDigit then
    let gauge := Decimal.round ⟨natValue (whole ++ fraction), -(fraction.length : Int)⟩
    if gauge = .finite .zero then none else some gauge
  else none

/-- What a line says about the header block. -/
inductive BlockLine where
  /-- A key and a value. -/
  | entry (key value : Text)
  /-- Two semicolons, but no key and value: the block ends, with a warning. -/
  | odd
  /-- Any other line: the block ends. -/
  | other

/-- Whether a line goes on with the block. -/
def BlockLine.ofText (line : Text) : BlockLine :=
  match after? ";;".toList line with
  | none => .other
  | some rest =>
    match cutAtColon? rest with
    | some (key, value) => .entry key value
    | none => .odd

/-- What the block said so far. -/
structure Draft where
  keys : List Text
  carriers : Option (List Text)
  gauge : Option Rounded
  warnings : List Diagnostic

namespace Draft

def start : Draft := ⟨[], none, none, []⟩

/-- One more warning, about a line of the header. -/
def warn (d : Draft) (line : Nat) (message : String) : Draft :=
  { d with warnings := d.warnings ++ [{ line, severity := .warning, kind := .header, message }] }

/-- Remember a key; one that was there before is worth a warning. -/
def addKey (d : Draft) (line : Nat) (key : Text) : Draft :=
  if d.keys.contains key then
    d.warn line
      s!"header '{String.ofList key}' specified more than once. Will use last value."
  else { d with keys := key :: d.keys }

/-- The keys that are known and say nothing that matters here. -/
def isIgnored (key : Text) : Bool :=
  key = "Machine".toList || key = "Width".toList || key = "Position".toList ||
    (after? "Yarn-".toList key).isSome

/-- Take over the value of a key. -/
def setValue (d : Draft) (line : Nat) (key value : Text) : Except LoweringError Draft :=
  if key = "Carriers".toList then
    let names := (value.splitOn ' ').filter fun name => !name.isEmpty
    (CarrierTable.ofNames names).map fun _ => { d with carriers := some names }
  else if key = "Gauge".toList then
    match readGauge? value with
    | some gauge => .ok { d with gauge := some gauge }
    | none => .error (.badGauge value)
  else if isIgnored key then .ok d
  else .ok (d.warn line s!"File contains unknown comment header '{String.ofList key}'.")

end Draft

/-! ## The block -/

/-- Read the block from the line with this number on. The answer is what the block said, and the
number of the first line behind it or the error that stopped the reading. -/
def readBlock (d : Draft) (number : Nat) : List Text → Draft × Except FatalError Nat
  | [] => (d, .ok number)
  | line :: rest =>
    match BlockLine.ofText line with
    | .other => (d, .ok number)
    | .odd =>
      (d.warn number
        s!"Comment-header-like line '{String.ofList line}' does not contain string ': ' -- interpreting as regular comment.",
        .ok number)
    | .entry key value =>
      let d := d.addKey number key
      match d.setValue number key value with
      | .error error => (d, .error ⟨number, error⟩)
      | .ok d => readBlock d (number + 1) rest

/-- The draft before the block: a version newer than the known one is worth a warning. -/
def versionDraft (version : Nat) : Draft :=
  if knownVersion < version then
    Draft.start.warn 1
      s!"File is version {version}, but this code only knows about versions up to {knownVersion}."
  else Draft.start

/-- Read the header of a file, with all the warnings that were raised, also when it fails. -/
def scan (lines : List Text) : List Diagnostic × Except FatalError HeaderBlock :=
  match lines with
  | [] => ([], .error ⟨1, .noMagicLine⟩)
  | magic :: rest =>
    match readMagic? magic with
    | none => ([], .error ⟨1, .badMagic magic⟩)
    | some version =>
      let (d, result) := readBlock (versionDraft version) 2 rest
      let block : Except FatalError HeaderBlock :=
        match result with
        | .error e => .error e
        | .ok number =>
          match d.carriers with
          | none => .error ⟨number - 1, .missingCarriers⟩
          | some carriers => .ok ⟨⟨version, carriers, d.gauge⟩, number - 1, d.warnings⟩
      (d.warnings, block)

/-- Read the header of a file. -/
def ofLines (lines : List Text) : Except FatalError HeaderBlock :=
  (scan lines).2

end Headers

end Knitout
