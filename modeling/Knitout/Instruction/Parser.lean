import Knitout.Instruction.Basic

/-!
# Reading a line of formal knitout

Everything from the first semicolon on is comment; what stands before it is cut into words and the
fields are read from left to right. The first thing that does not fit is the error. A line whose
part before the semicolon is blank holds no instruction.
-/

namespace Knitout

/-- A field that an operation may have. -/
inductive Field where
  | direction | needle | length | yarn | rack
  deriving DecidableEq

/-- Why a line is not an instruction. -/
inductive SyntaxError where
  | outOfTokens (field : Field)
  | badDirection (token : Text)
  | badNeedle (token : Text)
  | badLength (token : Text)
  | badStrand (token : Text)
  | badStrandLength (length : Text)
  | duplicateYarn (yarn : Yarn)
  | badYarn (token : Text)
  | badRack (token : Text)
  | knitWithoutYarns
  | splitWithoutYarns
  | tuckYarnCount (count : Nat)
  | unknownOperation (token : Text)
  | extraTokens (tokens : List Text)
  deriving DecidableEq

/-! ## Words as values -/

/-- A yarn number is written without superfluous leading zeros and fits 32 bits. -/
def readYarn? (token : Text) : Option Yarn :=
  if isCanonical token then
    let yarn := natValue token
    if yarn ≤ maxHalfWord then some yarn else none
  else none

/-- A racking is written with an optional sign and without superfluous leading zeros, and fits a
signed 64-bit word. -/
def readRack? (token : Text) : Option Int :=
  let (negative, digits) := Literal.cutSign token
  if isCanonical digits then
    let racking : Int := if negative then -(natValue digits : Int) else natValue digits
    if isWord racking then some racking else none
  else none

/-- The characters that the length of a strand may hold. -/
def isLengthChar (c : Char) : Bool :=
  c.isDigit || c == '-' || c == '+' || c == '.' || c == 'e' || c == 'E'

/-- The yarn of a strand and the text of its length. -/
def cutStrand? (token : Text) : Option (Yarn × Text) :=
  match token with
  | '(' :: inner =>
    if inner.getLast? = some ')' then
      match cutAt? ',' inner.dropLast with
      | some (yarn, length) =>
        if !length.isEmpty && length.all isLengthChar then
          (readYarn? yarn).map fun yarn => (yarn, length)
        else none
      | none => none
    else none
  | _ => none

/-! ## Fields from left to right -/

/-- Read one field off the front of the words. -/
def readField {α : Type} (field : Field) (read? : Text → Option α) (bad : Text → SyntaxError) :
    List Text → Except SyntaxError (α × List Text)
  | [] => .error (.outOfTokens field)
  | token :: rest =>
    match read? token with
    | some value => .ok (value, rest)
    | none => .error (bad token)

def readDirection : List Text → Except SyntaxError (Direction × List Text) :=
  readField .direction Direction.ofText? .badDirection

def readNeedle : List Text → Except SyntaxError (Needle × List Text) :=
  readField .needle Needle.ofText? .badNeedle

def readLength : List Text → Except SyntaxError (Length × List Text) :=
  readField .length Length.ofText? .badLength

def readYarn : List Text → Except SyntaxError (Yarn × List Text) :=
  readField .yarn readYarn? .badYarn

def readRack : List Text → Except SyntaxError (Int × List Text) :=
  readField .rack readRack? .badRack

/-- Every word must be a strand, and no yarn may come twice; `used` are the yarns met so far. -/
def readStrands (used : List Yarn) : List Text → Except SyntaxError (List Strand)
  | [] => .ok []
  | token :: rest =>
    match cutStrand? token with
    | none => .error (.badStrand token)
    | some (yarn, length) =>
      if used.contains yarn then .error (.duplicateYarn yarn)
      else
        match Length.ofText? length with
        | none => .error (.badStrandLength length)
        | some value =>
          match readStrands (yarn :: used) rest with
          | .error e => .error e
          | .ok strands => .ok (⟨yarn, value⟩ :: strands)

/-! ## Operations -/

/-- Read the fields of an operation; the words that are left over come with it. -/
def readOperation (mnemonic : Mnemonic) (tokens : List Text) :
    Except SyntaxError (Operation × List Text) := do
  match mnemonic with
  | .knit =>
    let (direction, tokens) ← readDirection tokens
    let (needle, tokens) ← readNeedle tokens
    let (length, tokens) ← readLength tokens
    let strands ← readStrands [] tokens
    if strands.isEmpty then .error .knitWithoutYarns
    else .ok (.knit direction needle length strands, [])
  | .tuck =>
    let (direction, tokens) ← readDirection tokens
    let (needle, tokens) ← readNeedle tokens
    let (length, tokens) ← readLength tokens
    let strands ← readStrands [] tokens
    if strands.length = 1 then .ok (.tuck direction needle length strands, [])
    else .error (.tuckYarnCount strands.length)
  | .split =>
    let (direction, tokens) ← readDirection tokens
    let (needle, tokens) ← readNeedle tokens
    let (target, tokens) ← readNeedle tokens
    let (length, tokens) ← readLength tokens
    let strands ← readStrands [] tokens
    if strands.isEmpty then .error .splitWithoutYarns
    else .ok (.split direction needle target length strands, [])
  | .miss =>
    let (direction, tokens) ← readDirection tokens
    let (needle, tokens) ← readNeedle tokens
    let (yarn, tokens) ← readYarn tokens
    .ok (.miss direction needle yarn, tokens)
  | .bringIn =>
    let (direction, tokens) ← readDirection tokens
    let (needle, tokens) ← readNeedle tokens
    let (yarn, tokens) ← readYarn tokens
    .ok (.bringIn direction needle yarn, tokens)
  | .bringOut =>
    let (direction, tokens) ← readDirection tokens
    let (needle, tokens) ← readNeedle tokens
    let (yarn, tokens) ← readYarn tokens
    .ok (.bringOut direction needle yarn, tokens)
  | .drop =>
    let (needle, tokens) ← readNeedle tokens
    .ok (.drop needle, tokens)
  | .transfer =>
    let (needle, tokens) ← readNeedle tokens
    let (target, tokens) ← readNeedle tokens
    .ok (.transfer needle target, tokens)
  | .rack =>
    let (racking, tokens) ← readRack tokens
    .ok (.rack racking, tokens)

/-- Read an operation from all the words of a line; nothing may be left over. -/
def Operation.ofWords? : List Text → Except SyntaxError (Option Operation)
  | [] => .ok none
  | word :: tokens =>
    match Mnemonic.ofText? word with
    | none => .error (.unknownOperation word)
    | some mnemonic =>
      match readOperation mnemonic tokens with
      | .error e => .error e
      | .ok (operation, []) => .ok (some operation)
      | .ok (_, rest) => .error (.extraTokens rest)

/-- The part of a line before its first semicolon, and the comment behind it. -/
def cutComment (line : Text) : Text × Option Text :=
  match cutAt? ';' line with
  | some (code, comment) => (code, some comment)
  | none => (line, none)

/-- Read one line, which has this number in its document. -/
def Instruction.ofLine? (line : Text) (number : Nat) : Except SyntaxError (Option Instruction) :=
  let (code, comment) := cutComment line
  match Operation.ofWords? (words code) with
  | .error e => .error e
  | .ok none => .ok none
  | .ok (some operation) => .ok (some ⟨operation, number, comment⟩)

/-! ## Wording -/

def Field.name : Field → String
  | .direction => "direction"
  | .needle => "needle"
  | .length => "length"
  | .yarn => "yarn"
  | .rack => "rack"

/-- The text of a syntax error. -/
def SyntaxError.message : SyntaxError → String
  | .outOfTokens field => s!"Expecting {field.name} but ran out of tokens."
  | .badDirection token => s!"Expecting +/- for direction, but got '{String.ofList token}'."
  | .badNeedle token => s!"Expecting bed.index but got '{String.ofList token}'."
  | .badLength token => s!"Expecting length, got '{String.ofList token}'."
  | .badStrand token => s!"Expecting '(yarn,length)' but got '{String.ofList token}'."
  | .badStrandLength length => s!"Expecting length in yarn but got '{String.ofList length}'."
  | .duplicateYarn yarn => s!"Yarn {yarn} reused in yarns."
  | .badYarn token => s!"Expecting yarn but got '{String.ofList token}'."
  | .badRack token => s!"Expecting rack but got '{String.ofList token}'."
  | .knitWithoutYarns => "Knit must have at least one yarn."
  | .splitWithoutYarns => "Split must have at least one yarn."
  | .tuckYarnCount count => s!"Tuck must have exactly one yarn, got {count}."
  | .unknownOperation token => s!"Unrecognized operation '{String.ofList token}'."
  | .extraTokens tokens =>
    let rest := String.ofList ([' '].intercalate tokens)
    s!"Extra tokens at end of line: '{rest}'."

end Knitout
