import Knitout.Options.Basic

/-!
# Reading a command line

The arguments are read from left to right. An option that still needs its value, and a value whose
meaning is not settled yet, wait: they are settled when the next known option or value comes, or at
the end. An argument that nothing can take is refused at once, before what waits is settled.
-/

namespace Knitout

/-- An option without a value. -/
inductive Switch where
  | quiet
  | noWarn
  | warnError
  | errorAppend
  | noError
  | trace
  | check
  | help
  | version
  deriving DecidableEq

/-- An option with a value. -/
inductive Setting where
  | format
  | errorFile
  | maxErrors
  deriving DecidableEq

/-- What a name of an option stands for. -/
inductive OptionName where
  | switch (switch : Switch)
  | setting (setting : Setting)
  deriving DecidableEq

/-- An argument without a name. -/
inductive Operand where
  | input
  | output
  deriving DecidableEq

/-- The options and operands that a tool has. -/
structure Grammar where
  long : List (Text × OptionName)
  short : List (Char × OptionName)
  operands : List Operand

namespace Grammar

/-- The command line of the checker. -/
def checker : Grammar where
  long := [
    ("format".toList, .setting .format),
    ("quiet".toList, .switch .quiet),
    ("error".toList, .setting .errorFile),
    ("error-append".toList, .switch .errorAppend),
    ("no-error".toList, .switch .noError),
    ("trace".toList, .switch .trace),
    ("max-errors".toList, .setting .maxErrors),
    ("help".toList, .switch .help),
    ("version".toList, .switch .version)]
  short := [
    ('q', .switch .quiet),
    ('E', .setting .errorFile),
    ('h', .switch .help),
    ('V', .switch .version)]
  operands := [.input]

/-- The command line of the converter. -/
def converter : Grammar where
  long := [
    ("format".toList, .setting .format),
    ("quiet".toList, .switch .quiet),
    ("no-warn".toList, .switch .noWarn),
    ("Werror".toList, .switch .warnError),
    ("error".toList, .setting .errorFile),
    ("error-append".toList, .switch .errorAppend),
    ("no-error".toList, .switch .noError),
    ("check".toList, .switch .check),
    ("help".toList, .switch .help),
    ("version".toList, .switch .version)]
  short := [
    ('q', .switch .quiet),
    ('w', .switch .noWarn),
    ('E', .setting .errorFile),
    ('h', .switch .help),
    ('V', .switch .version)]
  operands := [.input, .output]

end Grammar

/-- What waits to be settled. -/
inductive Waiting where
  | nothing
  /-- An option, and its value if it has come. -/
  | setting (setting : Setting) (value : Option Text)
  | operand (operand : Operand) (value : Text)
  deriving DecidableEq

/-- What the arguments so far say. -/
structure Given where
  switches : List Switch := []
  format : Option OutputFormat := none
  errorFile : Option Text := none
  maxErrors : Option Nat := none
  operands : List Text := []
  waiting : Waiting := .nothing
  /-- Whether everything from here on is an operand. -/
  operandsOnly : Bool := false
  deriving DecidableEq

/-- The name of an output format. -/
def OutputFormat.ofText? (text : Text) : Option OutputFormat :=
  if text = "text".toList then some .text
  else if text = "json".toList then some .json
  else none

/-- A count that fits an unsigned 64-bit word, perhaps with a plus sign in front. -/
def readCount? (text : Text) : Option Nat :=
  let digits := match text with
    | '+' :: digits => digits
    | digits => digits
  if isDigits digits && natValue digits ≤ 18446744073709551615 then some (natValue digits) else none

namespace Given

/-- Whether an option has its value already. -/
def has (g : Given) : Setting → Bool
  | .format => g.format.isSome
  | .errorFile => g.errorFile.isSome
  | .maxErrors => g.maxErrors.isSome

/-- Give an option its value; no option is given twice. -/
def store (g : Given) (setting : Setting) (value : Text) : Except UsageError Given :=
  if g.has setting then .error .argumentConflict
  else
    match setting with
    | .format =>
      match OutputFormat.ofText? value with
      | some format => .ok { g with format := some format }
      | none => .error .invalidValue
    | .errorFile =>
      if value.isEmpty then .error .invalidValue else .ok { g with errorFile := some value }
    | .maxErrors =>
      match readCount? value with
      | some count => .ok { g with maxErrors := some count }
      | none => .error .valueValidation

/-- Settle what waits. The name of the input may not be empty. -/
def settle (g : Given) : Except UsageError Given :=
  let settled := { g with waiting := .nothing }
  match g.waiting with
  | .nothing => .ok settled
  | .setting _ none => .error .invalidValue
  | .setting setting (some value) => settled.store setting value
  | .operand operand value =>
    if operand = .input && value.isEmpty then .error .invalidValue
    else .ok { settled with operands := settled.operands ++ [value] }

/-- Lift a refusal to a reason to stop. -/
def orStop {α : Type} : Except UsageError α → Except Stop α
  | .ok value => .ok value
  | .error e => .error (.usage e)

/-- Set a switch; no switch is set twice, and help and version stop everything. -/
def setSwitch (g : Given) (switch : Switch) : Except Stop Given := do
  let g ← orStop g.settle
  match switch with
  | .help => .error .help
  | .version => .error .version
  | _ =>
    if g.switches.contains switch then .error (.usage .argumentConflict)
    else .ok { g with switches := switch :: g.switches }

/-- Give an option a value that is written with it. -/
def setValue (g : Given) (setting : Setting) (value : Text) : Except Stop Given := do
  let g ← orStop g.settle
  orStop (g.store setting value)

/-- Let an option wait for its value. -/
def await (g : Given) (setting : Setting) : Except Stop Given := do
  let g ← orStop g.settle
  .ok { g with waiting := .setting setting none }

/-- An option with two dashes; a value may follow behind an equals sign. -/
def addLong (grammar : Grammar) (g : Given) (body : Text) : Except Stop Given :=
  let (name, value?) := match cutAt? '=' body with
    | some (name, value) => (name, some value)
    | none => (body, none)
  match grammar.long.lookup name, value? with
  | none, _ => .error (.usage .unknownArgument)
  | some (.switch _), some _ => .error (.usage .tooManyValues)
  | some (.switch switch), none => g.setSwitch switch
  | some (.setting setting), some value => g.setValue setting value
  | some (.setting setting), none => g.await setting

/-- Options of one letter behind one dash. What follows an option with a value is that value,
perhaps behind an equals sign. -/
def addShort (grammar : Grammar) (g : Given) : Text → Except Stop Given
  | [] => .ok g
  | letter :: rest =>
    match grammar.short.lookup letter with
    | none => .error (.usage .unknownArgument)
    | some (.switch switch) =>
      match g.setSwitch switch with
      | .error stop => .error stop
      | .ok g => g.addShort grammar rest
    | some (.setting setting) =>
      match rest with
      | [] => g.await setting
      | '=' :: value => g.setValue setting value
      | value => g.setValue setting value

/-- How many operands have come, settled or not. -/
def operandCount (g : Given) : Nat :=
  match g.waiting with
  | .operand .. => g.operands.length + 1
  | _ => g.operands.length

/-- An argument without a name. -/
def addOperand (grammar : Grammar) (g : Given) (value : Text) : Except Stop Given :=
  match grammar.operands[g.operandCount]? with
  | none => .error (.usage .unknownArgument)
  | some operand => do
    let g ← orStop g.settle
    .ok { g with waiting := .operand operand value }

/-- One more argument. -/
def add (grammar : Grammar) (g : Given) (argument : Text) : Except Stop Given :=
  if g.operandsOnly then g.addOperand grammar argument
  else
    match argument with
    | ['-', '-'] => .ok { g with operandsOnly := true }
    | '-' :: '-' :: body => g.addLong grammar body
    | '-' :: letter :: rest => g.addShort grammar (letter :: rest)
    | value =>
      match g.waiting with
      | .setting setting none => .ok { g with waiting := .setting setting (some value) }
      | _ => g.addOperand grammar value

/-- All the arguments. -/
def addAll (grammar : Grammar) (g : Given) : List Text → Except Stop Given
  | [] => .ok g
  | argument :: rest =>
    match g.add grammar argument with
    | .error stop => .error stop
    | .ok g => g.addAll grammar rest

/-- Options that exclude each other. -/
def conflicts (g : Given) : Bool :=
  (g.switches.contains .noError && (g.errorFile.isSome || g.switches.contains .errorAppend)) ||
    (g.switches.contains .noWarn && g.switches.contains .warnError)

/-- Something that has to be there and is not. -/
def incomplete (grammar : Grammar) (g : Given) : Bool :=
  g.operands.length < grammar.operands.length ||
    (g.switches.contains .errorAppend && g.errorFile.isNone)

/-- Read a whole command line. -/
def ofArguments (grammar : Grammar) (arguments : List Text) : Except Stop Given := do
  let g ← addAll grammar {} arguments
  let g ← orStop g.settle
  if g.conflicts then .error (.usage .argumentConflict)
  else if g.incomplete grammar then .error (.usage .missingRequiredArgument)
  else .ok g

/-- The options about reporting. -/
def report (g : Given) : ReportOptions where
  format := g.format
  quiet := g.switches.contains .quiet
  errorFile := g.errorFile
  errorAppend := g.switches.contains .errorAppend
  noError := g.switches.contains .noError

end Given

/-- Read a command line of the checker. -/
def CheckerOptions.ofArguments (arguments : List Text) : Except Stop CheckerOptions := do
  let g ← Given.ofArguments .checker arguments
  match g.operands with
  | [input] =>
    .ok { input, report := g.report, trace := g.switches.contains .trace,
          maxErrors := g.maxErrors.getD 0 }
  | _ => .error (.usage .missingRequiredArgument)

/-- Read a command line of the converter. -/
def ConverterOptions.ofArguments (arguments : List Text) : Except Stop ConverterOptions := do
  let g ← Given.ofArguments .converter arguments
  match g.operands with
  | [input, output] =>
    .ok { input, output, report := g.report, noWarn := g.switches.contains .noWarn,
          warnError := g.switches.contains .warnError, check := g.switches.contains .check }
  | _ => .error (.usage .missingRequiredArgument)

end Knitout
