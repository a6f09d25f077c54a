import Knitout.Lowering.Basic
import Knitout.Program

/-!
# The journal

What is worth noting while a program is read, replayed or lowered, each note with a level. The
journal is told from the inputs and results of that work, which itself knows nothing of it.
-/

namespace Knitout

/-- How much a note matters. -/
inductive Level where
  | error
  | warn
  | info
  | debug
  | trace
  deriving DecidableEq

/-- The lower the rank, the more a note matters. -/
def Level.rank : Level → Nat
  | .error => 0
  | .warn => 1
  | .info => 2
  | .debug => 3
  | .trace => 4

/-- A note: its level, its text, and named values. -/
structure Note where
  level : Level
  message : String
  fields : List (String × String) := []
  deriving DecidableEq

namespace Journal

/-- The notes of a level or of one that matters more. -/
def upTo (level : Level) (notes : List Note) : List Note :=
  notes.filter fun note => note.level.rank ≤ level.rank

/-! ## Reading and replaying -/

def ofProgram (p : Program) : List Note :=
  [{ level := .debug, message := "parsed formal knitout",
     fields := [("instructions", toString p.instructions.length),
       ("errors", toString p.errors.length)] }]

def ofReplay (r : Replay) : List Note :=
  let refused := r.rejections.toList.map fun rejection =>
    { level := .debug, message := "instruction rejected",
      fields := [("index", toString rejection.index), ("line", toString rejection.line),
        ("error", rejection.fault.message)] : Note }
  refused ++
    [{ level := .debug, message := "validated formal knitout",
       fields := [("states", toString r.trace.size), ("errors", toString r.rejections.size)] }]

def ofChecked (c : Checked) : List Note :=
  ofProgram c.program ++ ofReplay c.replay ++
    [{ level := .info, message := "checked formal knitout",
       fields := [("instructions", toString c.program.instructions.length),
         ("syntax_errors", toString c.program.errors.length),
         ("validation_errors", toString c.replay.rejections.size),
         ("states", toString c.replay.trace.size)] }]

/-! ## Headers -/

/-- A warning, with its line. -/
def ofWarning (d : Diagnostic) : Note :=
  { level := .warn, message := d.message, fields := [("line", toString d.line)] }

/-- The gauge that is taken. -/
def ofGauge (h : Headers) : Note :=
  let gauge := String.ofList h.gaugeText
  let message :=
    if h.gauge.isSome then s!"Gauge header indicates needles are 1 / {gauge} inches apart."
    else s!"Gauge header not specified. Assuming needles are 1 / {gauge} inches apart."
  { level := .info, message }

/-- The warnings of the header of a file, and its gauge if it can be used. -/
def ofHeader (source : List Text) : List Note :=
  let (warnings, block) := Headers.scan source
  warnings.map ofWarning ++
    (match block with
     | .ok block => [ofGauge block.headers]
     | .error _ => [])

/-- How the carriers are numbered, if there are any. -/
def ofCarriers (carriers : CarrierTable) : List Note :=
  if carriers.remapped then
    [{ level := .info,
       message :=
        s!"Carrier names were not integers in order, so using position-based remapping: {carriers.mapping}" }]
  else if carriers.carriers.isEmpty then []
  else
    let names := String.ofList ([' '].intercalate (carriers.carriers.map (·.name)))
    [{ level := .info, message := s!"Will use carrier names ({names}) directly as yarn numbers." }]

/-! ## Lowering -/

/-- The operation that a loop operation stands for. -/
def workName : LoopWork → String
  | .miss => "Miss"
  | .tuck => "Tuck"
  | .knit => "Knit"
  | .split _ => "Split"

/-- The request that was read. -/
def ofRequest (word : Text) (request : Request) : Note :=
  { level := .trace, message := "read loop operation",
    fields := [("name", String.ofList word), ("op", workName request.work),
      ("direction", String.ofList [request.direction.sign]),
      ("needle", String.ofList request.needle.render)] }

/-- The `in` of each carrier that its first use settles, up to the first carrier that is not in. -/
def ofSettling (c : Context) (line : Nat) (goal : Location) : List Carrier → List Note
  | [] => []
  | carrier :: rest =>
    match c.stages.get? carrier.yarn with
    | none => []
    | some (.active _ _) => ofSettling c line goal rest
    | some (.pending _) =>
      let operation := String.ofList (c.settledIn carrier goal).render
      { level := .debug, message := s!"backpatched '{operation}'",
        fields := [("line", toString line), ("yarn", toString carrier.yarn)] : Note } ::
        ofSettling c line goal rest

/-- What a request does to the feeders and the work. -/
def ofPlan (c : Context) (line : Nat) (request : Request) : List Note :=
  match c.plan request with
  | .error _ => []
  | .ok p =>
    let decayed :=
      if request.work.decays (c.hasLoops request.needle) (!request.carriers.isEmpty) then
        [{ level := .debug, message := "no loops to work, tucking instead",
           fields := [("line", toString line),
             ("needle", String.ofList request.needle.render)] : Note }]
      else []
    match c.checkPlan p with
    | .error _ => decayed
    | .ok () => decayed ++ ofSettling c line (Context.approach request) p.carriers

/-- What a command does. -/
def ofCommand (c : Context) (line : Nat) (word : Text) : Command → List Note
  | .loops request => ofRequest word request :: ofPlan c line request
  | .stitch leading size =>
    [{ level := .debug, message := "stitch setting parsed; stitch size stays 30",
       fields := [("leading", String.ofList leading), ("size", String.ofList size)] }]
  | .stitchNumber number =>
    [{ level := .debug, message := "stitch number parsed; stitch size stays 30",
       fields := [("number", String.ofList number)] }]
  | .setting word =>
    [{ level := .debug, message := "machine setting ignored",
       fields := [("line", toString line), ("op", String.ofList word)] }]
  | .vendor word => ofWarnings (c.execute line (.vendor word))
  | _ => []
where
  /-- The warnings that were added. -/
  ofWarnings : Except LoweringError Context → List Note
    | .ok after => (after.warnings.drop c.warnings.length).map ofWarning
    | .error _ => []

/-- What a line does. -/
def ofLine (c : Context) (line : Nat) (source : Text) : List Note :=
  match Command.ofLine source, words (cutComment source).1 with
  | .ok (some command), word :: _ => ofCommand c line word command
  | _, _ => []

/-- What the lines from this number on do; the notes so far come first. -/
def ofLines (notes : List Note) (c : Context) (line : Nat) : List Text → List Note
  | [] =>
    let after := (c.output.unused.foldl Context.warnUnused c).warnings
    notes ++ (after.drop c.warnings.length).map ofWarning
  | source :: rest =>
    let notes := notes ++ ofLine c line source
    match c.lowerLine line source with
    | .ok c => ofLines notes c (line + 1) rest
    | .error e =>
      notes ++ [{ level := .debug, message := "lowering stopped",
                  fields := [("line", toString line), ("error", e.message)] }]

/-- What lowering the lines behind a header does. -/
def ofBody (headers : Headers) (body : List Text) (firstLine : Nat) : List Note :=
  match CarrierTable.ofNames headers.carriers with
  | .error _ => []
  | .ok carriers => ofCarriers carriers ++ ofLines [] (.start carriers) firstLine body

/-- What lowering a file does. -/
def ofFile (source : List Text) : List Note :=
  ofHeader source ++
    (match Headers.ofLines source with
     | .error _ => []
     | .ok block => ofBody block.headers (source.drop block.bodyStart) (block.bodyStart + 1))

end Journal

end Knitout
