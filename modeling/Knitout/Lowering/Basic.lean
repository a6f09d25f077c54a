import Knitout.Lowering.Loops

/-!
# Lowering a knitout file

The lines behind the header are lowered one by one; the first error stops the lowering. Main
statement: lowering more lines continues the lowering of fewer (`Context.lowerLines_append`).
-/

namespace Knitout

/-- The result of a lowering. -/
structure Lowered where
  lines : List Text
  warnings : List Diagnostic
  headers : Headers
  loops : Loops
  racking : Int
  deriving DecidableEq

/-- Why a lowering stopped, and the warnings before. -/
structure LowerFailure where
  error : FatalError
  warnings : List Diagnostic
  deriving DecidableEq

/-- The warnings, then what stopped the lowering. -/
def LowerFailure.diagnostics (f : LowerFailure) : List Diagnostic :=
  f.warnings ++ [f.error.toDiagnostic]

/-- The output lines, each with a line feed behind it; a single line feed if there are none. -/
def Lowered.text (l : Lowered) : Text :=
  joinLines l.lines ++ ['\n']

namespace Context

/-- Do all of a list of things in order, up to the first error. -/
def forEach (step : Context → Text → Except LoweringError Context) (c : Context) :
    List Text → Except LoweringError Context
  | [] => .ok c
  | name :: rest =>
    match step c name with
    | .error e => .error e
    | .ok c => c.forEach step rest

/-- Do what a line asks for. -/
def execute (c : Context) (line : Nat) : Command → Except LoweringError Context
  | .bringIn names => c.forEach bringIn names
  | .bringOut names => c.forEach bringOut names
  | .idle | .stitch .. | .stitchNumber .. | .setting .. => .ok c
  | .rack target => .ok (c.rack target)
  | .vendor word =>
    .ok (c.warn line .extension s!"unsupported extension operation '{String.ofList word}'.")
  | .loops request => c.lowerRequest request

/-- Lower one line. A line that holds only a comment gives an output line without an instruction. -/
def lowerLine (c : Context) (line : Nat) (source : Text) : Except LoweringError Context :=
  let c := { c with output := c.output.beginLine source }
  match Command.ofLine source with
  | .error e => .error e
  | .ok (some command) => c.execute line command
  | .ok none =>
    .ok (if (cutComment source).2.isSome then c.emit (.remark .sourceComment) else c)

/-- Lower the lines from this number on. -/
def lowerLines (c : Context) (line : Nat) : List Text → Except LowerFailure Context
  | [] => .ok c
  | source :: rest =>
    match c.lowerLine line source with
    | .error e => .error ⟨⟨line, e⟩, c.warnings⟩
    | .ok c => c.lowerLines (line + 1) rest

/-- Lowering more lines continues the lowering of fewer. -/
theorem lowerLines_append (c : Context) (line : Nat) (xs ys : List Text) :
    c.lowerLines line (xs ++ ys) =
      (c.lowerLines line xs).bind fun d => d.lowerLines (line + xs.length) ys := by
  induction xs generalizing c line with
  | nil => simp [lowerLines, Except.bind]
  | cons x xs ih =>
    simp only [List.cons_append, lowerLines, List.length_cons]
    cases c.lowerLine line x with
    | error e => rfl
    | ok d =>
      simp only [ih]
      rw [Nat.add_right_comm, Nat.add_assoc]

/-- A lowering stops at a line that cannot be lowered after the lines before it. -/
theorem lowerLines_error {c : Context} {number : Nat} {lines : List Text} {failure : LowerFailure}
    (stopped : c.lowerLines number lines = .error failure) :
    ∃ before line after d e, lines = before ++ line :: after ∧
      c.lowerLines number before = .ok d ∧
      d.lowerLine (number + before.length) line = .error e ∧
      failure = ⟨⟨number + before.length, e⟩, d.warnings⟩ := by
  induction lines generalizing c number with
  | nil => cases stopped
  | cons line rest ih =>
    unfold lowerLines at stopped
    split at stopped
    · next e step =>
      cases stopped
      exact ⟨[], line, rest, c, e, rfl, rfl, step, rfl⟩
    · next d step =>
      obtain ⟨before, last, after, d', e, rfl, done, refused, rfl⟩ := ih stopped
      have place : number + 1 + before.length = number + (line :: before).length := by
        rw [List.length_cons]
        omega
      rw [place] at refused ⊢
      refine ⟨line :: before, last, after, d', e, rfl, ?_, refused, rfl⟩
      rw [lowerLines, step]
      exact done

/-- It stops there whatever lines follow. -/
theorem lowerLines_stops {c d : Context} {number : Nat} {before : List Text} {line : Text}
    {e : LoweringError} (done : c.lowerLines number before = .ok d)
    (refused : d.lowerLine (number + before.length) line = .error e) (after : List Text) :
    c.lowerLines number (before ++ line :: after) =
      .error ⟨⟨number + before.length, e⟩, d.warnings⟩ := by
  rw [lowerLines_append, done]
  simp [Except.bind, lowerLines, refused]

/-- A carrier whose `in` was dropped is worth a warning about no line in particular. -/
def warnUnused (c : Context) (carrier : Carrier) : Context :=
  c.warn 0 .carrier
    s!"Carrier '{String.ofList carrier.name}' was brought in but never used; its 'in' was dropped."

/-- The result, once all lines are lowered. -/
def finish (c : Context) (headers : Headers) : Lowered :=
  { lines := c.output.lines
    warnings := (c.output.unused.foldl warnUnused c).warnings
    headers
    loops := c.loops
    racking := c.racking }

end Context

/-- Lower the lines behind a header; the first one has this number. -/
def lowerBody (headers : Headers) (body : List Text) (firstLine : Nat) :
    Except LowerFailure Lowered :=
  match CarrierTable.ofNames headers.carriers with
  | .error e => .error ⟨⟨firstLine - 1, e⟩, []⟩
  | .ok carriers =>
    match (Context.start carriers).lowerLines firstLine body with
    | .error failure => .error failure
    | .ok c => .ok (c.finish headers)

/-- Lower the lines of a file. -/
def lowerLines (source : List Text) : Except LowerFailure Lowered :=
  match Headers.ofLines source with
  | .error e => .error ⟨e, []⟩
  | .ok block =>
    match lowerBody block.headers (source.drop block.bodyStart) (block.bodyStart + 1) with
    | .error failure => .error { failure with warnings := block.warnings ++ failure.warnings }
    | .ok lowered => .ok { lowered with warnings := block.warnings ++ lowered.warnings }

/-- Lower a file. -/
def lower (source : Text) : Except LowerFailure Lowered :=
  lowerLines (lines source)

end Knitout
