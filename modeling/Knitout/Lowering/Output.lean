import Knitout.Carrier
import Knitout.Instruction.Printer

/-!
# The output of a lowering

Output lines are kept as slots until the end, because an `in` is only settled by the first use of
its carrier. The first slot of a source line quotes that line. Main statements: `emit` adds one slot
at the end and `fill` settles one in place (`Output.size_emit`, `Output.size_fill`).
-/

namespace Knitout

/-- A comment in place of an instruction. -/
inductive Remark where
  /-- The source line holds only a comment. -/
  | sourceComment
  | rackNotNeeded
  | amissIgnored
  | emptyDropIgnored
  deriving DecidableEq

/-- What an output line holds. -/
inductive Content where
  | operation (operation : Operation)
  | remark (remark : Remark)
  /-- The place of an `in` that the first use of the carrier will settle. -/
  | pendingIn (carrier : Carrier)
  deriving DecidableEq

/-- An output line and the source line that it quotes. -/
structure Slot where
  content : Content
  annotation : Option Text
  deriving DecidableEq

/-- The output so far. -/
structure Output where
  slots : Array Slot
  /-- The source line that the next slot has to quote. -/
  annotation : Option Text
  deriving DecidableEq

/-- The text of a remark. -/
def Remark.render : Remark → Text
  | .sourceComment => []
  | .rackNotNeeded => "; (rack not needed)".toList
  | .amissIgnored => "; amiss ignored".toList
  | .emptyDropIgnored => "; drop of empty needle ignored".toList

/-- The text of an output line without what it quotes. An `in` that nothing settled is a comment. -/
def Content.render : Content → Text
  | .operation op => op.render
  | .remark note => note.render
  | .pendingIn carrier =>
    "; (carrier '".toList ++ carrier.name ++ "' brought in but never used)".toList

/-- The column at which the quoted source line begins, if the instruction is not longer. -/
def annotationColumn : Nat := 30

/-- The text of an output line. -/
def Slot.render (slot : Slot) : Text :=
  match slot.annotation with
  | some source => padTo annotationColumn slot.content.render ++ "; ".toList ++ source
  | none => slot.content.render

namespace Output

/-- No slot and nothing to quote. -/
def empty : Output := ⟨#[], none⟩

/-- Begin a source line; an empty one is not worth quoting. -/
def beginLine (o : Output) (source : Text) : Output :=
  { o with annotation := if source.isEmpty then none else some source }

/-- Add a slot. -/
def emit (o : Output) (content : Content) : Output :=
  ⟨o.slots.push ⟨content, o.annotation⟩, none⟩

/-- Settle a slot; what it quotes stays. -/
def fill (o : Output) (index : Nat) (content : Content) : Output :=
  { o with slots := o.slots.modify index fun slot => { slot with content } }

/-- The carriers whose `in` was never settled, in the order of the slots. -/
def unused (o : Output) : List Carrier :=
  o.slots.toList.filterMap fun slot =>
    match slot.content with
    | .pendingIn carrier => some carrier
    | _ => none

/-- The output lines. -/
def lines (o : Output) : List Text :=
  o.slots.toList.map Slot.render

@[simp] theorem size_emit (o : Output) (content : Content) :
    (o.emit content).slots.size = o.slots.size + 1 := by
  simp [emit]

@[simp] theorem size_fill (o : Output) (index : Nat) (content : Content) :
    (o.fill index content).slots.size = o.slots.size := by
  simp [fill]

end Output

end Knitout
