import Knitout.Instruction.Basic

/-!
# The text of an instruction

An operation is written as its mnemonic and its fields, one space between any two; a comment follows
behind a space and a semicolon.
-/

namespace Knitout

/-- A strand is a yarn and a length in parentheses, with a comma between them. -/
def Strand.render (strand : Strand) : Text :=
  '(' :: natDigits strand.yarn ++ ',' :: strand.length.render ++ [')']

namespace Operation

/-- The words behind the mnemonic. -/
def fields : Operation → List Text
  | .knit direction needle length strands | .tuck direction needle length strands =>
    [direction.sign] :: needle.render :: length.render :: strands.map Strand.render
  | .split direction needle target length strands =>
    [direction.sign] :: needle.render :: target.render :: length.render ::
      strands.map Strand.render
  | .miss direction needle yarn | .bringIn direction needle yarn
  | .bringOut direction needle yarn => [[direction.sign], needle.render, natDigits yarn]
  | .drop needle => [needle.render]
  | .transfer needle target => [needle.render, target.render]
  | .rack racking => [intDigits racking]

/-- The text of an operation. -/
def render (operation : Operation) : Text :=
  [' '].intercalate (operation.mnemonic.word :: operation.fields)

end Operation

/-- The text of an instruction. -/
def Instruction.render (instruction : Instruction) : Text :=
  match instruction.comment with
  | none => instruction.operation.render
  | some comment => instruction.operation.render ++ ' ' :: ';' :: comment

end Knitout
