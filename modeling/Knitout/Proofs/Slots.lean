import Knitout.Proofs.Document
import Knitout.Proofs.Stitch

/-!
What is read where an output line stands, whether its operation can be read or not: an operation that
fails only because a yarn is no 32-bit number is read by nobody (`Operation.narrow_of_spelled`), and
a line is the instruction that its slot holds or none (`Slot.instruction?_eq`).
-/

namespace Knitout

/-! ## Narrow operations -/

/-- The yarns are 32-bit numbers. -/
def Operation.Narrow (op : Operation) : Prop :=
  ∀ yarn ∈ op.yarns, yarn ≤ maxHalfWord

instance (op : Operation) : Decidable op.Narrow :=
  inferInstanceAs (Decidable (∀ yarn ∈ op.yarns, yarn ≤ maxHalfWord))

theorem natDigits_inj {m n : Nat} (same : natDigits m = natDigits n) : m = n := by
  rw [← natValue_natDigits m, same, natValue_natDigits]

/-- Digits that spell a yarn are those of a 32-bit number. -/
theorem YarnSpelled.narrow {yarn yarn' : Yarn} (spelled : YarnSpelled yarn' (natDigits yarn)) :
    yarn ≤ maxHalfWord := by
  obtain ⟨small, digits⟩ := spelled
  have same : natDigits yarn = natDigits yarn' := digits
  rw [natDigits_inj same]
  exact small

theorem Strand.Spelled.narrow {strand strand' : Strand} (spelled : strand'.Spelled strand.render) :
    strand.yarn ≤ maxHalfWord := by
  obtain ⟨digits, length, yarn, _, _, _, token⟩ := spelled
  have noComma (n : Nat) : ',' ∉ natDigits n :=
    fun member => absurd (isDigit_of_mem_natDigits member) (by decide)
  have small : YarnSpelled strand'.yarn digits := yarn
  obtain ⟨_, rfl⟩ := yarn
  have inner : natDigits strand.yarn ++ ',' :: (strand.length.render ++ [')']) =
      natDigits strand'.yarn ++ ',' :: (length ++ [')']) := by
    simpa [Strand.render] using token
  have cut := congrArg (cutAt? ',') inner
  rw [cutAt?_append (noComma _), cutAt?_append (noComma _)] at cut
  have same : natDigits strand.yarn = natDigits strand'.yarn :=
    congrArg Prod.fst (Option.some.inj cut)
  rw [← same] at small
  exact small.narrow

private theorem narrow_of_forall₂ {strands strands' : List Strand}
    (spelled : List.Forall₂ Strand.Spelled strands' (strands.map Strand.render)) :
    ∀ yarn ∈ yarnsOf strands, yarn ≤ maxHalfWord := by
  induction strands generalizing strands' with
  | nil => simp [yarnsOf]
  | cons strand rest ih =>
    cases spelled with
    | cons first others =>
      intro yarn member
      rcases List.mem_cons.1 member with rfl | member
      · exact first.narrow
      · exact ih others yarn member

/-- What is written of an operation is spelled only if its yarns are 32-bit numbers. -/
theorem Operation.narrow_of_spelled {op op' : Operation}
    (spelled : op'.Spelled (op.mnemonic.word :: op.fields)) : op.Narrow := by
  obtain ⟨fields, spelled, words⟩ := spelled
  obtain ⟨word, same⟩ := List.cons.inj words
  have kind : op'.mnemonic = op.mnemonic := by
    have known := Mnemonic.ofText?_word op.mnemonic
    rw [word, Mnemonic.ofText?_word] at known
    exact Option.some.inj known
  subst same
  generalize written : op.fields = fields at spelled
  cases op with
  | drop | transfer | rack =>
    intro yarn none
    cases none
  | miss | bringIn | bringOut =>
    cases spelled with
    | miss _ _ hy | bringIn _ _ hy | bringOut _ _ hy =>
      cases kind <;> cases written <;> simpa [Narrow, yarns] using hy.narrow
    | _ => cases kind
  | knit | split =>
    cases spelled with
    | knit _ _ _ hs | split _ _ _ _ hs =>
      cases kind <;> cases written <;> exact narrow_of_forall₂ hs
    | _ => cases kind
  | tuck _ _ _ strands =>
    cases spelled with
    | tuck _ _ _ hs =>
      simp only [fields, List.cons.injEq] at written
      have single := List.Forall₂.cons hs .nil
      rw [← written.2.2.2] at single
      exact narrow_of_forall₂ single
    | _ => cases kind

/-! ## Reading a line -/

/-- The operation that words are, if they are one. -/
def Operation.onWords? (words : List Text) : Option Operation :=
  match ofWords? words with
  | .ok operation? => operation?
  | .error _ => none

/-- An operation that is well formed up to its yarns is read from its words exactly if the yarns are
32-bit numbers. -/
theorem Operation.onWords?_words {op : Operation} (formed : op.Narrow → op.WellFormed) :
    onWords? (op.mnemonic.word :: op.fields) = if op.Narrow then some op else none := by
  by_cases narrow : op.Narrow
  · rw [if_pos narrow, onWords?, ofWords?_words (formed narrow)]
  · rw [if_neg narrow, Option.eq_none_iff_forall_ne_some]
    intro op' read
    unfold onWords? at read
    split at read
    · next operation? words =>
      rw [read] at words
      exact narrow (narrow_of_spelled (ofWords?_eq_some_iff.1 words))
    · cases read

/-- The instruction on a line, if there is one that can be read. -/
def Instruction.onLine? (line : Text) (number : Nat) : Option Instruction :=
  (Operation.onWords? (words (cutComment line).1)).map fun op => ⟨op, number, (cutComment line).2⟩

/-- The instructions of a document are those on its lines. -/
theorem Program.instructions_ofLines (lines : List Text) :
    (ofLines lines).instructions =
      (lines.zipIdx 1).filterMap fun (line, number) => Instruction.onLine? line number := by
  show ((lines.zipIdx 1).map _).filterMap _ = _
  rw [List.filterMap_map]
  refine List.filterMap_congr ?_
  rintro ⟨line, number⟩ _
  simp only [Function.comp_apply, Instruction.onLine?, Operation.onWords?, Instruction.ofLine?]
  cases Operation.ofWords? (words (cutComment line).1) with
  | error e => rfl
  | ok operation? => cases operation? <;> rfl

namespace Slot

variable {slot : Slot} {op : Operation}

/-- The instruction that a slot holds: its operation, if that can be read, and the source line that
it quotes. -/
def instruction? (slot : Slot) (number : Nat) : Option Instruction :=
  match slot.content with
  | .operation op =>
    if op.Narrow then some ⟨op, number, slot.annotation.map (' ' :: ·)⟩ else none
  | _ => none

/-- It is what is read on the line of the slot. -/
theorem onLine?_render (formed : ∀ op, slot.content = .operation op → op.Narrow → op.WellFormed)
    (number : Nat) : Instruction.onLine? slot.render number = slot.instruction? number := by
  cases holds : slot.content.operation? with
  | none =>
    have nothing : slot.instruction? number = none := by
      unfold instruction?
      split
      · next op there => rw [there] at holds; cases holds
      · rfl
    rw [nothing, Instruction.onLine?, words_render_quiet holds]
    rfl
  | some op =>
    have there := Content.eq_operation holds
    obtain ⟨n, cut⟩ := cutComment_render there
    rw [Instruction.onLine?, cut, words_render, Operation.onWords?_words (formed op there),
      instruction?, there]
    by_cases narrow : op.Narrow <;> simp [narrow]

end Slot

/-- Up to their yarns all operations of an output are well formed. -/
def Output.Formed (o : Output) : Prop :=
  ∀ slot ∈ o.slots.toList, ∀ op, slot.content = .operation op → op.Narrow → op.WellFormed

/-- The text of an output is read slot by slot. -/
theorem Output.instructions_ofText {o : Output} (quoting : o.Quoting fun source => '\n' ∉ source)
    (formed : o.Formed)
    (named : ∀ slot ∈ o.slots.toList, ∀ carrier, slot.content = .pendingIn carrier →
      '\n' ∉ carrier.name) :
    (Program.ofText (joinLines o.lines ++ ['\n'])).instructions =
      (o.slots.toList.zipIdx 1).filterMap fun (slot, number) =>
        Slot.instruction? ⟨slot.content, slot.annotation.map dropReturn⟩ number := by
  by_cases empty : o.lines = []
  · have none : o.slots.toList = [] := List.map_eq_nil_iff.1 empty
    rw [empty, none]
    rfl
  · have whole : ∀ line ∈ o.lines, '\n' ∉ line := by
      intro line member
      obtain ⟨slot, inside, rfl⟩ := List.mem_map.1 member
      exact Slot.newline_not_mem_render (named slot inside) (quoting.quotes slot inside)
    rw [Program.ofText, lines_joinLines empty whole, Program.instructions_ofLines, Output.lines,
      List.map_map, List.zipIdx_map, List.filterMap_map]
    refine List.filterMap_congr ?_
    rintro ⟨slot, number⟩ member
    have inside : slot ∈ o.slots.toList := (List.mem_zipIdx member).2.2 ▸ List.getElem_mem _
    have read (source? : Option Text) :
        Instruction.onLine? (Slot.mk slot.content source?).render number =
          Slot.instruction? ⟨slot.content, source?⟩ number := by
      refine Slot.onLine?_render ?_ number
      exact formed slot inside
    show Instruction.onLine? (dropReturn slot.render) number = _
    rw [Slot.dropReturn_render, read]

end Knitout
