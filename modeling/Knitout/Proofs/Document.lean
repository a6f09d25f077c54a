import Knitout.Lowering.Basic
import Knitout.Program
import Knitout.Proofs.Settling

/-!
The text of an output is read back as the operations that it holds (`Output.ofText_text`): a line
that quotes its source does so behind a semicolon, and a line without an operation is a comment.
-/

namespace Knitout

/-! ## One line -/

namespace Content

/-- A content without an operation is empty or starts with a semicolon. -/
theorem render_cases {content : Content} (none : content.operation? = none) :
    content.render = [] ∨ ∃ comment, content.render = ';' :: comment := by
  cases content with
  | operation => cases none
  | remark note =>
    cases note with
    | sourceComment => exact .inl rfl
    | rackNotNeeded | amissIgnored | emptyDropIgnored => exact .inr ⟨_, rfl⟩
  | pendingIn carrier => exact .inr ⟨_, rfl⟩

theorem eq_operation {content : Content} {op : Operation} (held : content.operation? = some op) :
    content = .operation op := by
  cases content with
  | operation op' =>
    cases held
    rfl
  | remark | pendingIn => cases held

/-- Only the name of a carrier could go over the end of a line. -/
theorem newline_not_mem_render {content : Content}
    (named : ∀ carrier, content = .pendingIn carrier → '\n' ∉ carrier.name) :
    '\n' ∉ content.render := by
  cases content with
  | operation op =>
    have absent := not_mem_render (c := '\n') (by decide) (.inl (by decide)) op 0
    rwa [List.replicate_zero, List.append_nil] at absent
  | remark note => cases note <;> decide
  | pendingIn carrier =>
    have lead : '\n' ∉ "; (carrier '".toList := by decide
    have tail : '\n' ∉ "' brought in but never used)".toList := by decide
    intro member
    rcases List.mem_append.1 member with member | member
    · exact (List.mem_append.1 member).elim lead (named carrier rfl)
    · exact tail member

end Content

namespace Slot

variable {slot : Slot}

/-- The quoted source stands behind a semicolon. -/
theorem render_quoting (content : Content) (source : Text) :
    (Slot.mk content (some source)).render =
      content.render ++ List.replicate (annotationColumn - content.render.length) ' ' ++
        ';' :: ' ' :: source := by
  have mark : "; ".toList = [';', ' '] := rfl
  simp only [render, padTo, mark, List.append_assoc, List.cons_append, List.nil_append]

/-- A slot's line holds no line feed. -/
theorem newline_not_mem_render
    (named : ∀ carrier, slot.content = .pendingIn carrier → '\n' ∉ carrier.name)
    (quote : ∀ source, slot.annotation = some source → '\n' ∉ source) : '\n' ∉ slot.render := by
  have absent := Content.newline_not_mem_render named
  obtain ⟨content, annotation⟩ := slot
  cases annotation with
  | none => exact absent
  | some source =>
    have spaces (n : Nat) : '\n' ∉ List.replicate n ' ' := fun member => by
      cases (List.mem_replicate.1 member).2
    rw [render_quoting]
    simp only [List.append_assoc, List.mem_append, List.mem_cons, not_or]
    exact ⟨absent, spaces _, by decide, by decide, quote source rfl⟩

/-- Without the carriage return that its end may have, a slot's line quotes a source line without
one. -/
theorem dropReturn_render (slot : Slot) :
    dropReturn slot.render = Slot.render ⟨slot.content, slot.annotation.map dropReturn⟩ := by
  obtain ⟨content, annotation⟩ := slot
  cases annotation with
  | some source =>
    have space : dropReturn (' ' :: source) = ' ' :: dropReturn source :=
      dropReturn_append (by decide) [] source
    rw [render_quoting, dropReturn_append (by decide), space]
    exact (render_quoting content _).symm
  | none =>
    have last : content.render.getLast? ≠ some '\r' := by
      cases content with
      | operation op =>
        have absent := not_mem_render (c := '\r') (by decide) (.inl (by decide)) op 0
        rw [List.replicate_zero, List.append_nil] at absent
        exact fun last => absent (List.mem_of_getLast? last)
      | remark note =>
        have absent : '\r' ∉ note.render := by cases note <;> decide
        exact fun last => absent (List.mem_of_getLast? last)
      | pendingIn carrier =>
        have tail : "' brought in but never used)".toList.getLast? = some ')' := by decide
        have last : (Content.pendingIn carrier).render.getLast? = some ')' := by
          unfold Content.render
          exact (List.getLast?_append).trans (by rw [tail]; rfl)
        rw [last]
        decide
    show dropReturn content.render = content.render
    rw [dropReturn, if_neg last]

/-- Behind the operation of a slot stands what it quotes. -/
theorem cutComment_render {op : Operation} (holds : slot.content = .operation op) : ∃ n,
    cutComment slot.render =
      (op.render ++ List.replicate n ' ', slot.annotation.map (' ' :: ·)) := by
  obtain ⟨content, annotation⟩ := slot
  subst holds
  cases annotation with
  | none =>
    have absent := not_mem_render (c := ';') (by decide) (.inr rfl) op 0
    refine ⟨0, ?_⟩
    rw [List.replicate_zero, List.append_nil] at absent ⊢
    show cutComment op.render = _
    rw [cutComment, cutAt?_eq_none absent]
    rfl
  | some source =>
    refine ⟨annotationColumn - op.render.length, ?_⟩
    have code : (Content.operation op).render = op.render := rfl
    rw [render_quoting, code, cutComment,
      cutAt?_append (not_mem_render (by decide) (.inr rfl) op _)]
    rfl

/-- Without an operation there is nothing in front of the comment. -/
theorem words_render_quiet (quiet : slot.content.operation? = none) :
    words (cutComment slot.render).1 = [] := by
  have comment (n : Nat) (rest : Text) :
      words (cutComment (List.replicate n ' ' ++ ';' :: rest)).1 = [] := by
    have absent : ';' ∉ List.replicate n ' ' := fun member => by
      cases (List.mem_replicate.1 member).2
    rw [cutComment, cutAt?_append absent]
    exact words_replicate_space n
  obtain ⟨content, annotation⟩ := slot
  rcases Content.render_cases quiet with empty | ⟨rest, starts⟩
  · cases annotation with
    | none =>
      have line : (Slot.mk content none).render = [] := empty
      rw [line]
      rfl
    | some source =>
      rw [render_quoting, empty]
      exact comment _ _
  · cases annotation with
    | none =>
      have line : (Slot.mk content none).render = ';' :: rest := starts
      rw [line]
      exact comment 0 rest
    | some source =>
      rw [render_quoting, starts]
      exact comment 0 _

/-- Without the carriage return that its end may have, a slot's line is read as what it holds. -/
theorem ofLine?_render (tidy : slot.content.Tidy) (number : Nat) :
    ∃ comment, Instruction.ofLine? (dropReturn slot.render) number =
      .ok (slot.content.operation?.map fun op => ⟨op, number, comment⟩) := by
  rw [dropReturn_render]
  generalize slot.annotation.map dropReturn = annotation
  cases held : slot.content.operation? with
  | none =>
    have nothing : words (cutComment (Slot.mk slot.content annotation).render).1 = [] :=
      words_render_quiet held
    refine ⟨none, ?_⟩
    simp only [Instruction.ofLine?, nothing]
    rfl
  | some op =>
    have there := Content.eq_operation held
    have formed : op.WellFormed := by rwa [there] at tidy
    obtain ⟨n, cut⟩ : ∃ n, cutComment (Slot.mk slot.content annotation).render =
        (op.render ++ List.replicate n ' ', annotation.map (' ' :: ·)) := cutComment_render there
    refine ⟨Option.map (' ' :: ·) annotation, ?_⟩
    simp only [Instruction.ofLine?, cut, words_render, Operation.ofWords?_words formed]
    rfl

end Slot

/-! ## All lines -/

/-- The operations of an output, with the numbers of their lines. -/
def Output.numbered (o : Output) : List (Nat × Operation) :=
  (o.slots.toList.zipIdx 1).filterMap fun (slot, number) =>
    slot.content.operation?.map (number, ·)

theorem Output.numbered_operations (o : Output) : o.numbered.map (·.2) = o.operations := by
  unfold numbered operations
  rw [List.map_filterMap]
  conv_rhs => rw [← List.zipIdx_map_fst 1 o.slots.toList, List.filterMap_map]
  refine List.filterMap_congr ?_
  intro x _
  simp [Function.comp_def]

/-- Lines that are read one by one as what slots hold give the operations of the slots, each with
the number of its line, and no errors. -/
private theorem ofLines_slots {slots : List Slot} (tidy : ∀ slot ∈ slots, slot.content.Tidy)
    (start : Nat) :
    let read := ((slots.map fun slot => dropReturn slot.render).zipIdx start).map
      fun (line, number) => (number, Instruction.ofLine? line number)
    (read.filterMap fun
      | (_, .ok instruction?) => instruction?
      | (_, .error _) => none).map (fun i => (i.line, i.operation)) =
        (slots.zipIdx start).filterMap (fun (slot, number) =>
          slot.content.operation?.map (number, ·)) ∧
      read.filterMap (fun
        | (_, .ok _) => none
        | (number, .error error) => some (LineError.mk number error)) = [] := by
  induction slots generalizing start with
  | nil => exact ⟨rfl, rfl⟩
  | cons slot rest ih =>
    obtain ⟨instructions, errors⟩ :=
      ih (fun slot member => tidy slot (List.mem_cons_of_mem _ member)) (start + 1)
    obtain ⟨comment, first⟩ := Slot.ofLine?_render (tidy slot (by simp)) start
    simp only [List.map_cons, List.zipIdx_cons, List.filterMap_cons, first]
    cases slot.content.operation? with
    | none => exact ⟨instructions, errors⟩
    | some op => exact ⟨by simp only [Option.map_some, List.map_cons, instructions], errors⟩

/-- The text of a tidy output holds its operations, each on its line, and nothing that cannot be
read. -/
theorem Output.ofText_numbered {o : Output} (tidy : o.Tidy) :
    (Program.ofText (joinLines o.lines ++ ['\n'])).errors = [] ∧
      (Program.ofText (joinLines o.lines ++ ['\n'])).instructions.map
        (fun i => (i.line, i.operation)) = o.numbered := by
  have contents : ∀ slot ∈ o.slots.toList, slot.content.Tidy := by
    intro slot member
    obtain ⟨index, there⟩ := exists_content? member
    exact tidy.contents index _ there
  by_cases empty : o.lines = []
  · have none : o.slots.toList = [] := List.map_eq_nil_iff.1 empty
    rw [empty, numbered, none]
    exact ⟨rfl, rfl⟩
  · have whole : ∀ line ∈ o.lines, '\n' ∉ line := by
      intro line member
      obtain ⟨slot, inside, rfl⟩ := List.mem_map.1 member
      refine Slot.newline_not_mem_render (fun carrier same => ?_) (tidy.quotes slot inside)
      have fine := contents slot inside
      rwa [same] at fine
    have split := lines_joinLines empty whole
    rw [lines, List.map_map] at split
    obtain ⟨instructions, errors⟩ := ofLines_slots contents 1
    unfold Program.ofText Program.ofLines Program.outcomes
    rw [lines, split]
    exact ⟨errors, instructions⟩

theorem Output.ofText_text {o : Output} (tidy : o.Tidy) :
    (Program.ofText (joinLines o.lines ++ ['\n'])).errors = [] ∧
      (Program.ofText (joinLines o.lines ++ ['\n'])).instructions.map (·.operation) =
        o.operations := by
  obtain ⟨errors, instructions⟩ := ofText_numbered tidy
  refine ⟨errors, ?_⟩
  rw [← numbered_operations, ← instructions, List.map_map]
  rfl

end Knitout
