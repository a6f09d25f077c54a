import Knitout.Proofs.Causes

/-!
Lines are read one by one. What is recorded of a line does not depend on the lines around it
(`Program.ofLines_append`), and each line is recorded exactly once, as an instruction or as an
error, or is silent (`Program.Records`). Main statement: `reading_is_line_local`.
-/

namespace Knitout

/-! ## Numbered things -/

section
variable {α β : Type} {f : α × Nat → Option β}

/-- If things give the same under a higher number, up to this number, then they give the same behind
others. -/
private theorem filterMap_zipIdx_append (up : Nat → β → β)
    (raises : ∀ x number offset, f (x, number + offset) = (f (x, number)).map (up offset))
    (xs ys : List α) (start : Nat) :
    ((xs ++ ys).zipIdx start).filterMap f =
      (xs.zipIdx start).filterMap f ++ ((ys.zipIdx start).filterMap f).map (up xs.length) := by
  rw [List.zipIdx_append, List.filterMap_append, List.map_filterMap, Nat.add_comm,
    ← List.map_snd_add_zipIdx_eq_zipIdx, List.filterMap_map]
  congr 1
  refine List.filterMap_congr ?_
  rintro ⟨x, number⟩ _
  exact raises x number xs.length

section
variable {g : β → Nat} (numbered : ∀ x number b, f (x, number) = some b → g b = number)
include numbered

/-- No number is made up. -/
private theorem number_mem_range {xs : List α} {start : Nat} {b : β}
    (member : b ∈ (xs.zipIdx start).filterMap f) : start ≤ g b ∧ g b < start + xs.length := by
  obtain ⟨⟨x, number⟩, inside, given⟩ := List.mem_filterMap.1 member
  rw [numbered x number b given]
  exact ⟨(List.mem_zipIdx inside).1, (List.mem_zipIdx inside).2.1⟩

/-- Under a number stands what the thing with this number gives, and nothing else. -/
private theorem filter_number (xs : List α) (start index : Nat) :
    ((xs.zipIdx start).filterMap f).filter (fun b => g b = start + index) =
      (xs[index]?.bind fun x => f (x, start + index)).toList := by
  induction xs generalizing start index with
  | nil => rfl
  | cons x xs ih =>
    rw [List.zipIdx_cons, List.filterMap_cons]
    cases index with
    | zero =>
      have later : ((xs.zipIdx (start + 1)).filterMap f).filter (fun b => g b = start) = [] := by
        rw [List.filter_eq_nil_iff]
        intro b member
        have behind := (number_mem_range numbered member).1
        simp only [decide_eq_true_eq]
        omega
      cases here : f (x, start) with
      | none => simp [here, later]
      | some b => simp [here, later, numbered x start b here]
    | succ index =>
      have next : start + (index + 1) = start + 1 + index := by omega
      rw [List.getElem?_cons_succ, next, ← ih]
      cases here : f (x, start) with
      | none => rfl
      | some b =>
        have other : g b ≠ start + 1 + index := by
          rw [numbered x start b here]
          omega
        simp [other]

end

end

/-! ## Documents behind documents -/

/-- The same instruction, so many lines further down. -/
def Instruction.raise (offset : Nat) (i : Instruction) : Instruction :=
  { i with line := i.line + offset }

/-- The same error, so many lines further down. -/
def LineError.raise (offset : Nat) (e : LineError) : LineError :=
  { e with line := e.line + offset }

theorem Instruction.onLine?_add (line : Text) (number offset : Nat) :
    onLine? line (number + offset) = (onLine? line number).map (raise offset) := by
  simp only [onLine?, Option.map_map]
  rfl

/-- The instruction on a line is what reading the line gives, if that is one. -/
theorem Instruction.onLine?_eq (line : Text) (number : Nat) :
    onLine? line number = (ofLine? line number).toOption.join := by
  unfold onLine? Operation.onWords? ofLine?
  simp only
  cases Operation.ofWords? (words (cutComment line).1) with
  | error e => rfl
  | ok operation? => cases operation? <;> rfl

/-- A line is silent exactly if there is only blank before its first semicolon. -/
theorem Instruction.ofLine?_eq_none_iff {line : Text} {number : Nat} :
    ofLine? line number = .ok none ↔
      ∀ c ∈ line.takeWhile (· != ';'), isBlank c = true := by
  rw [(ofLine?_grammar line number).1, ← words_eq_filter_splitOnP, words_eq_nil_iff]

namespace Program

theorem errorOn?_add (line : Text) (number offset : Nat) :
    errorOn? line (number + offset) = (errorOn? line number).map (LineError.raise offset) := by
  unfold errorOn? Instruction.ofLine?
  simp only
  cases Operation.ofWords? (words (cutComment line).1) with
  | error e => rfl
  | ok operation? => cases operation? <;> rfl

/-- What was read of a document, so many lines further down. -/
def raise (offset : Nat) (p : Program) : Program :=
  ⟨p.instructions.map (Instruction.raise offset), p.errors.map (LineError.raise offset)⟩

/-- What was read of two documents, one behind the other. -/
def append (p q : Program) : Program :=
  ⟨p.instructions ++ q.instructions, p.errors ++ q.errors⟩

/-- Lines behind others are read as if they stood alone, but for their numbers. -/
theorem ofLines_append (xs ys : List Text) :
    ofLines (xs ++ ys) = (ofLines xs).append ((ofLines ys).raise xs.length) := by
  have instructions : (ofLines (xs ++ ys)).instructions =
      (ofLines xs).instructions ++ (ofLines ys).instructions.map (Instruction.raise xs.length) := by
    simp only [instructions_ofLines]
    exact filterMap_zipIdx_append Instruction.raise Instruction.onLine?_add xs ys 1
  have errors : (ofLines (xs ++ ys)).errors =
      (ofLines xs).errors ++ (ofLines ys).errors.map (LineError.raise xs.length) := by
    simp only [errors_ofLines]
    exact filterMap_zipIdx_append LineError.raise errorOn?_add xs ys 1
  exact congrArg₂ Program.mk instructions errors

/-! ## Every line once -/

/-- What is recorded under the number of a line: nothing, if there is only blank before its first
semicolon, and else the instruction or the error that the line alone gives. -/
inductive Records (p : Program) (number : Nat) (line : Text) : Prop
  | silent (blank : ∀ c ∈ line.takeWhile (· != ';'), isBlank c = true)
      (instructions : p.instructions.filter (·.line = number) = [])
      (errors : p.errors.filter (·.line = number) = [])
  | instruction {i : Instruction} (code : ∃ c ∈ line.takeWhile (· != ';'), isBlank c = false)
      (read : Instruction.ofLine? line number = .ok (some i))
      (instructions : p.instructions.filter (·.line = number) = [i])
      (errors : p.errors.filter (·.line = number) = [])
  | error {e : SyntaxError} (code : ∃ c ∈ line.takeWhile (· != ';'), isBlank c = false)
      (read : Instruction.ofLine? line number = .error e)
      (instructions : p.instructions.filter (·.line = number) = [])
      (errors : p.errors.filter (·.line = number) = [⟨number, e⟩])

private theorem numbered_onLine? (line : Text) (number : Nat) (i : Instruction)
    (found : Instruction.onLine? line number = some i) : i.line = number :=
  Instruction.line_of_onLine? found

private theorem numbered_errorOn? (line : Text) (number : Nat) (e : LineError)
    (found : errorOn? line number = some e) : e.line = number :=
  (errorOn?_eq_some_iff.1 found).1

/-- The line with this index is recorded as what it gives alone. -/
theorem records_ofLines {lines : List Text} {line : Text} {index : Nat}
    (there : lines[index]? = some line) : (ofLines lines).Records (index + 1) line := by
  have instructions : (ofLines lines).instructions.filter (·.line = index + 1) =
      (Instruction.onLine? line (index + 1)).toList := by
    rw [instructions_ofLines, Nat.add_comm index 1]
    exact (filter_number numbered_onLine? lines 1 index).trans (by rw [there]; rfl)
  have errors : (ofLines lines).errors.filter (·.line = index + 1) =
      (errorOn? line (index + 1)).toList := by
    rw [errors_ofLines, Nat.add_comm index 1]
    exact (filter_number numbered_errorOn? lines 1 index).trans (by rw [there]; rfl)
  have code (read : Instruction.ofLine? line (index + 1) ≠ .ok none) :
      ∃ c ∈ line.takeWhile (· != ';'), isBlank c = false := by
    rw [ne_eq, Instruction.ofLine?_eq_none_iff] at read
    push Not at read
    simpa using read
  rw [Instruction.onLine?_eq] at instructions
  rw [errorOn?] at errors
  cases read : Instruction.ofLine? line (index + 1) with
  | error e =>
    rw [read] at instructions errors
    exact .error (code (by simp [read])) read instructions errors
  | ok instruction? =>
    rw [read] at instructions errors
    cases instruction? with
    | none => exact .silent (Instruction.ofLine?_eq_none_iff.1 read) instructions errors
    | some i => exact .instruction (code (by simp [read])) read instructions errors

/-- The errors of a document are about different lines, in order. -/
theorem increasing_errors (lines : List Text) :
    ((ofLines lines).errors.map (·.line)).Pairwise (· < ·) := by
  rw [errors_ofLines]
  exact increasing_numbers numbered_errorOn? _ 1

end Program

/-- Reading is line by line. What is read of lines behind others is what is read of them alone, with
higher numbers. Each line is recorded exactly once or, if there is only blank before its first
semicolon, not at all; nothing is recorded that is about no line; and the instructions as well as
the errors are in the order of their lines. -/
theorem reading_is_line_local :
    (∀ xs ys, Program.ofLines (xs ++ ys) =
      (Program.ofLines xs).append ((Program.ofLines ys).raise xs.length)) ∧
    ∀ lines,
      (∀ index line, lines[index]? = some line →
        (Program.ofLines lines).Records (index + 1) line) ∧
      (∀ i ∈ (Program.ofLines lines).instructions, 1 ≤ i.line ∧ i.line ≤ lines.length) ∧
      (∀ e ∈ (Program.ofLines lines).errors, 1 ≤ e.line ∧ e.line ≤ lines.length) ∧
      ((Program.ofLines lines).instructions.map (·.line)).Pairwise (· < ·) ∧
      ((Program.ofLines lines).errors.map (·.line)).Pairwise (· < ·) := by
  refine ⟨Program.ofLines_append, fun lines => ⟨fun _ _ => Program.records_ofLines, ?_, ?_,
    Program.increasing_instructions lines, Program.increasing_errors lines⟩⟩
  · intro i member
    rw [Program.instructions_ofLines] at member
    have range := number_mem_range Program.numbered_onLine? member
    omega
  · intro e member
    rw [Program.errors_ofLines] at member
    have range := number_mem_range Program.numbered_errorOn? member
    omega

end Knitout
