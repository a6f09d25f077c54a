import Knitout.Proofs.Rejecting
import Knitout.Proofs.Slots

/-!
Each diagnostic of a check points at its cause (`diagnostics_point_at_causes`). Three numberings
meet there: lines are counted from one, instructions from zero and only where one was read, and a
refused instruction is looked up again by its number.
-/

namespace Knitout

/-! ## What lines give -/

section
variable {α β : Type} {f : α × Nat → Option β}

/-- Whatever numbered things give, each part of it comes from one of them, and what stands before it
from the ones before. -/
private theorem exists_source {xs : List α} {before after : List β} {b : β} {start : Nat}
    (given : (xs.zipIdx start).filterMap f = before ++ b :: after) :
    ∃ earlier x later, xs = earlier ++ x :: later ∧ f (x, start + earlier.length) = some b ∧
      (earlier.zipIdx start).filterMap f = before := by
  induction xs generalizing before start with
  | nil => simp at given
  | cons x xs ih =>
    have shift (earlier : List α) :
        start + 1 + earlier.length = start + (x :: earlier).length := by
      rw [List.length_cons]
      omega
    rw [List.zipIdx_cons] at given
    cases here : f (x, start) with
    | none =>
      rw [List.filterMap_cons_none here] at given
      obtain ⟨earlier, y, later, rfl, there, rest⟩ := ih given
      refine ⟨x :: earlier, y, later, rfl, by rwa [← shift], ?_⟩
      rw [List.zipIdx_cons, List.filterMap_cons_none here, rest]
    | some c =>
      rw [List.filterMap_cons_some here] at given
      cases before with
      | nil =>
        obtain ⟨rfl, _⟩ := List.cons.inj given
        exact ⟨[], x, xs, rfl, here, rfl⟩
      | cons d before =>
        obtain ⟨rfl, others⟩ := List.cons.inj given
        obtain ⟨earlier, y, later, rfl, there, rest⟩ := ih others
        refine ⟨x :: earlier, y, later, rfl, by rwa [← shift], ?_⟩
        rw [List.zipIdx_cons, List.filterMap_cons_some here, rest]

/-- What numbered things give keeps their order. -/
theorem increasing_numbers {g : β → Nat}
    (numbered : ∀ x number b, f (x, number) = some b → g b = number) (xs : List α) (start : Nat) :
    (((xs.zipIdx start).filterMap f).map g).Pairwise (· < ·) := by
  have order : (xs.zipIdx start).Pairwise fun p q => p.2 < q.2 := by
    rw [← List.pairwise_map, List.zipIdx_map_snd]
    exact List.pairwise_lt_range'
  rw [List.pairwise_map, List.pairwise_filterMap]
  refine order.imp ?_
  rintro ⟨x, m⟩ ⟨y, n⟩ less b first c second
  rw [numbered x m b first, numbered y n c second]
  exact less

end

namespace Program

/-- The error on a line, if it can neither be read nor passed over. -/
def errorOn? (line : Text) (number : Nat) : Option LineError :=
  match Instruction.ofLine? line number with
  | .ok _ => none
  | .error e => some ⟨number, e⟩

/-- The errors of a document are those on its lines. -/
theorem errors_ofLines (lines : List Text) :
    (ofLines lines).errors =
      (lines.zipIdx 1).filterMap fun (line, number) => errorOn? line number := by
  show ((lines.zipIdx 1).map _).filterMap _ = _
  rw [List.filterMap_map]
  refine List.filterMap_congr ?_
  rintro ⟨line, number⟩ _
  simp only [Function.comp_apply, errorOn?]
  cases Instruction.ofLine? line number <;> rfl

theorem errorOn?_eq_some_iff {line : Text} {number : Nat} {e : LineError} :
    errorOn? line number = some e ↔
      e.line = number ∧ Instruction.ofLine? line number = .error e.error := by
  unfold errorOn?
  cases Instruction.ofLine? line number with
  | ok => simp
  | error error =>
    obtain ⟨n, error'⟩ := e
    simp [eq_comm]

end Program

theorem Instruction.onLine?_eq_some_iff {line : Text} {number : Nat} {i : Instruction} :
    onLine? line number = some i ↔ ofLine? line number = .ok (some i) := by
  unfold onLine? Operation.onWords? ofLine?
  simp only
  cases Operation.ofWords? (words (cutComment line).1) with
  | error e => simp
  | ok operation? => cases operation? <;> simp

theorem Instruction.line_of_onLine? {line : Text} {number : Nat} {i : Instruction}
    (read : onLine? line number = some i) : i.line = number := by
  obtain ⟨op, _, rfl⟩ := Option.map_eq_some_iff.1 read
  rfl

/-- What is wrong with a line is wrong with it under any number. -/
theorem Instruction.ofLine?_error_renumber {line : Text} {number : Nat} {e : SyntaxError}
    (unread : ofLine? line number = .error e) (number' : Nat) : ofLine? line number' = .error e := by
  unfold ofLine? at unread ⊢
  simp only at unread ⊢
  split at unread
  · exact unread
  · cases unread
  · cases unread

/-! ## What diagnostics say -/

/-- A diagnostic is about a line of a text, which is shown behind its number. -/
structure Diagnostic.Shows (d : Diagnostic) (text line : Text) : Prop where
  first : 1 ≤ d.line
  last : d.line ≤ (lines text).length
  there : (lines text)[d.line - 1]? = some line
  shown : contextLine? (lines text) d.line = some (String.ofList
    (List.replicate (5 - (natDigits d.line).length) ' ' ++ natDigits d.line ++ " | ".toList ++ line))

/-- A diagnostic about a line that is no instruction says what is wrong with this line alone. -/
def Diagnostic.TellsError (d : Diagnostic) (text : Text) : Prop :=
  ∃ line e, d.Shows text line ∧ d.kind = .reading ∧
    (∀ number, Instruction.ofLine? line number = .error e) ∧ d.message = e.message

/-- A diagnostic about a refused instruction is about the line that the instruction is read from,
quotes the instruction behind the number of instructions on earlier lines, and says which rule it
breaks in the state that the accepted ones among those leave. -/
def Diagnostic.TellsFault (d : Diagnostic) (text : Text) : Prop :=
  ∃ line before i after s fault, d.Shows text line ∧ d.kind = .replay ∧
    Instruction.ofLine? line d.line = .ok (some i) ∧
    (Program.ofText text).instructions = before ++ i :: after ∧
    (Program.ofLines ((lines text).take (d.line - 1))).instructions = before ∧
    d.notes = [s!"instruction {before.length}: {String.ofList i.operation.render}"] ∧
    State.initial.applyAll (((check text).replay.accepted before).map (·.operation)) = .ok s ∧
    s.apply i.operation = .error fault ∧ d.message = fault.message

/-- The diagnostics about lines that are no instructions. -/
def errorsFound (text : Text) : List Diagnostic :=
  (Program.ofText text).errors.map LineError.toDiagnostic

/-- The diagnostics about refused instructions. -/
def faultsFound (text : Text) : List Diagnostic :=
  (check text).replay.rejections.toList.map fun r =>
    r.toDiagnostic (Program.ofText text).instructions.toArray[r.index]?

section
variable {d : Diagnostic} {text line : Text}

theorem Diagnostic.shows_of_split {earlier later : List Text}
    (split : lines text = earlier ++ line :: later) (about : d.line = 1 + earlier.length) :
    d.Shows text line := by
  have there : (lines text)[earlier.length]? = some line := by
    rw [split]
    simp
  have index : d.line - 1 = earlier.length := by omega
  refine ⟨by omega, ?_, by rw [index, there], ?_⟩
  · rw [split, List.length_append, List.length_cons]
    omega
  · rw [about, Nat.add_comm, contextLine?, there]
    rfl

/-! ### Errors -/

theorem tellsError_of_mem (member : d ∈ errorsFound text) : d.TellsError text := by
  obtain ⟨e, inside, rfl⟩ := List.mem_map.1 member
  obtain ⟨before, after, whole⟩ := List.append_of_mem inside
  rw [Program.ofText, Program.errors_ofLines] at whole
  obtain ⟨earlier, line, later, split, found, _⟩ := exists_source whole
  obtain ⟨about, unread⟩ := Program.errorOn?_eq_some_iff.1 found
  exact ⟨line, e.error, Diagnostic.shows_of_split split about, rfl,
    Instruction.ofLine?_error_renumber unread, rfl⟩

theorem increasing_errorsFound (text : Text) :
    ((errorsFound text).map (·.line)).Pairwise (· < ·) := by
  rw [errorsFound, List.map_map, Program.ofText, Program.errors_ofLines]
  exact increasing_numbers (fun line number e found => (Program.errorOn?_eq_some_iff.1 found).1) _ 1

theorem exists_errorsFound {index : Nat} {e : SyntaxError}
    (there : (lines text)[index]? = some line)
    (unread : Instruction.ofLine? line (index + 1) = .error e) :
    ∃ d ∈ errorsFound text, d.line = index + 1 := by
  have member : (line, index + 1) ∈ (lines text).zipIdx 1 := by
    rw [List.mem_zipIdx_iff_le_and_getElem?_sub]
    exact ⟨by omega, there⟩
  have found : Program.errorOn? line (index + 1) = some ⟨index + 1, e⟩ :=
    Program.errorOn?_eq_some_iff.2 ⟨rfl, unread⟩
  have recorded : ⟨index + 1, e⟩ ∈ (Program.ofText text).errors := by
    rw [Program.ofText, Program.errors_ofLines]
    exact List.mem_filterMap.2 ⟨_, member, found⟩
  exact ⟨_, List.mem_map_of_mem recorded, rfl⟩

/-! ### Faults -/

/-- An instruction of a document is read from a line, and those before it from earlier lines. -/
theorem Program.exists_line {before after : List Instruction} {i : Instruction}
    (whole : (ofText text).instructions = before ++ i :: after) :
    ∃ earlier line later, lines text = earlier ++ line :: later ∧ i.line = 1 + earlier.length ∧
      Instruction.ofLine? line i.line = .ok (some i) ∧ (ofLines earlier).instructions = before := by
  have given := (instructions_ofLines (lines text)).symm.trans whole
  obtain ⟨earlier, line, later, split, found, rest⟩ := exists_source given
  have number := Instruction.line_of_onLine? found
  refine ⟨earlier, line, later, split, number, ?_, by rw [instructions_ofLines, rest]⟩
  rw [number]
  exact Instruction.onLine?_eq_some_iff.1 found

/-- The instructions of a document stand on different lines, in order. -/
theorem Program.increasing_instructions (lines : List Text) :
    ((ofLines lines).instructions.map (·.line)).Pairwise (· < ·) := by
  rw [instructions_ofLines]
  exact increasing_numbers (fun line number i found => Instruction.line_of_onLine? found) _ 1

/-- A refused instruction is found again under its index, with its line. -/
theorem Replay.Skips.lookup {instructions : List Instruction} {replay : Replay}
    (skips : replay.Skips instructions) {r : Rejection} (member : r ∈ replay.rejections) :
    ∃ i, instructions[r.index]? = some i ∧ r.line = i.line := by
  obtain ⟨before, i, after, _, whole, index, line, _⟩ := skips.faults r member
  refine ⟨i, ?_, line⟩
  rw [whole, index]
  simp

theorem tellsFault_of_mem (member : d ∈ faultsFound text) : d.TellsFault text := by
  obtain ⟨r, inside, rfl⟩ := List.mem_map.1 member
  have skips := Replay.skips_ofInstructions (Program.ofText text).instructions
  obtain ⟨before, i, after, s, whole, index, line, left, refused⟩ :=
    skips.faults r (Array.mem_toList_iff.1 inside)
  have looked : (Program.ofText text).instructions.toArray[r.index]? = some i := by
    rw [List.getElem?_toArray, whole, index]
    simp
  obtain ⟨earlier, source, later, split, number, read, rest⟩ := Program.exists_line whole
  have about : r.line = 1 + earlier.length := line.trans number
  have early : (lines text).take (r.line - 1) = earlier := by
    rw [split, about, Nat.add_sub_cancel_left, List.take_left]
  rw [looked]
  refine ⟨source, before, i, after, s, r.fault, Diagnostic.shows_of_split split about, rfl, ?_,
    whole, ?_, ?_, left, refused, rfl⟩
  · rwa [← line] at read
  · show (Program.ofLines ((lines text).take (r.line - 1))).instructions = before
    rw [early, rest]
  · rw [← index]
    rfl

theorem increasing_faultsFound (text : Text) :
    ((faultsFound text).map (·.line)).Pairwise (· < ·) := by
  have skips := Replay.skips_ofInstructions (Program.ofText text).instructions
  have order := List.pairwise_map.1 (Program.increasing_instructions (lines text))
  have indices := List.pairwise_map.1 skips.increasing
  rw [faultsFound, List.map_map]
  refine List.pairwise_map.2 (indices.imp_of_mem ?_)
  intro r r' member member' less
  obtain ⟨i, found, line⟩ := skips.lookup (Array.mem_toList_iff.1 member)
  obtain ⟨i', found', line'⟩ := skips.lookup (Array.mem_toList_iff.1 member')
  obtain ⟨inside, rfl⟩ := List.getElem?_eq_some_iff.1 found
  obtain ⟨inside', rfl⟩ := List.getElem?_eq_some_iff.1 found'
  show r.line < r'.line
  rw [line, line']
  exact List.pairwise_iff_getElem.1 order r.index r'.index inside inside' less

/-- What was accepted of the first instructions comes first of what was accepted of all. -/
theorem Replay.accepted_append (r : Replay) (xs ys : List Instruction) :
    ∃ rest, r.accepted (xs ++ ys) = r.accepted xs ++ rest := by
  unfold accepted
  rw [List.zipIdx_append, List.filter_append, List.map_append]
  exact ⟨_, rfl⟩

/-- An instruction that breaks a rule in the state that the accepted ones before it leave is
recorded. -/
theorem Replay.Skips.exists_rejection {instructions before after : List Instruction}
    {i : Instruction} {replay : Replay} {s : State} {fault : Fault}
    (skips : replay.Skips instructions) (whole : instructions = before ++ i :: after)
    (left : State.initial.applyAll ((replay.accepted before).map (·.operation)) = .ok s)
    (refused : s.apply i.operation = .error fault) :
    ∃ r ∈ replay.rejections, r.index = before.length := by
  cases rejected : replay.rejects before.length with
  | true =>
    obtain ⟨r, member, same⟩ := Array.any_eq_true'.1 rejected
    exact ⟨r, member, eq_of_beq same⟩
  | false =>
    obtain ⟨states, _, path⟩ := skips.path
    obtain ⟨rest, split⟩ := replay.accepted_append (before ++ [i]) after
    have run := path.applyAll
    rw [whole, List.append_cons, split, accepted_concat, rejected, List.map_append] at run
    obtain ⟨u, accepted, _⟩ := State.applyAll_prefix run
    rw [List.map_append, State.applyAll_append, left] at accepted
    simp [Except.bind, State.applyAll, refused] at accepted

theorem exists_faultsFound {before after : List Instruction} {i : Instruction} {s : State}
    {fault : Fault} (whole : (Program.ofText text).instructions = before ++ i :: after)
    (left : State.initial.applyAll
      (((check text).replay.accepted before).map (·.operation)) = .ok s)
    (refused : s.apply i.operation = .error fault) :
    ∃ d ∈ faultsFound text, d.line = i.line := by
  have skips := Replay.skips_ofInstructions (Program.ofText text).instructions
  obtain ⟨r, member, index⟩ := skips.exists_rejection whole left refused
  obtain ⟨j, found, line⟩ := skips.lookup member
  have same : j = i := by simpa [whole, index] using found.symm
  subst same
  exact ⟨_, List.mem_map_of_mem (Array.mem_toList_iff.2 member), line⟩

/-- No line gives both an error and a fault. -/
theorem Diagnostic.TellsError.line_ne {d' : Diagnostic} (unread : d.TellsError text)
    (refused : d'.TellsFault text) : d.line ≠ d'.line := by
  intro same
  obtain ⟨line, e, shows, _, error, _⟩ := unread
  obtain ⟨line', _, i, _, _, _, shows', _, read, _⟩ := refused
  have there := shows'.there
  rw [← same, shows.there] at there
  obtain rfl := Option.some.inj there
  rw [error d'.line] at read
  cases read

end

/-! ## All diagnostics -/

/-- The diagnostics of a check point at their causes. First come those about lines that are no
instructions, then those about refused instructions, each group in the order of the lines, and no
two are about the same line. Each shows its line and says what is wrong there, and nothing that is
wrong is left out. -/
theorem diagnostics_point_at_causes (text : Text) :
    ∃ errors faults, (check text).diagnostics = errors ++ faults ∧
      (errors.map (·.line)).Pairwise (· < ·) ∧ (faults.map (·.line)).Pairwise (· < ·) ∧
      ((check text).diagnostics.map (·.line)).Nodup ∧
      (∀ d ∈ errors, d.TellsError text) ∧ (∀ d ∈ faults, d.TellsFault text) ∧
      (∀ index line e, (lines text)[index]? = some line →
        Instruction.ofLine? line (index + 1) = .error e → ∃ d ∈ errors, d.line = index + 1) ∧
      ∀ before i after s fault, (Program.ofText text).instructions = before ++ i :: after →
        State.initial.applyAll (((check text).replay.accepted before).map (·.operation)) = .ok s →
        s.apply i.operation = .error fault → ∃ d ∈ faults, d.line = i.line := by
  have all : (check text).diagnostics = errorsFound text ++ faultsFound text := rfl
  have errors := increasing_errorsFound text
  have faults := increasing_faultsFound text
  refine ⟨errorsFound text, faultsFound text, all, errors, faults, ?_,
    fun d => tellsError_of_mem, fun d => tellsFault_of_mem,
    fun index line e => exists_errorsFound, fun before i after s fault => exists_faultsFound⟩
  rw [all, List.map_append, List.nodup_append]
  refine ⟨errors.imp Nat.ne_of_lt, faults.imp Nat.ne_of_lt, ?_⟩
  intro line member line' member'
  obtain ⟨d, inside, rfl⟩ := List.mem_map.1 member
  obtain ⟨d', inside', rfl⟩ := List.mem_map.1 member'
  exact (tellsError_of_mem inside).line_ne (tellsFault_of_mem inside')

-- the broken line comes first, and the silent third line still counts
example : (check "rack 3\nfoo\n\nrack -2".toList).diagnostics.map (fun d => (d.line, d.notes)) =
    [(2, []), (1, ["instruction 0: rack 3"]), (4, ["instruction 1: rack -2"])] := by
  decide

end Knitout
