import Knitout.Proofs.Run

/-!
What a lowering puts out makes the stitches that its source asks for, line by line and in order, and
no others (`Accounts`).
-/

namespace Knitout

/-- Behind the instructions `before`, further ones account for lines one by one. For each line there
are some that make no stitch, and behind them the one that makes the stitch of the line, if it asks
for one on the needles that hold loops by then. -/
inductive Accounts (t : CarrierTable) : List Instruction → List Text → List Instruction → Prop
  | nil (before : List Instruction) : Accounts t before [] []
  | cons {before quiet work rest : List Instruction} {line : Text} {lines : List Text}
      (silent : ∀ i ∈ quiet, i.operation.stitch? = none)
      (stitch : work.map (·.operation.stitch?) =
        (sourceStitch? t (Replay.ofInstructions (before ++ quiet)).final.holds line).toList.map some)
      (others : Accounts t (before ++ (quiet ++ work)) lines rest) :
    Accounts t before (line :: lines) (quiet ++ work ++ rest)

/-- Instructions account for lines if their operations answer for them. -/
private theorem AnswersAll.accounts {t : CarrierTable} {earlier operations : List Operation}
    {lines : List Text} (answers : AnswersAll t earlier lines operations)
    {before instructions : List Instruction} (past : before.map (·.operation) = earlier)
    (present : instructions.map (·.operation) = operations) :
    Accounts t before lines instructions := by
  induction answers generalizing before instructions with
  | nil =>
    rw [List.map_eq_nil_iff.1 present]
    exact .nil before
  | cons first _ ih =>
    obtain ⟨quiet, work, s, rfl, silent, run, stitch⟩ := first
    obtain ⟨block, rest, rfl, front, back⟩ := List.map_eq_append_iff.1 present
    obtain ⟨quiet', work', rfl, rfl, rfl⟩ := List.map_eq_append_iff.1 front
    rw [← past, ← List.map_append] at run
    refine .cons (fun i member => silent _ (List.mem_map_of_mem member)) ?_
      (ih (by rw [List.map_append, past, front]) back)
    rw [(Replay.ofInstructions_of_applyAll run).1, ← stitch, List.map_map]
    rfl

/-- The instructions of a lowering account for the lines of its source: each stitch that a line asks
for is there, once and in its place, on the needles and with the yarns of the line. -/
theorem accounts_lower {source : Text} {lowered : Lowered} (done : lower source = .ok lowered)
    (few : lowered.headers.carriers.length ≤ maxHalfWord) :
    ∃ t, CarrierTable.ofNames lowered.headers.carriers = .ok t ∧
      Accounts t [] (bodyLines source) (check lowered.text).program.instructions := by
  obtain ⟨c, s, followed⟩ := followed_of_lower done few
  exact ⟨c.carriers, followed.table, followed.answers.accounts rfl followed.operations⟩

theorem accounts_lower_swatch :
    ∃ lowered, lower swatch = .ok lowered ∧
      ∃ t, CarrierTable.ofNames lowered.headers.carriers = .ok t ∧
        Accounts t [] (bodyLines swatch) (check lowered.text).program.instructions := by
  obtain ⟨lowered, done, few⟩ := lower_swatch
  exact ⟨lowered, done, accounts_lower done few⟩

end Knitout
