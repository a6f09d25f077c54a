import Knitout.Proofs.Run

/-!
The lengths of yarn that a lowering puts out, which the machine does not check, fit the loops that
the machine knows of.
-/

namespace Knitout

/-- Every operation of a lowering is measured by the operations before it, and these are a run of the
machine. -/
private theorem Followed.measured {source : Text} {lowered : Lowered} {c : Context} {s : State}
    (followed : Followed source lowered c s) {before after : List Instruction} {i : Instruction}
    (split : (check lowered.text).program.instructions = before ++ i :: after) :
    i.operation.Measured (before.map (·.operation)) ∧
      State.initial.applyAll (before.map (·.operation)) =
        .ok (Replay.ofInstructions before).final := by
  have whole : c.output.operations =
      before.map (·.operation) ++ i.operation :: after.map (·.operation) := by
    rw [← followed.operations, split, List.map_append, List.map_cons]
  have run := followed.mirrors.recorded.run
  rw [Output.before_size, whole] at run
  obtain ⟨t, front, _⟩ := State.applyAll_prefix run
  obtain ⟨index, there, earlier⟩ := Output.exists_slot whole
  refine ⟨?_, ?_⟩
  · rw [← earlier]
    exact followed.mirrors.recorded.measured index (Output.content?_lt there) i.operation there
  · rw [(Replay.ofInstructions_of_applyAll front).1, front]

/-- A strand of a knit, tuck or split of a lowering reaches from the loop that the machine has its
yarn attached to as far as the needle, in columns of the racking then in force. If nothing has named
the yarn since its `in`, the strand has length one. -/
theorem length_lower {source : Text} {lowered : Lowered} (done : lower source = .ok lowered)
    (few : lowered.headers.carriers.length ≤ maxHalfWord) {before after : List Instruction}
    {i : Instruction} (split : (check lowered.text).program.instructions = before ++ i :: after)
    {needle : Needle} {strands : List Strand} (forms : i.operation.formed? = some (needle, strands))
    {strand : Strand} (member : strand ∈ strands) :
    let s := (Replay.ofInstructions before).final
    (∀ location, s.attachments.get? strand.yarn = some location →
      strand.length.IsNat
        (needle.column s.racking - location.needle.column s.racking).natAbs) ∧
    (Untouched strand.yarn (before.map (·.operation)) → strand.length.IsNat 1) := by
  obtain ⟨c, s, followed⟩ := followed_of_lower done few
  obtain ⟨measured, run⟩ := followed.measured split
  exact measured needle strands forms strand member _ run

/-- The split of the swatch takes a strand of length two: its yarn is attached to a loop that was
transferred to the back bed, two columns off. -/
theorem length_lower_swatch :
    ∃ lowered before i after strand, lower swatch = .ok lowered ∧
      (check lowered.text).program.instructions = before ++ i :: after ∧
      i.operation.formed? = some (.front 2, [strand]) ∧ strand.length.IsNat 2 := by
  obtain ⟨lowered, done, few⟩ := lower_swatch
  have facts : (lower swatch).map (fun l =>
      let all := (check l.text).program.instructions
      let s := (Replay.ofInstructions (all.take 11)).final
      (all[11]?.bind (·.operation.formed?), s.attachments.get? 1, s.racking)) =
        .ok (some (.front 2, [⟨1, .ofNat 2⟩]), some ⟨⟨.back, -2⟩, .decreasing⟩, 2) := by
    set_option maxRecDepth 2000 in
    decide
  rw [done] at facts
  simp only [Except.map, Except.ok.injEq, Prod.mk.injEq] at facts
  obtain ⟨formed, attached, racked⟩ := facts
  obtain ⟨i, there, formed⟩ := Option.bind_eq_some_iff.1 formed
  obtain ⟨inside, here⟩ := List.getElem?_eq_some_iff.1 there
  have split : (check lowered.text).program.instructions =
      (check lowered.text).program.instructions.take 11 ++
        i :: (check lowered.text).program.instructions.drop 12 := by
    rw [← here, List.getElem_cons_drop inside, List.take_append_drop]
  have columns : ((Needle.front 2).column 2 - (Needle.mk .back (-2)).column 2).natAbs = 2 := by
    decide
  have reaches := (length_lower done few split formed (List.mem_singleton_self _)).1 _ attached
  rw [racked, columns] at reaches
  exact ⟨lowered, _, i, _, _, done, split, formed, reaches⟩

end Knitout
