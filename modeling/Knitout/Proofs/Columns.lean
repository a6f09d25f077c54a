import Knitout.Proofs.Overflow
import Knitout.Proofs.Run

/-!
The machine that replays what a lowering puts out sees no column that does not belong to the needles
and the rackings of a source (`lowering_stays_in_range`): it racks as the lowering does, and every
feeder that moves lands where the output is known to be in range.
-/

namespace Knitout

/-! ## The machine -/

namespace State

/-- All feeders are in columns that belong to the needles and rackings of a source. -/
def Confined (s : State) : Prop :=
  ∀ yarn column, s.carriers.get? yarn = some column → InBounds column

variable {s t : State} {op : Operation}

/-- An accepted operation takes the feeders that it moves to where it lands. -/
theorem Confined.apply (confined : s.Confined) (inRange : op.InRange s.racking)
    (done : s.apply op = .ok t) : t.Confined := by
  have parked {needle : Needle} {direction : Direction} {column : Int} {yarns : List Yarn}
      (lands : op.lands? = some ⟨needle, direction⟩)
      (found : s.feederColumn isWord needle direction = .ok column)
      (carriers : t.carriers = (s.park yarns column).carriers) : t.Confined := by
    intro yarn column' there
    rw [carriers, get?_park] at there
    split at there
    · cases there
      rw [(feederColumn_ok found).1]
      exact inRange.lands _ lands
    · exact confined yarn column' there
  cases drives_of_apply done with
  | pass passes _ _ leaving carriers _ =>
    refine parked ?_ leaving carriers
    cases op <;> cases passes <;> rfl
  | enter _ arriving carriers _ => exact parked rfl arriving carriers
  | leave _ _ carriers _ =>
    intro yarn column there
    rw [carriers, Table.get?_erase] at there
    split at there
    · cases there
    · exact confined yarn column there
  | stay _ _ _ carriers _ => exact fun yarn column there => confined yarn column (carriers ▸ there)

/-- It racks if it is a racking, and only then. -/
theorem racking_apply (done : s.apply op = .ok t) : t.racking = op.racks?.getD s.racking := by
  by_cases racks : ∃ racking, op = .rack racking
  · obtain ⟨racking, rfl⟩ := racks
    simp only [State.apply, applyWithin] at done
    split at done
    · cases done
      rfl
    · cases done
  · have still : op.racks? = none := by
      cases op <;> first | rfl | exact absurd ⟨_, rfl⟩ racks
    rw [still]
    cases drives_of_apply done with
    | pass _ _ _ _ _ racking | enter _ _ _ racking | leave _ _ _ racking => exact racking
    | stay _ _ _ _ racking =>
      rcases racking with same | racked
      · exact same
      · exact absurd ⟨_, racked⟩ racks

/-- A racking by one is accepted. -/
theorem racking_refused {fault : Fault} (inRange : op.InRange s.racking)
    (refused : s.apply op = .error fault) : op.racks? = none := by
  cases op with
  | rack racking =>
    have unit : (s.racking - racking).natAbs = 1 := inRange.racks racking rfl
    simp [State.apply, applyWithin, unit] at refused
  | _ => rfl

end State

/-! ## The replay -/

namespace Replay

/-- All states so far are confined, and the racking is known. -/
structure Confined (r : Replay) (racking : Int) : Prop where
  states : ∀ s ∈ r.trace, s.Confined
  racking : r.final.racking = racking

variable {r : Replay} {racking : Int}

theorem Confined.start : Replay.start.Confined 0 := by
  refine ⟨?_, rfl⟩
  intro s member
  rw [trace, Array.mem_push] at member
  rcases member with early | rfl
  · cases Array.not_mem_empty s early
  · intro yarn column none
    cases none

/-- Also after an instruction that is refused. -/
theorem Confined.advance (confined : r.Confined racking) {i : Instruction}
    (inRange : i.operation.InRange racking) :
    (r.advance i).Confined (i.operation.racks?.getD racking) := by
  obtain ⟨states, rfl⟩ := confined
  have last : r.final.Confined := states _ (by simp [trace])
  unfold Replay.advance
  split
  · next t done =>
    refine ⟨?_, State.racking_apply done⟩
    intro s member
    rw [trace, Array.mem_push] at member
    rcases member with early | rfl
    · exact states s early
    · exact last.apply inRange done
  · next fault refused =>
    rw [State.racking_refused inRange refused]
    exact ⟨states, rfl⟩

end Replay

/-! ## The output -/

/-- A racking names no yarn. -/
theorem Operation.racks?_of_not_narrow {op : Operation} (wide : ¬ op.Narrow) :
    op.racks? = none := by
  cases op with
  | rack => exact absurd (fun yarn none => by cases none) wide
  | _ => rfl

namespace Output

variable {fine : Text → Prop} {o : Output} {racking : Int}

/-- The instructions that are read on the first lines. -/
def readUpTo (o : Output) (count : Nat) : List Instruction :=
  ((o.slots.toList.take count).zipIdx 1).filterMap fun (slot, number) =>
    Slot.instruction? ⟨slot.content, slot.annotation.map dropReturn⟩ number

/-- What is read on a line is the operation of its slot. -/
theorem readUpTo_succ {count : Nat} {content : Content} (there : o.content? count = some content) :
    (∃ i, content = .operation i.operation ∧ o.readUpTo (count + 1) = o.readUpTo count ++ [i]) ∨
      content.racks? = none ∧ o.readUpTo (count + 1) = o.readUpTo count := by
  obtain ⟨slot, found, rfl⟩ := Option.map_eq_some_iff.1 there
  have here : o.slots.toList[count]? = some slot := by simpa using found
  have inside : count < o.slots.toList.length := (List.getElem?_eq_some_iff.1 here).1
  have length : (o.slots.toList.take count).length = count := by
    rw [List.length_take, Nat.min_eq_left (Nat.le_of_lt inside)]
  unfold readUpTo
  rw [List.take_add_one, here, List.zipIdx_append, List.filterMap_append, length]
  cases holds : slot.content with
  | operation op =>
    by_cases narrow : op.Narrow
    · refine .inl ⟨⟨op, 1 + count, (slot.annotation.map dropReturn).map (' ' :: ·)⟩, rfl, ?_⟩
      simp [Slot.instruction?, holds, narrow]
    · refine .inr ⟨Operation.racks?_of_not_narrow narrow, ?_⟩
      simp [Slot.instruction?, holds, narrow]
  | remark note => exact .inr ⟨rfl, by simp [Slot.instruction?, holds]⟩
  | pendingIn carrier => exact .inr ⟨rfl, by simp [Slot.instruction?, holds]⟩

/-- The machine that was told the first lines of an output is confined, and racked as the output
says. -/
theorem Ranged.confined (ranged : o.Ranged fine racking) {count : Nat}
    (inside : count ≤ o.slots.size) :
    (Replay.ofInstructions (o.readUpTo count)).Confined (o.rackingAt count) := by
  induction count with
  | zero =>
    have none : o.readUpTo 0 = [] := by simp [readUpTo]
    rw [none]
    exact .start
  | succ count ih =>
    have before := ih (Nat.le_of_succ_le inside)
    have there := content?_of_lt inside
    rw [rackingAt_succ there]
    rcases readUpTo_succ there with ⟨i, holds, more⟩ | ⟨still, same⟩
    · rw [more, Replay.ofInstructions_append, holds]
      exact before.advance (ranged.inRange count _ (holds ▸ there))
    · rw [same, still]
      exact before

/-- Every instruction that is read is an operation of a slot. -/
theorem Ranged.needles (ranged : o.Ranged fine racking) {count : Nat}
    (inside : count ≤ o.slots.size) : ∀ i ∈ o.readUpTo count, ∀ needle ∈ i.operation.needles,
      needle.index.natAbs ≤ maxNeedleIndex + maxRacking + 1 := by
  induction count with
  | zero => simp [readUpTo]
  | succ count ih =>
    have before := ih (Nat.le_of_succ_le inside)
    have there := content?_of_lt inside
    rcases readUpTo_succ there with ⟨i, holds, more⟩ | ⟨_, same⟩
    · rw [more]
      intro j member
      rcases List.mem_append.1 member with earlier | last
      · exact before j earlier
      · rw [List.mem_singleton.1 last]
        exact (ranged.inRange count _ (holds ▸ there)).needles
    · rwa [same]

end Output

/-! ## The lowering -/

/-- The output of a lowering is in range, and its text is read slot by slot. -/
theorem ranged_of_lower {source : Text} {lowered : Lowered} (done : lower source = .ok lowered) :
    ∃ o : Output, (∃ racking, o.Ranged (fun source => '\n' ∉ source) racking) ∧
      (check lowered.text).program.instructions = o.readUpTo o.slots.size := by
  obtain ⟨block, t, c, read, _, named, run, lines', _, _⟩ := lower_ok done
  obtain ⟨names, _, distinct⟩ := CarrierTable.distinct_ofNames named
  have whole : ∀ line ∈ bodyLines source, '\n' ∉ line := fun line => newline_not_mem_bodyLines
  have linked : (Context.start t).Linked := .start distinct
  have led := Context.leads_lowerLines linked run
  have ranged := Context.ranged_lowerLines (.start t) linked whole run
  have oneLine : ∀ slot ∈ c.output.slots.toList, ∀ carrier, slot.content = .pendingIn carrier →
      '\n' ∉ carrier.name := by
    intro slot member carrier holds
    obtain ⟨index, there⟩ := Output.exists_content? member
    have listed := led.linked.listed index carrier (holds ▸ there)
    have same : c.carriers = t := led.carriers
    rw [same] at listed
    refine Headers.newline_not_mem_carriers read _ ?_
    rw [← names]
    exact List.mem_map_of_mem listed
  refine ⟨c.output, ⟨_, ranged.output⟩, ?_⟩
  have text : lowered.text = joinLines c.output.lines ++ ['\n'] := by rw [Lowered.text, lines']
  have all : c.output.slots.toList.take c.output.slots.size = c.output.slots.toList :=
    List.take_of_length_le (by simp)
  show (Program.ofText lowered.text).instructions = _
  rw [text, Output.instructions_ofText ranged.output.quoting ranged.output.formed oneLine,
    Output.readUpTo, all]

/-- Lowering computes with nothing but 64-bit words, whatever the source and however long it is. If
it succeeds, no needle of the output is further away than the furthest needle of a source, racked as
far as a source can, and one more; and in no state of the machine that replays the output is a feeder
outside the columns that such needles have, or the one past the last of them. -/
theorem lowering_stays_in_range (source : Text) :
    lower? source = some (lower source) ∧
      ∀ lowered, lower source = .ok lowered →
        (∀ i ∈ (check lowered.text).program.instructions, ∀ needle ∈ i.operation.needles,
          needle.index.natAbs ≤ maxNeedleIndex + maxRacking + 1) ∧
        ∀ s ∈ (check lowered.text).replay.trace, ∀ yarn column,
          s.carriers.get? yarn = some column →
            -((maxNeedleIndex : Int) + maxRacking) ≤ column ∧
              column ≤ (maxNeedleIndex : Int) + maxRacking + 1 := by
  refine ⟨lower?_eq source, ?_⟩
  intro lowered done
  obtain ⟨o, ⟨racking, ranged⟩, instructions⟩ := ranged_of_lower done
  have confined := ranged.confined (Nat.le_refl _)
  rw [← instructions] at confined
  refine ⟨?_, ?_⟩
  · rw [instructions]
    exact ranged.needles (Nat.le_refl _)
  · intro s member yarn column there
    obtain ⟨low, high⟩ := confined.states s member yarn column there
    exact ⟨low, high⟩

theorem lowering_stays_in_range_swatch :
    ∃ lowered, lower swatch = .ok lowered ∧ lower? swatch = some (.ok lowered) ∧
      (∀ i ∈ (check lowered.text).program.instructions, ∀ needle ∈ i.operation.needles,
        needle.index.natAbs ≤ maxNeedleIndex + maxRacking + 1) ∧
      ∀ s ∈ (check lowered.text).replay.trace, ∀ yarn column,
        s.carriers.get? yarn = some column →
          -((maxNeedleIndex : Int) + maxRacking) ≤ column ∧
            column ≤ (maxNeedleIndex : Int) + maxRacking + 1 := by
  obtain ⟨lowered, done, _⟩ := lower_swatch
  obtain ⟨words, bounds⟩ := lowering_stays_in_range swatch
  exact ⟨lowered, done, done ▸ words, bounds lowered done⟩

end Knitout
