import Knitout.Proofs.Effects
import Knitout.Proofs.Rejecting

/-!
In every state of a replay the tables of the machine fit together (`Replay.consistent_trace`): a
needle is listed only if it holds loops, and a yarn is attached only if its feeder is in action.
-/

namespace Knitout

/-! ## Loops -/

/-- No operation leaves a needle in the table without loops. -/
theorem Loops.Filled.reload {loops : Loops} (filled : loops.Filled) (op : Operation) :
    (op.reload loops).Filled := by
  cases op with
  | knit direction needle length strands =>
    simp only [Operation.reload]
    split
    · exact filled.erase needle
    · next some => exact filled.insert needle (Nat.pos_of_ne_zero some)
  | tuck direction needle length strands =>
    simp only [Operation.reload]
    split
    · exact filled
    · next some =>
      refine filled.insert needle ?_
      split
      · exact Nat.succ_pos _
      · exact List.length_pos_iff.2 (by simpa using some)
  | split direction needle target length strands =>
    simp only [Operation.reload]
    split
    · exact filled.move needle target
    · next some =>
      exact (filled.move needle target).insert needle (List.length_pos_iff.2 (by simpa using some))
  | drop needle => exact filled.erase needle
  | transfer needle target => exact filled.move needle target
  | miss | bringIn | bringOut | rack => exact filled

/-! ## Attachments -/

/-- Every attached yarn has a feeder in action. -/
def Fed (feeders : Table Yarn Int) (attachments : Table Yarn Location) : Prop :=
  ∀ yarn location, attachments.get? yarn = some location →
    ∃ column, feeders.get? yarn = some column

namespace Fed

variable {feeders : Table Yarn Int} {attachments : Table Yarn Location}

/-- More feeders may be in action. -/
theorem park (fed : Fed feeders attachments) (yarns : List Yarn) (column : Int) :
    Fed (feeders.setAll yarns column) attachments := by
  intro yarn location there
  obtain ⟨column', stands⟩ := fed yarn location there
  rw [Table.get?_setAll]
  split
  · exact ⟨column, rfl⟩
  · exact ⟨column', stands⟩

/-- Yarns may be attached whose feeders come into action at the same time. -/
theorem attach (fed : Fed feeders attachments) (yarns : List Yarn) (column : Int)
    (location : Location) :
    Fed (feeders.setAll yarns column) (attachments.setAll yarns location) := by
  intro yarn location' there
  rw [Table.get?_setAll] at there
  split at there
  · next used => exact ⟨column, by rw [Table.get?_setAll, if_pos used]⟩
  · exact fed.park yarns column yarn location' there

theorem follow (fed : Fed feeders attachments) (source target : Needle) :
    Fed feeders (attachments.mapValues (Location.follow source target)) := by
  intro yarn location there
  rw [Table.get?_mapValues, Option.map_eq_some_iff] at there
  obtain ⟨before, there, _⟩ := there
  exact fed yarn before there

/-- The attachment of a yarn goes when its feeder does. -/
theorem erase (fed : Fed feeders attachments) (yarn : Yarn) :
    Fed (feeders.erase yarn) (attachments.erase yarn) := by
  intro yarn' location there
  rw [Table.get?_erase] at there ⊢
  split at there
  · cases there
  · next other =>
    rw [if_neg other]
    exact fed yarn' location there

/-- No operation leaves a yarn attached whose feeder is out. -/
theorem reattach (fed : Fed feeders attachments) (op : Operation) (racking : Int) :
    Fed (op.refeed racking feeders) (op.reattach attachments) := by
  cases op with
  | knit direction needle length strands | tuck direction needle length strands =>
    exact fed.attach _ _ _
  | split direction needle target length strands => exact (fed.follow needle target).attach _ _ _
  | miss direction needle yarn | bringIn direction needle yarn => exact fed.park _ _
  | bringOut direction needle yarn => exact fed.erase yarn
  | transfer needle target => exact fed.follow needle target
  | drop | rack => exact fed

end Fed

/-! ## Replays -/

namespace State

/-- The tables of a state fit together. -/
structure Consistent (s : State) : Prop where
  filled : s.loops.Filled
  fed : Fed s.carriers s.attachments

theorem Consistent.initial : State.initial.Consistent where
  filled _ _ none := by cases none
  fed _ _ none := by cases none

variable {s t : State}

theorem Consistent.apply (consistent : s.Consistent) {op : Operation} (done : s.apply op = .ok t) :
    t.Consistent := by
  obtain ⟨_, rfl⟩ := apply_ok_iff.1 done
  exact ⟨consistent.filled.reload op, consistent.fed.reattach op s.racking⟩

/-- What operations keep holds of every state on a path. -/
theorem Path.forall_states {P : State → Prop} {ops : List Operation} {states : List State}
    (path : Path s ops states t) (here : P s) (keeps : ∀ s op t, P s → s.apply op = .ok t → P t) :
    ∀ u ∈ s :: states, P u := by
  induction path with
  | stop => simpa using here
  | step applied _ ih =>
    intro u member
    rcases List.mem_cons.1 member with rfl | member
    · exact here
    · exact ih (keeps _ _ _ here applied) u member

end State

namespace Replay

/-- In every state of a replay the needles in the table hold loops and the attached yarns are in
action, whatever the instructions are. -/
theorem consistent_trace (instructions : List Instruction) :
    ∀ s ∈ (ofInstructions instructions).trace, s.Consistent := by
  obtain ⟨states, trace, path⟩ := (skips_ofInstructions instructions).path
  intro s member
  rw [← Array.mem_toList_iff, trace] at member
  exact path.forall_states .initial (fun _ _ _ consistent => consistent.apply) s member

/-- Loops are split off, dropped and knitted away without a yarn, and a yarn is taken out that they
were attached to. -/
def unravelling : List Instruction :=
  [.bringIn .increasing (.front 0) 1,
    .tuck .increasing (.front 1) (.ofNat 30) [⟨1, .ofNat 1⟩],
    .split .decreasing (.front 1) (.back 1) (.ofNat 30) [⟨1, .ofNat 0⟩],
    .split .decreasing (.back 1) (.front 1) (.ofNat 30) [],
    .tuck .increasing (.front 4) (.ofNat 30) [],
    .knit .increasing (.front 1) (.ofNat 30) [],
    .drop (.front 4),
    .bringOut .decreasing (.front 1) 1].map fun op => ⟨op, 1, none⟩

theorem consistent_trace_unravelling :
    (∃ s, (ofInstructions unravelling).trace[4]? = some s ∧ s.loopCount (.front 1) = 2 ∧
      s.Consistent) ∧
    ∃ s, (ofInstructions unravelling).trace[7]? = some s ∧ s.carriers = ∅ ∧ s.Consistent := by
  have stacked : ((ofInstructions unravelling).trace[4]?.map fun s => s.loopCount (.front 1)) =
      some 2 := by decide
  have bare : ((ofInstructions unravelling).trace[7]?.map fun s => s.carriers) = some ∅ := by
    decide
  obtain ⟨s, there, two⟩ := Option.map_eq_some_iff.1 stacked
  obtain ⟨t, last, out⟩ := Option.map_eq_some_iff.1 bare
  exact ⟨⟨s, there, two, consistent_trace unravelling s (Array.mem_of_getElem? there)⟩,
    t, last, out, consistent_trace unravelling t (Array.mem_of_getElem? last)⟩

end Replay

end Knitout
