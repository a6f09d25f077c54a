import Knitout.Proofs.Carriers
import Knitout.Proofs.Running

/-!
What an accepted operation has done to the feeders (`State.Drives`): it took some of them past a
needle, brought one in, took one out, or left them all alone. Whatever holds of the feeders along a
replay is proved for these four.
-/

namespace Knitout

/-- A carriage that takes feeders past a needle. -/
structure Passage where
  direction : Direction
  needle : Needle
  yarns : List Yarn

/-- Knits, tucks, splits and misses take the feeders of their yarns past a needle. -/
def Operation.passage? : Operation → Option Passage
  | .knit direction needle _ strands | .tuck direction needle _ strands
  | .split direction needle _ _ strands => some ⟨direction, needle, yarnsOf strands⟩
  | .miss direction needle yarn => some ⟨direction, needle, [yarn]⟩
  | .bringIn .. | .bringOut .. | .drop _ | .transfer .. | .rack _ => none

namespace State

/-- What an accepted operation has done to the feeders. -/
inductive Drives (s t : State) : Operation → Prop
  | pass {op : Operation} {p : Passage} {before after : Int} (passes : op.passage? = some p)
      (approach : s.feederColumn isWord p.needle p.direction.opposite = .ok before)
      (waiting : ∀ yarn ∈ p.yarns, s.carriers.get? yarn = some before)
      (leaving : s.feederColumn isWord p.needle p.direction = .ok after)
      (carriers : t.carriers = (s.park p.yarns after).carriers)
      (racking : t.racking = s.racking) : Drives s t op
  | enter {direction : Direction} {needle : Needle} {yarn : Yarn} {column : Int}
      (absent : s.carriers.get? yarn = none)
      (arriving : s.feederColumn isWord needle direction = .ok column)
      (carriers : t.carriers = (s.park [yarn] column).carriers)
      (racking : t.racking = s.racking) : Drives s t (.bringIn direction needle yarn)
  | leave {direction : Direction} {needle : Needle} {yarn : Yarn} {column : Int}
      (leaving : s.feederColumn isWord needle direction = .ok column)
      (parked : s.carriers.get? yarn = some column)
      (carriers : t.carriers = s.carriers.erase yarn)
      (racking : t.racking = s.racking) : Drives s t (.bringOut direction needle yarn)
  | stay {op : Operation} (still : op.passage? = none)
      (inside : ∀ direction needle yarn, op ≠ .bringIn direction needle yarn)
      (outside : ∀ direction needle yarn, op ≠ .bringOut direction needle yarn)
      (carriers : t.carriers = s.carriers)
      (racking : t.racking = s.racking ∨ op = .rack t.racking) : Drives s t op

section
variable {s t : State} {needle : Needle} {direction : Direction} {yarns : List Yarn}
  {fits : Int → Bool}

theorem feederColumn_ok {column : Int} (found : s.feederColumn fits needle direction = .ok column) :
    column = needle.column s.racking + direction.feederOffset ∧ fits column = true := by
  unfold feederColumn at found
  simp only at found
  split at found
  · next inside =>
    cases found
    exact ⟨rfl, (Bool.and_eq_true_iff.1 inside).2⟩
  · cases found

theorem checkCarrier_ok {expected : Int} {yarn : Yarn}
    (checked : s.checkCarrier expected yarn = .ok ()) : s.carriers.get? yarn = some expected := by
  unfold checkCarrier at checked
  split at checked
  · cases checked
  · next actual parked =>
    split at checked
    · next same => rw [parked, same]
    · cases checked

theorem checkCarriers_ok {expected : Int} (checked : s.checkCarriers expected yarns = .ok ()) :
    ∀ yarn ∈ yarns, s.carriers.get? yarn = some expected := by
  induction yarns with
  | nil => simp
  | cons yarn rest ih =>
    obtain ⟨_, first, others⟩ := Except.bind_ok checked
    intro other member
    rcases List.mem_cons.1 member with rfl | member
    · exact checkCarrier_ok first
    · exact ih others other member

theorem checkApproach_ok (checked : s.checkApproach fits needle direction yarns = .ok ()) :
    ∃ before, s.feederColumn fits needle direction.opposite = .ok before ∧
      ∀ yarn ∈ yarns, s.carriers.get? yarn = some before := by
  obtain ⟨before, approach, waiting⟩ := Except.bind_ok checked
  exact ⟨before, approach, checkCarriers_ok waiting⟩

/-- Loops are moved between different needles. -/
theorem apart_of_checkAligned {target : Needle}
    (checked : s.checkAligned fits needle target = .ok ()) : needle ≠ target := by
  rintro rfl
  simp [checkAligned] at checked

/-- Feeders are carried from a state of the same racking and the same feeders. -/
private theorem carry_ok {s' : State} (racking : s'.racking = s.racking)
    (carriers : s'.carriers = s.carriers) (carried : s'.carry fits needle direction yarns = .ok t) :
    ∃ after, s.feederColumn fits needle direction = .ok after ∧
      t.carriers = (s.park yarns after).carriers ∧ t.racking = s.racking := by
  obtain ⟨after, leaving, done⟩ := Except.bind_ok carried
  cases done
  refine ⟨after, ?_, ?_, racking⟩
  · unfold feederColumn at leaving ⊢
    rwa [racking] at leaving
  · simp only [park, carriers]

private theorem drives_of_passage {s' : State} {op : Operation}
    (passes : op.passage? = some ⟨direction, needle, yarns⟩)
    (checked : s.checkApproach isWord needle direction yarns = .ok ())
    (racking : s'.racking = s.racking) (carriers : s'.carriers = s.carriers)
    (carried : s'.carry isWord needle direction yarns = .ok t) : s.Drives t op := by
  obtain ⟨before, approach, waiting⟩ := checkApproach_ok checked
  obtain ⟨after, leaving, parked, same⟩ := carry_ok racking carriers carried
  exact .pass passes approach waiting leaving parked same

/-- Every accepted operation is one of the four. -/
theorem drives_of_apply {op : Operation} (done : s.apply op = .ok t) : s.Drives t op := by
  unfold apply at done
  cases op with
  | knit direction needle length strands =>
    obtain ⟨_, checked, carried⟩ := Except.bind_ok done
    refine drives_of_passage rfl checked ?_ ?_ carried
    · rfl
    · rfl
  | tuck direction needle length strands =>
    obtain ⟨_, checked, carried⟩ := Except.bind_ok done
    refine drives_of_passage rfl checked ?_ ?_ carried
    · cases (yarnsOf strands).isEmpty <;> rfl
    · cases (yarnsOf strands).isEmpty <;> rfl
  | split direction needle target length strands =>
    obtain ⟨_, _, done⟩ := Except.bind_ok done
    obtain ⟨_, checked, carried⟩ := Except.bind_ok done
    refine drives_of_passage rfl checked ?_ ?_ carried
    · cases (yarnsOf strands).isEmpty <;> rfl
    · cases (yarnsOf strands).isEmpty <;> rfl
  | miss direction needle yarn =>
    obtain ⟨_, checked, carried⟩ := Except.bind_ok done
    exact drives_of_passage rfl checked rfl rfl carried
  | bringIn direction needle yarn =>
    simp only [applyWithin] at done
    split at done
    · cases done
    · next absent =>
      obtain ⟨column, arriving, parked, racking⟩ := carry_ok rfl rfl done
      exact .enter (by simpa [Table.contains] using absent) arriving parked racking
  | bringOut direction needle yarn =>
    obtain ⟨column, leaving, done⟩ := Except.bind_ok done
    obtain ⟨_, checked, done⟩ := Except.bind_ok done
    cases done
    exact .leave leaving (checkCarrier_ok checked) rfl rfl
  | drop needle =>
    simp only [applyWithin] at done
    split at done
    · cases done
    · cases done
      exact .stay rfl (by simp) (by simp) rfl (.inl rfl)
  | transfer needle target =>
    obtain ⟨_, _, done⟩ := Except.bind_ok done
    cases done
    exact .stay rfl (by simp) (by simp) rfl (.inl rfl)
  | rack racking =>
    simp only [applyWithin] at done
    split at done
    · cases done
      exact .stay rfl (by simp) (by simp) rfl (.inr rfl)
    · cases done

end

end State

end Knitout
