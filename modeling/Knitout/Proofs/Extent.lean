import Knitout.Proofs.Feeding
import Knitout.Proofs.Slots
import Knitout.Proofs.Widths

/-!
How far feeders get, to the column. A carriage works needles that a source can name, so it comes from
and goes to few columns at each racking (`Workable`); a feeder that was left on the front bed may stay
in one that belongs to another racking (`InBounds`). An output is kept with the racking that is in
force at each of its lines (`Output.Ranged`).
-/

namespace Knitout

/-! ## Columns -/

/-- A carriage that works a needle which a source can name comes from such a column or goes to
one. -/
structure Workable (racking column : Int) : Prop where
  low : -(maxNeedleIndex : Int) + min racking 0 ≤ column
  high : column ≤ maxNeedleIndex + max racking 0 + 1

/-- The columns of such a carriage at all rackings. -/
structure InBounds (column : Int) : Prop where
  low : -((maxNeedleIndex : Int) + maxRacking) ≤ column
  high : column ≤ maxNeedleIndex + maxRacking + 1

variable {racking column : Int}

theorem Workable.inBounds (worked : Workable racking column)
    (racked : racking.natAbs ≤ maxRacking) : InBounds column := by
  obtain ⟨low, high⟩ := worked
  constructor <;> omega

/-- What a bed has to do with the columns that a feeder over it can be in: nothing on the back bed
outlasts a change of the racking. -/
def Bed.Reaches (bed : Bed) (racking column : Int) : Prop :=
  match bed with
  | .front => InBounds column
  | .back => Workable racking column

namespace Bed.Reaches

variable {bed : Bed}

theorem of_workable (worked : Workable racking column) (racked : racking.natAbs ≤ maxRacking)
    (bed : Bed) : bed.Reaches racking column := by
  cases bed with
  | front => exact worked.inBounds racked
  | back => exact worked

theorem inBounds (reaches : bed.Reaches racking column) (racked : racking.natAbs ≤ maxRacking) :
    InBounds column := by
  cases bed with
  | front => exact reaches
  | back => exact Workable.inBounds reaches racked

/-- Nothing between two columns is further away. -/
theorem between {first last : Int} (here : bed.Reaches racking first)
    (there : bed.Reaches racking last) (low : min first last ≤ column)
    (high : column ≤ max first last) : bed.Reaches racking column := by
  cases bed with
  | front =>
    obtain ⟨low₁, high₁⟩ : InBounds first := here
    obtain ⟨low₂, high₂⟩ : InBounds last := there
    exact ⟨by omega, by omega⟩
  | back =>
    obtain ⟨low₁, high₁⟩ : Workable racking first := here
    obtain ⟨low₂, high₂⟩ : Workable racking last := there
    exact ⟨by omega, by omega⟩

end Bed.Reaches

/-- The needles of a request are among those that a source can name. -/
structure Request.Near (request : Request) : Prop where
  needle : request.needle.index.natAbs ≤ maxNeedleIndex
  target : ∀ target, request.work = .split target → target.index.natAbs ≤ maxNeedleIndex

/-! ## Locations -/

/-- The columns around a needle that a source can name. -/
theorem workable_of_near {needle : Needle} (near : needle.index.natAbs ≤ maxNeedleIndex)
    (direction : Direction) (racking : Int) :
    Workable racking ((Location.mk needle direction).column racking) := by
  obtain ⟨bed, index⟩ := needle
  simp only at near
  cases bed <;> cases direction <;>
    constructor <;> simp only [Location.column, Needle.column, Direction.feederOffset] <;> omega

/-- The column that a carriage comes from is one of those around the needle that it works. -/
theorem workable_approach {request : Request} (near : request.needle.index.natAbs ≤ maxNeedleIndex)
    (racking : Int) : Workable racking ((Context.approach request).column racking) := by
  have other : (Context.approach request).column racking =
      (Location.mk request.needle request.direction.opposite).column racking := by
    have step := Context.column_approach request racking
    cases direction : request.direction <;>
      simp only [direction, Location.column, Direction.feederOffset, Direction.step,
        Direction.opposite] at step ⊢ <;> omega
  rw [other]
  exact workable_of_near near _ racking

namespace Location

variable {location : Location}

/-- The feeder is in one of the columns that belong to its bed. -/
def Within (location : Location) (racking : Int) : Prop :=
  location.needle.bed.Reaches racking (location.column racking)

theorem Within.inBounds (within : location.Within racking) (racked : racking.natAbs ≤ maxRacking) :
    InBounds (location.column racking) :=
  Bed.Reaches.inBounds within racked

theorem Within.index (within : location.Within racking) (racked : racking.natAbs ≤ maxRacking) :
    location.needle.index.natAbs ≤ maxNeedleIndex + maxRacking + 1 := by
  obtain ⟨⟨bed, index⟩, direction⟩ := location
  cases bed with
  | front =>
    obtain ⟨low, high⟩ : InBounds ((Location.mk ⟨.front, index⟩ direction).column racking) := within
    cases direction <;>
      simp only [column, Needle.column, Direction.feederOffset] at low high ⊢ <;> omega
  | back =>
    obtain ⟨low, high⟩ : Workable racking ((Location.mk ⟨.back, index⟩ direction).column racking) :=
      within
    cases direction <;>
      simp only [column, Needle.column, Direction.feederOffset] at low high ⊢ <;> omega

/-- A feeder that goes with moved loops is at a needle of the source afterwards. -/
theorem Within.follow {source target : Needle} (within : location.Within racking)
    (racked : racking.natAbs ≤ maxRacking) (near : target.index.natAbs ≤ maxNeedleIndex) :
    (location.follow source target).Within racking := by
  unfold Location.follow
  split
  · exact .of_workable (workable_of_near near location.direction racking) racked _
  · exact within

theorem Nearby.follow {source target : Needle} (near : location.Nearby)
    (nearTarget : target.index.natAbs ≤ maxNeedleIndex) :
    (location.follow source target).Nearby := by
  unfold Location.follow
  split
  · exact Nat.le_succ_of_le nearTarget
  · exact near

/-- So many steps in one direction end in a column of the bed. -/
def GoesOn (location : Location) (racking : Int) (heading : Direction) (n : Nat) : Prop :=
  location.needle.bed.Reaches racking (location.column racking + n * heading.step)

/-- A walk to where a carriage comes from does. -/
theorem goesOn_of_workable {goal : Int} (location : Location) (worked : Workable racking goal)
    (racked : racking.natAbs ≤ maxRacking) :
    location.GoesOn racking
      (if 0 < goal - location.column racking then .increasing else .decreasing)
      (goal - location.column racking).natAbs := by
  unfold GoesOn
  rw [Direction.step_between]
  exact .of_workable worked racked _

/-- The first of them stays in the columns of the bed, since the others do not turn back. -/
theorem Within.advance {heading : Direction} {n : Nat} (within : location.Within racking)
    (goes : location.GoesOn racking heading (n + 1)) :
    (location.advance heading).Within racking ∧
      (location.advance heading).GoesOn racking heading n := by
  have bed : (location.advance heading).needle.bed = location.needle.bed := by
    unfold Location.advance
    split <;> rfl
  unfold Within GoesOn at *
  rw [bed, location.column_advance]
  constructor <;> refine Bed.Reaches.between within goes ?_ ?_ <;>
    cases heading <;> simp only [Direction.step] <;> omega

/-- A feeder that is put on the front bed may stay there at any racking. -/
theorem Within.onFrontBed (within : location.Within racking) (racked : racking.natAbs ≤ maxRacking)
    (racking' : Int) : (Context.onFrontBed racking location).Within racking' := by
  have bounds := within.inBounds racked
  rw [← Context.column_onFrontBed racking racking' location] at bounds
  obtain ⟨⟨bed, index⟩, direction⟩ := location
  cases bed <;> exact bounds

end Location

/-! ## Operations -/

namespace Operation

/-- Where the feeders of an operation stand after it, if it moves or brings in any. -/
def lands? : Operation → Option Location
  | .knit direction needle _ _ | .tuck direction needle _ _ | .split direction needle _ _ _
  | .miss direction needle _ | .bringIn direction needle _ => some ⟨needle, direction⟩
  | .bringOut .. | .drop _ | .transfer .. | .rack _ => none

/-- The racking that an operation sets. -/
def racks? : Operation → Option Int
  | .rack racking => some racking
  | _ => none

/-- An operation at a racking names needles that are not too far away, takes no feeder too far, racks
by one, and can be read back up to its yarns. -/
structure InRange (op : Operation) (racking : Int) : Prop where
  needles : ∀ needle ∈ op.needles, needle.index.natAbs ≤ maxNeedleIndex + maxRacking + 1
  lands : ∀ location, op.lands? = some location → InBounds (location.column racking)
  racks : ∀ racking', op.racks? = some racking' → (racking - racking').natAbs = 1
  formed : op.Narrow → op.WellFormed

/-- Feeders land past a needle that the operation names. -/
theorem mem_needles_of_lands? {op : Operation} {location : Location}
    (lands : op.lands? = some location) : location.needle ∈ op.needles := by
  cases op <;> cases lands <;> simp [needles]

/-- An operation on needles of the source is in range. -/
theorem InRange.of_near {op : Operation}
    (near : ∀ needle ∈ op.needles, needle.index.natAbs ≤ maxNeedleIndex)
    (still : op.racks? = none) (formed : op.Narrow → op.WellFormed)
    (racked : racking.natAbs ≤ maxRacking) : op.InRange racking := by
  refine ⟨?_, ?_, ?_, formed⟩
  · exact fun needle member => Nat.le_trans (near needle member) (by decide)
  · intro location lands
    have here := near location.needle (mem_needles_of_lands? lands)
    exact (workable_of_near here location.direction racking).inBounds racked
  · intro racking' same
    rw [still] at same
    cases same

end Operation

/-! ## Outputs -/

def Content.racks? : Content → Option Int
  | .operation op => op.racks?
  | _ => none

namespace Output

variable {o : Output} {content : Content} {index place : Nat}

/-- The rackings that the slots set. -/
def racks (o : Output) : List (Option Int) :=
  o.slots.toList.map fun slot => slot.content.racks?

/-- The racking in force at a slot. -/
def rackingAt (o : Output) (index : Nat) : Int :=
  (o.racks.take index).foldl (fun racking set => set.getD racking) 0

theorem getElem?_racks (o : Output) (index : Nat) :
    o.racks[index]? = (o.content? index).map Content.racks? := by
  simp [racks, content?, Function.comp_def]

theorem rackingAt_succ (there : o.content? index = some content) :
    o.rackingAt (index + 1) = content.racks?.getD (o.rackingAt index) := by
  have here : o.racks[index]? = some content.racks? := by rw [getElem?_racks, there]; rfl
  rw [rackingAt, List.take_add_one, here, List.foldl_append]
  rfl

theorem rackingAt_emit (inside : index ≤ o.slots.size) :
    (o.emit content).rackingAt index = o.rackingAt index := by
  have more : (o.emit content).racks = o.racks ++ [content.racks?] := by simp [racks, emit]
  have all : o.racks.length = o.slots.size := by simp [racks]
  rw [rackingAt, more, List.take_append_of_le_length (by omega)]
  rfl

/-- A slot that does not rack can be filled with something else that does not. -/
theorem rackingAt_fill {old : Content} (held : o.content? place = some old)
    (before : old.racks? = none) (after : content.racks? = none) (index : Nat) :
    (o.fill place content).rackingAt index = o.rackingAt index := by
  have same : (o.fill place content).racks = o.racks := by
    refine List.ext_getElem? ?_
    intro i
    rw [getElem?_racks, getElem?_racks, content?_fill]
    by_cases here : i = place
    · rw [if_pos here, here, held]
      simp [before, after]
    · rw [if_neg here]
  rw [rackingAt, same]
  rfl

/-- All operations are in range at the rackings in force, the last of these is known, and all slots
quote lines that are fine. -/
structure Ranged (o : Output) (fine : Text → Prop) (racking : Int) : Prop where
  inRange : ∀ index op, o.content? index = some (.operation op) → op.InRange (o.rackingAt index)
  last : o.rackingAt o.slots.size = racking
  quoting : o.Quoting fine

namespace Ranged

variable {fine : Text → Prop} {racking : Int}

theorem start : Output.empty.Ranged fine 0 :=
  ⟨fun index _ there => absurd (content?_lt there) (Nat.not_lt_zero index), rfl, .empty⟩

theorem beginLine (ranged : o.Ranged fine racking) {source : Text} (whole : fine source) :
    (o.beginLine source).Ranged fine racking :=
  ⟨ranged.inRange, ranged.last, ranged.quoting.beginLine whole⟩

theorem formed (ranged : o.Ranged fine racking) : o.Formed := by
  intro slot member op holds
  obtain ⟨index, there⟩ := exists_content? member
  exact (ranged.inRange index op (holds ▸ there)).formed

/-- One more slot. -/
theorem emit (ranged : o.Ranged fine racking)
    (inRange : ∀ op, content = .operation op → op.InRange racking) :
    (o.emit content).Ranged fine (content.racks?.getD racking) := by
  have last : (o.emit content).content? o.slots.size = some content := by
    rw [content?_emit, if_pos rfl]
  refine ⟨?_, ?_, ranged.quoting.emit content⟩
  · intro index op there
    rw [rackingAt_emit (Nat.lt_succ_iff.1 (by simpa using content?_lt there))]
    rw [content?_emit] at there
    split at there
    · next same =>
      rw [same, ranged.last]
      exact inRange op (Option.some.inj there)
    · exact ranged.inRange index op there
  · rw [size_emit, rackingAt_succ last, rackingAt_emit (Nat.le_refl _), ranged.last]

/-- One more slot with a remark, or with the place of an `in`. -/
theorem emitQuiet (ranged : o.Ranged fine racking) (none : content.operation? = none) :
    (o.emit content).Ranged fine racking := by
  have still : content.racks?.getD racking = racking := by
    cases content with
    | operation => cases none
    | remark | pendingIn => rfl
  rw [← still]
  refine ranged.emit ?_
  rintro op rfl
  cases none

/-- One more operation that does not rack. -/
theorem emitOperation {op : Operation} (ranged : o.Ranged fine racking) (still : op.racks? = none)
    (inRange : op.InRange racking) : (o.emit (.operation op)).Ranged fine racking := by
  have racks : (Content.operation op).racks?.getD racking = racking := by
    rw [Content.racks?, still]
    rfl
  rw [← racks]
  refine ranged.emit ?_
  intro other same
  cases same
  exact inRange

/-- More operations that do not rack. -/
theorem foldl_emit {contents : List Content} (ranged : o.Ranged fine racking)
    (inRange : ∀ content ∈ contents, ∀ op, content = .operation op →
      op.racks? = none ∧ op.InRange racking) :
    (contents.foldl Output.emit o).Ranged fine racking := by
  induction contents generalizing o with
  | nil => exact ranged
  | cons content rest ih =>
    refine ih ?_ fun other member => inRange other (List.mem_cons_of_mem content member)
    cases held : content.operation? with
    | none => exact ranged.emitQuiet held
    | some op =>
      have there := Content.eq_operation held
      obtain ⟨still, fine⟩ := inRange content (by simp) op there
      rw [there]
      exact ranged.emitOperation still fine

/-- An `in` names a needle of the front bed, so it is in range wherever its slot is. -/
theorem fill {carrier : Carrier} {op : Operation} (ranged : o.Ranged fine racking)
    (waiting : o.content? place = some (.pendingIn carrier)) (still : op.racks? = none)
    (inRange : ∀ racking, op.InRange racking) :
    (o.fill place (.operation op)).Ranged fine racking := by
  have kept := fun index => rackingAt_fill waiting rfl
    (show (Content.operation op).racks? = none from still) index
  refine ⟨?_, ?_, ranged.quoting.fill place _⟩
  · intro index op' there
    rw [kept]
    rw [content?_fill] at there
    split at there
    · obtain ⟨_, _, same⟩ := Option.map_eq_some_iff.1 there
      cases same
      exact inRange _
    · exact ranged.inRange index op' there
  · rw [size_fill, kept, ranged.last]

end Ranged

end Output

end Knitout
