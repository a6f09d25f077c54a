import Knitout.Lowering.Feeder
import Knitout.Proofs.Carriers
import Knitout.Proofs.Running
import Knitout.Proofs.Settling
import Mathlib.Logic.Relation

/-!
The steps that a lowering takes between stitches (`Context.Quiet`), each with all that it needs and
all that it does. Every invariant of a lowering is proved for these steps; that the functions of the
lowering take no others is shown elsewhere. The invariants here are `Context.Sound`, which bounds
where feeders get to and ties waiting carriers to their slots, and that outputs settle
(`Context.Moves.settles`).
-/

namespace Knitout

/-! ## Where feeders get to -/

theorem isWord_of_natAbs {x : Int} (small : x.natAbs ≤ 4000000) : isWord x = true := by
  simp only [isWord, decide_eq_true_eq]
  omega

theorem Direction.natAbs_step (direction : Direction) : direction.step.natAbs = 1 := by
  cases direction <;> rfl

namespace Location

/-- Feeders are never further away than the needles of a source can be, with the beds racked all the
way. -/
def InReach (location : Location) (racking : Int) : Prop :=
  (location.column racking).natAbs ≤ 1100000

/-- The needle is one that a source line can name, or stands beside one. -/
def Nearby (location : Location) : Prop :=
  location.needle.index.natAbs ≤ maxNeedleIndex + 1

variable {location : Location} {racking : Int}

/-- The column of a needle is off its index by the racking at most. -/
theorem natAbs_needle_column (needle : Needle) (racking : Int) :
    (needle.column racking - needle.index).natAbs ≤ racking.natAbs := by
  unfold Needle.column
  split <;> omega

theorem column_bounds (location : Location) (racking : Int) :
    location.needle.column racking ≤ location.column racking ∧
      location.column racking ≤ location.needle.column racking + 1 := by
  unfold column Direction.feederOffset
  split <;> omega

theorem Nearby.inReach (near : location.Nearby) (racked : racking.natAbs ≤ maxRacking) :
    location.InReach racking := by
  have shift := natAbs_needle_column location.needle racking
  have side := location.column_bounds racking
  unfold Nearby maxNeedleIndex at near
  unfold maxRacking at racked
  unfold InReach
  omega

/-- The needle that a feeder passed is no further away than the feeder. -/
theorem InReach.needle_column (reach : location.InReach racking) :
    (location.needle.column racking).natAbs ≤ 1100001 := by
  have side := location.column_bounds racking
  unfold InReach at reach
  omega

/-- So is the one that it faces. -/
theorem InReach.next_column (reach : location.InReach racking) :
    (location.needle.column racking + location.direction.step).natAbs ≤ 1100002 := by
  have near := reach.needle_column
  have step := location.direction.natAbs_step
  omega

theorem InReach.inColumns (reach : location.InReach racking) :
    location.needle.InColumns racking :=
  Needle.inColumns_of_natAbs (Nat.le_trans reach.needle_column (by decide))

theorem InReach.isWord (reach : location.InReach racking) (racked : racking.natAbs ≤ maxRacking) :
    isWord location.needle.index = true := by
  have shift := natAbs_needle_column location.needle racking
  have near := reach.needle_column
  unfold maxRacking at racked
  exact isWord_of_natAbs (by omega)

end Location

namespace Context

/-! ## Stages -/

theorem get?_setStage (c : Context) (carrier : Carrier) (stage : CarrierStage) (yarn : Yarn) :
    (c.setStage carrier stage).stages.get? yarn =
      if yarn = carrier.yarn then some stage else c.stages.get? yarn :=
  Table.get?_insert _ _ _ _

/-- What a change of locations does to the stage of a carrier. -/
theorem get?_relocate (c : Context) (parked attached : Location → Location) (yarn : Yarn) :
    (c.relocate parked attached).stages.get? yarn =
      (c.stages.get? yarn).map fun
        | .pending slot => .pending slot
        | .active p a => .active (parked p) (attached a) :=
  Table.get?_mapValues _ _ _

/-- A location on the front bed stays in its column when the back bed moves. -/
theorem column_onFrontBed (racking racking' : Int) (location : Location) :
    (onFrontBed racking location).column racking' = location.column racking := by
  obtain ⟨⟨bed, index⟩, direction⟩ := location
  cases bed <;> rfl

/-! ## Soundness -/

/-- What holds between any two steps of a lowering. -/
structure Sound (c : Context) : Prop where
  table : c.carriers.Numbered
  named : ∀ carrier ∈ c.carriers.carriers, '\n' ∉ carrier.name
  tidy : c.output.Tidy
  /-- Only carriers of the file are in. -/
  owned : ∀ yarn stage, c.stages.get? yarn = some stage →
    ∃ carrier ∈ c.carriers.carriers, carrier.yarn = yarn
  /-- A waiting carrier has a slot that waits for it. -/
  waiting : ∀ yarn slot, c.stages.get? yarn = some (.pending slot) →
    ∃ carrier, c.output.content? slot = some (.pendingIn carrier) ∧ carrier.yarn = yarn
  active : ∀ yarn parked attached, c.stages.get? yarn = some (.active parked attached) →
    parked.InReach c.racking ∧ attached.Nearby
  /-- A needle in the table holds loops. -/
  filled : ∀ needle count, c.loops.get? needle = some count → 0 < count
  racked : c.racking.natAbs ≤ maxRacking

namespace Sound

variable {c : Context}

theorem start {carriers : CarrierTable} (table : carriers.Numbered)
    (named : ∀ carrier ∈ carriers.carriers, '\n' ∉ carrier.name) :
    (Context.start carriers).Sound where
  table := table
  named := named
  tidy := by
    refine ⟨.empty, ?_⟩
    intro index content there
    exact absurd (Output.content?_lt there) (Nat.not_lt_zero index)
  owned _ _ none := by cases none
  waiting _ _ none := by cases none
  active _ _ _ none := by cases none
  filled _ _ none := by cases none
  racked := Nat.zero_le _

theorem emit (sound : c.Sound) {content : Content} (fine : content.Tidy) :
    (c.emit content).Sound where
  table := sound.table
  named := sound.named
  tidy := sound.tidy.emit fine
  owned := sound.owned
  waiting yarn slot pending := by
    obtain ⟨carrier, there, same⟩ := sound.waiting yarn slot pending
    have old : slot ≠ c.output.slots.size := Nat.ne_of_lt (Output.content?_lt there)
    refine ⟨carrier, ?_, same⟩
    rw [Context.emit, Output.content?_emit, if_neg old, there]
  active := sound.active
  filled := sound.filled
  racked := sound.racked

theorem emitOperation (sound : c.Sound) {op : Operation} (formed : op.WellFormed) :
    (c.emit (.operation op)).Sound :=
  sound.emit (show (Content.operation op).Tidy from formed)

/-- The stages still belong to carriers of the file when one of these changes its stage. -/
private theorem owned_setStage (sound : c.Sound) {carrier : Carrier}
    (listed : carrier ∈ c.carriers.carriers) {stage stage' : CarrierStage} {yarn : Yarn}
    (there : (c.setStage carrier stage).stages.get? yarn = some stage') :
    ∃ owner ∈ c.carriers.carriers, owner.yarn = yarn := by
  rw [get?_setStage] at there
  split at there
  · next same => exact ⟨carrier, listed, same.symm⟩
  · exact sound.owned yarn stage' there

theorem setStage_active (sound : c.Sound) {carrier : Carrier}
    (listed : carrier ∈ c.carriers.carriers) {parked attached : Location}
    (reach : parked.InReach c.racking) (near : attached.Nearby) :
    (c.setStage carrier (.active parked attached)).Sound where
  table := sound.table
  named := sound.named
  tidy := sound.tidy
  owned _ _ := sound.owned_setStage listed
  waiting yarn slot pending := by
    rw [get?_setStage] at pending
    split at pending
    · cases pending
    · exact sound.waiting yarn slot pending
  active yarn p a active := by
    rw [get?_setStage] at active
    split at active
    · cases active
      exact ⟨reach, near⟩
    · exact sound.active yarn p a active
  filled := sound.filled
  racked := sound.racked

/-- A carrier that is brought in waits in the slot that is reserved for it. -/
theorem reserve (sound : c.Sound) {carrier : Carrier} (listed : carrier ∈ c.carriers.carriers) :
    ((c.emit (.pendingIn carrier)).setStage carrier (.pending c.output.slots.size)).Sound := by
  have emitted : (c.emit (.pendingIn carrier)).Sound := sound.emit (sound.named carrier listed)
  refine {
    emitted with
    owned := fun yarn stage => emitted.owned_setStage listed
    waiting := ?_
    active := ?_ }
  · intro yarn slot pending
    rw [get?_setStage] at pending
    split at pending
    · next same =>
      cases pending
      exact ⟨carrier, by rw [setStage, Context.emit, Output.content?_emit, if_pos rfl], same.symm⟩
    · exact emitted.waiting yarn slot pending
  · intro yarn p a active
    rw [get?_setStage] at active
    split at active
    · cases active
    · exact sound.active yarn p a active

/-- Filling the slot of a waiting carrier leaves the slots of the others. -/
theorem settle (sound : c.Sound) {carrier : Carrier} {slot : Nat} {content : Content}
    {goal : Location} (listed : carrier ∈ c.carriers.carriers)
    (pending : c.stages.get? carrier.yarn = some (.pending slot)) (fine : content.Tidy)
    (near : goal.Nearby) :
    ({ c with output := c.output.fill slot content }.setStage carrier (.active goal goal)).Sound where
  table := sound.table
  named := sound.named
  tidy := sound.tidy.fill slot fine
  owned _ _ := sound.owned_setStage listed
  waiting yarn other pending' := by
    rw [get?_setStage] at pending'
    split at pending'
    · cases pending'
    · next different =>
      obtain ⟨carrier', there, same⟩ := sound.waiting yarn other pending'
      obtain ⟨mine, here, owned⟩ := sound.waiting _ slot pending
      have apart : other ≠ slot := by
        rintro rfl
        rw [here] at there
        cases there
        exact different (same.symm.trans owned)
      refine ⟨carrier', ?_, same⟩
      rw [setStage, Output.content?_fill, if_neg apart, there]
  active yarn p a active := by
    rw [get?_setStage] at active
    split at active
    · cases active
      exact ⟨near.inReach sound.racked, near⟩
    · exact sound.active yarn p a active
  filled := sound.filled
  racked := sound.racked

theorem leave (sound : c.Sound) (yarn : Yarn) :
    { c with stages := c.stages.erase yarn }.Sound := by
  refine {
    sound with
    owned := ?_
    waiting := ?_
    active := ?_ }
  · intro y stage there
    rw [Table.get?_erase] at there
    split at there
    · cases there
    · exact sound.owned y stage there
  · intro y slot pending
    rw [Table.get?_erase] at pending
    split at pending
    · cases pending
    · exact sound.waiting y slot pending
  · intro y p a active
    rw [Table.get?_erase] at active
    split at active
    · cases active
    · exact sound.active y p a active

/-- Feeders are put on the front bed before the back bed moves, so they stay where they are. -/
theorem rackStep (sound : c.Sound) {step : Int} (inside : (c.racking + step).natAbs ≤ maxRacking) :
    (c.rackStep step).Sound := by
  have formed : (Operation.rack (c.racking + step)).WellFormed :=
    isWord_of_natAbs (Nat.le_trans inside (by decide))
  have before {yarn : Yarn} {stage : CarrierStage}
      (there : (c.rackStep step).stages.get? yarn = some stage) :
      ∃ stage', c.stages.get? yarn = some stage' ∧ (match stage' with
        | .pending slot => .pending slot
        | .active p a => .active (onFrontBed c.racking p) a) = stage :=
    Option.map_eq_some_iff.1 ((c.get?_relocate _ _ yarn).symm.trans there)
  refine Sound.emitOperation ?_ formed
  refine {
    sound with
    owned := ?_
    waiting := ?_
    active := ?_
    racked := inside }
  · intro yarn stage there
    obtain ⟨stage', held, _⟩ := before there
    exact sound.owned yarn stage' held
  · intro yarn slot pending
    obtain ⟨stage, held, same⟩ := before pending
    cases stage with
    | pending place =>
      cases same
      exact sound.waiting yarn slot held
    | active => cases same
  · intro yarn p a active
    obtain ⟨stage, held, same⟩ := before active
    cases stage with
    | pending => cases same
    | active parked attached =>
      cases same
      obtain ⟨reach, near⟩ := sound.active yarn parked _ held
      refine ⟨?_, near⟩
      unfold Location.InReach at reach ⊢
      rwa [column_onFrontBed]

end Sound

/-! ## Steps between stitches -/

/-- One step that forms no stitch and drops none. `entering` are the yarns that may be brought in,
and `settling` says at which location a yarn's `in` may be settled. -/
inductive Quiet (entering : Yarn → Prop) (settling : Yarn → Location → Prop) :
    Context → Context → Prop
  | beginLine {c : Context} {source : Text} (whole : '\n' ∉ source) :
    Quiet entering settling c { c with output := c.output.beginLine source }
  | warn {c : Context} (line : Nat) (kind : Kind) (message : String) :
    Quiet entering settling c (c.warn line kind message)
  | remark {c : Context} (note : Remark) : Quiet entering settling c (c.emit (.remark note))
  | reserve {c : Context} {carrier : Carrier} (listed : carrier ∈ c.carriers.carriers)
      (absent : c.stages.get? carrier.yarn = none) (enters : entering carrier.yarn) :
    Quiet entering settling c
      ((c.emit (.pendingIn carrier)).setStage carrier (.pending c.output.slots.size))
  | settle {c : Context} {carrier : Carrier} {slot : Nat} {goal : Location}
      (listed : carrier ∈ c.carriers.carriers)
      (pending : c.stages.get? carrier.yarn = some (.pending slot)) (near : goal.Nearby)
      (settles : settling carrier.yarn goal) :
    Quiet entering settling c
      ({ c with output := c.output.fill slot (.operation (c.settledIn carrier goal)) }.setStage
        carrier (.active goal goal))
  | miss {c : Context} {carrier : Carrier} {parked attached next : Location}
      (listed : carrier ∈ c.carriers.carriers)
      (active : c.stages.get? carrier.yarn = some (.active parked attached))
      (reach : next.InReach c.racking)
      (beside : next.column c.racking = parked.column c.racking + next.direction.step) :
    Quiet entering settling c
      ((c.emit (.operation (.miss next.direction next.needle carrier.yarn))).setStage carrier
        (.active next attached))
  | leave {c : Context} {carrier : Carrier} {parked attached : Location}
      (listed : carrier ∈ c.carriers.carriers)
      (active : c.stages.get? carrier.yarn = some (.active parked attached)) :
    Quiet entering settling c
      { c.emit (.operation (.bringOut parked.direction.opposite
          (.front (parked.needle.column c.racking + parked.direction.step)) carrier.yarn)) with
        stages := c.stages.erase carrier.yarn }
  | rack {c : Context} {step : Int} (one : step.natAbs = 1)
      (inside : (c.racking + step).natAbs ≤ maxRacking) :
    Quiet entering settling c (c.rackStep step)

/-- Any number of such steps. -/
def Moves (entering : Yarn → Prop) (settling : Yarn → Location → Prop) : Context → Context → Prop :=
  Relation.ReflTransGen (Quiet entering settling)

section
variable {entering : Yarn → Prop} {settling : Yarn → Location → Prop} {c c' : Context}

theorem Quiet.sound (step : Quiet entering settling c c') (sound : c.Sound) : c'.Sound := by
  cases step with
  | beginLine whole =>
    exact { sound with tidy := sound.tidy.beginLine whole, waiting := sound.waiting }
  | warn => exact { sound with }
  | remark note => exact sound.emit trivial
  | reserve listed => exact sound.reserve listed
  | @settle carrier slot goal listed pending near =>
    have columns := (near.inReach sound.racked).needle_column
    have formed : (c.settledIn carrier goal).WellFormed :=
      ⟨isWord_of_natAbs (Nat.le_trans columns (by decide)), sound.table.fits _ listed⟩
    exact sound.settle listed pending formed near
  | @miss carrier parked attached next listed active reach beside =>
    have formed : (Operation.miss next.direction next.needle carrier.yarn).WellFormed :=
      ⟨reach.isWord sound.racked, sound.table.fits _ listed⟩
    exact (sound.emitOperation formed).setStage_active listed reach
      (sound.active _ _ _ active).2
  | @leave carrier parked attached listed active =>
    have columns := (sound.active _ _ _ active).1.next_column
    have formed : (Operation.bringOut parked.direction.opposite
        (.front (parked.needle.column c.racking + parked.direction.step))
        carrier.yarn).WellFormed :=
      ⟨isWord_of_natAbs (Nat.le_trans columns (by decide)), sound.table.fits _ listed⟩
    exact (sound.emitOperation formed).leave carrier.yarn
  | rack one inside => exact sound.rackStep inside

theorem Quiet.settles (step : Quiet entering settling c c') (sound : c.Sound) :
    c.output.Settles c'.output := by
  cases step with
  | beginLine => exact .refl _
  | warn => exact .refl _
  | remark | reserve | miss | leave | rack => exact Output.settles_emit _ _
  | @settle carrier slot goal _ pending near =>
    obtain ⟨owner, there, same⟩ := sound.waiting _ slot pending
    have columns := (near.inReach sound.racked).needle_column
    have filled := Output.settles_fill there goal.direction (Nat.le_trans columns (by decide))
    rwa [same] at filled

/-- Quiet steps know the same carriers and leave all loops where they are. -/
theorem Quiet.keeps (step : Quiet entering settling c c') :
    c'.carriers = c.carriers ∧ c'.loops = c.loops := by
  cases step <;> exact ⟨rfl, rfl⟩

theorem Moves.sound (moves : Moves entering settling c c') (sound : c.Sound) : c'.Sound := by
  induction moves with
  | refl => exact sound
  | tail _ step ih => exact step.sound ih

theorem Moves.settles (moves : Moves entering settling c c') (sound : c.Sound) :
    c.output.Settles c'.output := by
  induction moves with
  | refl => exact .refl _
  | tail moves step ih => exact ih.trans (step.settles (Moves.sound moves sound))

theorem Moves.keeps (moves : Moves entering settling c c') :
    c'.carriers = c.carriers ∧ c'.loops = c.loops := by
  induction moves with
  | refl => exact ⟨rfl, rfl⟩
  | tail _ step ih => exact ⟨step.keeps.1.trans ih.1, step.keeps.2.trans ih.2⟩

end

end Context

end Knitout
