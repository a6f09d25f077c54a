import Knitout.Lowering.Basic
import Knitout.Proofs.Moves

/-!
Carriers are brought in and out, feeders are walked into place and the beds are racked in quiet
steps. After `Context.positionAll` all the feeders stand in the column that the carriage comes from.
-/

namespace Knitout

namespace Context

variable {entering : Yarn → Prop} {settling : Yarn → Location → Prop} {c c' : Context}

/-! ## In and out -/

theorem Moves.single (step : Quiet entering settling c c') : Moves entering settling c c' :=
  Relation.ReflTransGen.single step

theorem moves_bringIn {name : Text} (done : c.bringIn name = .ok c')
    (enters : ∀ carrier, c.carriers.find? name = some carrier → entering carrier.yarn) :
    Moves entering settling c c' := by
  obtain ⟨carrier, found, done⟩ := Except.bind_ok done
  have known := CarrierTable.lookup_ok found
  split at done
  · cases done
  · cases done
  · next absent =>
    cases done
    exact .single (.reserve (CarrierTable.find?_eq_some known).1 absent (enters carrier known))

theorem moves_bringOut {name : Text} (done : c.bringOut name = .ok c') :
    Moves entering settling c c' := by
  obtain ⟨carrier, found, done⟩ := Except.bind_ok done
  have known := CarrierTable.lookup_ok found
  split at done
  · next active =>
    cases done
    exact .single (.leave (CarrierTable.find?_eq_some known).1 active)
  · cases done
  · cases done

/-- What each of a list of things does quietly, all of them do. -/
theorem moves_forEach {step : Context → Text → Except LoweringError Context} {names : List Text}
    (each : ∀ d d' name, d.carriers = c.carriers → name ∈ names → step d name = .ok d' →
      Moves entering settling d d')
    (done : c.forEach step names = .ok c') : Moves entering settling c c' := by
  induction names generalizing c with
  | nil =>
    cases done
    exact .refl
  | cons name rest ih =>
    unfold forEach at done
    split at done
    · cases done
    · next d first =>
      have head := each c d name rfl (by simp) first
      refine head.trans (ih ?_ done)
      intro e e' other same member
      exact each e e' other (same.trans head.keeps.1) (List.mem_cons_of_mem name member)

/-! ## Racking -/

private theorem moves_rackSteps {step : Int} (one : step = 1 ∨ step = -1) {n : Nat}
    (here : c.racking.natAbs ≤ maxRacking) (there : (c.racking + n * step).natAbs ≤ maxRacking) :
    Moves entering settling c (c.rackSteps step n) := by
  induction n generalizing c with
  | zero => exact .refl
  | succ n ih =>
    unfold maxRacking at here there
    have next : (c.racking + step).natAbs ≤ maxRacking := by
      unfold maxRacking
      rcases one with rfl | rfl <;> omega
    have rest : (c.racking + step + n * step).natAbs ≤ maxRacking := by
      unfold maxRacking
      rcases one with rfl | rfl <;> omega
    exact (Moves.single (.rack (by rcases one with rfl | rfl <;> rfl) next)).trans (ih next rest)

theorem moves_rack {target : Int} (sound : c.Sound) (small : target.natAbs ≤ maxRacking) :
    Moves entering settling c (c.rack target) := by
  unfold rack
  split
  · exact .single (.remark _)
  · next other =>
    have away : target - c.racking ≠ 0 := by omega
    refine moves_rackSteps ?_ sound.racked ?_
    · rcases Int.lt_trichotomy (target - c.racking) 0 with low | none | high
      · exact .inr (Int.sign_eq_neg_one_of_neg low)
      · exact absurd none away
      · exact .inl (Int.sign_eq_one_of_pos high)
    · rw [Int.mul_comm, Int.sign_mul_natAbs]
      simpa using small

/-! ## Walking -/

theorem direction_advance (location : Location) (heading : Direction) :
    (location.advance heading).direction = heading := by
  unfold Location.advance
  split
  · next same => exact same
  · rfl

/-- With both ends of a walk in reach so is the way between, since the walk does not turn. -/
theorem inReach_advance {location : Location} {racking : Int} {heading : Direction} {n : Nat}
    (here : location.InReach racking)
    (there : (location.column racking + (n + 1 : Nat) * heading.step).natAbs ≤ 1100000) :
    (location.advance heading).InReach racking ∧
      ((location.advance heading).column racking + n * heading.step).natAbs ≤ 1100000 := by
  unfold Location.InReach at here ⊢
  rw [location.column_advance]
  cases heading <;> simp only [Direction.step] at there ⊢ <;> omega

/-- A walk is a chain of misses. -/
private theorem moves_walk {carrier : Carrier} (listed : carrier ∈ c.carriers.carriers)
    {heading : Direction} {n : Nat} {parked attached : Location}
    (active : c.stages.get? carrier.yarn = some (.active parked attached))
    (here : parked.InReach c.racking)
    (there : (parked.column c.racking + n * heading.step).natAbs ≤ 1100000) :
    Moves entering settling c
      ({ c with output := (walk carrier.yarn heading n parked c.output).2 }.setStage carrier
        (.active (walk carrier.yarn heading n parked c.output).1 attached)) := by
  induction n generalizing c parked with
  | zero =>
    have unchanged : c.stages.insert carrier.yarn (.active parked attached) = c.stages :=
      Table.insert_get? active
    simp only [walk, setStage, unchanged]
    exact .refl
  | succ n ih =>
    let next := parked.advance heading
    let c₁ := (c.emit (.operation (.miss heading next.needle carrier.yarn))).setStage carrier
      (.active next attached)
    have column : next.column c.racking = parked.column c.racking + heading.step :=
      parked.column_advance heading c.racking
    have direction : next.direction = heading := direction_advance parked heading
    obtain ⟨reach, far⟩ := inReach_advance here there
    have first : Moves entering settling c c₁ := by
      have step : Quiet entering settling c
          ((c.emit (.operation (.miss next.direction next.needle carrier.yarn))).setStage carrier
            (.active next attached)) :=
        .miss listed active reach (by rw [direction, column])
      rw [direction] at step
      exact .single step
    have active₁ : c₁.stages.get? carrier.yarn = some (.active next attached) := by
      rw [get?_setStage, if_pos rfl]
    have rest : Moves entering settling c₁ _ := ih (c := c₁) listed active₁ reach far
    have again (stage : CarrierStage) :
        c₁.stages.insert carrier.yarn stage = c.stages.insert carrier.yarn stage :=
      Table.insert_insert _ _ _ _
    simp only [setStage, again] at rest
    exact first.trans rest

/-- A feeder that is walked to a location ends in its column. -/
theorem moves_walkTo {carrier : Carrier} (listed : carrier ∈ c.carriers.carriers)
    {parked attached goal : Location}
    (active : c.stages.get? carrier.yarn = some (.active parked attached))
    (here : parked.InReach c.racking) (there : goal.InReach c.racking) :
    ∃ location, location.column c.racking = goal.column c.racking ∧
      (c.walkTo carrier parked attached goal).stages =
        c.stages.insert carrier.yarn (.active location attached) ∧
      (c.walkTo carrier parked attached goal).racking = c.racking ∧
      Moves entering settling c (c.walkTo carrier parked attached goal) := by
  obtain ⟨heading, n, _, arrives, same⟩ := c.walkTo_eq carrier parked attached goal
  have arriving : (parked.column c.racking + n * heading.step).natAbs ≤ 1100000 := by
    rwa [arrives]
  have column := column_walk carrier.yarn heading n parked c.output c.racking
  rw [same]
  exact ⟨_, column.trans arrives, rfl, rfl, moves_walk listed active here arriving⟩

/-! ## Into place -/

/-- A feeder in action stands in this column. -/
def ParkedAt (c : Context) (column : Int) (yarn : Yarn) : Prop :=
  ∃ parked attached, c.stages.get? yarn = some (.active parked attached) ∧
    parked.column c.racking = column

theorem moves_position {carrier : Carrier} {goal : Location} (sound : c.Sound)
    (listed : carrier ∈ c.carriers.carriers) (near : goal.Nearby)
    (settles : settling carrier.yarn goal) (done : c.position goal carrier = .ok c') :
    Moves entering settling c c' ∧ c'.racking = c.racking ∧
      c'.ParkedAt (goal.column c.racking) carrier.yarn ∧
      ∀ yarn, yarn ≠ carrier.yarn → c'.stages.get? yarn = c.stages.get? yarn := by
  unfold position at done
  split at done
  · cases done
  · next slot pending =>
    cases done
    refine ⟨.single (.settle listed pending near settles), rfl, ⟨goal, goal, ?_, rfl⟩, ?_⟩
    · rw [get?_setStage, if_pos rfl]
    · intro yarn other
      rw [get?_setStage, if_neg other]
  · next parked attached active =>
    cases done
    obtain ⟨location, column, stages, racking, moves⟩ := moves_walkTo listed active
      (sound.active _ _ _ active).1 (near.inReach sound.racked)
    refine ⟨moves, racking, ⟨location, attached, ?_, ?_⟩, ?_⟩
    · rw [stages, Table.get?_insert, if_pos rfl]
    · rw [racking, column]
    · intro yarn other
      rw [stages, Table.get?_insert, if_neg other]

/-- Afterwards the feeders of all the carriers stand in the column of the location. -/
theorem moves_positionAll {carriers : List Carrier} {goal : Location} (sound : c.Sound)
    (listed : ∀ carrier ∈ carriers, carrier ∈ c.carriers.carriers)
    (distinct : (carriers.map (·.yarn)).Nodup) (near : goal.Nearby)
    (settles : ∀ carrier ∈ carriers, settling carrier.yarn goal)
    (done : c.positionAll goal carriers = .ok c') :
    Moves entering settling c c' ∧ c'.racking = c.racking ∧
      (∀ carrier ∈ carriers, c'.ParkedAt (goal.column c.racking) carrier.yarn) ∧
      ∀ yarn ∉ carriers.map (·.yarn), c'.stages.get? yarn = c.stages.get? yarn := by
  induction carriers generalizing c with
  | nil =>
    cases done
    exact ⟨.refl, rfl, by simp, fun _ _ => rfl⟩
  | cons carrier rest ih =>
    unfold positionAll at done
    split at done
    · cases done
    · next d first =>
      rw [List.map_cons, List.nodup_cons] at distinct
      have head : Moves entering settling c d ∧ _ := moves_position sound
        (listed carrier (by simp)) near (settles carrier (by simp)) first
      obtain ⟨moves, racking, parked, others⟩ := head
      obtain ⟨moves', racking', all, others'⟩ := ih (moves.sound sound)
        (fun other member => moves.keeps.1 ▸ listed other (List.mem_cons_of_mem carrier member))
        distinct.2 (fun other member => settles other (List.mem_cons_of_mem carrier member)) done
      rw [racking] at racking' all
      refine ⟨moves.trans moves', racking', ?_, ?_⟩
      · intro other member
        rcases List.mem_cons.1 member with rfl | member
        · obtain ⟨location, attached, active, column⟩ := parked
          refine ⟨location, attached, ?_, ?_⟩
          · rw [others' _ distinct.1, active]
          · rw [racking', ← column, racking]
        · exact all other member
      · intro yarn absent
        rw [List.map_cons, List.mem_cons, not_or] at absent
        rw [others' yarn absent.2, others yarn absent.1]

/-! ## Misses -/

theorem usedCarrier_miss {p : Plan} {carrier : Carrier} {parked attached : Location}
    (action : p.action = .miss)
    (active : c.stages.get? carrier.yarn = some (.active parked attached)) :
    usedCarrier p c carrier =
      c.setStage carrier (.active ⟨p.request.needle, p.request.direction⟩ attached) := by
  simp [usedCarrier, action, active]

/-- Lines that are added are all that changes. -/
theorem foldl_emit (contents : List Content) (c : Context) :
    contents.foldl emit c = { c with output := contents.foldl Output.emit c.output } := by
  induction contents generalizing c with
  | nil => rfl
  | cons content rest ih => exact ih (c.emit content)

private theorem setStage_foldl_emit (contents : List Content) (carrier : Carrier)
    (stage : CarrierStage) :
    (contents.foldl emit c).setStage carrier stage =
      contents.foldl emit (c.setStage carrier stage) := by
  rw [foldl_emit, foldl_emit]
  rfl

/-- The column that the carriage comes from is one step behind the column that it leaves for. -/
theorem column_approach (request : Request) (racking : Int) :
    (Location.mk request.needle request.direction).column racking =
      (approach request).column racking + request.direction.step := by
  obtain ⟨work, direction, ⟨bed, index⟩, carriers, synonym⟩ := request
  cases bed <;> cases direction <;>
    simp [approach, Location.column, Needle.column, Direction.feederOffset, Direction.step] <;>
    omega

/-- It is the column where the machine wants the feeders of an operation at the needle. -/
theorem column_approach_eq (request : Request) (racking : Int) :
    (approach request).column racking =
      request.needle.column racking + request.direction.opposite.feederOffset := by
  have beside := column_approach request racking
  have behind := (Location.mk request.needle request.direction).column_behind racking
  simp only at behind
  omega

/-- Missing with several carriers, one after the other. -/
private theorem moves_misses {p : Plan} (action : p.action = .miss) {carriers : List Carrier}
    (listed : ∀ carrier ∈ carriers, carrier ∈ c.carriers.carriers)
    (distinct : (carriers.map (·.yarn)).Nodup)
    (parked : ∀ carrier ∈ carriers,
      c.ParkedAt ((approach p.request).column c.racking) carrier.yarn)
    (reach : (Location.mk p.request.needle p.request.direction).InReach c.racking) :
    Moves entering settling c (carriers.foldl (usedCarrier p)
      ((carriers.map fun carrier => Content.operation
        (.miss p.request.direction p.request.needle carrier.yarn)).foldl emit c)) := by
  induction carriers generalizing c with
  | nil => exact .refl
  | cons carrier rest ih =>
    rw [List.map_cons, List.nodup_cons] at distinct
    obtain ⟨location, attached, active, column⟩ := parked carrier (by simp)
    let here : Location := ⟨p.request.needle, p.request.direction⟩
    let c₁ := (c.emit (.operation (.miss here.direction here.needle carrier.yarn))).setStage carrier
      (.active here attached)
    have beside : here.column c.racking = location.column c.racking + here.direction.step := by
      rw [column_approach, column]
    have first : Moves entering settling c c₁ :=
      .single (.miss (listed carrier (by simp)) active reach beside)
    have others : ∀ other ∈ rest,
        c₁.ParkedAt ((approach p.request).column c₁.racking) other.yarn := by
      intro other member
      obtain ⟨location', attached', active', column'⟩ := parked other (List.mem_cons_of_mem _ member)
      refine ⟨location', attached', ?_, column'⟩
      have apart : other.yarn ≠ carrier.yarn := fun same =>
        distinct.1 (same ▸ List.mem_map_of_mem member)
      rw [get?_setStage, if_neg apart]
      exact active'
    have tail := ih (c := c₁) (fun other member => listed other (List.mem_cons_of_mem _ member))
      distinct.2 others reach
    refine first.trans ?_
    rw [List.map_cons, List.foldl_cons, List.foldl_cons, usedCarrier_miss action
      (by rw [foldl_emit]; exact active), setStage_foldl_emit]
    exact tail

/-- A miss is performed in quiet steps. -/
theorem moves_perform_miss {p : Plan} (action : p.action = .miss)
    (listed : ∀ carrier ∈ p.carriers, carrier ∈ c.carriers.carriers)
    (distinct : (p.carriers.map (·.yarn)).Nodup)
    (parked : ∀ carrier ∈ p.carriers,
      c.ParkedAt ((approach p.request).column c.racking) carrier.yarn)
    (reach : (Location.mk p.request.needle p.request.direction).InReach c.racking) :
    Moves entering settling c (c.perform p) := by
  have misses : Moves entering settling c (p.carriers.foldl (usedCarrier p)
      ((p.carriers.map fun carrier => Content.operation
        (.miss p.request.direction p.request.needle carrier.yarn)).foldl emit c)) :=
    moves_misses action listed distinct parked reach
  have same : c.perform p = p.carriers.foldl (usedCarrier p)
      ((p.carriers.map fun carrier => Content.operation
        (.miss p.request.direction p.request.needle carrier.yarn)).foldl emit c) := by
    simp only [perform, contents, loopsAfter, retarget, action, foldl_emit]
  rwa [same]

/-- An action adds its contents to the output, counts the loops anew and changes stages. -/
theorem perform_eq (c : Context) (p : Plan) : ∃ stages, c.perform p =
    { c with
      stages
      loops := c.loopsAfter p
      output := (c.contents p).foldl Output.emit c.output } := by
  have used (carriers : List Carrier) (d : Context) :
      ∃ stages, carriers.foldl (usedCarrier p) d = { d with stages } := by
    induction carriers generalizing d with
    | nil => exact ⟨d.stages, rfl⟩
    | cons carrier rest ih =>
      obtain ⟨stages, first⟩ : ∃ stages, usedCarrier p d carrier = { d with stages } := by
        unfold usedCarrier
        split <;> exact ⟨_, rfl⟩
      obtain ⟨stages', others⟩ := ih (usedCarrier p d carrier)
      exact ⟨stages', by rw [List.foldl_cons, others, first]⟩
  have moved (d : Context) : ∃ stages, d.retarget p = { d with stages } := by
    unfold retarget
    split <;> exact ⟨_, rfl⟩
  rw [perform, foldl_emit]
  obtain ⟨stages, first⟩ := moved { c with
    loops := c.loopsAfter p
    output := (c.contents p).foldl Output.emit c.output }
  obtain ⟨stages', second⟩ := used p.carriers _
  exact ⟨stages', by rw [second, first]⟩

theorem output_perform (c : Context) (p : Plan) :
    (c.perform p).output = (c.contents p).foldl Output.emit c.output := by
  obtain ⟨stages, same⟩ := c.perform_eq p
  rw [same]

/-- It adds one miss for each carrier. -/
theorem output_perform_miss {p : Plan} (action : p.action = .miss) :
    (c.perform p).output = ((p.carriers.map fun carrier => Content.operation
      (.miss p.request.direction p.request.needle carrier.yarn)).foldl emit c).output := by
  rw [output_perform, foldl_emit]
  simp only [contents, action]

end Context

end Knitout
