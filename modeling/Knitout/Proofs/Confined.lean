import Knitout.Proofs.Extent
import Knitout.Proofs.Lines
import Knitout.Proofs.Waiting

/-!
A lowering keeps to the columns that belong to its needles and rackings (`Context.Ranged`), whatever
it does and however long it runs: a feeder that is walked stays between where it was and where it
goes, and a feeder over the back bed is put on the front bed before the racking changes.
-/

namespace Knitout

namespace Context

/-- The racking is one that a source can name, feeders are in columns that belong to their beds, and
the output is in range. -/
structure Ranged (c : Context) (fine : Text → Prop) : Prop where
  racked : c.racking.natAbs ≤ maxRacking
  feeders : ∀ yarn parked attached, c.stages.get? yarn = some (.active parked attached) →
    parked.Within c.racking ∧ attached.Nearby
  output : c.output.Ranged fine c.racking

namespace Ranged

variable {fine : Text → Prop} {c : Context} {carrier : Carrier} {parked attached goal : Location}

theorem start (t : CarrierTable) : (Context.start t).Ranged fine :=
  ⟨Nat.zero_le _, fun _ _ _ none => (by cases none), .start⟩

theorem setStage (ranged : c.Ranged fine) (within : parked.Within c.racking)
    (near : attached.Nearby) : (c.setStage carrier (.active parked attached)).Ranged fine := by
  refine ⟨ranged.racked, ?_, ranged.output⟩
  intro yarn p a active
  rw [get?_setStage] at active
  split at active
  · cases active
    exact ⟨within, near⟩
  · exact ranged.feeders yarn p a active

theorem withOutput (ranged : c.Ranged fine) {output : Output}
    (inRange : output.Ranged fine c.racking) : { c with output }.Ranged fine :=
  ⟨ranged.racked, ranged.feeders, inRange⟩

theorem withLoops (ranged : c.Ranged fine) (loops : Loops) : { c with loops }.Ranged fine :=
  ⟨ranged.racked, ranged.feeders, ranged.output⟩

/-- Feeders that stay within their columns may be moved. -/
theorem relocate (ranged : c.Ranged fine) {move move' : Location → Location}
    (within : ∀ location, location.Within c.racking → (move location).Within c.racking)
    (near : ∀ location, location.Nearby → (move' location).Nearby) :
    (c.relocate move move').Ranged fine := by
  refine ⟨ranged.racked, ?_, ranged.output⟩
  intro yarn p a active
  rw [get?_relocate] at active
  obtain ⟨stage, held, same⟩ := Option.map_eq_some_iff.1 active
  cases stage with
  | pending => cases same
  | active parked attached =>
    cases same
    obtain ⟨here, there⟩ := ranged.feeders yarn parked attached held
    exact ⟨within _ here, near _ there⟩

/-- Feeders follow loops to needles that a source can name. -/
theorem follow (ranged : c.Ranged fine) (source : Needle) {target : Needle}
    (near : target.index.natAbs ≤ maxNeedleIndex) :
    (c.relocate (Location.follow source target) (Location.follow source target)).Ranged fine :=
  ranged.relocate (fun _ within => within.follow ranged.racked near) fun _ nearby =>
    nearby.follow near

end Ranged

variable {fine : Text → Prop} {c c' : Context} {carrier : Carrier} {parked attached goal : Location}

/-! ## In and out -/

theorem ranged_bringIn {name : Text} (ranged : c.Ranged fine) (done : c.bringIn name = .ok c') :
    c'.Ranged fine := by
  obtain ⟨carrier, _, done⟩ := Except.bind_ok done
  split at done
  · cases done
  · cases done
  · cases done
    refine ⟨ranged.racked, ?_, ranged.output.emitQuiet rfl⟩
    intro yarn p a active
    rw [get?_setStage] at active
    split at active
    · cases active
    · exact ranged.feeders yarn p a active

/-- Past a feeder there is a needle that is not too far away. -/
theorem inRange_bringOut (within : parked.Within c.racking) (racked : c.racking.natAbs ≤ maxRacking)
    (yarn : Yarn) (racking : Int) :
    (Operation.bringOut parked.direction.opposite
      (.front (parked.needle.column c.racking + parked.direction.step)) yarn).InRange racking := by
  obtain ⟨low, high⟩ := within.inBounds racked
  have near : (parked.needle.column c.racking + parked.direction.step).natAbs ≤
      maxNeedleIndex + maxRacking + 1 := by
    unfold Location.column at low high
    unfold maxNeedleIndex maxRacking at *
    cases direction : parked.direction <;>
      simp only [direction, Direction.feederOffset, Direction.step] at low high ⊢ <;> omega
  refine ⟨?_, fun _ none => (by cases none), fun _ none => (by cases none), ?_⟩
  · intro needle member
    rw [List.mem_singleton.1 member]
    exact near
  · intro narrow
    exact ⟨isWord_of_natAbs (Nat.le_trans near (by decide)),
      narrow yarn (by simp [Operation.yarns])⟩

theorem ranged_bringOut {name : Text} (ranged : c.Ranged fine) (done : c.bringOut name = .ok c') :
    c'.Ranged fine := by
  obtain ⟨carrier, _, done⟩ := Except.bind_ok done
  split at done
  · next parked attached active =>
    cases done
    refine ⟨ranged.racked, ?_, ?_⟩
    · intro yarn p a there
      rw [Table.get?_erase] at there
      split at there
      · cases there
      · exact ranged.feeders yarn p a there
    · have within := (ranged.feeders _ _ _ active).1
      exact ranged.output.emitOperation rfl (inRange_bringOut within ranged.racked _ _)
  · cases done
  · cases done

/-! ## Racking -/

/-- Feeders are put on the front bed before the racking changes, so no step takes them further. -/
theorem ranged_rackStep {step : Int} (ranged : c.Ranged fine) (one : step.natAbs = 1)
    (inside : (c.racking + step).natAbs ≤ maxRacking) : (c.rackStep step).Ranged fine := by
  have inRange : (Operation.rack (c.racking + step)).InRange c.racking := by
    refine ⟨fun _ none => (by cases none), fun _ none => (by cases none), ?_, ?_⟩
    · intro racking same
      cases same
      omega
    · exact fun _ => isWord_of_natAbs (Nat.le_trans inside (by decide))
  refine ⟨inside, ?_, ?_⟩
  · intro yarn p a active
    have moved := (c.get?_relocate (onFrontBed c.racking) id yarn).symm.trans active
    obtain ⟨stage, held, same⟩ := Option.map_eq_some_iff.1 moved
    cases stage with
    | pending => cases same
    | active parked attached =>
      cases same
      obtain ⟨within, near⟩ := ranged.feeders yarn parked attached held
      exact ⟨within.onFrontBed ranged.racked _, near⟩
  · refine ranged.output.emit ?_
    intro op same
    cases same
    exact inRange

theorem ranged_rackSteps {step : Int} (ranged : c.Ranged fine) (one : step.natAbs = 1) {n : Nat}
    (inside : (c.racking + n * step).natAbs ≤ maxRacking) : (c.rackSteps step n).Ranged fine := by
  induction n generalizing c with
  | zero => exact ranged
  | succ n ih =>
    have here := ranged.racked
    have sign : step = 1 ∨ step = -1 := Int.natAbs_eq_iff.1 one
    have next : (c.racking + step).natAbs ≤ maxRacking := by
      unfold maxRacking at *
      rcases sign with rfl | rfl <;> omega
    have rest : (c.racking + step + n * step).natAbs ≤ maxRacking := by
      unfold maxRacking at *
      rcases sign with rfl | rfl <;> omega
    exact ih (ranged_rackStep ranged one next) rest

theorem ranged_rack {target : Int} (ranged : c.Ranged fine) (small : target.natAbs ≤ maxRacking) :
    (c.rack target).Ranged fine := by
  unfold rack
  by_cases there : target = c.racking
  · rw [if_pos there]
    exact ⟨ranged.racked, ranged.feeders, ranged.output.emitQuiet rfl⟩
  · rw [if_neg there]
    refine ranged_rackSteps ranged ?_ ?_
    · exact Int.natAbs_sign_of_ne_zero (by omega)
    · rw [Int.mul_comm, Int.sign_mul_natAbs]
      simpa using small

/-! ## Into place -/

/-- A miss takes a feeder past a needle within its columns. -/
theorem inRange_miss {location : Location} {racking : Int} (within : location.Within racking)
    (racked : racking.natAbs ≤ maxRacking) (yarn : Yarn) :
    (Operation.miss location.direction location.needle yarn).InRange racking := by
  have index := within.index racked
  refine ⟨?_, ?_, fun _ none => (by cases none), ?_⟩
  · intro needle member
    rw [List.mem_singleton.1 member]
    exact index
  · intro landed same
    cases same
    exact within.inBounds racked
  · intro narrow
    exact ⟨isWord_of_natAbs (Nat.le_trans index (by decide)),
      narrow yarn (by simp [Operation.yarns])⟩

/-- A walk that ends in a column of its bed stays in the columns of its bed, since it does not
turn. -/
theorem ranged_walk {racking : Int} {heading : Direction} {n : Nat} {location : Location}
    {output : Output} (yarn : Yarn) (ranged : output.Ranged fine racking)
    (racked : racking.natAbs ≤ maxRacking) (within : location.Within racking)
    (goes : location.GoesOn racking heading n) :
    (walk yarn heading n location output).1.Within racking ∧
      (walk yarn heading n location output).2.Ranged fine racking := by
  induction n generalizing location output with
  | zero => exact ⟨within, ranged⟩
  | succ n ih =>
    obtain ⟨inside, rest⟩ := within.advance goes
    have miss := inRange_miss inside racked yarn
    rw [direction_advance] at miss
    exact ih (ranged.emitOperation rfl miss) inside rest

theorem ranged_walkTo (ranged : c.Ranged fine) (within : parked.Within c.racking)
    (near : attached.Nearby) (worked : Workable c.racking (goal.column c.racking)) :
    (c.walkTo carrier parked attached goal).Ranged fine := by
  obtain ⟨here, output⟩ := ranged_walk carrier.yarn ranged.output ranged.racked within
    (parked.goesOn_of_workable worked ranged.racked)
  exact Ranged.setStage (ranged.withOutput output) here near

/-- The `in` of a carrier is at the column where its first use comes from. -/
theorem inRange_settledIn (worked : Workable c.racking (goal.column c.racking))
    (racked : c.racking.natAbs ≤ maxRacking) (carrier : Carrier) (racking : Int) :
    (c.settledIn carrier goal).InRange racking := by
  have bounds := worked.inBounds racked
  have near : (goal.needle.column c.racking).natAbs ≤ maxNeedleIndex + maxRacking + 1 := by
    have beside := goal.column_bounds c.racking
    obtain ⟨low, high⟩ := worked
    unfold maxNeedleIndex maxRacking at *
    unfold Location.column at low high
    cases direction : goal.direction <;>
      simp only [direction, Direction.feederOffset] at low high <;> omega
  refine ⟨?_, ?_, fun _ none => (by cases none), ?_⟩
  · intro needle member
    rw [List.mem_singleton.1 member]
    exact near
  · intro landed same
    cases same
    exact bounds
  · intro narrow
    exact ⟨isWord_of_natAbs (Nat.le_trans near (by decide)),
      narrow carrier.yarn (by simp [settledIn, Operation.yarns])⟩

theorem ranged_position (ranged : c.Ranged fine) (linked : c.Linked)
    (listed : carrier ∈ c.carriers.carriers) (worked : Workable c.racking (goal.column c.racking))
    (near : goal.Nearby) (done : c.position goal carrier = .ok c') :
    c'.Ranged fine ∧ c'.racking = c.racking := by
  unfold position at done
  split at done
  · cases done
  · next slot pending =>
    cases done
    have waits : c.stand carrier.yarn = .waiting slot := by rw [stand, pending]; rfl
    have filled := ranged.output.fill ((linked.waiting carrier listed slot).1 waits) rfl
      (inRange_settledIn worked ranged.racked carrier)
    have here : goal.Within c.racking := .of_workable worked ranged.racked _
    exact ⟨Ranged.setStage (ranged.withOutput filled) here near, rfl⟩
  · next parked attached active =>
    cases done
    obtain ⟨within, attachedNear⟩ := ranged.feeders _ _ _ active
    exact ⟨ranged_walkTo ranged within attachedNear worked, rfl⟩

theorem ranged_positionAll {carriers : List Carrier} (ranged : c.Ranged fine) (linked : c.Linked)
    (listed : ∀ carrier ∈ carriers, carrier ∈ c.carriers.carriers)
    (worked : Workable c.racking (goal.column c.racking)) (near : goal.Nearby)
    (done : c.positionAll goal carriers = .ok c') : c'.Ranged fine ∧ c'.racking = c.racking := by
  induction carriers generalizing c with
  | nil =>
    cases done
    exact ⟨ranged, rfl⟩
  | cons first rest ih =>
    unfold positionAll at done
    split at done
    · cases done
    · next d placed =>
      have here := listed first (by simp)
      obtain ⟨rangedD, same⟩ := ranged_position ranged linked here worked near placed
      have led := (leads_position linked here placed).1
      obtain ⟨ranged', same'⟩ := ih rangedD led.linked (fun other member => by
        rw [led.carriers]
        exact listed other (List.mem_cons_of_mem first member)) (by rwa [same]) done
      exact ⟨ranged', same'.trans same⟩

/-! ## Actions -/

section
variable {request : Request} {p : Plan} {racking : Int}

/-- What the action of a plan says about its carriers and its target. -/
theorem plan_action (planned : c.plan request = .ok p) :
    (p.action = .knit → p.carriers ≠ []) ∧ (p.action = .tuck → p.carriers ≠ []) ∧
      (∀ target, p.action = .split target → p.carriers ≠ [] ∧ request.work = .split target) ∧
      ∀ target, p.action = .transfer target → request.work = .split target := by
  obtain ⟨rfl, resolved, action, _⟩ := plan_ok planned
  have named : p.request.carriers.isEmpty = false ↔ p.carriers ≠ [] := by
    rw [Ne, CarrierTable.resolve_eq_nil resolved, List.isEmpty_eq_false_iff]
  rw [action, ← named]
  cases p.request.work <;> cases c.hasLoops p.request.needle <;>
    cases p.request.carriers.isEmpty <;> simp [LoopWork.action]

/-- The operations that a plan can put out. -/
inductive PutsOut (c : Context) (p : Plan) : Operation → Prop
  | miss (carrier : Carrier) :
    PutsOut c p (.miss p.request.direction p.request.needle carrier.yarn)
  | knit (action : p.action = .knit) :
    PutsOut c p (.knit p.request.direction p.request.needle stitchSize
      (p.carriers.map (c.strand p.request.needle)))
  | tuck (action : p.action = .tuck) :
    PutsOut c p (.tuck p.request.direction p.request.needle stitchSize
      (p.carriers.map (c.strand p.request.needle)))
  | drop : PutsOut c p (.drop p.request.needle)
  | split {target : Needle} (action : p.action = .split target) :
    PutsOut c p (.split p.request.direction p.request.needle target stitchSize
      (p.carriers.map (c.strand p.request.needle)))
  | transfer {target : Needle} (action : p.action = .transfer target) :
    PutsOut c p (.transfer p.request.needle target)

theorem putsOut_of_mem {op : Operation} (member : .operation op ∈ c.contents p) :
    c.PutsOut p op := by
  unfold contents at member
  cases action : p.action with
  | miss =>
    simp only [action] at member
    obtain ⟨carrier, _, same⟩ := List.mem_map.1 member
    cases same
    exact .miss carrier
  | amiss | emptyDrop =>
    simp only [action] at member
    cases List.mem_singleton.1 member
  | knit =>
    simp only [action] at member
    cases List.mem_singleton.1 member
    exact .knit action
  | tuck =>
    simp only [action] at member
    cases List.mem_singleton.1 member
    exact .tuck action
  | drop =>
    simp only [action] at member
    cases List.mem_singleton.1 member
    exact .drop
  | split target =>
    simp only [action] at member
    cases List.mem_singleton.1 member
    exact .split action
  | transfer target =>
    simp only [action] at member
    cases List.mem_singleton.1 member
    exact .transfer action

namespace PutsOut

variable {m : Context} {op : Operation}

theorem still (puts : PutsOut m p op) : op.racks? = none := by
  cases puts <;> rfl

/-- The needles are those of the source. -/
theorem near (puts : PutsOut m p op) (planned : c.plan request = .ok p) (near : request.Near) :
    ∀ needle ∈ op.needles, needle.index.natAbs ≤ maxNeedleIndex := by
  obtain ⟨_, _, splits, transfers⟩ := plan_action planned
  obtain ⟨rfl, _, _, _⟩ := plan_ok planned
  have two {target : Needle} (work : p.request.work = .split target) :
      ∀ needle ∈ [p.request.needle, target], needle.index.natAbs ≤ maxNeedleIndex :=
    List.forall_mem_cons.2 ⟨near.needle, List.forall_mem_singleton.2 (near.target target work)⟩
  cases puts with
  | miss | knit | tuck | drop => exact List.forall_mem_singleton.2 near.needle
  | split action => exact two (splits _ action).2
  | transfer action => exact two (transfers _ action)

/-- An operation that names narrow yarns can be read back. -/
theorem wellFormed (puts : PutsOut m p op) (planned : c.plan request = .ok p)
    (checked : c.checkPlan p = .ok ()) (yarns : (c.carriers.carriers.map (·.yarn)).Nodup)
    (near : request.Near) (narrow : op.Narrow) : op.WellFormed := by
  have word : ∀ needle ∈ op.needles, isWord needle.index = true := fun needle member =>
    isWord_of_natAbs (Nat.le_trans (puts.near planned near needle member) (by decide))
  have strands : yarnsOf (p.carriers.map (m.strand p.request.needle)) = p.yarns :=
    m.yarnsOf_strands p.request.needle p.carriers
  have named (narrow : ∀ yarn ∈ p.yarns, yarn ≤ maxHalfWord) :
      WellNamed (p.carriers.map (m.strand p.request.needle)) := by
    refine ⟨?_, ?_⟩
    · rw [← yarnsOf, strands]
      exact CarrierTable.distinct_resolve yarns (plan_ok planned).2.1
    · intro strand member
      refine narrow strand.yarn ?_
      rw [← strands]
      exact List.mem_map_of_mem member
  obtain ⟨knits, tucks, splits, _⟩ := plan_action planned
  cases puts with
  | miss carrier =>
    exact ⟨word _ (by simp [Operation.needles]), narrow _ (by simp [Operation.yarns])⟩
  | knit action =>
    refine ⟨word _ (by simp [Operation.needles]), ?_, named (strands ▸ narrow)⟩
    simpa using knits action
  | tuck action =>
    refine ⟨word _ (by simp [Operation.needles]), ?_, named (strands ▸ narrow)⟩
    have some := List.length_pos_iff.2 (tucks action)
    simp only [checkPlan, action] at checked
    split at checked
    · cases checked
    · rw [List.length_map]
      omega
  | drop => exact word _ (by simp [Operation.needles])
  | split action =>
    refine ⟨word _ (by simp [Operation.needles]), word _ (by simp [Operation.needles]), ?_,
      named (strands ▸ narrow)⟩
    simpa using (splits _ action).1
  | transfer => exact ⟨word _ (by simp [Operation.needles]), word _ (by simp [Operation.needles])⟩

end PutsOut

/-- The operations of a plan work needles of the source, and take the carriers of the plan past
them. -/
theorem inRange_contents (planned : c.plan request = .ok p) (checked : c.checkPlan p = .ok ())
    (yarns : (c.carriers.carriers.map (·.yarn)).Nodup)
    (near : request.Near) (racked : racking.natAbs ≤ maxRacking) (m : Context) :
    ∀ content ∈ m.contents p, ∀ op, content = .operation op →
      op.racks? = none ∧ op.InRange racking := by
  rintro _ member op rfl
  have puts := putsOut_of_mem member
  have formed := puts.wellFormed planned checked yarns near
  exact ⟨puts.still, .of_near (puts.near planned near) puts.still formed racked⟩

/-- A feeder that was used stands past the needle. -/
theorem ranged_usedCarriers {carriers : List Carrier} (ranged : c.Ranged fine)
    (near : p.request.needle.index.natAbs ≤ maxNeedleIndex) :
    (carriers.foldl (usedCarrier p) c).Ranged fine := by
  induction carriers generalizing c with
  | nil => exact ranged
  | cons carrier rest ih =>
    have here : (Location.mk p.request.needle p.request.direction).Within c.racking :=
      .of_workable (workable_of_near near _ _) ranged.racked _
    refine ih ?_
    unfold usedCarrier
    split
    · next attached _ active => exact ranged.setStage here (ranged.feeders _ _ _ active).2
    · exact ranged.setStage here (Nat.le_succ_of_le near)

/-- Moved loops take feeders along, and the carriers of the plan stand past the needle. -/
theorem ranged_perform (planned : c.plan request = .ok p) (checked : c.checkPlan p = .ok ())
    (yarns : (c.carriers.carriers.map (·.yarn)).Nodup) (near : request.Near) {m : Context}
    (ranged : m.Ranged fine) : (m.perform p).Ranged fine := by
  have contents := inRange_contents planned checked yarns near ranged.racked m
  obtain ⟨rfl, _, _, _⟩ := plan_ok planned
  obtain ⟨_, _, splits, transfers⟩ := plan_action planned
  have emitted : { (m.contents p).foldl emit m with loops := m.loopsAfter p }.Ranged fine := by
    rw [foldl_emit]
    exact (ranged.withOutput (ranged.output.foldl_emit contents)).withLoops _
  unfold perform
  simp only
  refine ranged_usedCarriers ?_ near.needle
  unfold retarget
  split
  · next target action => exact emitted.follow _ (near.target target (splits target action).2)
  · next target action => exact emitted.follow _ (near.target target (transfers target action))
  · exact emitted

theorem ranged_lowerRequest (ranged : c.Ranged fine) (linked : c.Linked) (near : request.Near)
    (done : c.lowerRequest request = .ok c') : c'.Ranged fine := by
  obtain ⟨p, m, planned, checked, placed, rfl⟩ := lowerRequest_ok done
  have listed : ∀ carrier ∈ p.carriers, carrier ∈ c.carriers.carriers := fun carrier member =>
    (CarrierTable.mem_of_resolve (plan_ok planned).2.1 member).1
  have placedRanged := ranged_positionAll ranged linked listed (workable_approach near.needle _)
    (approach_nearby near.needle) placed
  exact ranged_perform planned checked linked.distinct near placedRanged.1

end

/-! ## Lines -/

theorem Linked.beginLine (linked : c.Linked) (source : Text) :
    { c with output := c.output.beginLine source }.Linked :=
  Leads.linked (linked.leads rfl (fun _ _ => .rfl) (Output.extends_beginLine c.output source))

theorem ranged_forEach {step : Context → Text → Except LoweringError Context} {names : List Text}
    (each : ∀ d d' name, d.Ranged fine → step d name = .ok d' → d'.Ranged fine)
    (ranged : c.Ranged fine) (done : c.forEach step names = .ok c') : c'.Ranged fine := by
  induction names generalizing c with
  | nil =>
    cases done
    exact ranged
  | cons name rest ih =>
    unfold forEach at done
    split at done
    · cases done
    · next d first => exact ih (each c d name ranged first) done

theorem ranged_lowerLine {number : Nat} {source : Text} (ranged : c.Ranged fine) (linked : c.Linked)
    (whole : fine source) (done : c.lowerLine number source = .ok c') : c'.Ranged fine := by
  let begun : Context := { c with output := c.output.beginLine source }
  have rangedB : begun.Ranged fine := ranged.withOutput (ranged.output.beginLine whole)
  have linkedB : begun.Linked := linked.beginLine source
  unfold lowerLine at done
  simp only at done
  split at done
  · cases done
  · next command read =>
    cases command with
    | bringIn names => exact ranged_forEach (fun _ _ _ => ranged_bringIn) rangedB done
    | bringOut names => exact ranged_forEach (fun _ _ _ => ranged_bringOut) rangedB done
    | idle | stitch | stitchNumber | setting =>
      cases done
      exact rangedB
    | rack target =>
      cases done
      exact ranged_rack rangedB (Command.near_rack_ofLine read)
    | vendor word =>
      cases done
      exact ⟨rangedB.racked, rangedB.feeders, rangedB.output⟩
    | loops request =>
      obtain ⟨near, nearTarget⟩ := Command.near_ofLine read
      exact ranged_lowerRequest rangedB linkedB ⟨near, nearTarget⟩ done
  · cases done
    split
    · exact ⟨rangedB.racked, rangedB.feeders, rangedB.output.emitQuiet rfl⟩
    · exact rangedB

/-- However many lines are lowered, the columns stay where they belong. -/
theorem ranged_lowerLines {number : Nat} {lines : List Text} (ranged : c.Ranged fine)
    (linked : c.Linked) (whole : ∀ line ∈ lines, fine line)
    (done : c.lowerLines number lines = .ok c') : c'.Ranged fine := by
  induction lines generalizing c number with
  | nil =>
    cases done
    exact ranged
  | cons source rest ih =>
    unfold lowerLines at done
    split at done
    · cases done
    · next d step =>
      exact ih (ranged_lowerLine ranged linked (whole source (by simp)) step)
        (leads_lowerLine linked step).linked
        (fun line member => whole line (List.mem_cons_of_mem source member)) done

end Context

end Knitout
