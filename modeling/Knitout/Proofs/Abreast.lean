import Knitout.Proofs.Confined
import Knitout.Proofs.Motion

/-!
Two lowerings side by side, the second of which does everything where a motion takes it
(`Context.Abreast`). They need not put out the same remarks, so their slots may have different
numbers: an `in` that waits is found by its carrier. Each function of the lowering keeps them abreast,
or fails in both with the same error. Main statement: so does the lowering of a list of lines
(`Context.lowerLines_moved`).
-/

namespace Knitout

/-! ## Outputs -/

/-- Remarks do nothing. -/
def Content.isRemark : Content → Bool
  | .remark _ => true
  | _ => false

/-- A slot that waits for a carrier gets its `in`. -/
def Slot.settle (carrier : Carrier) (op : Operation) (slot : Slot) : Slot :=
  if slot.content = .pendingIn carrier then { slot with content := .operation op } else slot

namespace Output

/-- The slots that are not remarks. -/
def essence (o : Output) : List Slot :=
  o.slots.toList.filter fun slot => !slot.content.isRemark

theorem essence_emit (o : Output) (content : Content) :
    (o.emit content).essence =
      o.essence ++ if content.isRemark then [] else [⟨content, o.annotation⟩] := by
  simp only [essence, emit, Array.toList_push, List.filter_append]
  cases content <;> rfl

/-- The only slot that waits for a carrier is found by the carrier. -/
theorem essence_fill {o : Output} {place : Nat} {carrier : Carrier}
    (only : ∀ index, o.content? index = some (.pendingIn carrier) ↔ index = place)
    (op : Operation) :
    (o.fill place (.operation op)).essence = o.essence.map (Slot.settle carrier op) := by
  have filled : (o.fill place (.operation op)).slots.toList =
      o.slots.toList.map (Slot.settle carrier op) := by
    refine List.ext_getElem? fun index => ?_
    rw [fill, Array.getElem?_toList, Array.getElem?_modify, List.getElem?_map,
      Array.getElem?_toList]
    cases there : o.slots[index]? with
    | none => simp
    | some slot =>
      have waits : slot.content = .pendingIn carrier ↔ index = place := by
        rw [← only index, content?, there]
        simp
      by_cases here : place = index
      · simp [Slot.settle, waits, here]
      · simp [Slot.settle, waits, here, Ne.symm here]
  rw [essence, filled, List.filter_map]
  refine congrArg (List.map _) (List.filter_congr fun slot _ => ?_)
  simp only [Function.comp_apply, Slot.settle]
  by_cases waits : slot.content = .pendingIn carrier
  · rw [if_pos waits, waits]
    rfl
  · rw [if_neg waits]

end Output

/-! ## Side by side -/

namespace Motion

/-- A slot and its counterpart; what they quote is related in its own way. -/
structure Slots (m : Motion) (quotes : Text → Text → Prop) (slot slot' : Slot) : Prop where
  content : slot'.content = m.content slot.content
  annotation : Option.Rel quotes slot.annotation slot'.annotation

/-- A carrier waits on both sides, in any slot, or its feeder and its last loop have been moved. -/
inductive Stages (m : Motion) : CarrierStage → CarrierStage → Prop
  | pending (slot slot' : Nat) : Stages m (.pending slot) (.pending slot')
  | active (parked attached : Location) :
    Stages m (.active parked attached) (.active (m.location parked) (m.location attached))

end Motion

/-- The outputs are the same up to remarks, and so are the lines that their next slots will quote. -/
structure Output.Abreast (m : Motion) (quotes : Text → Text → Prop) (o o' : Output) : Prop where
  slots : List.Forall₂ (m.Slots quotes) o.essence o'.essence
  next : Option.Rel quotes o.annotation o'.annotation

/-- The second needles hold what the first ones hold. -/
def Loops.Moved (m : Motion) (loops loops' : Loops) : Prop :=
  ∀ needle, loops'.get? (m.needle needle) = loops.get? needle

namespace Context

/-- Two lowerings that are about to lower a line. -/
structure Alike (m : Motion) (quotes : Text → Text → Prop) (c d : Context) : Prop where
  carriers : d.carriers = c.carriers
  stages : ∀ yarn, Option.Rel m.Stages (c.stages.get? yarn) (d.stages.get? yarn)
  loops : c.loops.Moved m d.loops
  racking : d.racking = m.racking c.racking
  slots : List.Forall₂ (m.Slots quotes) c.output.essence d.output.essence

/-- Two lowerings in the middle of a line. -/
structure Abreast (m : Motion) (quotes : Text → Text → Prop) (c d : Context) : Prop
    extends Alike m quotes c d where
  next : Option.Rel quotes c.output.annotation d.output.annotation

end Context

section
variable {m : Motion} {quotes : Text → Text → Prop}

namespace Output.Abreast

variable {o o' : Output}

theorem emit (abreast : o.Abreast m quotes o') (content : Content) :
    (o.emit content).Abreast m quotes (o'.emit (m.content content)) := by
  refine ⟨?_, .none⟩
  rw [essence_emit, essence_emit]
  cases content with
  | remark note => simpa [Motion.content, Content.isRemark] using abreast.slots
  | operation op =>
    exact List.rel_append abreast.slots (.cons ⟨rfl, abreast.next⟩ .nil)
  | pendingIn carrier =>
    exact List.rel_append abreast.slots (.cons ⟨rfl, abreast.next⟩ .nil)

theorem foldl_emit {contents : List Content} (abreast : o.Abreast m quotes o') :
    (contents.foldl Output.emit o).Abreast m quotes
      ((contents.map m.content).foldl Output.emit o') := by
  induction contents generalizing o o' with
  | nil => exact abreast
  | cons content rest ih => exact ih (abreast.emit content)

/-- The slots that wait for one carrier get moved contents. -/
theorem fill {place place' : Nat} {carrier : Carrier} (abreast : o.Abreast m quotes o')
    (only : ∀ index, o.content? index = some (.pendingIn carrier) ↔ index = place)
    (only' : ∀ index, o'.content? index = some (.pendingIn carrier) ↔ index = place')
    (op : Operation) :
    (o.fill place (.operation op)).Abreast m quotes
      (o'.fill place' (.operation (m.operation op))) := by
  refine ⟨?_, abreast.next⟩
  rw [essence_fill only, essence_fill only', List.forall₂_map_left_iff, List.forall₂_map_right_iff]
  refine abreast.slots.imp fun slot slot' moved => ?_
  have waits : slot'.content = .pendingIn carrier ↔ slot.content = .pendingIn carrier := by
    rw [moved.content]
    cases slot.content <;> simp [Motion.content]
  unfold Slot.settle
  by_cases here : slot.content = .pendingIn carrier
  · rw [if_pos here, if_pos (waits.2 here)]
    exact ⟨rfl, moved.annotation⟩
  · rw [if_neg here, if_neg (mt waits.1 here)]
    exact moved

/-- Walks stay abreast. -/
theorem walk (yarn : Yarn) (heading : Direction) (n : Nat) (location : Location)
    (abreast : o.Abreast m quotes o') :
    (Knitout.walk yarn (m.direction heading) n (m.location location) o').1 =
        m.location (Knitout.walk yarn heading n location o).1 ∧
      (Knitout.walk yarn heading n location o).2.Abreast m quotes
        (Knitout.walk yarn (m.direction heading) n (m.location location) o').2 := by
  induction n generalizing location o o' with
  | zero => exact ⟨rfl, abreast⟩
  | succ n ih =>
    simp only [Knitout.walk, m.advance_location]
    exact ih (location.advance heading)
      (abreast.emit (.operation (.miss heading (location.advance heading).needle yarn)))

end Output.Abreast

namespace Context

variable {c d : Context} {carrier : Carrier}

/-- A carrier is out on both sides, waits on both, or is in action on both. -/
theorem Alike.stage_cases (alike : c.Alike m quotes d) (yarn : Yarn) :
    (c.stages.get? yarn = none ∧ d.stages.get? yarn = none) ∨
      (∃ slot slot', c.stages.get? yarn = some (.pending slot) ∧
        d.stages.get? yarn = some (.pending slot')) ∨
      ∃ parked attached, c.stages.get? yarn = some (.active parked attached) ∧
        d.stages.get? yarn = some (.active (m.location parked) (m.location attached)) := by
  have stage := alike.stages yarn
  generalize c.stages.get? yarn = here, d.stages.get? yarn = there at stage
  cases stage with
  | none => exact .inl ⟨rfl, rfl⟩
  | some moved =>
    cases moved with
    | pending slot slot' => exact .inr (.inl ⟨slot, slot', rfl, rfl⟩)
    | active parked attached => exact .inr (.inr ⟨parked, attached, rfl, rfl⟩)

theorem Abreast.output (abreast : c.Abreast m quotes d) : c.output.Abreast m quotes d.output :=
  ⟨abreast.slots, abreast.next⟩

theorem Abreast.withOutput {o o' : Output} (abreast : c.Abreast m quotes d)
    (outputs : o.Abreast m quotes o') :
    { c with output := o }.Abreast m quotes { d with output := o' } :=
  { abreast with slots := outputs.slots, next := outputs.next }

theorem Abreast.emit (abreast : c.Abreast m quotes d) (content : Content) :
    (c.emit content).Abreast m quotes (d.emit (m.content content)) :=
  abreast.withOutput (abreast.output.emit content)

theorem Abreast.setStage {stage stage' : CarrierStage} (abreast : c.Abreast m quotes d)
    (moved : m.Stages stage stage') :
    (c.setStage carrier stage).Abreast m quotes (d.setStage carrier stage') := by
  refine { abreast with stages := ?_ }
  intro yarn
  rw [get?_setStage, get?_setStage]
  by_cases same : yarn = carrier.yarn
  · rw [if_pos same, if_pos same]
    exact .some moved
  · rw [if_neg same, if_neg same]
    exact abreast.stages yarn

/-- Feeders and last loops that are moved in corresponding ways stay abreast. -/
theorem Abreast.relocate {parked parked' attached attached' : Location → Location}
    (abreast : c.Abreast m quotes d)
    (feeders : ∀ location, parked' (m.location location) = m.location (parked location))
    (loops : ∀ location, attached' (m.location location) = m.location (attached location)) :
    (c.relocate parked attached).Abreast m quotes (d.relocate parked' attached') := by
  refine { abreast with stages := ?_ }
  intro yarn
  rw [get?_relocate, get?_relocate]
  rcases abreast.stage_cases yarn with ⟨here, there⟩ | ⟨_, _, here, there⟩ | ⟨_, _, here, there⟩
  · rw [here, there]
    exact .none
  · rw [here, there]
    exact .some (.pending _ _)
  · rw [here, there]
    simp only [Option.map_some, feeders, loops]
    exact .some (.active _ _)

/-- The warnings do not matter. -/
theorem Abreast.warn (abreast : c.Abreast m quotes d) (line line' : Nat) (kind : Kind)
    (message : String) :
    (c.warn line kind message).Abreast m quotes (d.warn line' kind message) :=
  { abreast with }

/-! ## In and out -/

theorem abreast_bringIn (abreast : c.Abreast m quotes d) (name : Text) :
    m.Outcomes (Abreast m quotes) (c.bringIn name) (d.bringIn name) := by
  unfold bringIn
  rw [abreast.carriers]
  cases c.carriers.lookup name with
  | error e => exact .error (.same e)
  | ok carrier =>
    simp only [bind, Except.bind]
    rcases abreast.stage_cases carrier.yarn with
      ⟨here, there⟩ | ⟨_, _, here, there⟩ | ⟨_, _, here, there⟩
    · rw [here, there]
      exact .ok ((abreast.emit (.pendingIn carrier)).setStage (.pending _ _))
    · rw [here, there]
      exact .error (.same _)
    · rw [here, there]
      exact .error (.same _)

theorem abreast_bringOut (abreast : c.Abreast m quotes d) (name : Text) :
    m.Outcomes (Abreast m quotes) (c.bringOut name) (d.bringOut name) := by
  unfold bringOut
  rw [abreast.carriers]
  cases c.carriers.lookup name with
  | error e => exact .error (.same e)
  | ok carrier =>
    simp only [bind, Except.bind]
    rcases abreast.stage_cases carrier.yarn with
      ⟨here, there⟩ | ⟨_, _, here, there⟩ | ⟨parked, attached, here, there⟩
    · rw [here, there]
      exact .error (.same _)
    · rw [here, there]
      exact .error (.same _)
    · rw [here, there, abreast.racking]
      have past : (m.location parked).needle.column (m.racking c.racking) +
          (m.location parked).direction.step =
            m.index (parked.needle.column c.racking + parked.direction.step) := by
        rw [m.index_add_step, ← m.column_needle]
        rfl
      simp only [past]
      have emitted := abreast.emit (.operation (.bringOut parked.direction.opposite
        (.front (parked.needle.column c.racking + parked.direction.step)) carrier.yarn))
      simp only [Motion.content, Motion.operation, m.direction_opposite] at emitted
      refine .ok { emitted with stages := ?_ }
      intro yarn
      rw [Table.get?_erase, Table.get?_erase]
      by_cases same : yarn = carrier.yarn
      · rw [if_pos same, if_pos same]
        exact .none
      · rw [if_neg same, if_neg same]
        exact abreast.stages yarn

theorem abreast_forEach {step : Context → Text → Except LoweringError Context} {names : List Text}
    (each : ∀ c d name, c.Abreast m quotes d →
      m.Outcomes (Abreast m quotes) (step c name) (step d name))
    (abreast : c.Abreast m quotes d) :
    m.Outcomes (Abreast m quotes) (c.forEach step names) (d.forEach step names) := by
  induction names generalizing c d with
  | nil => exact .ok abreast
  | cons name rest ih =>
    unfold forEach
    have first := each c d name abreast
    generalize step c name = here, step d name = there at first
    cases first with
    | error errors => exact .error errors
    | ok results => exact ih results

/-! ## Racking -/

theorem abreast_rackStep (abreast : c.Abreast m quotes d) (step : Int) :
    (c.rackStep step).Abreast m quotes (d.rackStep (m.racking step)) := by
  have parked : (c.relocate (onFrontBed c.racking) id).Abreast m quotes
      (d.relocate (onFrontBed d.racking) id) :=
    abreast.relocate (by rw [abreast.racking]; exact m.onFrontBed_location c.racking)
      fun _ => rfl
  have racked : d.racking + m.racking step = m.racking (c.racking + step) := by
    rw [m.racking_add, abreast.racking]
  have moved : { c.relocate (onFrontBed c.racking) id with racking := c.racking + step }.Abreast m
      quotes { d.relocate (onFrontBed d.racking) id with racking := m.racking (c.racking + step) } :=
    { parked with racking := rfl }
  unfold rackStep
  simp only [racked]
  exact moved.emit (.operation (.rack (c.racking + step)))

theorem abreast_rackSteps (abreast : c.Abreast m quotes d) (step : Int) (n : Nat) :
    (c.rackSteps step n).Abreast m quotes (d.rackSteps (m.racking step) n) := by
  induction n generalizing c d with
  | zero => exact abreast
  | succ n ih => exact ih (abreast_rackStep abreast step)

theorem abreast_rack (abreast : c.Abreast m quotes d) (target : Int) :
    (c.rack target).Abreast m quotes (d.rack (m.racking target)) := by
  have same : m.racking target = d.racking ↔ target = c.racking := by
    rw [abreast.racking, m.racking_inj]
  unfold rack
  by_cases there : target = c.racking
  · rw [if_pos there, if_pos (same.2 there)]
    exact abreast.emit (.remark .rackNotNeeded)
  · rw [if_neg there, if_neg (mt same.1 there), abreast.racking, ← m.racking_sub, m.sign_racking,
      m.natAbs_racking]
    exact abreast_rackSteps abreast _ _

/-! ## Into place -/

/-- A feeder that has to move goes the moved way. -/
theorem heading_moved (m : Motion) {here there : Int} (apart : there - here ≠ 0) :
    (if 0 < m.column there - m.column here then Direction.increasing else .decreasing) =
      m.direction (if 0 < there - here then .increasing else .decreasing) := by
  cases m with
  | shift offset =>
    have same : there + offset - (here + offset) = there - here := by omega
    simp only [Motion.column, Motion.direction, same]
  | mirror =>
    by_cases up : 0 < there - here
    · have down : ¬ 0 < 1 - there - (1 - here) := by omega
      simp only [Motion.column, Motion.direction, if_pos up, Direction.opposite]
      exact if_neg down
    · have down : 0 < 1 - there - (1 - here) := by omega
      simp only [Motion.column, Motion.direction, if_neg up, Direction.opposite]
      exact if_pos down

theorem abreast_walkTo {parked attached goal : Location} (abreast : c.Abreast m quotes d) :
    (c.walkTo carrier parked attached goal).Abreast m quotes
      (d.walkTo carrier (m.location parked) (m.location attached) (m.location goal)) := by
  have column (location : Location) :
      (m.location location).column d.racking = m.column (location.column c.racking) := by
    rw [abreast.racking, m.column_location]
  unfold walkTo
  simp only [column, m.natAbs_column_sub]
  by_cases apart : goal.column c.racking - parked.column c.racking = 0
  · -- without a way to go the headings may differ
    rw [apart]
    exact abreast.setStage (.active parked attached)
  · rw [heading_moved m apart]
    obtain ⟨location, outputs⟩ := Output.Abreast.walk carrier.yarn
      (if 0 < goal.column c.racking - parked.column c.racking then .increasing else .decreasing)
      (goal.column c.racking - parked.column c.racking).natAbs parked abreast.output
    rw [location]
    exact (abreast.withOutput outputs).setStage (.active _ _)

/-- The slot that waits for a carrier is known from its stage. -/
theorem Linked.only {slot : Nat} (linked : c.Linked) (listed : carrier ∈ c.carriers.carriers)
    (pending : c.stages.get? carrier.yarn = some (.pending slot)) (index : Nat) :
    c.output.content? index = some (.pendingIn carrier) ↔ index = slot := by
  have waits : c.stand carrier.yarn = .waiting slot := by rw [stand, pending]; rfl
  rw [← linked.waiting carrier listed index, waits]
  simp [eq_comm]

theorem abreast_position {goal : Location} (abreast : c.Abreast m quotes d) (linked : c.Linked)
    (linked' : d.Linked) (listed : carrier ∈ c.carriers.carriers) :
    m.Outcomes (Abreast m quotes) (c.position goal carrier)
      (d.position (m.location goal) carrier) := by
  unfold position
  rcases abreast.stage_cases carrier.yarn with
    ⟨here, there⟩ | ⟨slot, slot', here, there⟩ | ⟨parked, attached, here, there⟩
  · rw [here, there]
    exact .error (.same _)
  · rw [here, there]
    have settled : d.settledIn carrier (m.location goal) =
        m.operation (c.settledIn carrier goal) := by
      unfold settledIn
      rw [abreast.racking]
      simp only [Motion.location, m.column_needle]
      rfl
    simp only [settled]
    exact .ok ((abreast.withOutput (abreast.output.fill (linked.only listed here)
      (linked'.only (abreast.carriers ▸ listed) there) _)).setStage (.active goal goal))
  · rw [here, there]
    exact .ok (abreast_walkTo abreast)

theorem abreast_positionAll {goal : Location} {carriers : List Carrier}
    (abreast : c.Abreast m quotes d) (linked : c.Linked) (linked' : d.Linked)
    (listed : ∀ carrier ∈ carriers, carrier ∈ c.carriers.carriers) :
    m.Outcomes (Abreast m quotes) (c.positionAll goal carriers)
      (d.positionAll (m.location goal) carriers) := by
  induction carriers generalizing c d with
  | nil => exact .ok abreast
  | cons carrier rest ih =>
    unfold positionAll
    have here := listed carrier (by simp)
    have first : m.Outcomes (Abreast m quotes) (c.position goal carrier)
        (d.position (m.location goal) carrier) := abreast_position abreast linked linked' here
    rcases first.cases with
      ⟨c₁, d₁, placed, placed', abreast₁⟩ | ⟨e, e', refused, refused', errors⟩
    · rw [placed, placed']
      have led := (leads_position linked here placed).1
      have led' := (leads_position linked' (abreast.carriers ▸ here) placed').1
      refine ih abreast₁ led.linked led'.linked fun other member => ?_
      rw [led.carriers]
      exact listed other (List.mem_cons_of_mem carrier member)
    · rw [refused, refused']
      exact .error errors

end Context

/-! ## Actions -/

namespace Loops.Moved

variable {loops loops' : Loops}

theorem count (moved : loops.Moved m loops') (needle : Needle) :
    loops'.count (m.needle needle) = loops.count needle := by
  unfold Loops.count
  rw [moved needle]

theorem insert (moved : loops.Moved m loops') (needle : Needle) (count : Nat) :
    Loops.Moved m (Table.insert loops needle count)
      (Table.insert loops' (m.needle needle) count) := by
  intro other
  simp only [Table.get?_insert, moved other, m.needle_inj]

theorem erase (moved : loops.Moved m loops') (needle : Needle) :
    Loops.Moved m (Table.erase loops needle) (Table.erase loops' (m.needle needle)) := by
  intro other
  simp only [Table.get?_erase, moved other, m.needle_inj]

theorem move (moved : loops.Moved m loops') (source target : Needle) :
    Loops.Moved m (loops.move source target)
      (loops'.move (m.needle source) (m.needle target)) := by
  unfold Loops.move
  rw [moved source]
  cases Table.get? loops source with
  | none => exact moved
  | some taken =>
    have rest := moved.erase source
    simp only [rest.count target]
    exact rest.insert target _

end Loops.Moved

namespace Motion

/-- A request and its counterpart. A synonym implies one direction on both sides, but nothing comes
of it. -/
structure Requests (m : Motion) (r r' : Request) : Prop where
  work : r'.work = m.work r.work
  needle : r'.needle = m.needle r.needle
  carriers : r'.carriers = r.carriers
  synonym : r'.synonym = r.synonym
  direction : r.synonym = none → r'.direction = m.direction r.direction

/-- A plan and its counterpart. -/
structure Plans (m : Motion) (p p' : Plan) : Prop where
  needle : p'.request.needle = m.needle p.request.needle
  action : p'.action = m.action p.action
  carriers : p'.carriers = p.carriers
  /-- Only carriers are carried in a direction. -/
  direction : p.carriers ≠ [] → p'.request.direction = m.direction p.request.direction
  named : p.action = .tuck ∨ p.action = .knit ∨ (∃ target, p.action = .split target) →
    p.carriers ≠ []

end Motion

namespace Context

variable {c d : Context} {carrier : Carrier} {request request' : Request} {p p' : Plan}

theorem hasLoops_moved (alike : c.Alike m quotes d) (needle : Needle) :
    d.hasLoops (m.needle needle) = c.hasLoops needle := by
  unfold hasLoops Table.contains
  rw [alike.loops needle]

theorem plan_eq (alike : c.Alike m quotes d) (requests : m.Requests request request') :
    d.plan request' =
      (c.plan request).map fun p => ⟨request', m.action p.action, p.carriers⟩ := by
  have miss : (m.work request.work = .miss) = (request.work = .miss) := by
    cases request.work <;> simp [Motion.work]
  unfold plan
  simp only [requests.work, requests.needle, requests.carriers, requests.synonym, alike.carriers,
    miss, hasLoops_moved alike, m.action_work]
  split
  · rfl
  · split
    · rfl
    · cases c.carriers.resolve request.carriers <;> rfl

theorem plan_moved (alike : c.Alike m quotes d) (requests : m.Requests request request') :
    m.Outcomes m.Plans (c.plan request) (d.plan request') := by
  rw [plan_eq alike requests]
  cases planned : c.plan request with
  | error e => exact .error (.same e)
  | ok p =>
    obtain ⟨knits, tucks, splits, _⟩ := plan_action planned
    obtain ⟨rfl, resolved, _, bare⟩ := plan_ok planned
    refine .ok ⟨requests.needle, rfl, rfl, ?_, ?_⟩
    · intro named
      refine requests.direction (Option.not_isSome_iff_eq_none.1 fun written => named ?_)
      exact (CarrierTable.resolve_eq_nil resolved).2 (bare written)
    · rintro (action | action | ⟨target, action⟩)
      · exact tucks action
      · exact knits action
      · exact (splits target action).1

theorem checkAligned_moved (alike : c.Alike m quotes d) (needle target : Needle) :
    m.Outcomes Eq (c.checkAligned needle target)
      (d.checkAligned (m.needle needle) (m.needle target)) := by
  have column : (m.needle needle).column d.racking = (m.needle target).column d.racking ↔
      needle.column c.racking = target.column c.racking := by
    rw [alike.racking, m.column_needle, m.column_needle, m.index_inj]
  unfold checkAligned
  by_cases same : needle.bed = target.bed
  · rw [if_pos same, if_pos (show (m.needle needle).bed = (m.needle target).bed from same)]
    exact .error (.sameBed needle target)
  · rw [if_neg same, if_neg (show ¬ (m.needle needle).bed = (m.needle target).bed from same)]
    by_cases apart : needle.column c.racking ≠ target.column c.racking
    · rw [if_pos apart, if_pos (mt column.1 apart), alike.racking]
      exact .error (.misaligned needle target c.racking)
    · rw [if_neg apart, if_neg fun apart' => apart (mt column.2 apart')]
      exact .ok rfl

theorem checkPlan_moved (alike : c.Alike m quotes d) (plans : m.Plans p p') :
    m.Outcomes Eq (c.checkPlan p) (d.checkPlan p') := by
  unfold checkPlan
  rw [plans.action, plans.carriers, plans.needle]
  cases p.action with
  | tuck =>
    simp only [Motion.action]
    by_cases many : 1 < p.carriers.length
    · rw [if_pos many]
      exact .error (.same _)
    · rw [if_neg many]
      exact .ok rfl
  | split target => exact checkAligned_moved alike _ target
  | transfer target => exact checkAligned_moved alike _ target
  | _ => exact .ok rfl

theorem approach_moved (needle : request'.needle = m.needle request.needle)
    (direction : request'.direction = m.direction request.direction) :
    approach request' = m.location (approach request) := by
  unfold approach
  rw [needle, direction]
  simp only [Motion.location, Motion.needle, m.index_sub_step]

theorem strand_moved (alike : c.Alike m quotes d) (needle : Needle) (carrier : Carrier) :
    d.strand (m.needle needle) carrier = c.strand needle carrier := by
  unfold strand
  rw [alike.racking]
  rcases alike.stage_cases carrier.yarn with
    ⟨here, there⟩ | ⟨_, _, here, there⟩ | ⟨parked, attached, here, there⟩
  · rw [here, there]
  · rw [here, there]
  · rw [here, there]
    simp only [Motion.location, m.column_needle, m.natAbs_index_sub]

theorem contents_moved (alike : c.Alike m quotes d) (plans : m.Plans p p') :
    d.contents p' = (c.contents p).map m.content := by
  have strands : p.carriers.map (d.strand (m.needle p.request.needle)) =
      p.carriers.map (c.strand p.request.needle) :=
    List.map_congr_left fun carrier _ => strand_moved alike _ carrier
  unfold contents
  simp only [plans.action, plans.carriers, plans.needle, strands]
  cases action : p.action with
  | amiss | drop | emptyDrop => rfl
  | transfer target => rfl
  | tuck =>
    simp only [Motion.action, plans.direction (plans.named (.inl action))]
    rfl
  | knit =>
    simp only [Motion.action, plans.direction (plans.named (.inr (.inl action)))]
    rfl
  | split target =>
    simp only [Motion.action, plans.direction (plans.named (.inr (.inr ⟨target, action⟩)))]
    rfl
  | miss =>
    simp only [Motion.action, List.map_map]
    refine List.map_congr_left fun carrier member => ?_
    have named : p.carriers ≠ [] := List.ne_nil_of_mem member
    rw [plans.direction named]
    rfl

theorem loopsAfter_moved (alike : c.Alike m quotes d) (plans : m.Plans p p') :
    (c.loopsAfter p).Moved m (d.loopsAfter p') := by
  unfold loopsAfter
  simp only [plans.action, plans.carriers, plans.needle]
  cases p.action with
  | miss | amiss | emptyDrop => exact alike.loops
  | tuck =>
    simp only [Motion.action, alike.loops.count]
    exact alike.loops.insert _ _
  | knit => exact alike.loops.insert _ _
  | drop => exact alike.loops.erase _
  | split target => exact (alike.loops.move _ _).insert _ _
  | transfer target => exact alike.loops.move _ _

theorem retarget_moved (abreast : c.Abreast m quotes d) (plans : m.Plans p p') :
    (c.retarget p).Abreast m quotes (d.retarget p') := by
  have followed (target : Needle) : (c.relocate (Location.follow p.request.needle target)
      (Location.follow p.request.needle target)).Abreast m quotes
        (d.relocate (Location.follow (m.needle p.request.needle) (m.needle target))
          (Location.follow (m.needle p.request.needle) (m.needle target))) :=
    abreast.relocate (m.follow_location _ _) (m.follow_location _ _)
  unfold retarget
  rw [plans.action, plans.needle]
  cases p.action with
  | split target => exact followed target
  | transfer target => exact followed target
  | _ => exact abreast

theorem usedCarrier_moved (abreast : c.Abreast m quotes d) (plans : m.Plans p p')
    (named : p.carriers ≠ []) (carrier : Carrier) :
    (usedCarrier p c carrier).Abreast m quotes (usedCarrier p' d carrier) := by
  have here : Location.mk p'.request.needle p'.request.direction =
      m.location ⟨p.request.needle, p.request.direction⟩ := by
    rw [plans.needle, plans.direction named]
    rfl
  unfold usedCarrier
  simp only [plans.action, here]
  rcases abreast.stage_cases carrier.yarn with
    ⟨mine, yours⟩ | ⟨_, _, mine, yours⟩ | ⟨_, _, mine, yours⟩
  · rw [mine, yours]
    cases p.action <;> exact abreast.setStage (.active _ _)
  · rw [mine, yours]
    cases p.action <;> exact abreast.setStage (.active _ _)
  · rw [mine, yours]
    cases p.action <;> exact abreast.setStage (.active _ _)

theorem perform_moved (abreast : c.Abreast m quotes d) (plans : m.Plans p p') :
    (c.perform p).Abreast m quotes (d.perform p') := by
  have used (carriers : List Carrier) (fewer : ∀ carrier ∈ carriers, carrier ∈ p.carriers)
      (c d : Context) (abreast : c.Abreast m quotes d) :
      (carriers.foldl (usedCarrier p) c).Abreast m quotes (carriers.foldl (usedCarrier p') d) := by
    induction carriers generalizing c d with
    | nil => exact abreast
    | cons carrier rest ih =>
      have named : p.carriers ≠ [] := List.ne_nil_of_mem (fewer carrier (by simp))
      exact ih (fun other member => fewer other (List.mem_cons_of_mem carrier member)) _ _
        (usedCarrier_moved abreast plans named carrier)
  have emitted : ((c.contents p).foldl emit c).Abreast m quotes ((d.contents p').foldl emit d) := by
    rw [foldl_emit, foldl_emit, contents_moved abreast.toAlike plans]
    exact abreast.withOutput abreast.output.foldl_emit
  have loops := loopsAfter_moved abreast.toAlike plans
  unfold perform
  rw [plans.carriers]
  refine used p.carriers (fun _ member => member) _ _ (retarget_moved ?_ plans)
  exact { emitted with loops }

theorem lowerRequest_moved (abreast : c.Abreast m quotes d) (linked : c.Linked) (linked' : d.Linked)
    (requests : m.Requests request request') :
    m.Outcomes (Abreast m quotes) (c.lowerRequest request) (d.lowerRequest request') := by
  unfold lowerRequest
  rcases (plan_moved abreast.toAlike requests).cases with
    ⟨p, p', planned, planned', plans⟩ | ⟨e, e', refused, refused', errors⟩
  · rw [planned, planned']
    have listed : ∀ carrier ∈ p.carriers, carrier ∈ c.carriers.carriers := fun carrier member =>
      (CarrierTable.mem_of_resolve (plan_ok planned).2.1 member).1
    have asked := (plan_ok planned).1
    have asked' := (plan_ok planned').1
    have placed : m.Outcomes (Abreast m quotes) (c.positionAll (approach request) p.carriers)
        (d.positionAll (approach request') p'.carriers) := by
      rw [plans.carriers]
      by_cases bare : p.carriers = []
      · rw [bare]
        exact .ok abreast
      · rw [approach_moved requests.needle (asked ▸ asked' ▸ plans.direction bare)]
        exact abreast_positionAll abreast linked linked' listed
    exact (checkPlan_moved abreast.toAlike plans).bind fun _ _ _ =>
      placed.bind fun _ _ abreast => .ok (perform_moved abreast plans)
  · rw [refused, refused']
    exact .error errors

/-! ## Lines -/

end Context

namespace Motion

/-- A command and its counterpart. -/
inductive Commands (m : Motion) : Command → Command → Prop
  | rack (target : Int) : Commands m (.rack target) (.rack (m.racking target))
  | loops {request request' : Request} (requests : m.Requests request request') :
    Commands m (.loops request) (.loops request')
  | other {command : Command} (still : ∀ target, command ≠ .rack target)
      (quiet : ∀ request, command ≠ .loops request) : Commands m command command

/-- A line and its counterpart: they ask for corresponding things, and quoting them is related. -/
structure Lines (m : Motion) (quotes : Text → Text → Prop) (line line' : Text) : Prop where
  commands : m.Outcomes (Option.Rel m.Commands) (Command.ofLine line) (Command.ofLine line')
  comment : (cutComment line').2.isSome = (cutComment line).2.isSome
  quote : quotes line line'
  empty : line'.isEmpty = line.isEmpty

end Motion

namespace Context

variable {c d : Context}

theorem execute_moved {command command' : Command} (abreast : c.Abreast m quotes d)
    (linked : c.Linked) (linked' : d.Linked) (commands : m.Commands command command')
    (number number' : Nat) :
    m.Outcomes (Abreast m quotes) (c.execute number command) (d.execute number' command') := by
  cases commands with
  | rack target => exact .ok (abreast_rack abreast target)
  | loops requests => exact lowerRequest_moved abreast linked linked' requests
  | other still quiet =>
    cases command with
    | rack target => exact absurd rfl (still target)
    | loops request => exact absurd rfl (quiet request)
    | bringIn names =>
      exact abreast_forEach (fun _ _ name abreast => abreast_bringIn abreast name) abreast
    | bringOut names =>
      exact abreast_forEach (fun _ _ name abreast => abreast_bringOut abreast name) abreast
    | vendor word => exact .ok (abreast.warn _ _ _ _)
    | _ => exact .ok abreast

theorem Alike.beginLine {line line' : Text} (alike : c.Alike m quotes d) (quote : quotes line line')
    (empty : line'.isEmpty = line.isEmpty) :
    { c with output := c.output.beginLine line }.Abreast m quotes
      { d with output := d.output.beginLine line' } := by
  refine { alike with slots := alike.slots, next := ?_ }
  simp only [Output.beginLine, empty]
  cases line.isEmpty with
  | true => exact .none
  | false => exact .some quote

theorem lowerLine_moved {line line' : Text} (alike : c.Alike m quotes d) (linked : c.Linked)
    (linked' : d.Linked) (lines : m.Lines quotes line line') (number number' : Nat) :
    m.Outcomes (Alike m quotes) (c.lowerLine number line) (d.lowerLine number' line') := by
  have begun := alike.beginLine lines.quote lines.empty
  have linkedB := linked.beginLine line
  have linkedB' := linked'.beginLine line'
  unfold lowerLine
  rcases lines.commands.cases with ⟨a, b, read, read', commands⟩ | ⟨e, e', bad, bad', errors⟩
  · rw [read, read']
    cases commands with
    | none =>
      simp only [lines.comment]
      cases (cutComment line).2.isSome with
      | true => exact .ok (begun.emit (.remark .sourceComment)).toAlike
      | false => exact .ok begun.toAlike
    | some commands =>
      have done := execute_moved begun linkedB linkedB' commands number number'
      rcases done.cases with ⟨_, _, ok, ok', abreast⟩ | ⟨_, _, refused, refused', errors⟩
      · simp only [ok, ok']
        exact .ok abreast.toAlike
      · simp only [refused, refused']
        exact .error errors
  · rw [bad, bad']
    exact .error errors

/-- Lowering corresponding lines keeps two lowerings alike, or fails in both at the same one. -/
theorem lowerLines_moved {lines lines' : List Text} (alike : c.Alike m quotes d) (linked : c.Linked)
    (linked' : d.Linked) (all : List.Forall₂ (m.Lines quotes) lines lines') (number number' : Nat) :
    (∃ c' d', c.lowerLines number lines = .ok c' ∧ d.lowerLines number' lines' = .ok d' ∧
        c'.Alike m quotes d') ∨
      ∃ place e e' warnings warnings',
        c.lowerLines number lines = .error ⟨⟨number + place, e⟩, warnings⟩ ∧
        d.lowerLines number' lines' = .error ⟨⟨number' + place, e'⟩, warnings'⟩ ∧
        m.Errors e e' := by
  induction all generalizing c d number number' with
  | nil => exact .inl ⟨c, d, rfl, rfl, alike⟩
  | @cons line line' rest rest' first _ ih =>
    unfold lowerLines
    rcases (lowerLine_moved alike linked linked' first number number').cases with
      ⟨c₁, d₁, done, done', alike₁⟩ | ⟨e, e', refused, refused', errors⟩
    · rw [done, done']
      rcases ih alike₁ (leads_lowerLine linked done).linked (leads_lowerLine linked' done').linked
        (number + 1) (number' + 1) with ran | ⟨place, e, e', w, w', stopped, stopped', errors⟩
      · exact .inl ran
      · refine .inr ⟨place + 1, e, e', w, w', ?_, ?_, errors⟩
        · simp only [stopped, Nat.add_assoc, Nat.add_comm 1 place]
        · simp only [stopped', Nat.add_assoc, Nat.add_comm 1 place]
    · rw [refused, refused']
      exact .inr ⟨0, e, e', _, _, rfl, rfl, errors⟩

end Context

end

end Knitout
