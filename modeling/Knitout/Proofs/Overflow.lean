import Knitout.Proofs.Confined

/-!
The same lowering on 64-bit words: every sum and every difference is a word, or there is no result
(`lower?`). In a state that is in range nothing overflows (`Context.lowerLine?_eq`), and every state
of a lowering is in range, so the lowering on words comes to what the lowering on integers comes to
(`lower?_eq`).
-/

namespace Knitout

/-- A number that fits a word. -/
def word? (x : Int) : Option Int :=
  if isWord x then some x else none

theorem word?_eq {x : Int} (small : x.natAbs ≤ 4000000) : word? x = some x :=
  if_pos (isWord_of_natAbs small)

theorem Needle.wordColumn?_eq {needle : Needle} {racking : Int}
    (small : (needle.column racking).natAbs ≤ 4000000) :
    needle.wordColumn? racking = some (needle.column racking) :=
  if_pos (isWord_of_natAbs small)

namespace Location

def wordColumn? (location : Location) (racking : Int) : Option Int := do
  let column ← location.needle.wordColumn? racking
  word? (column + location.direction.feederOffset)

def advance? (location : Location) (heading : Direction) : Option Location :=
  if location.direction = heading then do
    let index ← word? (location.needle.index + heading.step)
    some { location with needle := { location.needle with index } }
  else some { location with direction := heading }

variable {location : Location} {racking : Int}

theorem wordColumn?_eq (bounds : InBounds (location.column racking)) :
    location.wordColumn? racking = some (location.column racking) := by
  obtain ⟨low, high⟩ := bounds
  have beside := location.column_bounds racking
  unfold maxNeedleIndex maxRacking at low high
  have needle : location.needle.wordColumn? racking = some (location.needle.column racking) :=
    Needle.wordColumn?_eq (by omega)
  simp only [wordColumn?, needle, Option.bind_eq_bind, Option.bind_some]
  exact word?_eq (show (location.column racking).natAbs ≤ 4000000 by omega)

theorem advance?_eq (small : location.needle.index.natAbs ≤ maxNeedleIndex + maxRacking + 1)
    (heading : Direction) : location.advance? heading = some (location.advance heading) := by
  have index : word? (location.needle.index + heading.step) =
      some (location.needle.index + heading.step) := by
    refine word?_eq ?_
    have one := heading.natAbs_step
    unfold maxNeedleIndex maxRacking at small
    omega
  unfold advance? advance
  by_cases same : location.direction = heading
  · simp [same, index]
  · simp [same]

end Location

/-- At every needle the column is computed anew. -/
def walk? (racking : Int) (yarn : Yarn) (heading : Direction) :
    Nat → Location → Output → Option (Location × Output)
  | 0, location, output => do
    let _ ← location.wordColumn? racking
    some (location, output)
  | n + 1, location, output => do
    let _ ← location.wordColumn? racking
    let next ← location.advance? heading
    walk? racking yarn heading n next (output.emit (.operation (.miss heading next.needle yarn)))

theorem walk?_eq {racking : Int} {heading : Direction} {n : Nat} {location : Location}
    {output : Output} (yarn : Yarn) (racked : racking.natAbs ≤ maxRacking)
    (within : location.Within racking)
    (goes : location.GoesOn racking heading n) :
    walk? racking yarn heading n location output = some (walk yarn heading n location output) := by
  induction n generalizing location output with
  | zero =>
    simp only [walk?, walk, Location.wordColumn?_eq (within.inBounds racked)]
    rfl
  | succ n ih =>
    obtain ⟨inside, rest⟩ := within.advance goes
    simp only [walk?, walk, Location.wordColumn?_eq (within.inBounds racked),
      Location.advance?_eq (within.index racked), Option.bind_eq_bind, Option.bind_some]
    exact ih inside rest

namespace Context

/-! ## In and out -/

def bringOut? (c : Context) (name : Text) : Option (Except LoweringError Context) :=
  match c.carriers.lookup name with
  | .error e => some (.error e)
  | .ok carrier =>
    match c.stages.get? carrier.yarn with
    | some (.active parked _) => do
      let column ← parked.needle.wordColumn? c.racking
      let column ← word? (column + parked.direction.step)
      let out := Operation.bringOut parked.direction.opposite (.front column) carrier.yarn
      some (.ok { c.emit (.operation out) with stages := c.stages.erase carrier.yarn })
    | some (.pending _) => some (.error (.outPending name))
    | none => some (.error (.outAbsent name))

/-! ## Racking -/

def onFrontBed? (racking : Int) (location : Location) : Option Location :=
  match location.needle.bed with
  | .front => some location
  | .back => do
    let column ← location.needle.wordColumn? racking
    some { location with needle := .front column }

/-- Where all feeders in action are put on the front bed. -/
def parkOnFrontBed? (c : Context) : Option (List Location) :=
  c.stages.entries.filterMapM fun
    | (_, .pending _) => some none
    | (_, .active parked _) => (onFrontBed? c.racking parked).map some

def rackStep? (c : Context) (target : Int) : Option Context := do
  let _ ← c.parkOnFrontBed?
  let distance ← word? (target - c.racking)
  let racking ← word? (c.racking + distance.sign)
  let parked := c.relocate (onFrontBed c.racking) id
  some ({ parked with racking }.emit (.operation (.rack racking)))

def rackSteps? (c : Context) (target : Int) : Nat → Option Context
  | 0 => some c
  | n + 1 => do
    let c ← c.rackStep? target
    c.rackSteps? target n

def rack? (c : Context) (target : Int) : Option Context :=
  if target = c.racking then some (c.emit (.remark .rackNotNeeded))
  else c.rackSteps? target (target - c.racking).natAbs

/-! ## Into place -/

def walkTo? (c : Context) (carrier : Carrier) (parked attached goal : Location) :
    Option Context := do
  let there ← goal.wordColumn? c.racking
  let here ← parked.wordColumn? c.racking
  let heading : Direction := if here < there then .increasing else .decreasing
  let (location, output) ← walk? c.racking carrier.yarn heading (there - here).natAbs parked c.output
  some ({ c with output }.setStage carrier (.active location attached))

def position? (c : Context) (goal : Location) (carrier : Carrier) :
    Option (Except LoweringError Context) :=
  match c.stages.get? carrier.yarn with
  | none => some (.error (.carrierNotIn carrier.name))
  | some (.pending slot) => do
    let column ← goal.needle.wordColumn? c.racking
    let op := Operation.bringIn goal.direction (.front column) carrier.yarn
    let output := c.output.fill slot (.operation op)
    some (.ok ({ c with output }.setStage carrier (.active goal goal)))
  | some (.active parked attached) => (c.walkTo? carrier parked attached goal).map .ok

def positionAll? (c : Context) (goal : Location) :
    List Carrier → Option (Except LoweringError Context)
  | [] => some (.ok c)
  | carrier :: rest => do
    match ← c.position? goal carrier with
    | .error e => some (.error e)
    | .ok c => c.positionAll? goal rest

/-! ## Actions -/

def checkAligned? (c : Context) (needle target : Needle) : Option (Except LoweringError Unit) :=
  if needle.bed = target.bed then some (.error (.transferSameBed needle target))
  else do
    let column ← needle.wordColumn? c.racking
    let column' ← target.wordColumn? c.racking
    if column ≠ column' then some (.error (.transferMisaligned needle target c.racking))
    else some (.ok ())

def checkPlan? (c : Context) (p : Plan) : Option (Except LoweringError Unit) :=
  match p.action with
  | .tuck =>
    some (if 1 < p.carriers.length then .error (.multiCarrierTuck p.carriers.length) else .ok ())
  | .split target | .transfer target => c.checkAligned? p.request.needle target
  | _ => some (.ok ())

def approach? (request : Request) : Option Location := do
  let index ← word? (request.needle.index - request.direction.step)
  some ⟨{ request.needle with index }, request.direction⟩

/-- How far it is from the last loop of a carrier to a needle is computed with floating point, from
two columns. -/
def strand? (c : Context) (needle : Needle) (carrier : Carrier) : Option Strand :=
  match c.stages.get? carrier.yarn with
  | some (.active _ attached) => do
    let here ← needle.wordColumn? c.racking
    let there ← attached.needle.wordColumn? c.racking
    some ⟨carrier.yarn, .ofNat (here - there).natAbs⟩
  | _ => some ⟨carrier.yarn, .ofNat 0⟩

/-- The strands are computed for every action. -/
def perform? (c : Context) (p : Plan) : Option Context := do
  let _ ← p.carriers.mapM (c.strand? p.request.needle)
  some (c.perform p)

def lowerRequest? (c : Context) (request : Request) : Option (Except LoweringError Context) :=
  match c.plan request with
  | .error e => some (.error e)
  | .ok p => do
    match ← c.checkPlan? p with
    | .error e => some (.error e)
    | .ok () =>
      let goal ← approach? request
      match ← c.positionAll? goal p.carriers with
      | .error e => some (.error e)
      | .ok c => (c.perform? p).map .ok

/-! ## Lines -/

def forEach? (step? : Context → Text → Option (Except LoweringError Context)) (c : Context) :
    List Text → Option (Except LoweringError Context)
  | [] => some (.ok c)
  | name :: rest => do
    match ← step? c name with
    | .error e => some (.error e)
    | .ok c => c.forEach? step? rest

def execute? (c : Context) (line : Nat) : Command → Option (Except LoweringError Context)
  | .bringOut names => c.forEach? bringOut? names
  | .rack target => (c.rack? target).map .ok
  | .loops request => c.lowerRequest? request
  | command => some (c.execute line command)

def lowerLine? (c : Context) (line : Nat) (source : Text) :
    Option (Except LoweringError Context) :=
  let begun := { c with output := c.output.beginLine source }
  match Command.ofLine source with
  | .ok (some command) => begun.execute? line command
  | _ => some (c.lowerLine line source)

def lowerLines? (c : Context) (line : Nat) : List Text → Option (Except LowerFailure Context)
  | [] => some (.ok c)
  | source :: rest => do
    match ← c.lowerLine? line source with
    | .error e => some (.error ⟨⟨line, e⟩, c.warnings⟩)
    | .ok c => c.lowerLines? (line + 1) rest

end Context

def lowerBody? (headers : Headers) (body : List Text) (firstLine : Nat) :
    Option (Except LowerFailure Lowered) :=
  match CarrierTable.ofNames headers.carriers with
  | .error e => some (.error ⟨⟨firstLine - 1, e⟩, []⟩)
  | .ok carriers => do
    match ← (Context.start carriers).lowerLines? firstLine body with
    | .error failure => some (.error failure)
    | .ok c => some (.ok (c.finish headers))

/-- Lower a file on words. -/
def lower? (source : Text) : Option (Except LowerFailure Lowered) :=
  match Headers.ofLines (lines source) with
  | .error e => some (.error ⟨e, []⟩)
  | .ok block => do
    match ← lowerBody? block.headers ((lines source).drop block.bodyStart) (block.bodyStart + 1) with
    | .error failure => some (.error { failure with warnings := block.warnings ++ failure.warnings })
    | .ok lowered => some (.ok { lowered with warnings := block.warnings ++ lowered.warnings })

/-! ## Nothing overflows -/

/-- Every entry of a table is found at its key. -/
theorem Table.get?_of_mem {κ ν : Type} [Ord κ] [Std.TransOrd κ] {t : Table κ ν} {key : κ}
    {value : ν} (member : (key, value) ∈ t.entries) : t.get? key = some value := by
  obtain ⟨entries, sorted⟩ := t
  show findEntry key entries = some value
  induction entries with
  | nil => cases member
  | cons entry rest ih =>
    obtain ⟨first, others⟩ := List.pairwise_cons.1 sorted
    rcases List.mem_cons.1 member with rfl | later
    · exact if_pos Std.ReflCmp.compare_self
    · have before : compare key entry.1 = .gt := Std.OrientedCmp.gt_of_lt (first _ later)
      rw [findEntry, if_neg (by rw [before]; decide)]
      exact ih others later

namespace Context

variable {fine : Text → Prop} {c : Context} {carrier : Carrier} {goal : Location}
  {request : Request} {p : Plan}

theorem needleColumn?_eq {location : Location} (within : location.Within c.racking)
    (racked : c.racking.natAbs ≤ maxRacking) : location.needle.wordColumn? c.racking =
      some (location.needle.column c.racking) := by
  obtain ⟨low, high⟩ := within.inBounds racked
  have beside := location.column_bounds c.racking
  unfold maxNeedleIndex maxRacking at low high
  exact Needle.wordColumn?_eq (by omega)

/-- The column of a needle beside one of the source. -/
theorem nearColumn?_eq {needle : Needle} (near : needle.index.natAbs ≤ maxNeedleIndex + 1)
    (racked : c.racking.natAbs ≤ maxRacking) :
    needle.wordColumn? c.racking = some (needle.column c.racking) := by
  have shift := Location.natAbs_needle_column needle c.racking
  unfold maxNeedleIndex at near
  unfold maxRacking at racked
  exact Needle.wordColumn?_eq (by omega)

theorem bringOut?_eq (ranged : c.Ranged fine) (name : Text) :
    c.bringOut? name = some (c.bringOut name) := by
  unfold bringOut? bringOut
  cases c.carriers.lookup name with
  | error e => rfl
  | ok carrier =>
    simp only [bind, Except.bind]
    cases stage : c.stages.get? carrier.yarn with
    | none => rfl
    | some stage' =>
      cases stage' with
      | pending slot => rfl
      | active parked attached =>
        have within := (ranged.feeders _ _ _ stage).1
        have past : (parked.needle.column c.racking + parked.direction.step).natAbs ≤ 4000000 := by
          obtain ⟨low, high⟩ := within.inBounds ranged.racked
          have beside := parked.column_bounds c.racking
          have one := parked.direction.natAbs_step
          unfold maxNeedleIndex maxRacking at low high
          omega
        simp only [needleColumn?_eq within ranged.racked, word?_eq past, Option.bind_some]

/-! ### Racking -/

theorem onFrontBed?_eq {location : Location} (within : location.Within c.racking)
    (racked : c.racking.natAbs ≤ maxRacking) :
    onFrontBed? c.racking location = some (onFrontBed c.racking location) := by
  unfold onFrontBed? onFrontBed
  cases location.needle.bed with
  | front => rfl
  | back => simp [needleColumn?_eq within racked]

theorem isSome_parkOnFrontBed? (ranged : c.Ranged fine) :
    ∃ parked, c.parkOnFrontBed? = some parked := by
  have known : ∀ entry ∈ c.stages.entries, c.stages.get? entry.1 = some entry.2 :=
    fun entry member => Table.get?_of_mem member
  unfold parkOnFrontBed?
  generalize c.stages.entries = entries at known
  induction entries with
  | nil => exact ⟨[], rfl⟩
  | cons entry rest ih =>
    obtain ⟨parked, others⟩ := ih fun other member => known other (List.mem_cons_of_mem entry member)
    have held := known entry (by simp)
    obtain ⟨yarn, stage⟩ := entry
    cases stage with
    | pending slot => exact ⟨parked, by simp [List.filterMapM_cons, others]⟩
    | active here attached =>
      have within := (ranged.feeders yarn here attached held).1
      refine ⟨onFrontBed c.racking here :: parked, ?_⟩
      simp [List.filterMapM_cons, others, onFrontBed?_eq within ranged.racked]

theorem rackStep?_eq {target step : Int} (ranged : c.Ranged fine)
    (small : target.natAbs ≤ maxRacking) (one : step.natAbs = 1) (sign : (target - c.racking).sign = step) :
    c.rackStep? target = some (c.rackStep step) := by
  obtain ⟨parked, parks⟩ := isSome_parkOnFrontBed? ranged
  have here := ranged.racked
  have distance : word? (target - c.racking) = some (target - c.racking) :=
    word?_eq (by unfold maxRacking at here small; omega)
  have racking : word? (c.racking + step) = some (c.racking + step) :=
    word?_eq (by unfold maxRacking at here; omega)
  simp only [rackStep?, parks, distance, sign, racking, Option.bind_eq_bind, Option.bind_some]
  rfl

/-- The distance to the target is computed at every step, and always points the same way. -/
theorem rackSteps?_eq {target step : Int} {n : Nat} (ranged : c.Ranged fine)
    (small : target.natAbs ≤ maxRacking) (one : step = 1 ∨ step = -1)
    (away : target - c.racking = n * step) :
    c.rackSteps? target n = some (c.rackSteps step n) := by
  induction n generalizing c with
  | zero => rfl
  | succ n ih =>
    have sign : (target - c.racking).sign = step := by
      rw [away]
      rcases one with rfl | rfl
      · exact Int.sign_eq_one_of_pos (by omega)
      · exact Int.sign_eq_neg_one_of_neg (by omega)
    have here := ranged.racked
    have unit : step.natAbs = 1 := Int.natAbs_eq_iff.2 one
    have next : (c.racking + step).natAbs ≤ maxRacking := by
      rcases one with rfl | rfl <;> omega
    have nextRanged : (c.rackStep step).Ranged fine := ranged_rackStep ranged unit next
    have rest : target - (c.rackStep step).racking = n * step := by
      show target - (c.racking + step) = n * step
      rcases one with rfl | rfl <;> omega
    simp only [rackSteps?, rackSteps, rackStep?_eq ranged small unit sign, Option.bind_eq_bind,
      Option.bind_some]
    exact ih nextRanged rest

theorem rack?_eq {target : Int} (ranged : c.Ranged fine) (small : target.natAbs ≤ maxRacking) :
    c.rack? target = some (c.rack target) := by
  unfold rack? rack
  by_cases there : target = c.racking
  · rw [if_pos there, if_pos there]
  · rw [if_neg there, if_neg there]
    refine rackSteps?_eq ranged small ?_ ?_
    · rcases Int.lt_or_gt_of_ne (show target - c.racking ≠ 0 by omega) with low | high
      · exact .inr (Int.sign_eq_neg_one_of_neg low)
      · exact .inl (Int.sign_eq_one_of_pos high)
    · rw [Int.mul_comm, Int.sign_mul_natAbs]

/-! ### Into place -/

theorem walkTo?_eq {parked attached : Location} (within : parked.Within c.racking)
    (racked : c.racking.natAbs ≤ maxRacking) (worked : Workable c.racking (goal.column c.racking)) :
    c.walkTo? carrier parked attached goal = some (c.walkTo carrier parked attached goal) := by
  have walked {output : Output} := @walk?_eq _ _ _ _ output carrier.yarn racked within
    (parked.goesOn_of_workable worked racked)
  have ahead : (if parked.column c.racking < goal.column c.racking then Direction.increasing
      else .decreasing) =
        if 0 < goal.column c.racking - parked.column c.racking then .increasing else .decreasing := by
    simp only [Int.sub_pos]
  simp only [walkTo?, Location.wordColumn?_eq (worked.inBounds racked),
    Location.wordColumn?_eq (within.inBounds racked), ahead, walked, Option.bind_eq_bind,
    Option.bind_some]
  rfl

theorem position?_eq (ranged : c.Ranged fine) (worked : Workable c.racking (goal.column c.racking))
    (carrier : Carrier) : c.position? goal carrier = some (c.position goal carrier) := by
  unfold position? position
  cases stage : c.stages.get? carrier.yarn with
  | none => rfl
  | some stage' =>
    cases stage' with
    | pending slot =>
      have within : goal.Within c.racking := .of_workable worked ranged.racked _
      simp only [needleColumn?_eq within ranged.racked, Option.bind_eq_bind, Option.bind_some]
      rfl
    | active parked attached =>
      simp only [walkTo?_eq (ranged.feeders _ _ _ stage).1 ranged.racked worked, Option.map_some]

theorem positionAll?_eq {carriers : List Carrier} (ranged : c.Ranged fine) (linked : c.Linked)
    (listed : ∀ carrier ∈ carriers, carrier ∈ c.carriers.carriers)
    (worked : Workable c.racking (goal.column c.racking)) (near : goal.Nearby) :
    c.positionAll? goal carriers = some (c.positionAll goal carriers) := by
  induction carriers generalizing c with
  | nil => rfl
  | cons first rest ih =>
    have here := listed first (by simp)
    simp only [positionAll?, positionAll, position?_eq ranged worked, Option.bind_eq_bind,
      Option.bind_some]
    cases placed : c.position goal first with
    | error e => rfl
    | ok d =>
      obtain ⟨rangedD, same⟩ := ranged_position ranged linked here worked near placed
      have led := (leads_position linked here placed).1
      refine ih rangedD led.linked ?_ (by rwa [same])
      intro other member
      rw [led.carriers]
      exact listed other (List.mem_cons_of_mem first member)

/-! ### Actions -/

theorem checkAligned?_eq {needle target : Needle} (racked : c.racking.natAbs ≤ maxRacking)
    (near : needle.index.natAbs ≤ maxNeedleIndex) (near' : target.index.natAbs ≤ maxNeedleIndex) :
    c.checkAligned? needle target = some (c.checkAligned needle target) := by
  have column := nearColumn?_eq (Nat.le_succ_of_le near) racked
  have column' := nearColumn?_eq (Nat.le_succ_of_le near') racked
  unfold checkAligned? checkAligned
  by_cases same : needle.bed = target.bed
  · rw [if_pos same, if_pos same]
  · simp only [if_neg same, column, column', Option.bind_eq_bind, Option.bind_some]
    split <;> rfl

theorem checkPlan?_eq (planned : c.plan request = .ok p) (near : request.Near)
    (racked : c.racking.natAbs ≤ maxRacking) : c.checkPlan? p = some (c.checkPlan p) := by
  obtain ⟨_, _, splits, transfers⟩ := plan_action planned
  obtain ⟨rfl, _, _, _⟩ := plan_ok planned
  unfold checkPlan? checkPlan
  cases action : p.action with
  | split target =>
    exact checkAligned?_eq racked near.needle (near.target target (splits target action).2)
  | transfer target =>
    exact checkAligned?_eq racked near.needle (near.target target (transfers target action))
  | _ => rfl

theorem approach?_eq (near : request.Near) : approach? request = some (approach request) := by
  have one := request.direction.natAbs_step
  have bound := near.needle
  have index : word? (request.needle.index - request.direction.step) =
      some (request.needle.index - request.direction.step) :=
    word?_eq (by unfold maxNeedleIndex at bound; omega)
  simp only [approach?, index, Option.bind_eq_bind, Option.bind_some]
  rfl

theorem strand?_eq {needle : Needle} (ranged : c.Ranged fine)
    (near : needle.index.natAbs ≤ maxNeedleIndex) (carrier : Carrier) :
    c.strand? needle carrier = some (c.strand needle carrier) := by
  unfold strand? strand
  cases stage : c.stages.get? carrier.yarn with
  | none => rfl
  | some stage' =>
    cases stage' with
    | pending slot => rfl
    | active parked attached =>
      have beside := (ranged.feeders _ _ _ stage).2
      simp only [nearColumn?_eq (Nat.le_succ_of_le near) ranged.racked,
        nearColumn?_eq beside ranged.racked, Option.bind_eq_bind, Option.bind_some]

theorem perform?_eq (ranged : c.Ranged fine)
    (near : p.request.needle.index.natAbs ≤ maxNeedleIndex) :
    c.perform? p = some (c.perform p) := by
  have strands : p.carriers.mapM (c.strand? p.request.needle) =
      some (p.carriers.map (c.strand p.request.needle)) := by
    rw [funext fun carrier => strand?_eq ranged near carrier]
    exact List.mapM_pure
  simp only [perform?, strands, Option.bind_eq_bind, Option.bind_some]

theorem lowerRequest?_eq (ranged : c.Ranged fine) (linked : c.Linked) (near : request.Near) :
    c.lowerRequest? request = some (c.lowerRequest request) := by
  unfold lowerRequest? lowerRequest
  cases planned : c.plan request with
  | error e => rfl
  | ok p =>
    have asked := (plan_ok planned).1
    have listed : ∀ carrier ∈ p.carriers, carrier ∈ c.carriers.carriers := fun carrier member =>
      (CarrierTable.mem_of_resolve (plan_ok planned).2.1 member).1
    have worked := workable_approach near.needle c.racking
    have beside := approach_nearby near.needle
    simp only [checkPlan?_eq planned near ranged.racked, bind, Except.bind, Option.bind_some]
    cases c.checkPlan p with
    | error e => rfl
    | ok _ =>
      simp only [approach?_eq near, positionAll?_eq ranged linked listed worked beside,
        Option.bind_some]
      cases placed : c.positionAll (approach request) p.carriers with
      | error e => rfl
      | ok d =>
        have rangedD := (ranged_positionAll ranged linked listed worked beside placed).1
        simp only [perform?_eq rangedD (asked ▸ near.needle), Option.map_some]

/-! ### Lines -/

theorem forEach?_eq {step : Context → Text → Except LoweringError Context}
    {step? : Context → Text → Option (Except LoweringError Context)} {names : List Text}
    (each : ∀ d name, d.Ranged fine → step? d name = some (step d name))
    (keeps : ∀ d d' name, d.Ranged fine → step d name = .ok d' → d'.Ranged fine)
    (ranged : c.Ranged fine) : c.forEach? step? names = some (c.forEach step names) := by
  induction names generalizing c with
  | nil => rfl
  | cons name rest ih =>
    simp only [forEach?, forEach, each c name ranged, Option.bind_eq_bind, Option.bind_some]
    cases first : step c name with
    | error e => rfl
    | ok d => exact ih (keeps c d name ranged first)

/-- Lowering a line in a state that is in range overflows nowhere. -/
theorem lowerLine?_eq (ranged : c.Ranged fine) (linked : c.Linked) (number : Nat) {source : Text}
    (whole : fine source) : c.lowerLine? number source = some (c.lowerLine number source) := by
  have rangedB : { c with output := c.output.beginLine source }.Ranged fine :=
    ranged.withOutput (ranged.output.beginLine whole)
  have linkedB := linked.beginLine source
  unfold lowerLine? lowerLine
  cases read : Command.ofLine source with
  | error e => rfl
  | ok command? =>
    cases command? with
    | none => rfl
    | some command =>
      cases command with
      | bringOut names =>
        exact forEach?_eq (fun _ name ranged => bringOut?_eq ranged name)
          (fun _ _ _ => ranged_bringOut) rangedB
      | rack target =>
        exact congrArg (Option.map Except.ok) (rack?_eq rangedB (Command.near_rack_ofLine read))
      | loops request =>
        obtain ⟨near, nearTarget⟩ := Command.near_ofLine read
        exact lowerRequest?_eq rangedB linkedB ⟨near, nearTarget⟩
      | _ => rfl

theorem lowerLines?_eq {number : Nat} {lines : List Text} (ranged : c.Ranged fine)
    (linked : c.Linked) (whole : ∀ line ∈ lines, fine line) :
    c.lowerLines? number lines = some (c.lowerLines number lines) := by
  induction lines generalizing c number with
  | nil => rfl
  | cons source rest ih =>
    have here := whole source (by simp)
    simp only [lowerLines?, lowerLines, lowerLine?_eq ranged linked number here,
      Option.bind_eq_bind, Option.bind_some]
    cases step : c.lowerLine number source with
    | error e => rfl
    | ok d =>
      exact ih (ranged_lowerLine ranged linked here step) (leads_lowerLine linked step).linked
        fun line member => whole line (List.mem_cons_of_mem source member)

end Context

/-- No computation of a lowering overflows. -/
theorem lower?_eq (source : Text) : lower? source = some (lower source) := by
  unfold lower? lower lowerLines
  cases Headers.ofLines (lines source) with
  | error e => rfl
  | ok block =>
    have body : lowerBody? block.headers ((lines source).drop block.bodyStart)
        (block.bodyStart + 1) = some (lowerBody block.headers
          ((lines source).drop block.bodyStart) (block.bodyStart + 1)) := by
      unfold lowerBody? lowerBody
      cases made : CarrierTable.ofNames block.headers.carriers with
      | error e => rfl
      | ok t =>
        have whole : ∀ line ∈ (lines source).drop block.bodyStart, '\n' ∉ line :=
          fun line member => newline_not_mem_lines (List.mem_of_mem_drop member)
        have distinct := (CarrierTable.distinct_ofNames made).2.2
        simp only [Context.lowerLines?_eq (.start t) (.start distinct) whole,
          Option.bind_eq_bind, Option.bind_some]
        cases (Context.start t).lowerLines (block.bodyStart + 1)
          ((lines source).drop block.bodyStart) <;> rfl
    simp only [body, Option.bind_eq_bind, Option.bind_some]
    cases lowerBody block.headers ((lines source).drop block.bodyStart) (block.bodyStart + 1) <;> rfl

end Knitout
