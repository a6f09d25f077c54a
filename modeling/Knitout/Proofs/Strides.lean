import Knitout.Proofs.Reaching

/-!
How a feeder is walked into place, miss by miss. Deciding on the way anew before each miss
(`strideTo?`) comes to the same as deciding once and counting: a miss brings the feeder one column
closer (`Location.closer_of_turn?`), so the walk comes to an end, and it never turns round. The
machine accepts each of the misses (`State.approaches_misses`). Main statement:
`feeders_walk_straight`.
-/

namespace Knitout

/-! ## The way to a column -/

namespace Location

/-- The way to a column, unless the feeder is there. -/
def turn? (location : Location) (racking target : Int) : Option Direction :=
  match compare (location.column racking) target with
  | .lt => some .increasing
  | .eq => none
  | .gt => some .decreasing

variable {location : Location} {racking target : Int} {heading : Direction}

theorem turn?_of_eq (there : location.column racking = target) :
    location.turn? racking target = none := by
  simp [turn?, there]

/-- It is the way along which there are columns to go. -/
theorem turn?_eq_some_iff : location.turn? racking target = some heading ↔
    ∃ n : Nat, target = location.column racking + (n + 1 : Nat) * heading.step := by
  unfold turn?
  constructor
  · intro turns
    cases order : compare (location.column racking) target with
    | lt =>
      rw [order] at turns
      cases turns
      have less := Int.compare_eq_lt.1 order
      refine ⟨(target - location.column racking).natAbs - 1, ?_⟩
      simp only [Direction.step]
      omega
    | eq =>
      rw [order] at turns
      cases turns
    | gt =>
      rw [order] at turns
      cases turns
      have greater := Int.compare_eq_gt.1 order
      refine ⟨(target - location.column racking).natAbs - 1, ?_⟩
      simp only [Direction.step]
      omega
  · rintro ⟨n, ahead⟩
    cases heading with
    | increasing =>
      have less : location.column racking < target := by
        simp only [Direction.step] at ahead
        omega
      rw [Int.compare_eq_lt.2 less]
    | decreasing =>
      have greater : target < location.column racking := by
        simp only [Direction.step] at ahead
        omega
      rw [Int.compare_eq_gt.2 greater]

/-- A miss on the way brings the feeder one column closer. -/
theorem closer_of_turn? (turns : location.turn? racking target = some heading) :
    (target - (location.advance heading).column racking).natAbs + 1 =
      (target - location.column racking).natAbs := by
  obtain ⟨n, rfl⟩ := turn?_eq_some_iff.1 turns
  rw [location.column_advance]
  cases heading <;> simp only [Direction.step] <;> omega

/-- The misses of a walk. -/
def misses (yarn : Yarn) (heading : Direction) : Nat → Location → List Operation
  | 0, _ => []
  | n + 1, location =>
    let next := location.advance heading
    .miss heading next.needle yarn :: misses yarn heading n next

theorem length_misses (yarn : Yarn) (heading : Direction) (n : Nat) (location : Location) :
    (misses yarn heading n location).length = n := by
  induction n generalizing location with
  | zero => rfl
  | succ n ih => rw [misses, List.length_cons, ih]

theorem mem_misses {yarn : Yarn} {n : Nat} {op : Operation}
    (member : op ∈ misses yarn heading n location) : ∃ needle, op = .miss heading needle yarn := by
  induction n generalizing location with
  | zero => cases member
  | succ n ih =>
    rcases List.mem_cons.1 member with rfl | later
    · exact ⟨_, rfl⟩
    · exact ih later

end Location

/-! ## Walking -/

/-- Walk until the feeder is in a column, and decide on the way anew before each miss. A walk that
would have to turn round is given up. -/
def strideTo? (yarn : Yarn) (racking target : Int) (previous : Option Direction)
    (location : Location) (output : Output) : Option (Location × Output) :=
  match _ : location.turn? racking target with
  | none => some (location, output)
  | some heading =>
    if previous.all (· = heading) then
      let next := location.advance heading
      strideTo? yarn racking target (some heading) next
        (output.emit (.operation (.miss heading next.needle yarn)))
    else none
termination_by (target - location.column racking).natAbs
decreasing_by
  have closer := Location.closer_of_turn? ‹_›
  omega

section
variable {yarn : Yarn} {racking target : Int} {heading : Direction} {n : Nat} {location : Location}

/-- Whoever decides anew before each miss walks as if the misses were counted, and does not turn
round. -/
theorem strideTo?_eq {previous : Option Direction} {output : Output}
    (ahead : target = location.column racking + n * heading.step)
    (straight : previous.all (· = heading) = true) :
    strideTo? yarn racking target previous location output =
      some (walk yarn heading n location output) := by
  -- by induction on the columns that are left; after the first miss there is a way to compare with
  induction n generalizing previous location output with
  | zero =>
    have there : location.turn? racking target = none := Location.turn?_of_eq (by simp [ahead])
    rw [strideTo?]
    split
    · rfl
    · next other turns =>
      rw [there] at turns
      cases turns
  | succ n ih =>
    have turn : location.turn? racking target = some heading :=
      Location.turn?_eq_some_iff.2 ⟨n, ahead⟩
    have ahead' : target = (location.advance heading).column racking + n * heading.step := by
      rw [location.column_advance, ahead]
      cases heading <;> simp only [Direction.step] <;> omega
    rw [strideTo?]
    split
    · next turns =>
      rw [turn] at turns
      cases turns
    · next other turns =>
      rw [turn] at turns
      cases turns
      rw [if_pos straight]
      exact ih ahead' (by simp)

/-- A walk adds its misses. -/
theorem output_walk (output : Output) : (walk yarn heading n location output).2 =
    ((location.misses yarn heading n).map Content.operation).foldl Output.emit output := by
  induction n generalizing location output with
  | zero => rfl
  | succ n ih => exact ih _

end

/-! ## The machine -/

namespace State

/-- Misses in one direction that the machine accepts one after the other. Each of them brings the
feeder one column closer to the target, and the last one brings it there. -/
inductive Approaches (yarn : Yarn) (heading : Direction) (target : Int) :
    State → List Operation → State → Prop
  | there {s : State} (arrived : s.carriers.get? yarn = some target) :
    Approaches yarn heading target s [] s
  | closer {s t u : State} {needle : Needle} {misses : List Operation} {before after : Int}
      (stood : s.carriers.get? yarn = some before)
      (accepted : s.apply (.miss heading needle yarn) = .ok t)
      (stands : t.carriers.get? yarn = some after)
      (nearer : (target - after).natAbs + 1 = (target - before).natAbs)
      (others : Approaches yarn heading target t misses u) :
    Approaches yarn heading target s (.miss heading needle yarn :: misses) u

variable {s : State} {yarn : Yarn} {heading : Direction} {n : Nat} {location : Location}

/-- A feeder that is taken to where it stands stays there. -/
theorem park_same {column : Int} (stands : s.carriers.get? yarn = some column) :
    s.park [yarn] column = s := by
  have same : s.carriers.insert yarn column = s.carriers := Table.insert_get? stands
  simp only [park, List.foldl_cons, List.foldl_nil, same]

theorem park_park (s : State) (yarn : Yarn) (first second : Int) :
    (s.park [yarn] first).park [yarn] second = s.park [yarn] second := by
  simp only [park, List.foldl_cons, List.foldl_nil, Table.insert_insert]

/-- The machine accepts the misses of a walk. -/
theorem approaches_misses {target : Int}
    (stands : s.carriers.get? yarn = some (location.column s.racking))
    (ahead : location.column s.racking + n * heading.step = target)
    (here : location.InReach s.racking) (there : target.natAbs ≤ 1100000) :
    s.Approaches yarn heading target (location.misses yarn heading n) (s.park [yarn] target) := by
  -- the target stays the same along the walk, so it is enough that the walk begins and ends in reach
  induction n generalizing s location with
  | zero =>
    have arrived : s.carriers.get? yarn = some target := by
      rw [stands, ← ahead]
      simp
    rw [park_same arrived]
    exact .there arrived
  | succ n ih =>
    let next := location.advance heading
    let t := s.park [yarn] (next.column s.racking)
    have column : next.column s.racking = location.column s.racking + heading.step :=
      location.column_advance heading s.racking
    have direction : next.direction = heading := Context.direction_advance location heading
    obtain ⟨reach, _⟩ : next.InReach s.racking ∧ _ :=
      Context.inReach_advance here (ahead.symm ▸ there)
    have waiting : s.Waiting next.needle heading [yarn] := by
      intro other member
      have behind := next.column_behind s.racking
      rw [direction] at behind
      rw [List.mem_singleton.1 member, stands]
      exact congrArg some (by omega)
    have accepted : s.apply (.miss heading next.needle yarn) = .ok t := by
      have done := apply_miss reach.inColumns waiting
      rw [← direction] at done ⊢
      exact done
    have stands' : t.carriers.get? yarn = some (next.column t.racking) := by
      rw [get?_park, if_pos (by simp)]
      rfl
    have ahead' : next.column t.racking + n * heading.step = target := by
      have same : next.column t.racking = next.column s.racking := rfl
      rw [same, column, ← ahead]
      cases heading <;> simp only [Direction.step] <;> omega
    have others := ih stands' ahead' reach
    rw [park_park] at others
    refine .closer stands accepted stands' ?_ others
    have same : next.column t.racking = next.column s.racking := rfl
    rw [same, column, ← ahead]
    cases heading <;> simp only [Direction.step] <;> omega

end State

/-! ## The walk of a feeder -/

namespace Context

/-- What getting a carrier in action to where the carriage of a request comes from does. -/
structure Walks (c d : Context) (carrier : Carrier) (parked attached : Location)
    (request : Request) (heading : Direction) (misses : List Operation) (location : Location) :
    Prop where
  position : c.position (approach request) carrier = .ok d
  /-- To decide on the way anew before each miss comes to the same, to an end and to no turn. -/
  strides : strideTo? carrier.yarn c.racking ((approach request).column c.racking) none parked
    c.output = some (location, d.output)
  output : d.output = (misses.map Content.operation).foldl Output.emit c.output
  /-- The misses go in one direction, and there are as many as there are columns in between. -/
  straight : ∀ op ∈ misses, ∃ needle, op = .miss heading needle carrier.yarn
  length : misses.length =
    (parked.column c.racking - (approach request).column c.racking).natAbs
  arrived : location.column c.racking = (approach request).column c.racking
  /-- Nothing else changes than the output and where this feeder stands. -/
  keeps : d = { c with
    output := d.output
    stages := c.stages.insert carrier.yarn (.active location attached) }
  /-- Whatever becomes of the places that are still reserved, the machine that has done all that was
  added before accepts the misses, one after the other. Nothing else moves, and the feeder then stands
  in the column where the machine wants it for the operation at the needle. -/
  accepted : ∀ final, d.output.Settles final → ∃ s t,
    State.initial.applyAll (final.before c.output.slots.size) = .ok s ∧
    final.before d.output.slots.size = final.before c.output.slots.size ++ misses ∧
    s.Approaches carrier.yarn heading ((approach request).column c.racking) misses t ∧
    t = s.park [carrier.yarn] ((approach request).column c.racking) ∧
    t.feederColumn isWord request.needle request.direction.opposite =
      .ok ((approach request).column c.racking) ∧
    t.checkApproach isWord request.needle request.direction [carrier.yarn] = .ok ()

end Context

open Context in
/-- A machine that agrees with the lowering accepts the walk. -/
theorem Mirrors.accepts_walk {final : Output} {worked : Yarn → Prop}
    {fresh : Yarn → Location → Prop} {c : Context} {s : State} {carrier : Carrier}
    {parked attached : Location} {request : Request}
    (mirrors : Mirrors final worked fresh c s) (sound : c.Sound)
    (active : c.stages.get? carrier.yarn = some (.active parked attached))
    (near : request.needle.index.natAbs ≤ maxNeedleIndex) {heading : Direction} {n : Nat}
    (ahead : parked.column c.racking + n * heading.step = (approach request).column c.racking) :
    let goal := (approach request).column c.racking
    let t := s.park [carrier.yarn] goal
    s.Approaches carrier.yarn heading goal (parked.misses carrier.yarn heading n) t ∧
      t.feederColumn isWord request.needle request.direction.opposite = .ok goal ∧
      t.checkApproach isWord request.needle request.direction [carrier.yarn] = .ok () := by
  intro goal t
  have racking : s.racking = c.racking := mirrors.racking
  have stands : s.carriers.get? carrier.yarn = some (parked.column s.racking) := by
    rw [(mirrors.yarns carrier.yarn).column active, racking]
  have here : parked.InReach s.racking := racking ▸ (sound.active _ _ _ active).1
  have there : goal.natAbs ≤ 1100000 := (approach_nearby near).inReach sound.racked
  have passes : (Location.mk request.needle request.direction).Nearby := Nat.le_succ_of_le near
  have fits : request.needle.InColumns t.racking :=
    racking ▸ (passes.inReach sound.racked).inColumns
  have wants : goal = request.needle.column t.racking + request.direction.opposite.feederOffset := by
    rw [show t.racking = c.racking from racking]
    exact column_approach_eq request c.racking
  refine ⟨State.approaches_misses stands (racking ▸ ahead) here there, ?_, ?_⟩
  · rw [State.feederColumn_eq fits, wants]
  · refine State.checkApproach_eq fits ?_
    intro yarn member
    rw [State.get?_park, if_pos member, wants]

/-- In every state of a lowering a feeder in action is walked straight to where the carriage of a
request comes from, whatever the request asks for at a needle that a source can name. -/
theorem feeders_walk_straight {source : Text} (few : FewCarriers source) {c : Context}
    (reached : Context.Reached source c) {carrier : Carrier} {parked attached : Location}
    (active : c.stages.get? carrier.yarn = some (.active parked attached)) (request : Request)
    (near : request.needle.index.natAbs ≤ maxNeedleIndex) :
    ∃ d heading misses location,
      c.Walks d carrier parked attached request heading misses location := by
  obtain ⟨sound, mirrored⟩ := reached.mirrored few
  let goal := Context.approach request
  obtain ⟨heading, n, count, ahead, walked⟩ := c.walkTo_eq carrier parked attached goal
  let d := c.walkTo carrier parked attached goal
  let misses := parked.misses carrier.yarn heading n
  have done : d.output = (walk carrier.yarn heading n parked c.output).2 := by
    rw [show d = _ from walked]
    rfl
  have output : d.output = (misses.map Content.operation).foldl Output.emit c.output :=
    done.trans (output_walk c.output)
  refine ⟨d, heading, misses, (walk carrier.yarn heading n parked c.output).1, {
    position := ?_
    strides := ?_
    output
    straight := fun op member => Location.mem_misses member
    length := ?_
    arrived := (column_walk carrier.yarn heading n parked c.output c.racking).trans ahead
    keeps := ?_
    accepted := fun final settles => ?_ }⟩
  · rw [Context.position, active]
  · rw [done]
    exact strideTo?_eq ahead.symm rfl
  · rw [Location.length_misses, count, ← Int.natAbs_neg, Int.neg_sub]
  · rw [done]
    exact walked
  · have added : d.output = ((misses.map Content.operation).foldl Context.emit c).output := by
      rw [output, Context.foldl_emit]
    rw [added] at settles ⊢
    obtain ⟨before, more⟩ := Context.before_foldl_emit settles
    obtain ⟨s, mirrors⟩ := mirrored final before
    obtain ⟨accepted, wanted⟩ := mirrors.accepts_walk sound active near ahead
    exact ⟨s, _, mirrors.recorded.run, more, accepted, rfl, wanted⟩

/-- It leaves a feeder past a needle of the back bed, with the beds racked. -/
def leaning : Text :=
  joinLines ([
    ";!knitout-2",
    ";;Carriers: A",
    "in A",
    "rack 2",
    "tuck + b3 A"].map String.toList)

/-- From there to the front-bed needle three columns before it, travelling down, the feeder is walked
back past the needle that it comes from and three more. -/
theorem feeders_walk_straight_leaning : FewCarriers leaning ∧
    ∃ c, Context.Reached leaning c ∧ c.racking = 2 ∧
      c.stages.get? 1 = some (.active ⟨.back 3, .increasing⟩ ⟨.back 3, .increasing⟩) ∧
      ∃ d heading misses location,
        c.Walks d ⟨['A'], 1⟩ ⟨.back 3, .increasing⟩ ⟨.back 3, .increasing⟩
          ⟨.knit, .decreasing, .front 1, [['A']], none⟩ heading misses location ∧
        misses.length = 4 := by
  have few : FewCarriers leaning := by
    intro block read
    have one : (Headers.ofLines (lines leaning)).map (·.headers.carriers.length) = .ok 1 := by
      decide
    rw [read] at one
    have one : block.headers.carriers.length = 1 := Except.ok.inj one
    rw [one]
    decide
  have ends : (finalContext? leaning).map (fun c => (c.racking, c.stages.get? 1)) =
      some (2, some (.active ⟨.back 3, .increasing⟩ ⟨.back 3, .increasing⟩)) := by
    set_option maxRecDepth 2000 in
    decide
  obtain ⟨c, last, state⟩ := Option.map_eq_some_iff.1 ends
  obtain ⟨racking, active⟩ := Prod.mk.inj state
  obtain ⟨_, here⟩ := Context.Between.of_finalContext? last
  have reached := Context.Reached.between here
  have active : c.stages.get? (Carrier.mk ['A'] 1).yarn = _ := active
  obtain ⟨d, heading, misses, location, walks⟩ := feeders_walk_straight few reached active
    ⟨.knit, .decreasing, .front 1, [['A']], none⟩ (by decide)
  refine ⟨few, c, reached, racking, active, d, heading, misses, location, walks, ?_⟩
  rw [walks.length, racking]
  rfl

end Knitout
