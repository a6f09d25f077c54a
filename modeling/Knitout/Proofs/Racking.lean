import Knitout.Proofs.Reaching

/-!
How a racking is reached in steps of one. Deciding on the way anew before each step
(`Context.rackTo`) comes to the same as deciding once and counting: a step brings the beds one closer
to where they are to go. No step moves a feeder, because the locations on the back bed are expressed
on the front bed before it (`Context.Holds`). Main statement: `racking_goes_by_ones`.
-/

namespace Knitout

/-! ## The way to a racking -/

/-- The rackings that a number of equal steps comes by. -/
def rackings (racking step : Int) : Nat → List Int
  | 0 => []
  | n + 1 => (racking + step) :: rackings (racking + step) step n

section
variable {racking step target : Int} {n : Nat}

/-- One step and then some more are one more than these. -/
theorem step_add (racking step : Int) (n : Nat) :
    racking + step + n * step = racking + (n + 1 : Nat) * step := by
  rw [Int.natCast_succ, Int.add_mul, Int.one_mul]
  omega

theorem length_rackings (racking step : Int) (n : Nat) : (rackings racking step n).length = n := by
  induction n generalizing racking with
  | zero => rfl
  | succ n ih => rw [rackings, List.length_cons, ih]

theorem getLast?_rackings (racking step : Int) (n : Nat) :
    (racking :: rackings racking step n).getLast? = some (racking + n * step) := by
  induction n generalizing racking with
  | zero => simp [rackings]
  | succ n ih =>
    rw [rackings, List.getLast?_cons_cons, ih, step_add]

/-- Each of them is off the one before by the step. -/
theorem isChain_rackings (racking step : Int) (n : Nat) :
    List.IsChain (fun a b => b - a = step) (racking :: rackings racking step n) := by
  induction n generalizing racking with
  | zero => exact .singleton racking
  | succ n ih => exact .cons_cons (by omega) (ih (racking + step))

/-- A step towards the target brings the beds one closer. -/
theorem closer_of_sign (away : racking ≠ target) :
    (target - (racking + (target - racking).sign)).natAbs + 1 = (target - racking).natAbs := by
  rcases Int.lt_trichotomy racking target with below | same | above
  · rw [Int.sign_eq_one_of_pos (by omega)]
    omega
  · exact absurd same away
  · rw [Int.sign_eq_neg_one_of_neg (by omega)]
    omega

end

namespace Context

/-- Rack until the beds are there, and decide on the way anew before each step. -/
def rackTo (c : Context) (target : Int) : Context :=
  if _ : c.racking = target then c else (c.rackStep (target - c.racking).sign).rackTo target
termination_by (target - c.racking).natAbs
decreasing_by
  have closer := closer_of_sign ‹_›
  simp only [rackStep, emit]
  omega

/-- Whoever decides anew before each step racks as if the steps were counted. -/
theorem rackTo_eq {c : Context} {target step : Int} {n : Nat} (one : step.natAbs = 1)
    (ahead : target = c.racking + n * step) : c.rackTo target = c.rackSteps step n := by
  induction n generalizing c with
  | zero =>
    rw [rackTo, dif_pos (by simp [ahead])]
    rfl
  | succ n ih =>
    have turn : (target - c.racking).sign = step := by
      obtain rfl | rfl : step = 1 ∨ step = -1 := by omega
      · exact Int.sign_eq_one_of_pos (by omega)
      · exact Int.sign_eq_neg_one_of_neg (by omega)
    have away : c.racking ≠ target := by
      intro same
      rw [same, Int.sub_self] at turn
      rw [← turn] at one
      cases one
    have ahead' : target = (c.rackStep step).racking + n * step := by
      have racking : (c.rackStep step).racking = c.racking + step := rfl
      rw [racking, ahead, step_add]
    rw [rackTo, dif_neg away, turn]
    exact ih ahead'

theorem racking_rackSteps (c : Context) (step : Int) (n : Nat) :
    (c.rackSteps step n).racking = c.racking + n * step := by
  induction n generalizing c with
  | zero => simp [rackSteps]
  | succ n ih =>
    have racking : (c.rackStep step).racking = c.racking + step := rfl
    rw [rackSteps, ih, racking, step_add]

/-- Each step adds the racking that it comes to. -/
theorem output_rackSteps (c : Context) (step : Int) (n : Nat) : (c.rackSteps step n).output =
    ((rackings c.racking step n).map fun r => Content.operation (.rack r)).foldl Output.emit
      c.output := by
  induction n generalizing c with
  | zero => rfl
  | succ n ih => exact ih (c.rackStep step)

end Context

/-! ## Feeders -/

/-- What racking does to the stage of a yarn: a feeder in action stays in its column, and the loop
that it is attached to stays the same. -/
inductive StageHolds (before after : Int) : Option CarrierStage → Option CarrierStage → Prop
  | absent : StageHolds before after none none
  | pending (slot : Nat) : StageHolds before after (some (.pending slot)) (some (.pending slot))
  | active {parked parked' : Location} (attached : Location)
      (column : parked'.column after = parked.column before) :
    StageHolds before after (some (.active parked attached)) (some (.active parked' attached))

theorem StageHolds.trans {before between after : Int} {a b c : Option CarrierStage}
    (first : StageHolds before between a b) (second : StageHolds between after b c) :
    StageHolds before after a c := by
  cases first with
  | absent =>
    cases second
    exact .absent
  | pending slot =>
    cases second
    exact .pending slot
  | active attached column =>
    cases second with
    | active _ column' => exact .active attached (column'.trans column)

namespace Context

/-- No feeder moves, and nothing changes but the racking, the output and how locations are
expressed. -/
structure Holds (c d : Context) : Prop where
  stages : ∀ yarn, StageHolds c.racking d.racking (c.stages.get? yarn) (d.stages.get? yarn)
  keeps : d.carriers = c.carriers ∧ d.loops = c.loops ∧ d.warnings = c.warnings

variable {c d e : Context}

theorem holds_of_stages_eq (racking : d.racking = c.racking) (stages : d.stages = c.stages)
    (keeps : d.carriers = c.carriers ∧ d.loops = c.loops ∧ d.warnings = c.warnings) :
    c.Holds d := by
  refine ⟨fun yarn => ?_, keeps⟩
  rw [stages, racking]
  cases c.stages.get? yarn with
  | none => exact .absent
  | some stage =>
    cases stage with
    | pending slot => exact .pending slot
    | active parked attached => exact .active attached rfl

theorem Holds.trans (first : c.Holds d) (second : d.Holds e) : c.Holds e :=
  ⟨fun yarn => (first.stages yarn).trans (second.stages yarn),
    second.keeps.1.trans first.keeps.1, second.keeps.2.1.trans first.keeps.2.1,
    second.keeps.2.2.trans first.keeps.2.2⟩

theorem holds_rackStep (c : Context) (step : Int) : c.Holds (c.rackStep step) := by
  refine ⟨fun yarn => ?_, rfl, rfl, rfl⟩
  have moved : (c.rackStep step).stages.get? yarn = (c.stages.get? yarn).map _ :=
    c.get?_relocate (onFrontBed c.racking) id yarn
  rw [moved]
  cases c.stages.get? yarn with
  | none => exact .absent
  | some stage =>
    cases stage with
    | pending slot => exact .pending slot
    | active parked attached => exact .active attached (column_onFrontBed c.racking _ parked)

theorem holds_rackSteps (c : Context) (step : Int) (n : Nat) : c.Holds (c.rackSteps step n) := by
  induction n generalizing c with
  | zero => exact holds_of_stages_eq rfl rfl ⟨rfl, rfl, rfl⟩
  | succ n ih => exact (c.holds_rackStep step).trans (ih _)

end Context

/-! ## The machine -/

/-- The machine accepts rackings that go by ones. -/
theorem State.applyAll_rackings {s : State} {step : Int} (one : step.natAbs = 1) (n : Nat) :
    s.applyAll ((rackings s.racking step n).map Operation.rack) =
      .ok { s with racking := s.racking + n * step } := by
  induction n generalizing s with
  | zero =>
    have same : s.racking + (0 : Nat) * step = s.racking := by simp
    rw [same]
    rfl
  | succ n ih =>
    have accepted : s.apply (.rack (s.racking + step)) =
        .ok { s with racking := s.racking + step } := apply_rack (by omega)
    rw [rackings, List.map_cons, applyAll_cons, accepted, ← step_add]
    exact ih (s := { s with racking := s.racking + step })

/-! ## A line that racks -/

namespace Context

/-- What a line that asks for a racking does: it goes by these rackings. -/
structure Racks (c d : Context) (line : Text) (target : Int) (values : List Int) : Prop where
  length : values.length = (target - c.racking).natAbs
  byOnes : List.IsChain (fun a b => (b - a).natAbs = 1) (c.racking :: values)
  arrives : (c.racking :: values).getLast? = some target
  /-- To decide on the way anew before each step comes to the same, and to an end. -/
  loop : c.racking ≠ target → (c.atLine line).rackTo target = d
  output : c.racking ≠ target → d.output =
    (values.map fun r => Content.operation (.rack r)).foldl Output.emit (c.atLine line).output
  needless : c.racking = target → d = (c.atLine line).emit (.remark .rackNotNeeded)
  racking : d.racking = target
  holds : c.Holds d
  /-- Whatever becomes of the places that are still reserved, the machine that has done all that was
  added before accepts the steps, one after the other, and they change nothing but its racking. -/
  accepted : ∀ final, d.output.Settles final → ∃ s,
    State.initial.applyAll (final.before c.output.slots.size) = .ok s ∧ s.racking = c.racking ∧
    final.before d.output.slots.size =
      final.before c.output.slots.size ++ values.map Operation.rack ∧
    s.applyAll (values.map Operation.rack) = .ok { s with racking := target }

variable {c : Context} {line : Text} {target : Int}

/-- The machine has come as far as the lowering, whatever becomes of the places that are still
reserved. -/
private def Met (c : Context) : Prop :=
  ∀ final, c.output.Settles final → ∃ s,
    State.initial.applyAll (final.before c.output.slots.size) = .ok s ∧ s.racking = c.racking

private theorem racks_needless (met : c.Met) (there : c.racking = target) :
    c.Racks ((c.atLine line).emit (.remark .rackNotNeeded)) line target [] where
  length := by simp [there]
  byOnes := .singleton _
  arrives := by simp [there]
  loop away := absurd there away
  output away := absurd there away
  needless _ := rfl
  racking := there
  holds := holds_of_stages_eq rfl rfl ⟨rfl, rfl, rfl⟩
  accepted final settles := by
    obtain ⟨settled, held, change⟩ := settles c.output.slots.size (.remark .rackNotNeeded)
      (by rw [emit, Output.content?_emit, atLine]; exact if_pos rfl)
    cases change
    have before : (c.atLine line).output.Settles final := (Output.settles_emit _ _).trans settles
    obtain ⟨s, run, racking⟩ := met final before
    have more := Output.before_succ held
    refine ⟨s, run, racking, ?_, ?_⟩
    · rw [emit, Output.size_emit]
      exact more
    · rw [← there, ← racking]
      rfl

private theorem racks_steps (met : c.Met) (away : c.racking ≠ target) :
    c.Racks ((c.atLine line).rack target) line target
      (rackings c.racking (target - c.racking).sign (target - c.racking).natAbs) := by
  let step := (target - c.racking).sign
  let n := (target - c.racking).natAbs
  have one : step.natAbs = 1 := Int.natAbs_sign_of_ne_zero (by omega)
  have ahead : c.racking + n * step = target := by
    have distance : step * n = target - c.racking := Int.sign_mul_natAbs _
    rw [Int.mul_comm, distance]
    omega
  have counted : (c.atLine line).rack target = (c.atLine line).rackSteps step n :=
    if_neg (Ne.symm away)
  have racking : ((c.atLine line).rackSteps step n).racking = target :=
    (racking_rackSteps _ _ _).trans ahead
  have begun : c.Holds (c.atLine line) := holds_of_stages_eq rfl rfl ⟨rfl, rfl, rfl⟩
  have output := output_rackSteps (c.atLine line) step n
  refine {
    length := length_rackings _ _ _
    byOnes := ?_
    arrives := ?_
    loop := fun _ => ?_
    output := fun _ => ?_
    needless := fun there => absurd there away
    racking := ?_
    holds := ?_
    accepted := fun final settles => ?_ }
  · exact (isChain_rackings c.racking step n).imp fun a b off => by rw [off, one]
  · exact (getLast?_rackings _ _ _).trans (congrArg some ahead)
  · exact (rackTo_eq (c := c.atLine line) one ahead.symm).trans counted.symm
  · rw [counted]
    exact output
  · rw [counted]
    exact racking
  · rw [counted]
    exact begun.trans (holds_rackSteps _ _ _)
  · have added : ((c.atLine line).rack target).output =
        ((((rackings c.racking step n).map Operation.rack).map Content.operation).foldl emit
          (c.atLine line)).output := by
      rw [counted, output, foldl_emit, List.map_map]
      rfl
    rw [added] at settles ⊢
    obtain ⟨before, more⟩ := before_foldl_emit settles
    obtain ⟨s, run, same⟩ := met final before
    have accepted := State.applyAll_rackings (s := s) one n
    rw [same, ahead] at accepted
    exact ⟨s, run, same, more, accepted⟩

end Context

/-- In every state of a lowering, a line that asks for a racking gets there by steps of one, or adds
a remark if the beds are there. No feeder and no loop moves. -/
theorem racking_goes_by_ones {source : Text} (few : FewCarriers source) {c : Context}
    (reached : Context.Reached source c) {line : Text} {target : Int}
    (asks : Command.ofLine line = .ok (some (.rack target))) (number : Nat) :
    ∃ d values, c.lowerLine number line = .ok d ∧ c.Racks d line target values := by
  obtain ⟨_, mirrored⟩ := reached.mirrored few
  have met : c.Met := fun final settles =>
    let ⟨s, mirrors⟩ := mirrored final settles
    ⟨s, mirrors.recorded.run, mirrors.racking⟩
  have done : c.lowerLine number line = .ok ((c.atLine line).rack target) := by
    unfold Context.lowerLine
    rw [asks]
    rfl
  rw [done]
  by_cases there : c.racking = target
  · have remarked : (c.atLine line).rack target = (c.atLine line).emit (.remark .rackNotNeeded) :=
      if_pos there.symm
    exact ⟨_, [], rfl, remarked ▸ Context.racks_needless met there⟩
  · exact ⟨_, _, rfl, Context.racks_steps met there⟩

/-- It leaves a feeder past a needle of the back bed with the beds racked, and a carrier waiting. -/
def slanting : Text :=
  joinLines ([
    ";!knitout-2",
    ";;Carriers: A B",
    "in A",
    "rack 2",
    "tuck + b3 A",
    "in B"].map String.toList)

/-- From there the beds are racked back past the middle, by three steps. -/
theorem racking_goes_by_ones_back : FewCarriers slanting ∧
    ∃ c, Context.Reached slanting c ∧ c.racking = 2 ∧
      c.stages.get? 1 = some (.active ⟨.back 3, .increasing⟩ ⟨.back 3, .increasing⟩) ∧
      Command.ofLine "rack -1".toList = .ok (some (.rack (-1))) ∧
      ∃ d values, c.lowerLine 7 "rack -1".toList = .ok d ∧
        c.Racks d "rack -1".toList (-1) values ∧ values.length = 3 := by
  have few : FewCarriers slanting := by
    intro block read
    have two : (Headers.ofLines (lines slanting)).map (·.headers.carriers.length) = .ok 2 := by
      decide
    rw [read] at two
    have two : block.headers.carriers.length = 2 := Except.ok.inj two
    rw [two]
    decide
  have ends : (finalContext? slanting).map (fun c => (c.racking, c.stages.get? 1)) =
      some (2, some (.active ⟨.back 3, .increasing⟩ ⟨.back 3, .increasing⟩)) := by
    set_option maxRecDepth 2000 in
    decide
  obtain ⟨c, last, state⟩ := Option.map_eq_some_iff.1 ends
  obtain ⟨racking, active⟩ := Prod.mk.inj state
  obtain ⟨_, here⟩ := Context.Between.of_finalContext? last
  have reached := Context.Reached.between here
  have asks : Command.ofLine "rack -1".toList = .ok (some (.rack (-1))) := by
    set_option maxRecDepth 2000 in
    decide
  obtain ⟨d, values, done, racks⟩ := racking_goes_by_ones few reached asks 7
  refine ⟨few, c, reached, racking, active, asks, d, values, done, racks, ?_⟩
  rw [racks.length, racking]
  rfl

end Knitout
