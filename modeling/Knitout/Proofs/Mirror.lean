import Knitout.Proofs.Moves
import Knitout.Proofs.Stitch

/-!
The machine follows a lowering. A lowering that will end with some final output is compared with a
machine that has done the operations in as many slots of that output as the lowering has added so far
(`Mirrors`): an `in` that the lowering has yet to settle has been done by the machine already. Every
quiet step of the lowering keeps the two together (`Context.Moves.mirrors`).
-/

namespace Knitout

namespace CarrierStage

/-- Where the feeder of a carrier stands, if it is in action by the time the final output is done as
far as the lowering has come. -/
def column? (final : Output) (racking : Int) : CarrierStage → Option Int
  | .pending slot => (final.content? slot).bind Content.arrival?
  | .active parked _ => some (parked.column racking)

/-- The loop that a carrier is thought to be attached to. -/
def attached? : CarrierStage → Option Location
  | .pending _ => none
  | .active _ attached => some attached

end CarrierStage

/-- The machine does the operations in the first slots without a fault, and their lengths are
right. -/
structure Recorded (final : Output) (count : Nat) (s : State) : Prop where
  run : State.initial.applyAll (final.before count) = .ok s
  measured : ∀ index, index < count → ∀ op, final.content? index = some (.operation op) →
    op.Measured (final.before index)

namespace Recorded

variable {final : Output} {count : Nat} {s s' : State}

theorem start (final : Output) : Recorded final 0 .initial :=
  ⟨by rw [final.before_zero]; rfl, fun _ inside => absurd inside (Nat.not_lt_zero _)⟩

/-- A slot without an operation changes nothing. -/
theorem skip (recorded : Recorded final count s) {content : Content}
    (there : final.content? count = some content) (none : content.operation? = none) :
    Recorded final (count + 1) s ∧ final.before (count + 1) = final.before count := by
  have same : final.before (count + 1) = final.before count := by
    rw [Output.before_succ there, none]
    exact List.append_nil _
  refine ⟨⟨same ▸ recorded.run, ?_⟩, same⟩
  intro index inside op held
  rcases Nat.lt_succ_iff_lt_or_eq.1 inside with inside | rfl
  · exact recorded.measured index inside op held
  · rw [there] at held
    cases held
    cases none

/-- A slot with an operation is one more step of the machine. -/
theorem step (recorded : Recorded final count s) {op : Operation}
    (there : final.content? count = some (.operation op)) (applied : s.apply op = .ok s')
    (measured : op.Measured (final.before count)) :
    Recorded final (count + 1) s' ∧ final.before (count + 1) = final.before count ++ [op] := by
  have more : final.before (count + 1) = final.before count ++ [op] := Output.before_succ there
  refine ⟨⟨?_, ?_⟩, more⟩
  · rw [more]
    exact State.applyAll_concat recorded.run applied
  · intro index inside other held
    rcases Nat.lt_succ_iff_lt_or_eq.1 inside with inside | rfl
    · exact recorded.measured index inside other held
    · rw [there] at held
      cases held
      exact measured

end Recorded

/-- A lowering and a machine agree about one yarn. `worked` are yarns that formed a loop since they
were brought in, and a yarn that nothing named since then is attached as `fresh` says. -/
structure Agrees (final : Output) (worked : Yarn → Prop) (fresh : Yarn → Location → Prop)
    (c : Context) (s : State) (yarn : Yarn) : Prop where
  carrier : s.carriers.get? yarn = (c.stages.get? yarn).bind (·.column? final c.racking)
  attachment : ∀ location, s.attachments.get? yarn = some location →
    (c.stages.get? yarn).bind CarrierStage.attached? = some location
  worked : worked yarn → (c.stages.get? yarn).isSome → (s.attachments.get? yarn).isSome
  fresh : ∀ parked attached, c.stages.get? yarn = some (.active parked attached) →
    Untouched yarn (final.before c.output.slots.size) → fresh yarn attached

/-- A machine that has done the operations in the first slots of the final output agrees with the
lowering that has added those slots. -/
structure Mirrors (final : Output) (worked : Yarn → Prop) (fresh : Yarn → Location → Prop)
    (c : Context) (s : State) : Prop where
  recorded : Recorded final c.output.slots.size s
  racking : s.racking = c.racking
  loops : s.loops = c.loops
  yarns : ∀ yarn, Agrees final worked fresh c s yarn

section
variable {final : Output} {worked : Yarn → Prop} {fresh : Yarn → Location → Prop}
  {c c' : Context} {s s' : State} {yarn : Yarn}

namespace Agrees

/-- A yarn of a carrier that is not in. -/
theorem absent (stage : c.stages.get? yarn = none) (out : s.carriers.get? yarn = none)
    (loose : s.attachments.get? yarn = none) : Agrees final worked fresh c s yarn where
  carrier := by rw [stage, out]; rfl
  attachment _ attached := by rw [loose] at attached; cases attached
  worked _ there := by rw [stage] at there; cases there
  fresh _ _ active := by rw [stage] at active; cases active

/-- A yarn of a carrier that waits for its first use. -/
theorem pending {slot : Nat} (stage : c.stages.get? yarn = some (.pending slot))
    (arrival : s.carriers.get? yarn = (final.content? slot).bind Content.arrival?)
    (loose : s.attachments.get? yarn = none) (idle : ¬ worked yarn) :
    Agrees final worked fresh c s yarn where
  carrier := by rw [stage, arrival]; rfl
  attachment _ attached := by rw [loose] at attached; cases attached
  worked busy := absurd busy idle
  fresh _ _ active := by rw [stage] at active; cases active

/-- A yarn of a carrier in action. -/
theorem active {parked attached : Location}
    (stage : c.stages.get? yarn = some (.active parked attached))
    (column : s.carriers.get? yarn = some (parked.column c.racking))
    (attachment : ∀ location, s.attachments.get? yarn = some location → attached = location)
    (worked' : worked yarn → (s.attachments.get? yarn).isSome)
    (fresh' : Untouched yarn (final.before c.output.slots.size) → fresh yarn attached) :
    Agrees final worked fresh c s yarn where
  carrier := by rw [stage, column]; rfl
  attachment location there := by rw [stage, ← attachment location there]; rfl
  worked busy _ := worked' busy
  fresh _ _ active untouched := by
    rw [stage] at active
    cases active
    exact fresh' untouched

/-- A step that does not touch the yarn. -/
theorem frame (agrees : Agrees final worked fresh c s yarn)
    (stage : c'.stages.get? yarn = c.stages.get? yarn) (racking : c'.racking = c.racking)
    (carrier : s'.carriers.get? yarn = s.carriers.get? yarn)
    (attachment : s'.attachments.get? yarn = s.attachments.get? yarn)
    (untouched : Untouched yarn (final.before c'.output.slots.size) →
      Untouched yarn (final.before c.output.slots.size)) :
    Agrees final worked fresh c' s' yarn where
  carrier := by rw [carrier, stage, racking]; exact agrees.carrier
  attachment := by rw [attachment, stage]; exact agrees.attachment
  worked := by rw [attachment, stage]; exact agrees.worked
  fresh := by
    rw [stage]
    exact fun parked attached active later => agrees.fresh parked attached active (untouched later)

/-- The machine has not brought in what the lowering has not. -/
theorem idle (agrees : Agrees final worked fresh c s yarn) (stage : c.stages.get? yarn = none) :
    s.carriers.get? yarn = none ∧ s.attachments.get? yarn = none := by
  refine ⟨by rw [agrees.carrier, stage]; rfl, ?_⟩
  cases attached : s.attachments.get? yarn with
  | none => rfl
  | some location =>
    have known := agrees.attachment location attached
    rw [stage] at known
    cases known

/-- What waits for its first use is attached to nothing. -/
theorem loose (agrees : Agrees final worked fresh c s yarn) {slot : Nat}
    (stage : c.stages.get? yarn = some (.pending slot)) :
    s.attachments.get? yarn = none ∧ ¬ worked yarn := by
  have none : s.attachments.get? yarn = none := by
    cases attached : s.attachments.get? yarn with
    | none => rfl
    | some location =>
      have known := agrees.attachment location attached
      rw [stage] at known
      cases known
  refine ⟨none, ?_⟩
  intro busy
  have attached := agrees.worked busy (by rw [stage]; rfl)
  rw [none] at attached
  cases attached

theorem column (agrees : Agrees final worked fresh c s yarn) {parked attached : Location}
    (stage : c.stages.get? yarn = some (.active parked attached)) :
    s.carriers.get? yarn = some (parked.column c.racking) := by
  rw [agrees.carrier, stage]
  rfl

theorem attached_eq (agrees : Agrees final worked fresh c s yarn) {parked attached : Location}
    (stage : c.stages.get? yarn = some (.active parked attached)) (location : Location)
    (there : s.attachments.get? yarn = some location) : attached = location := by
  have known := agrees.attachment location there
  rw [stage] at known
  exact Option.some.inj known

end Agrees

namespace Mirrors

open Context

/-- Less may be said about the yarns that formed a loop, and more about those that did not. -/
theorem weaken (mirrors : Mirrors final worked fresh c s) {worked' : Yarn → Prop}
    {fresh' : Yarn → Location → Prop} (busy : ∀ yarn, worked' yarn → worked yarn)
    (due : ∀ yarn location, Untouched yarn (final.before c.output.slots.size) →
      fresh yarn location → fresh' yarn location) : Mirrors final worked' fresh' c s where
  recorded := mirrors.recorded
  racking := mirrors.racking
  loops := mirrors.loops
  yarns yarn := {
    mirrors.yarns yarn with
    worked := fun busy' => (mirrors.yarns yarn).worked (busy yarn busy')
    fresh := fun parked attached active untouched =>
      due yarn attached untouched ((mirrors.yarns yarn).fresh parked attached active untouched) }

/-! ## One slot more -/

/-- The slot that is added next, in the final output. -/
private theorem settled_emit {content : Content}
    (settles : (c.emit content).output.Settles final) :
    ∃ settled, final.content? c.output.slots.size = some settled ∧ content.Settles settled :=
  settles _ _ (by rw [emit, Output.content?_emit, if_pos rfl])

private theorem operation_emit {op : Operation}
    (settles : (c.emit (.operation op)).output.Settles final) :
    final.content? c.output.slots.size = some (.operation op) :=
  settles.operation (by rw [emit, Output.content?_emit, if_pos rfl])

private theorem size_emit (c : Context) (content : Content) :
    (c.emit content).output.slots.size = c.output.slots.size + 1 :=
  Output.size_emit _ _

/-- An operation that makes no stitch, by one step of the machine. -/
private theorem record {op : Operation} (mirrors : Mirrors final worked fresh c s)
    (settles : (c.emit (.operation op)).output.Settles final) (applied : s.apply op = .ok s')
    (quiet : op.formed? = none) :
    Recorded final (c.emit (.operation op)).output.slots.size s' ∧
      ∀ yarn, Untouched yarn (final.before (c.emit (.operation op)).output.slots.size) →
        (∃ direction needle, op = .bringIn direction needle yarn) ∨
          (yarn ∉ op.yarns ∧ Untouched yarn (final.before c.output.slots.size)) := by
  obtain ⟨recorded, more⟩ := mirrors.recorded.step (operation_emit settles) applied
    (Operation.measured_of_formed? quiet _)
  rw [size_emit, more]
  exact ⟨recorded, fun yarn untouched => untouched.of_concat⟩

theorem remark (mirrors : Mirrors final worked fresh c s) {note : Remark}
    (settles : (c.emit (.remark note)).output.Settles final) :
    Mirrors final worked fresh (c.emit (.remark note)) s := by
  obtain ⟨settled, there, change⟩ := settled_emit settles
  cases change
  obtain ⟨recorded, same⟩ := mirrors.recorded.skip there rfl
  rw [← size_emit c (.remark note)] at recorded same
  exact ⟨recorded, mirrors.racking, mirrors.loops, fun yarn =>
    (mirrors.yarns yarn).frame rfl rfl rfl rfl (by rw [same]; exact id)⟩

/-! ## Quiet steps -/

private theorem setStage_other {carrier : Carrier} (other : yarn ≠ carrier.yarn) (c : Context)
    (stage : CarrierStage) : (c.setStage carrier stage).stages.get? yarn = c.stages.get? yarn := by
  rw [get?_setStage, if_neg other]

private theorem setStage_self (carrier : Carrier) (c : Context) (stage : CarrierStage) :
    (c.setStage carrier stage).stages.get? carrier.yarn = some stage := by
  rw [get?_setStage, if_pos rfl]

/-- The machine may bring the carrier in as soon as its place is reserved. -/
theorem reserve (mirrors : Mirrors final worked fresh c s) {carrier : Carrier}
    (absent : c.stages.get? carrier.yarn = none) (idle : ¬ worked carrier.yarn)
    (settles : (c.emit (.pendingIn carrier)).output.Settles final) :
    ∃ s', Mirrors final worked fresh
      ((c.emit (.pendingIn carrier)).setStage carrier (.pending c.output.slots.size)) s' := by
  obtain ⟨settled, there, change⟩ := settled_emit settles
  obtain ⟨out, loose⟩ := (mirrors.yarns carrier.yarn).idle absent
  -- the slot may stay as it is to the end, and then the machine never brings the carrier in
  cases change with
  | same =>
    obtain ⟨recorded, same⟩ := mirrors.recorded.skip there rfl
    rw [← size_emit c (.pendingIn carrier)] at recorded same
    refine ⟨s, recorded, mirrors.racking, mirrors.loops, ?_⟩
    intro yarn
    by_cases mine : yarn = carrier.yarn
    · rw [mine]
      exact .pending (setStage_self _ _ _) (by rw [out, there]; rfl) loose idle
    · exact (mirrors.yarns yarn).frame (setStage_other mine _ _) rfl rfl rfl
        (by rw [setStage, same]; exact id)
  | @brought _ direction column near =>
    have fits : (Needle.front column).InColumns s.racking :=
      Needle.inColumns_of_natAbs (Nat.le_trans near (by decide))
    obtain ⟨recorded, more⟩ := mirrors.recorded.step there
      (State.apply_bringIn fits out) (Operation.measured_of_formed? rfl _)
    rw [← size_emit c (.pendingIn carrier)] at recorded more
    refine ⟨_, recorded, mirrors.racking, mirrors.loops, ?_⟩
    intro yarn
    by_cases mine : yarn = carrier.yarn
    · rw [mine]
      refine .pending (setStage_self _ _ _) ?_ loose idle
      rw [State.get?_park, if_pos (by simp), there]
      rfl
    · refine (mirrors.yarns yarn).frame (setStage_other mine _ _) rfl ?_ rfl ?_
      · rw [State.get?_park, if_neg (by simpa using mine)]
      · intro untouched
        rw [setStage, more] at untouched
        rcases untouched.of_concat with ⟨_, _, same⟩ | ⟨_, untouched⟩
        · cases same
          exact absurd rfl mine
        · exact untouched

/-- When the lowering settles an `in`, the machine has done it already. -/
theorem settle (mirrors : Mirrors final worked fresh c s) {carrier : Carrier} {slot : Nat}
    {goal : Location} (pending : c.stages.get? carrier.yarn = some (.pending slot))
    (waiting : (c.output.content? slot).isSome) (due : fresh carrier.yarn goal)
    (settles : (c.output.fill slot (.operation (c.settledIn carrier goal))).Settles final) :
    Mirrors final worked fresh
      ({ c with output := c.output.fill slot (.operation (c.settledIn carrier goal)) }.setStage
        carrier (.active goal goal)) s := by
  have there : final.content? slot = some (.operation (c.settledIn carrier goal)) := by
    refine settles.operation ?_
    rw [Output.content?_fill, if_pos rfl]
    obtain ⟨content, held⟩ := Option.isSome_iff_exists.1 waiting
    rw [held]
    rfl
  have size : (c.output.fill slot (.operation (c.settledIn carrier goal))).slots.size =
      c.output.slots.size := Output.size_fill _ _ _
  refine ⟨by rw [setStage, size]; exact mirrors.recorded, mirrors.racking, mirrors.loops, ?_⟩
  intro yarn
  by_cases mine : yarn = carrier.yarn
  · obtain ⟨loose, idle⟩ := (mirrors.yarns carrier.yarn).loose pending
    rw [mine]
    refine .active (setStage_self _ _ _) ?_ ?_
      (fun busy => absurd busy idle) fun _ => due
    · rw [(mirrors.yarns carrier.yarn).carrier, pending, Option.bind_some, CarrierStage.column?,
        there]
      rfl
    · intro location attached
      rw [loose] at attached
      cases attached
  · exact (mirrors.yarns yarn).frame (setStage_other mine _ _) rfl rfl rfl
      (by rw [setStage, size]; exact id)

/-- A miss takes the feeder one column further. -/
theorem miss (mirrors : Mirrors final worked fresh c s) {carrier : Carrier}
    {parked attached next : Location}
    (active : c.stages.get? carrier.yarn = some (.active parked attached))
    (reach : next.InReach c.racking)
    (beside : next.column c.racking = parked.column c.racking + next.direction.step)
    (settles : (c.emit (.operation (.miss next.direction next.needle carrier.yarn))).output.Settles
      final) :
    ∃ s', Mirrors final worked fresh
      ((c.emit (.operation (.miss next.direction next.needle carrier.yarn))).setStage carrier
        (.active next attached)) s' := by
  have fits : next.needle.InColumns s.racking := mirrors.racking ▸ reach.inColumns
  have waiting : s.Waiting next.needle next.direction [carrier.yarn] := by
    intro yarn member
    have behind := next.column_behind c.racking
    rw [List.mem_singleton.1 member, (mirrors.yarns carrier.yarn).column active, mirrors.racking]
    exact congrArg some (by omega)
  obtain ⟨recorded, history⟩ := mirrors.record settles (State.apply_miss fits waiting) rfl
  refine ⟨_, recorded, mirrors.racking, mirrors.loops, ?_⟩
  intro yarn
  have untouched := history yarn
  by_cases mine : yarn = carrier.yarn
  · rw [mine] at untouched ⊢
    refine .active (setStage_self _ _ _) ?_ ((mirrors.yarns carrier.yarn).attached_eq active)
      (fun busy => (mirrors.yarns carrier.yarn).worked busy (by rw [active]; rfl)) ?_
    · rw [State.get?_park, if_pos (by simp), mirrors.racking]
      rfl
    · intro later
      rcases untouched later with ⟨_, _, same⟩ | ⟨named, _⟩
      · cases same
      · exact absurd (List.mem_singleton.2 rfl) named
  · refine (mirrors.yarns yarn).frame (setStage_other mine _ _) rfl ?_ rfl ?_
    · rw [State.get?_park, if_neg (by simpa using mine)]
    · intro later
      rcases untouched later with ⟨_, _, same⟩ | ⟨_, before⟩
      · cases same
      · exact before

/-- The needle of an `out` is the one that the feeder faces. -/
private theorem column_out (parked : Location) (racking : Int) :
    (Needle.front (parked.needle.column racking + parked.direction.step)).column racking +
      parked.direction.opposite.feederOffset = parked.column racking := by
  unfold Location.column Needle.front
  cases parked.direction <;>
    simp only [Needle.column, Direction.step, Direction.opposite, Direction.feederOffset] <;> omega

theorem leave (mirrors : Mirrors final worked fresh c s) {carrier : Carrier}
    {parked attached : Location}
    (active : c.stages.get? carrier.yarn = some (.active parked attached))
    (reach : parked.InReach c.racking)
    (settles : (c.emit (.operation (.bringOut parked.direction.opposite
      (.front (parked.needle.column c.racking + parked.direction.step))
        carrier.yarn))).output.Settles final) :
    ∃ s', Mirrors final worked fresh
      { c.emit (.operation (.bringOut parked.direction.opposite
          (.front (parked.needle.column c.racking + parked.direction.step)) carrier.yarn)) with
        stages := c.stages.erase carrier.yarn } s' := by
  have out := column_out parked c.racking
  have fits : (Needle.front (parked.needle.column c.racking + parked.direction.step)).InColumns
      s.racking :=
    Needle.inColumns_of_natAbs (Nat.le_trans reach.next_column (by decide))
  have there : s.carriers.get? carrier.yarn = some
      ((Needle.front (parked.needle.column c.racking + parked.direction.step)).column s.racking +
        parked.direction.opposite.feederOffset) := by
    rw [(mirrors.yarns carrier.yarn).column active, mirrors.racking, out]
  obtain ⟨recorded, history⟩ := mirrors.record settles (State.apply_bringOut fits there) rfl
  refine ⟨_, recorded, mirrors.racking, mirrors.loops, ?_⟩
  intro yarn
  have untouched := history yarn
  by_cases mine : yarn = carrier.yarn
  · exact .absent (by rw [Table.get?_erase, if_pos mine]) (by rw [Table.get?_erase, if_pos mine])
      (by rw [Table.get?_erase, if_pos mine])
  · refine (mirrors.yarns yarn).frame (by rw [Table.get?_erase, if_neg mine]) rfl
      (by rw [Table.get?_erase, if_neg mine]) (by rw [Table.get?_erase, if_neg mine])
      fun later => ?_
    rcases untouched later with ⟨_, _, same⟩ | ⟨_, before⟩
    · cases same
    · exact before

/-- Racking moves no feeder. -/
theorem rack (mirrors : Mirrors final worked fresh c s) {step : Int} (one : step.natAbs = 1)
    (settles : (c.rackStep step).output.Settles final) :
    ∃ s', Mirrors final worked fresh (c.rackStep step) s' := by
  have single : (s.racking - (c.racking + step)).natAbs = 1 := by
    rw [mirrors.racking]
    omega
  obtain ⟨recorded, history⟩ := mirrors.record (c := c) settles (State.apply_rack single) rfl
  refine ⟨_, recorded, rfl, mirrors.loops, ?_⟩
  intro yarn
  have agrees := mirrors.yarns yarn
  have before : Untouched yarn (final.before (c.rackStep step).output.slots.size) →
      Untouched yarn (final.before c.output.slots.size) := by
    intro later
    rcases history yarn later with ⟨_, _, same⟩ | ⟨_, before⟩
    · cases same
    · exact before
  have moved : (c.rackStep step).stages.get? yarn = (c.stages.get? yarn).map fun
      | .pending slot => .pending slot
      | .active parked attached => .active (onFrontBed c.racking parked) attached :=
    c.get?_relocate _ _ yarn
  cases stage : c.stages.get? yarn with
  | none =>
    rw [stage] at moved
    obtain ⟨out, loose⟩ := agrees.idle stage
    exact .absent moved out loose
  | some stage' =>
    rw [stage] at moved
    cases stage' with
    | pending slot =>
      obtain ⟨loose, idle⟩ := agrees.loose stage
      exact .pending moved (by rw [agrees.carrier, stage]; rfl) loose idle
    | active parked attached =>
      -- the lowering moves the location to the front bed, the machine leaves the feeder in its column
      refine .active moved ?_ (agrees.attached_eq stage)
        (fun busy => agrees.worked busy (by rw [stage]; rfl))
        fun later => agrees.fresh parked attached stage (before later)
      rw [agrees.column stage, column_onFrontBed]

end Mirrors

namespace Context

variable {entering : Yarn → Prop} {settling : Yarn → Location → Prop}

theorem Quiet.mirrors (step : Quiet entering settling c c') (sound : c.Sound)
    (mirrors : Mirrors final worked fresh c s) (settles : c'.output.Settles final)
    (idle : ∀ yarn, entering yarn → ¬ worked yarn)
    (due : ∀ yarn location, settling yarn location → fresh yarn location) :
    ∃ s', Mirrors final worked fresh c' s' := by
  cases step with
  | beginLine | warn =>
    exact ⟨s, mirrors.recorded, mirrors.racking, mirrors.loops, fun yarn =>
      (mirrors.yarns yarn).frame rfl rfl rfl rfl id⟩
  | remark => exact ⟨s, mirrors.remark settles⟩
  | reserve listed absent enters => exact mirrors.reserve absent (idle _ enters) settles
  | settle listed pending near permitted =>
    obtain ⟨_, there, _⟩ := sound.waiting _ _ pending
    exact ⟨s, mirrors.settle pending (by rw [there]; rfl) (due _ _ permitted) settles⟩
  | miss listed active reach beside => exact mirrors.miss active reach beside settles
  | leave listed active => exact mirrors.leave active (sound.active _ _ _ active).1 settles
  | rack one => exact mirrors.rack one settles

/-- Quiet steps keep the machine and the lowering together. -/
theorem Moves.mirrors (moves : Moves entering settling c c') (sound : c.Sound)
    (mirrors : Mirrors final worked fresh c s) (settles : c'.output.Settles final)
    (idle : ∀ yarn, entering yarn → ¬ worked yarn)
    (due : ∀ yarn location, settling yarn location → fresh yarn location) :
    ∃ s', Mirrors final worked fresh c' s' := by
  induction moves with
  | refl => exact ⟨s, mirrors⟩
  | tail moves step ih =>
    have between := Moves.sound moves sound
    obtain ⟨t, mirrors'⟩ := ih ((step.settles between).trans settles)
    exact step.mirrors between mirrors' settles idle due

private theorem stitches_emit {content : Content} (settles : (c.emit content).output.Settles final)
    (quiet : ∀ settled op, content.Settles settled → settled.operation? = some op →
      op.stitch? = none) :
    (final.before (c.emit content).output.slots.size).filterMap Operation.stitch? =
      (final.before c.output.slots.size).filterMap Operation.stitch? := by
  obtain ⟨settled, there, change⟩ :=
    settles c.output.slots.size content (by rw [emit, Output.content?_emit, if_pos rfl])
  rw [emit, Output.size_emit, Output.before_succ there, List.filterMap_append]
  cases held : settled.operation? with
  | none => simp
  | some op => simp [quiet settled op change held]

/-- Quiet steps make no stitches. -/
theorem Quiet.stitches (step : Quiet entering settling c c') (settles : c'.output.Settles final) :
    (final.before c'.output.slots.size).filterMap Operation.stitch? =
      (final.before c.output.slots.size).filterMap Operation.stitch? := by
  have operation {op : Operation} (none : op.stitch? = none) : ∀ settled op',
      (Content.operation op).Settles settled → settled.operation? = some op' →
        op'.stitch? = .none := by
    intro settled op' change held
    cases change
    cases held
    exact none
  cases step with
  | beginLine | warn => rfl
  | remark =>
    refine stitches_emit settles ?_
    intro settled op change held
    cases change
    cases held
  | reserve =>
    refine stitches_emit settles ?_
    intro settled op change held
    cases change <;> cases held
    rfl
  | settle => rw [setStage, Output.size_fill]
  | miss => exact stitches_emit settles (operation rfl)
  | leave => exact stitches_emit settles (operation rfl)
  | rack => exact stitches_emit (c := c) settles (operation rfl)

theorem Moves.stitches (moves : Moves entering settling c c') (sound : c.Sound)
    (settles : c'.output.Settles final) :
    (final.before c'.output.slots.size).filterMap Operation.stitch? =
      (final.before c.output.slots.size).filterMap Operation.stitch? := by
  induction moves with
  | refl => rfl
  | tail moves step ih =>
    rw [step.stitches settles, ih ((step.settles (Moves.sound moves sound)).trans settles)]

end Context

end

end Knitout
