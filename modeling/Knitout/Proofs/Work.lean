import Knitout.Proofs.Feeding
import Knitout.Proofs.Mirror

/-!
The step of a lowering that makes a stitch (`Context.Works`): with all feeders in place it adds one
operation, the machine does it without a fault, and afterwards the two agree again
(`Context.Works.mirrors`).
-/

namespace Knitout

/-! ## Moved loops -/

/-- Following loops to an aligned needle keeps the column. -/
theorem Location.column_follow {source target : Needle} {racking : Int}
    (aligned : source.column racking = target.column racking) (location : Location) :
    (location.follow source target).column racking = location.column racking := by
  unfold follow column
  split
  · next same => rw [same, aligned]
  · rfl

/-! ## The stitch -/

/-- How an action moves the loops that feeders are parked at or attached to. -/
def Plan.moved (p : Plan) : Location → Location :=
  match p.action with
  | .split target | .transfer target => Location.follow p.request.needle target
  | _ => id

/-- Past the needle of the request. -/
def Plan.here (p : Plan) : Location :=
  ⟨p.request.needle, p.request.direction⟩

/-- The yarns of the carriers of a plan. -/
def Plan.yarns (p : Plan) : List Yarn :=
  p.carriers.map (·.yarn)

namespace Context

/-- Two needles of opposite beds that share a column. -/
def Aligned (c : Context) (needle target : Needle) : Prop :=
  needle.bed ≠ target.bed ∧ needle.column c.racking = target.column c.racking ∧
    target.index.natAbs ≤ maxNeedleIndex

/-- All the feeders stand where the carriage comes from. -/
structure Ready (c : Context) (p : Plan) : Prop where
  listed : ∀ carrier ∈ p.carriers, carrier ∈ c.carriers.carriers
  distinct : p.yarns.Nodup
  parked : ∀ carrier ∈ p.carriers, c.ParkedAt ((approach p.request).column c.racking) carrier.yarn
  near : p.request.needle.index.natAbs ≤ maxNeedleIndex

/-- A plan that makes a stitch, what it needs, and the operation that it becomes. -/
inductive Works (c : Context) (p : Plan) : Operation → Prop
  | knit (action : p.action = .knit) (filled : p.carriers ≠ []) :
    Works c p (.knit p.request.direction p.request.needle stitchSize
      (p.carriers.map (c.strand p.request.needle)))
  | tuck (action : p.action = .tuck) (single : p.carriers.length = 1) :
    Works c p (.tuck p.request.direction p.request.needle stitchSize
      (p.carriers.map (c.strand p.request.needle)))
  | split {target : Needle} (action : p.action = .split target) (filled : p.carriers ≠ [])
      (aligned : c.Aligned p.request.needle target) :
    Works c p (.split p.request.direction p.request.needle target stitchSize
      (p.carriers.map (c.strand p.request.needle)))
  | drop (action : p.action = .drop) (bare : p.carriers = [])
      (loaded : c.hasLoops p.request.needle = true) : Works c p (.drop p.request.needle)
  | transfer {target : Needle} (action : p.action = .transfer target) (bare : p.carriers = [])
      (aligned : c.Aligned p.request.needle target) :
    Works c p (.transfer p.request.needle target)

variable {c : Context} {p : Plan} {op : Operation}

theorem yarnsOf_strands (c : Context) (needle : Needle) (carriers : List Carrier) :
    yarnsOf (carriers.map (c.strand needle)) = carriers.map (·.yarn) := by
  rw [yarnsOf, List.map_map]
  rfl

namespace Works

theorem action_ne (works : Works c p op) : p.action ≠ .miss := by
  cases works with
  | knit action | tuck action | split action | drop action | transfer action => simp [action]

theorem contents (works : Works c p op) : c.contents p = [.operation op] := by
  cases works with
  | knit action | tuck action | split action | drop action | transfer action =>
    simp [Context.contents, action]

theorem yarns (works : Works c p op) : op.yarns = p.yarns := by
  cases works with
  | knit | tuck | split => exact c.yarnsOf_strands p.request.needle p.carriers
  | drop _ bare | transfer _ bare => rw [Plan.yarns, bare]; rfl

theorem formed (works : Works c p op) {needle : Needle} {strands : List Strand}
    (forms : op.formed? = some (needle, strands)) :
    needle = p.request.needle ∧ strands = p.carriers.map (c.strand p.request.needle) := by
  cases works <;> cases forms <;> exact ⟨rfl, rfl⟩

/-- Moved locations stay in their columns. -/
theorem column_moved (works : Works c p op) (location : Location) :
    (p.moved location).column c.racking = location.column c.racking := by
  cases works with
  | knit action | tuck action | drop action => simp [Plan.moved, action]
  | split action _ aligned | transfer action _ aligned =>
    simp only [Plan.moved, action]
    exact Location.column_follow aligned.2.1 location

theorem nearby_moved (works : Works c p op) {location : Location} (near : location.Nearby) :
    (p.moved location).Nearby := by
  cases works with
  | knit action | tuck action | drop action => simpa [Plan.moved, action] using near
  | split action _ aligned | transfer action _ aligned =>
    simp only [Plan.moved, action, Location.follow]
    split
    · exact Nat.le_succ_of_le aligned.2.2
    · exact near

theorem wellFormed (works : Works c p op) (sound : c.Sound) (ready : Ready c p) :
    op.WellFormed := by
  have word {needle : Needle} (near : needle.index.natAbs ≤ maxNeedleIndex) :
      isWord needle.index = true := by
    unfold maxNeedleIndex at near
    exact isWord_of_natAbs (by omega)
  have named : WellNamed (p.carriers.map (c.strand p.request.needle)) := by
    refine ⟨?_, ?_⟩
    · rw [← yarnsOf, yarnsOf_strands]
      exact ready.distinct
    · intro strand member
      obtain ⟨carrier, listed, rfl⟩ := List.mem_map.1 member
      exact sound.table.fits carrier (ready.listed carrier listed)
  cases works with
  | knit _ filled => exact ⟨word ready.near, by simpa using filled, named⟩
  | tuck _ single => exact ⟨word ready.near, by simpa using single, named⟩
  | split _ filled aligned =>
    exact ⟨word ready.near, word aligned.2.2, by simpa using filled, named⟩
  | drop => exact word ready.near
  | transfer _ _ aligned => exact ⟨word ready.near, word aligned.2.2⟩

end Works

/-! ## What the lowering does -/

/-- What happens to the stage of a carrier when an action moves loops. -/
def movedStage (p : Plan) : CarrierStage → CarrierStage
  | .pending slot => .pending slot
  | .active parked attached => .active (p.moved parked) (p.moved attached)

private theorem get?_retarget (d : Context) (p : Plan) (yarn : Yarn) :
    (d.retarget p).stages.get? yarn = (d.stages.get? yarn).map (movedStage p) := by
  have still (same : p.moved = id) :
      d.stages.get? yarn = (d.stages.get? yarn).map (movedStage p) := by
    cases d.stages.get? yarn with
    | none => rfl
    | some stage => cases stage <;> simp [movedStage, same]
  unfold retarget
  split
  · next target action =>
    rw [get?_relocate]
    refine congrArg (Option.map · _) (funext ?_)
    intro stage
    cases stage <;> simp [movedStage, Plan.moved, action]
  · next target action =>
    rw [get?_relocate]
    refine congrArg (Option.map · _) (funext ?_)
    intro stage
    cases stage <;> simp [movedStage, Plan.moved, action]
  · next other other' =>
    refine still ?_
    unfold Plan.moved
    split
    · next target action => exact absurd action (other target)
    · next target action => exact absurd action (other' target)
    · rfl

private theorem foldl_usedCarrier (forms : p.action ≠ .miss) (carriers : List Carrier)
    (d : Context) (yarn : Yarn) : (carriers.foldl (usedCarrier p) d).stages.get? yarn =
      if yarn ∈ carriers.map (·.yarn) then some (.active p.here p.here)
      else d.stages.get? yarn := by
  induction carriers generalizing d with
  | nil => rfl
  | cons carrier rest ih =>
    have first : usedCarrier p d carrier = d.setStage carrier (.active p.here p.here) := by
      unfold usedCarrier
      split
      · next action _ => exact absurd action forms
      · rfl
    rw [List.foldl_cons, first, ih, get?_setStage, List.map_cons]
    by_cases later : yarn ∈ rest.map (·.yarn)
    · simp [later]
    · by_cases same : yarn = carrier.yarn <;> simp [later, same]

namespace Works

/-- A stitch adds its operation, counts the loops anew and attaches its carriers to the needle; those
of the others that were at moved loops go with them. -/
theorem perform (works : Works c p op) :
    (c.perform p).carriers = c.carriers ∧ (c.perform p).loops = c.loopsAfter p ∧
      (c.perform p).racking = c.racking ∧
      (c.perform p).output = c.output.emit (.operation op) ∧
      ∀ yarn, (c.perform p).stages.get? yarn =
        if yarn ∈ p.yarns then some (.active p.here p.here)
        else (c.stages.get? yarn).map (movedStage p) := by
  obtain ⟨stages, same⟩ := c.perform_eq p
  have output : (c.perform p).output = c.output.emit (.operation op) := by
    rw [output_perform, works.contents]
    rfl
  refine ⟨by rw [same], by rw [same], by rw [same], output, fun yarn => ?_⟩
  rw [Context.perform, foldl_usedCarrier works.action_ne, get?_retarget, foldl_emit]
  rfl

theorem settles (works : Works c p op) : c.output.Settles (c.perform p).output := by
  rw [works.perform.2.2.2.1]
  exact Output.settles_emit _ _

private theorem nearby_here (ready : Ready c p) : p.here.Nearby :=
  Nat.le_succ_of_le ready.near

private theorem filled_loopsAfter (works : Works c p op) (sound : c.Sound) :
    (c.loopsAfter p).Filled := by
  have before : c.loops.Filled := sound.filled
  cases works with
  | knit action filled =>
    simp only [loopsAfter, action]
    exact before.insert _ (List.length_pos_iff.2 filled)
  | tuck action =>
    simp only [loopsAfter, action]
    exact before.insert _ (Nat.succ_pos _)
  | split action filled =>
    simp only [loopsAfter, action]
    exact (before.move _ _).insert _ (List.length_pos_iff.2 filled)
  | drop action =>
    simp only [loopsAfter, action]
    exact before.erase _
  | transfer action =>
    simp only [loopsAfter, action]
    exact before.move _ _

theorem sound (works : Works c p op) (sound : c.Sound) (ready : Ready c p) :
    (c.perform p).Sound := by
  obtain ⟨carriers, loops, racking, output, stages⟩ := works.perform
  have formed : (Content.operation op).Tidy := works.wellFormed sound ready
  refine {
    table := carriers ▸ sound.table
    named := carriers ▸ sound.named
    tidy := output ▸ sound.tidy.emit formed
    owned := ?_
    waiting := ?_
    active := ?_
    filled := loops ▸ works.filled_loopsAfter sound
    racked := racking ▸ sound.racked }
  · intro yarn stage there
    rw [stages] at there
    rw [carriers]
    split at there
    · next mine =>
      obtain ⟨carrier, member, same⟩ := List.mem_map.1 mine
      exact ⟨carrier, ready.listed carrier member, same⟩
    · obtain ⟨stage', before, _⟩ := Option.map_eq_some_iff.1 there
      exact sound.owned yarn stage' before
  · intro yarn slot pending
    rw [stages] at pending
    split at pending
    · cases pending
    · obtain ⟨stage, before, same⟩ := Option.map_eq_some_iff.1 pending
      cases stage with
      | active => cases same
      | pending =>
        cases same
        obtain ⟨carrier, there, owned⟩ := sound.waiting yarn slot before
        have old : slot ≠ c.output.slots.size := Nat.ne_of_lt (Output.content?_lt there)
        exact ⟨carrier, by rw [output, Output.content?_emit, if_neg old, there], owned⟩
  · intro yarn parked attached active
    rw [stages] at active
    rw [racking]
    split at active
    · cases active
      exact ⟨(nearby_here ready).inReach sound.racked, nearby_here ready⟩
    · obtain ⟨stage, before, same⟩ := Option.map_eq_some_iff.1 active
      cases stage with
      | pending => cases same
      | active parked' attached' =>
        cases same
        obtain ⟨reach, near⟩ := sound.active yarn parked' attached' before
        refine ⟨?_, works.nearby_moved near⟩
        unfold Location.InReach at reach ⊢
        rwa [works.column_moved]

end Works

/-! ## What the machine does -/

section
variable {final : Output} {worked : Yarn → Prop} {fresh : Yarn → Location → Prop} {s : State}

/-- The strand of a carrier in action. -/
theorem strand_active {needle : Needle} {carrier : Carrier} {parked attached : Location}
    (active : c.stages.get? carrier.yarn = some (.active parked attached)) :
    c.strand needle carrier = ⟨carrier.yarn,
      .ofNat (needle.column c.racking - attached.needle.column c.racking).natAbs⟩ := by
  simp [strand, active]

/-- Where the carriage comes from is the needle before. -/
theorem column_needle_approach (request : Request) (racking : Int) :
    (request.needle.column racking -
      (approach request).needle.column racking).natAbs = 1 := by
  obtain ⟨work, direction, ⟨bed, index⟩, carriers, synonym⟩ := request
  cases bed <;> cases direction <;> simp only [approach, Needle.column, Direction.step] <;> omega

namespace Works

/-- The lengths of a stitch are right. -/
theorem measured (works : Works c p op) (sound : c.Sound) (ready : Ready c p)
    (mirrors : Mirrors final worked fresh c s)
    (due : ∀ yarn location, fresh yarn location → location = approach p.request) :
    op.Measured (final.before c.output.slots.size) := by
  intro needle strands forms strand member t run
  obtain ⟨rfl, rfl⟩ := works.formed forms
  have same : s = t := Except.ok.inj (mirrors.recorded.run.symm.trans run)
  subst same
  obtain ⟨carrier, listed, rfl⟩ := List.mem_map.1 member
  obtain ⟨parked, attached, active, _⟩ := ready.parked carrier listed
  have agrees := mirrors.yarns carrier.yarn
  rw [strand_active active, mirrors.racking]
  have small : (p.request.needle.column c.racking -
      attached.needle.column c.racking).natAbs < 9007199254740992 := by
    have one := Location.natAbs_needle_column p.request.needle c.racking
    have two := Location.natAbs_needle_column attached.needle c.racking
    have near := ready.near
    have near' := (sound.active _ _ _ active).2
    have racked := sound.racked
    unfold maxRacking at racked
    unfold maxNeedleIndex at near
    unfold Location.Nearby maxNeedleIndex at near'
    omega
  refine ⟨?_, ?_⟩
  · intro location there
    rw [agrees.attached_eq active location there] at small ⊢
    exact Length.isNat_ofNat small
  · intro untouched
    have fresh' := agrees.fresh parked attached active untouched
    rw [due _ _ fresh', column_needle_approach]
    exact Length.isNat_ofNat (by decide)

private theorem waiting (ready : Ready c p) (mirrors : Mirrors final worked fresh c s) :
    s.Waiting p.request.needle p.request.direction p.yarns := by
  intro yarn member
  obtain ⟨carrier, listed, rfl⟩ := List.mem_map.1 member
  obtain ⟨parked, attached, active, column⟩ := ready.parked carrier listed
  rw [(mirrors.yarns carrier.yarn).column active, mirrors.racking, column,
    column_approach_eq]

/-- The machine does the operation of a stitch as the lowering has it. -/
theorem apply (works : Works c p op) (sound : c.Sound) (ready : Ready c p)
    (mirrors : Mirrors final worked fresh c s) :
    ∃ s', s.apply op = .ok s' ∧ s'.racking = s.racking ∧ s'.loops = c.loopsAfter p ∧
      (∀ yarn, s'.carriers.get? yarn =
        if yarn ∈ p.yarns then some (p.here.column c.racking) else s.carriers.get? yarn) ∧
      ∀ yarn, s'.attachments.get? yarn =
        if yarn ∈ p.yarns then some p.here else (s.attachments.get? yarn).map p.moved := by
  have fits : p.request.needle.InColumns s.racking :=
    mirrors.racking ▸ ((nearby_here ready).inReach sound.racked).inColumns
  have waits := waiting ready mirrors
  have yarns : yarnsOf (p.carriers.map (c.strand p.request.needle)) = p.yarns :=
    c.yarnsOf_strands p.request.needle p.carriers
  have column : p.request.needle.column s.racking + p.request.direction.feederOffset =
      p.here.column c.racking := by rw [mirrors.racking]; rfl
  have still (same : p.moved = id) (yarn : Yarn) :
      (s.attachments.get? yarn).map p.moved = s.attachments.get? yarn := by
    rw [same, Option.map_id_fun, id_eq]
  cases works with
  | knit action filled =>
    rw [← yarns] at waits
    refine ⟨_, State.apply_knit fits (by simpa using filled) waits, rfl, ?_, ?_, ?_⟩
    · simp only [State.attach, State.park, loopsAfter, action, mirrors.loops, List.length_map]
    · intro yarn
      rw [State.get?_park, yarns, column]
      rfl
    · intro yarn
      rw [still (by simp [Plan.moved, action]), ← yarns]
      exact State.get?_attach _ _ _ _
  | tuck action single =>
    obtain ⟨carrier, alone⟩ := List.length_eq_one_iff.1 single
    have strands : p.carriers.map (c.strand p.request.needle) =
        [c.strand p.request.needle carrier] := by rw [alone]; rfl
    rw [strands] at yarns ⊢
    rw [← yarns] at waits
    refine ⟨_, State.apply_tuck fits waits, rfl, ?_, ?_, ?_⟩
    · simp only [State.attach, State.park, loopsAfter, action, mirrors.loops, State.loopCount]
    · intro yarn
      rw [State.get?_park, yarns, column]
      rfl
    · intro yarn
      rw [still (by simp [Plan.moved, action]), ← yarns]
      exact State.get?_attach _ _ _ _
  | @split target action filled aligned =>
    rw [← yarns] at waits
    refine ⟨_, State.apply_split fits (by simpa using filled) aligned.1
      (mirrors.racking ▸ aligned.2.1) waits, rfl, ?_, ?_, ?_⟩
    · simp only [State.attach, State.park, State.moveAttachments, loopsAfter, action,
        mirrors.loops, List.length_map]
    · intro yarn
      rw [State.get?_park, yarns, column]
      rfl
    · intro yarn
      refine (State.get?_attach _ _ _ _).trans ?_
      rw [yarns, State.get?_moveAttachments]
      simp only [Plan.moved, action, Plan.here]
  | drop action bare loaded =>
    have none : p.yarns = [] := by rw [Plan.yarns, bare]; rfl
    have some : s.loopCount p.request.needle ≠ 0 := by
      obtain ⟨count, there⟩ := Option.isSome_iff_exists.1 loaded
      rw [State.loopCount, Loops.count, mirrors.loops, there]
      exact Nat.ne_of_gt (sound.filled _ count there)
    refine ⟨_, State.apply_drop some, rfl, ?_, ?_, ?_⟩
    · simp only [loopsAfter, action, mirrors.loops]
    · intro yarn
      rw [none, if_neg (List.not_mem_nil)]
    · intro yarn
      rw [none, if_neg (List.not_mem_nil), still (by simp [Plan.moved, action])]
  | @transfer target action bare aligned =>
    have none : p.yarns = [] := by rw [Plan.yarns, bare]; rfl
    refine ⟨_, State.apply_transfer fits aligned.1 (mirrors.racking ▸ aligned.2.1), rfl, ?_, ?_, ?_⟩
    · simp only [State.moveLoops, State.moveAttachments, loopsAfter, action, mirrors.loops]
    · intro yarn
      rw [none, if_neg (List.not_mem_nil)]
      rfl
    · intro yarn
      rw [none, if_neg (List.not_mem_nil), State.get?_moveAttachments]
      simp only [Plan.moved, action, State.moveLoops]

/-- After a stitch the machine and the lowering agree again, no carrier is fresh, and the carriers
of the stitch have formed a loop. -/
theorem mirrors (works : Works c p op) (sound : c.Sound) (ready : Ready c p)
    (mirrors : Mirrors final worked fresh c s)
    (due : ∀ yarn location, fresh yarn location →
      yarn ∈ p.yarns ∧ location = approach p.request)
    (settles : (c.perform p).output.Settles final) :
    final.before (c.perform p).output.slots.size =
        final.before c.output.slots.size ++ [op] ∧
      ∃ s', Mirrors final (fun yarn => worked yarn ∨ yarn ∈ p.yarns) (fun _ _ => False)
        (c.perform p) s' := by
  obtain ⟨carriers, loops, racking, output, stages⟩ := works.perform
  obtain ⟨s', applied, racking', loops', column, attached⟩ := works.apply sound ready mirrors
  have size : (c.perform p).output.slots.size = c.output.slots.size + 1 := by
    rw [output, Output.size_emit]
  have there : final.content? c.output.slots.size = some (.operation op) :=
    settles.operation (by rw [output, Output.content?_emit, if_pos rfl])
  obtain ⟨recorded, more⟩ := mirrors.recorded.step there applied
    (works.measured sound ready mirrors fun yarn location fresh => (due yarn location fresh).2)
  rw [← size] at recorded more
  refine ⟨more, s', recorded, by rw [racking', mirrors.racking, racking], by rw [loops', loops], ?_⟩
  intro yarn
  have agrees := mirrors.yarns yarn
  have named : Untouched yarn (final.before (c.perform p).output.slots.size) →
      yarn ∉ p.yarns ∧ Untouched yarn (final.before c.output.slots.size) := by
    intro untouched
    rw [more] at untouched
    rcases untouched.of_concat with ⟨_, _, same⟩ | ⟨absent, before⟩
    · subst same
      cases works
    · rw [works.yarns] at absent
      exact ⟨absent, before⟩
  -- the yarns of the stitch are attached anew, those of other carriers follow the loops that move
  by_cases mine : yarn ∈ p.yarns
  · refine .active (by rw [stages, if_pos mine]) (by rw [column, if_pos mine, racking])
      ?_ (fun _ => by rw [attached, if_pos mine]; rfl)
      fun untouched => (named untouched).1 mine
    intro location there
    rw [attached, if_pos mine] at there
    exact Option.some.inj there
  · have moved : (c.perform p).stages.get? yarn = (c.stages.get? yarn).map (movedStage p) := by
      rw [stages, if_neg mine]
    have column' : s'.carriers.get? yarn = s.carriers.get? yarn := by rw [column, if_neg mine]
    have attached' : s'.attachments.get? yarn = (s.attachments.get? yarn).map p.moved := by
      rw [attached, if_neg mine]
    cases stage : c.stages.get? yarn with
    | none =>
      obtain ⟨out, loose⟩ := agrees.idle stage
      exact .absent (by rw [moved, stage]; rfl) (by rw [column', out])
        (by rw [attached', loose]; rfl)
    | some stage' =>
      rw [stage] at moved
      cases stage' with
      | pending slot =>
        obtain ⟨loose, idle⟩ := agrees.loose stage
        exact .pending moved (by rw [column', agrees.carrier, stage]; rfl)
          (by rw [attached', loose]; rfl) fun busy => busy.elim idle mine
      | active parked location =>
        refine .active moved ?_ ?_ ?_ ?_
        · rw [column', agrees.column stage, racking, works.column_moved]
        · intro target there
          rw [attached'] at there
          obtain ⟨location', before, rfl⟩ := Option.map_eq_some_iff.1 there
          rw [agrees.attached_eq stage location' before]
        · intro busy
          rw [attached', Option.isSome_map]
          exact agrees.worked (busy.resolve_right mine) (by rw [stage]; rfl)
        · intro untouched
          exact mine (due yarn location
            (agrees.fresh parked location stage (named untouched).2)).1

end Works

end

end Context

end Knitout
