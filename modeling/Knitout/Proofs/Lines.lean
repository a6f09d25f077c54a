import Knitout.Proofs.Source
import Knitout.Proofs.Work

/-!
What lowering one line does (`Context.LineStep`): quiet steps, and behind them at most one stitch,
the one that the line asks for on the loops that are there. The machine follows each line
(`Context.LineStep.follow`).
-/

namespace Knitout

namespace Context

/-! ## One line -/

/-- The line brings in a carrier with this yarn. -/
def Enters (c : Context) (line : Text) (yarn : Yarn) : Prop :=
  ∃ carrier ∈ c.carriers.carriers, carrier.yarn = yarn ∧ bringsIn carrier.name line = true

/-- A first use of a yarn comes from where the carriage of the plan comes from. -/
def Due (p : Plan) (yarn : Yarn) (location : Location) : Prop :=
  yarn ∈ p.yarns ∧ location = approach p.request

/-- What lowering a line does: quiet steps alone, or behind them a miss or a stitch. -/
inductive LineStep (line : Text) (c : Context) : Context → Prop
  | quiet {c' : Context} (moves : Moves (c.Enters line) (fun _ _ => False) c c')
      (none : sourceStitch? c.carriers c'.hasLoops line = none)
      (idle : ∀ name, formsWith name line = false) : LineStep line c c'
  | miss {m : Context} {p : Plan} (moves : Moves (c.Enters line) (Due p) c m) (ready : Ready m p)
      (action : p.action = .miss) (none : sourceStitch? c.carriers m.hasLoops line = none)
      (idle : ∀ name, formsWith name line = false) : LineStep line c (m.perform p)
  | work {m : Context} {p : Plan} {op : Operation} (moves : Moves (c.Enters line) (Due p) c m)
      (ready : Ready m p) (works : Works m p op)
      (stitch : sourceStitch? c.carriers m.hasLoops line = op.stitch?)
      (forms : ∀ carrier ∈ c.carriers.carriers, formsWith carrier.name line = true →
        carrier.yarn ∈ p.yarns) : LineStep line c (m.perform p)

section
variable {c c' : Context} {request : Request} {p : Plan}

private theorem hasLoops_moves {entering : Yarn → Prop} {settling : Yarn → Location → Prop}
    (moves : Moves entering settling c c') : c'.hasLoops = c.hasLoops := by
  funext needle
  rw [hasLoops, hasLoops, moves.keeps.2]

/-- A plan has the carriers that its request names, and none for a synonym. -/
theorem plan_ok (planned : c.plan request = .ok p) :
    p.request = request ∧ c.carriers.resolve request.carriers = .ok p.carriers ∧
      p.action = request.work.action (c.hasLoops request.needle) (!request.carriers.isEmpty) ∧
      (request.synonym.isSome = true → request.carriers = []) := by
  unfold plan at planned
  simp only at planned
  split at planned
  · cases planned
  · next allowed =>
    split at planned
    · cases planned
    · split at planned
      · cases planned
      · next carriers resolved =>
        cases planned
        refine ⟨rfl, resolved, rfl, ?_⟩
        intro written
        obtain ⟨synonym, spelled⟩ := Option.isSome_iff_exists.1 written
        by_contra named
        exact allowed synonym spelled (by simpa using named)

theorem lowerRequest_ok (done : c.lowerRequest request = .ok c') :
    ∃ p m, c.plan request = .ok p ∧ c.checkPlan p = .ok () ∧
      c.positionAll (approach request) p.carriers = .ok m ∧ c' = m.perform p := by
  obtain ⟨p, planned, done⟩ := Except.bind_ok done
  obtain ⟨_, checked, done⟩ := Except.bind_ok done
  obtain ⟨m, placed, done⟩ := Except.bind_ok done
  cases done
  exact ⟨p, m, planned, checked, placed, rfl⟩

private theorem aligned_of_checkAligned {needle target : Needle}
    (checked : c.checkAligned needle target = .ok ())
    (near : target.index.natAbs ≤ maxNeedleIndex) : c.Aligned needle target := by
  unfold checkAligned at checked
  split at checked
  · cases checked
  · next opposite =>
    split at checked
    · cases checked
    · next aligned => exact ⟨opposite, Decidable.not_not.1 aligned, near⟩

theorem approach_nearby (near : request.needle.index.natAbs ≤ maxNeedleIndex) :
    (approach request).Nearby := by
  have one := request.direction.natAbs_step
  unfold Location.Nearby approach
  simp only
  omega

/-- A plan without carriers that only remarks is performed by a remark. -/
private theorem perform_remark {note : Remark} (bare : p.carriers = [])
    (contents : c.contents p = [.remark note]) (loops : c.loopsAfter p = c.loops)
    (still : ∀ target, p.action ≠ .split target ∧ p.action ≠ .transfer target) :
    c.perform p = c.emit (.remark note) := by
  unfold perform
  rw [contents, loops, bare]
  unfold retarget
  split
  · next target action => exact absurd action (still target).1
  · next target action => exact absurd action (still target).2
  · rfl

/-- A request without carriers is a remark, a drop or a transfer. -/
private theorem bare_step {line : Text} (ready : Ready c p) (bare : p.carriers = [])
    (checked : c.checkPlan p = .ok ())
    (action : p.action = p.request.work.action (c.hasLoops p.request.needle) false)
    (near : ∀ target, p.request.work = .split target → target.index.natAbs ≤ maxNeedleIndex)
    (stitch : sourceStitch? c.carriers c.hasLoops line = p.request.stitch? c.hasLoops [])
    (idle : ∀ name, formsWith name line = false) : LineStep line c (c.perform p) := by
  have forms : ∀ carrier ∈ c.carriers.carriers, formsWith carrier.name line = true →
      carrier.yarn ∈ p.yarns := by
    intro carrier _ formed
    rw [idle] at formed
    cases formed
  unfold Request.stitch? at stitch
  cases work : p.request.work with
  | miss =>
    rw [work] at action stitch
    exact .miss .refl ready action stitch idle
  | tuck =>
    rw [work] at action stitch
    have remarked : c.perform p = c.emit (.remark .amissIgnored) :=
      perform_remark bare (by simp [contents, action, LoopWork.action])
        (by simp [loopsAfter, action, LoopWork.action]) (by simp [action, LoopWork.action])
    rw [remarked]
    exact .quiet (.single (.remark _)) stitch idle
  | knit =>
    rw [work] at action stitch
    cases holds : c.hasLoops p.request.needle with
    | true =>
      rw [holds] at action
      refine .work .refl ready (.drop action bare holds) (stitch.trans ?_) forms
      simp [knitStitch?, dropStitch?, holds, Operation.stitch?]
    | false =>
      rw [holds] at action
      have remarked : c.perform p = c.emit (.remark .emptyDropIgnored) :=
        perform_remark bare (by simp [contents, action, LoopWork.action])
          (by simp [loopsAfter, action, LoopWork.action]) (by simp [action, LoopWork.action])
      rw [remarked]
      refine .quiet (.single (.remark _)) (Eq.trans stitch ?_) idle
      simp [knitStitch?, dropStitch?, holds]
  | split target =>
    rw [work] at action stitch
    have transfer : p.action = .transfer target := action
    unfold checkPlan at checked
    rw [transfer] at checked
    have aligned := aligned_of_checkAligned checked (near target work)
    refine .work .refl ready (.transfer transfer bare aligned) (stitch.trans ?_) forms
    simp [splitStitch?, Operation.stitch?]

/-- A plan that tucks has one carrier, or it would not have been accepted. -/
private theorem works_tuck {m : Context} (named : p.carriers ≠ []) (checked : c.checkPlan p = .ok ())
    (tucks : p.action = .tuck) : Works m p (.tuck p.request.direction p.request.needle stitchSize
      (p.carriers.map (m.strand p.request.needle))) := by
  refine .tuck tucks ?_
  unfold checkPlan at checked
  rw [tucks] at checked
  simp only at checked
  split at checked
  · cases checked
  · next few =>
    have some := List.length_pos_iff.2 named
    omega

/-- A request with carriers is a miss, or a stitch that takes them all. -/
private theorem named_step {line : Text} {m : Context}
    (moves : Moves (c.Enters line) (Due p) c m) (ready : Ready m p) (named : p.carriers ≠ [])
    (racking : m.racking = c.racking) (checked : c.checkPlan p = .ok ())
    (action : p.action = p.request.work.action (m.hasLoops p.request.needle) true)
    (near : ∀ target, p.request.work = .split target → target.index.natAbs ≤ maxNeedleIndex)
    (stitch : sourceStitch? c.carriers m.hasLoops line = p.request.stitch? m.hasLoops p.yarns)
    (forms : ∀ carrier ∈ c.carriers.carriers, formsWith carrier.name line = true →
      carrier.yarn ∈ p.yarns)
    (idle : p.request.work = .miss → ∀ name, formsWith name line = false) :
    LineStep line c (m.perform p) := by
  have yarns : p.yarns ≠ [] := by simpa [Plan.yarns] using named
  have worked {op : Operation} (works : Works m p op) :
      op.stitch? = p.request.stitch? m.hasLoops p.yarns → LineStep line c (m.perform p) :=
    fun made => .work moves ready works (stitch.trans made.symm) forms
  have strands : yarnsOf (p.carriers.map (m.strand p.request.needle)) = p.yarns :=
    m.yarnsOf_strands p.request.needle p.carriers
  unfold Request.stitch? at stitch worked
  cases work : p.request.work with
  | miss =>
    rw [work] at action stitch
    exact .miss moves ready action stitch (idle work)
  | tuck =>
    rw [work] at action worked
    refine worked (works_tuck named checked action) ?_
    simp [Operation.stitch?, tuckStitch?, strands, yarns]
  | knit =>
    rw [work] at action worked
    cases holds : m.hasLoops p.request.needle with
    | true =>
      rw [holds] at action
      refine worked (.knit action named) ?_
      simp [Operation.stitch?, knitStitch?, strands, yarns, holds]
    | false =>
      rw [holds] at action
      refine worked (works_tuck named checked action) ?_
      simp [Operation.stitch?, knitStitch?, strands, yarns, holds]
  | split target =>
    rw [work] at action worked
    cases holds : m.hasLoops p.request.needle with
    | true =>
      rw [holds] at action
      have splits : p.action = .split target := action
      unfold checkPlan at checked
      rw [splits] at checked
      have aligned := aligned_of_checkAligned checked (near target work)
      refine worked (.split splits named ⟨aligned.1, racking ▸ aligned.2.1, aligned.2.2⟩) ?_
      simp [Operation.stitch?, splitStitch?, strands, yarns, holds]
    | false =>
      rw [holds] at action
      refine worked (works_tuck named checked action) ?_
      simp [Operation.stitch?, splitStitch?, strands, yarns, holds]

private theorem request_step {line : Text} (sound : c.Sound)
    (read : Command.ofLine line = .ok (some (.loops request)))
    (done : c.lowerRequest request = .ok c') : LineStep line c c' := by
  obtain ⟨p, m, planned, checked, placed, rfl⟩ := lowerRequest_ok done
  obtain ⟨asked, resolved, action, bare⟩ := plan_ok planned
  subst asked
  obtain ⟨near, nearTarget⟩ := Command.near_ofLine read
  have distinct := CarrierTable.nodup_resolve sound.table resolved
  have listed : ∀ carrier ∈ p.carriers, carrier ∈ c.carriers.carriers :=
    fun carrier member => (CarrierTable.mem_of_resolve resolved member).1
  have walked : Moves (c.Enters line) (Due p) c m ∧ _ :=
    moves_positionAll sound listed distinct (approach_nearby near)
      (fun carrier member => ⟨List.mem_map_of_mem member, rfl⟩) placed
  obtain ⟨moves, racking, parked, _⟩ := walked
  have ready : Ready m p :=
    ⟨fun carrier member => moves.keeps.1 ▸ listed carrier member, distinct,
      fun carrier member => racking ▸ parked carrier member, near⟩
  have holds : m.hasLoops = c.hasLoops := hasLoops_moves moves
  obtain ⟨stitch, forms⟩ := Command.stitch_ofLine read bare resolved m.hasLoops
  have names := CarrierTable.resolve_eq_nil resolved
  by_cases none : p.carriers = []
  · have names : p.request.carriers = [] := names.1 none
    rw [none] at placed
    cases placed
    refine bare_step ready none checked (by rw [action, names]; rfl) nearTarget
      (by rw [stitch, none]; rfl) ?_
    intro name
    by_contra formed
    have member := (forms name (by simpa using formed)).1
    rw [names] at member
    cases member
  · have names : p.request.carriers.isEmpty = false := by
      rw [List.isEmpty_eq_false_iff]
      exact mt names.2 none
    refine named_step moves ready none racking checked (by rw [action, names, holds]; rfl)
      nearTarget stitch ?_ ?_
    · intro carrier inside formed
      exact List.mem_map_of_mem
        (CarrierTable.mem_resolve sound.table resolved inside (forms _ formed).1)
    · intro work name
      by_contra formed
      exact (forms name (by simpa using formed)).2 work

/-- Lowering a line takes the steps that its text asks for. -/
theorem step_of_lowerLine {line : Text} {number : Nat} (sound : c.Sound) (whole : '\n' ∉ line)
    (done : c.lowerLine number line = .ok c') : LineStep line c c' := by
  let begun : Context := { c with output := c.output.beginLine line }
  have first {settling : Yarn → Location → Prop} : Moves (c.Enters line) settling c begun :=
    .single (.beginLine whole)
  have sound' : begun.Sound :=
    { sound with tidy := sound.tidy.beginLine whole, waiting := sound.waiting }
  unfold lowerLine at done
  simp only at done
  split at done
  · cases done
  · next command read =>
    have quiet (other : ∀ request, command ≠ .loops request)
        (moves : Moves (c.Enters line) (fun _ _ => False) begun c') : LineStep line c c' := by
      obtain ⟨none, idle⟩ := Command.quiet_ofLine read (fun request same =>
        other request (Option.some.inj same)) c.carriers c'.hasLoops
      exact .quiet (first.trans moves) none idle
    cases command with
    | bringIn names =>
      refine quiet (by simp) (moves_forEach ?_ done)
      intro d d' name same member step
      refine moves_bringIn step ?_
      intro carrier found
      obtain ⟨listed, rfl⟩ := CarrierTable.find?_eq_some found
      exact ⟨carrier, same ▸ listed, rfl, Command.bringsIn_ofLine read _ member⟩
    | bringOut names =>
      exact quiet (by simp) (moves_forEach (fun d d' name _ _ step => moves_bringOut step) done)
    | idle | stitch | stitchNumber | setting =>
      cases done
      exact quiet (by simp) .refl
    | rack target =>
      cases done
      exact quiet (by simp) (moves_rack sound' (Command.near_rack_ofLine read))
    | vendor word =>
      cases done
      exact quiet (by simp) (.single (.warn _ _ _))
    | loops request =>
      have step := request_step sound' read done
      cases step with
      | quiet moves none idle => exact .quiet (first.trans moves) none idle
      | miss moves ready action none idle =>
        exact .miss (first.trans moves) ready action none idle
      | work moves ready works stitch forms =>
        exact .work (first.trans moves) ready works stitch forms
  · next read =>
    obtain ⟨none, idle⟩ := Command.quiet_ofLine read (by simp) c.carriers c'.hasLoops
    refine .quiet (first.trans ?_) none idle
    cases done
    split
    · exact .single (.remark _)
    · exact .refl

end

/-! ## The machine follows -/

section
variable {final : Output} {worked : Yarn → Prop} {c c' : Context} {s : State} {line : Text}

/-- Operations that are added are done behind those before. -/
theorem before_foldl_emit {ops : List Operation}
    (settles : ((ops.map Content.operation).foldl emit c).output.Settles final) :
    c.output.Settles final ∧
      final.before ((ops.map Content.operation).foldl emit c).output.slots.size =
        final.before c.output.slots.size ++ ops := by
  induction ops generalizing c with
  | nil => exact ⟨settles, (List.append_nil _).symm⟩
  | cons op rest ih =>
    obtain ⟨settles', tail⟩ := ih (c := c.emit (.operation op)) settles
    have there : final.content? c.output.slots.size = some (.operation op) :=
      settles'.operation (by rw [emit, Output.content?_emit, if_pos rfl])
    refine ⟨(Output.settles_emit _ _).trans settles', tail.trans ?_⟩
    rw [emit, Output.size_emit, Output.before_succ there, List.append_assoc]
    rfl

namespace LineStep

private theorem moves_miss {entering : Yarn → Prop} {settling : Yarn → Location → Prop}
    {m : Context} {p : Plan} (ready : Ready m p) (action : p.action = .miss) (sound : m.Sound) :
    Moves entering settling m (m.perform p) := by
  have near : p.here.Nearby := Nat.le_succ_of_le ready.near
  exact moves_perform_miss action ready.listed ready.distinct ready.parked
    (near.inReach sound.racked)

theorem keeps (step : LineStep line c c') (sound : c.Sound) : c'.carriers = c.carriers := by
  cases step with
  | quiet moves => exact moves.keeps.1
  | miss moves ready action =>
    have misses : Moves (c.Enters line) (fun _ _ => False) _ _ :=
      moves_miss ready action (moves.sound sound)
    rw [misses.keeps.1, moves.keeps.1]
  | work moves ready works => rw [works.perform.1, moves.keeps.1]

theorem sound (step : LineStep line c c') (sound : c.Sound) : c'.Sound := by
  cases step with
  | quiet moves => exact moves.sound sound
  | miss moves ready action =>
    have misses : Moves (c.Enters line) (fun _ _ => False) _ _ :=
      moves_miss ready action (moves.sound sound)
    exact misses.sound (moves.sound sound)
  | work moves ready works => exact works.sound (moves.sound sound) ready

theorem settles (step : LineStep line c c') (sound : c.Sound) :
    c.output.Settles c'.output := by
  cases step with
  | quiet moves => exact moves.settles sound
  | miss moves ready action =>
    have misses : Moves (c.Enters line) (fun _ _ => False) _ _ :=
      moves_miss ready action (moves.sound sound)
    exact (moves.settles sound).trans (misses.settles (moves.sound sound))
  | work moves ready works => exact (moves.settles sound).trans works.settles

end LineStep

end

end Context

/-- A block of operations behind others answers for a line: some that make no stitch, and behind them
the stitch that the line asks for, if it asks for one on the loops that the machine then holds. -/
def Answers (t : CarrierTable) (earlier : List Operation) (line : Text)
    (block : List Operation) : Prop :=
  ∃ quiet work s, block = quiet ++ work ∧ (∀ op ∈ quiet, op.stitch? = none) ∧
    State.initial.applyAll (earlier ++ quiet) = .ok s ∧
    work.map Operation.stitch? = (sourceStitch? t s.holds line).toList.map some

namespace Context

section
variable {final : Output} {worked : Yarn → Prop} {fresh : Yarn → Location → Prop}
  {c c' m : Context} {s : State} {line : Text}

/-- The line forms a loop with this yarn. -/
def Forms (c : Context) (line : Text) (yarn : Yarn) : Prop :=
  ∃ carrier ∈ c.carriers.carriers, carrier.yarn = yarn ∧ formsWith carrier.name line = true

theorem holds_eq (sound : c.Sound) (mirrors : Mirrors final worked fresh c s) :
    s.holds = c.hasLoops := by
  funext needle
  unfold State.holds State.loopCount Loops.count hasLoops Table.contains
  rw [mirrors.loops]
  cases there : c.loops.get? needle with
  | none => rfl
  | some count => simpa using sound.filled needle count there

/-- What quiet steps add makes no stitches. -/
private theorem quiet_block {entering : Yarn → Prop} {settling : Yarn → Location → Prop}
    (moves : Moves entering settling c m) (sound : c.Sound) (settles : m.output.Settles final) :
    ∃ quiet, final.before m.output.slots.size = final.before c.output.slots.size ++ quiet ∧
      ∀ op ∈ quiet, op.stitch? = none := by
  obtain ⟨quiet, more⟩ := final.before_append (moves.settles sound).size_le
  refine ⟨quiet, more, ?_⟩
  have same := moves.stitches sound settles
  rw [more, List.filterMap_append] at same
  exact List.filterMap_eq_nil_iff.1 (List.append_cancel_left (same.trans (List.append_nil _).symm))

/-- Quiet steps alone answer for a line that asks for no stitch. -/
private theorem answers_quiet {entering : Yarn → Prop} {settling : Yarn → Location → Prop}
    (moves : Moves entering settling c m) (sound : c.Sound) (settles : m.output.Settles final)
    (mirrors : Mirrors final worked fresh m s)
    (none : sourceStitch? c.carriers m.hasLoops line = none) :
    ∃ block, final.before m.output.slots.size = final.before c.output.slots.size ++ block ∧
      Answers c.carriers (final.before c.output.slots.size) line block := by
  obtain ⟨quiet, more, silent⟩ := quiet_block moves sound settles
  refine ⟨quiet, more, quiet, [], s, (List.append_nil _).symm, silent, ?_, ?_⟩
  · rw [← more]
    exact mirrors.recorded.run
  · rw [holds_eq (moves.sound sound) mirrors, none]
    rfl

/-- After a miss none of its carriers is fresh any more. -/
private theorem not_untouched_miss {p : Plan} (action : p.action = .miss)
    (settles : (m.perform p).output.Settles final) {yarn : Yarn} (missed : yarn ∈ p.yarns) :
    ¬ Untouched yarn (final.before (m.perform p).output.slots.size) := by
  let ops : List Operation := p.carriers.map fun carrier =>
    .miss p.request.direction p.request.needle carrier.yarn
  have output : (m.perform p).output = ((ops.map Content.operation).foldl emit m).output := by
    rw [output_perform_miss action, List.map_map]
    rfl
  rw [output] at settles ⊢
  rw [(before_foldl_emit settles).2]
  refine not_untouched_append ?_ ?_
  · intro op member direction needle same
    obtain ⟨carrier, _, rfl⟩ := List.mem_map.1 member
    cases same
  · obtain ⟨carrier, listed, rfl⟩ := List.mem_map.1 missed
    exact ⟨_, List.mem_map_of_mem listed, List.mem_singleton.2 rfl⟩

namespace LineStep

/-- The machine follows a line, and what it is told by then answers for the line. -/
theorem follow (step : LineStep line c c') (sound : c.Sound) (settles : c'.output.Settles final)
    (mirrors : Mirrors final worked (fun _ _ => False) c s) :
    (∃ s', Mirrors final (fun yarn => worked yarn ∧ ¬ c.Enters line yarn ∨ c.Forms line yarn)
      (fun _ _ => False) c' s') ∧
    ∃ block, final.before c'.output.slots.size = final.before c.output.slots.size ++ block ∧
      Answers c.carriers (final.before c.output.slots.size) line block := by
  -- a yarn that the line brings in has formed no loop since
  let rested : Yarn → Prop := fun yarn => worked yarn ∧ ¬ c.Enters line yarn
  have start {fresh : Yarn → Location → Prop} : Mirrors final rested fresh c s :=
    mirrors.weaken (fun _ busy => busy.1) fun _ _ _ never => never.elim
  have still (idle : ∀ name, formsWith name line = false) (yarn : Yarn)
      (busy : worked yarn ∧ ¬ c.Enters line yarn ∨ c.Forms line yarn) : rested yarn := by
    refine busy.resolve_right ?_
    rintro ⟨carrier, _, _, formed⟩
    rw [idle] at formed
    cases formed
  cases step with
  | quiet moves none idle =>
    obtain ⟨s', after⟩ := moves.mirrors sound start settles (fun _ enters busy => busy.2 enters)
      fun _ _ never => never
    exact ⟨⟨s', after.weaken (still idle) fun _ _ _ never => never⟩,
      answers_quiet moves sound settles after none⟩
  | @miss m p moves ready action none idle =>
    have sound' := moves.sound sound
    have misses : Moves (c.Enters line) (Due p) m (m.perform p) := moves_miss ready action sound'
    have whole : Moves (c.Enters line) (Due p) c (m.perform p) := moves.trans misses
    obtain ⟨s', after⟩ := whole.mirrors sound start settles (fun _ enters busy => busy.2 enters)
      fun _ _ due => due
    have holds : (m.perform p).hasLoops = m.hasLoops := hasLoops_moves misses
    refine ⟨⟨s', after.weaken (still idle) ?_⟩,
      answers_quiet whole sound settles after (by rw [holds, none])⟩
    intro yarn location untouched due
    exact not_untouched_miss action settles due.1 untouched
  | @work m p op moves ready works stitch forms =>
    have sound' := moves.sound sound
    obtain ⟨t, between⟩ := moves.mirrors sound start (works.settles.trans settles)
      (fun _ enters busy => busy.2 enters) fun _ _ due => due
    obtain ⟨more, s', after⟩ := works.mirrors sound' ready between (fun _ _ due => due) settles
    obtain ⟨quiet, less, silent⟩ := quiet_block moves sound (works.settles.trans settles)
    refine ⟨⟨s', after.weaken (fun yarn busy => busy.imp_right ?_) fun _ _ _ never => never⟩,
      quiet ++ [op], by rw [more, less, List.append_assoc], quiet, [op], t, rfl, silent, ?_, ?_⟩
    · rintro ⟨carrier, listed, rfl, formed⟩
      exact forms carrier listed formed
    · rw [← less]
      exact between.recorded.run
    · rw [holds_eq sound' between, stitch]
      obtain ⟨made, some⟩ : ∃ made, op.stitch? = some made := by
        cases works <;> exact ⟨_, rfl⟩
      rw [List.map_singleton, some]
      rfl

end LineStep

end

end Context

end Knitout
