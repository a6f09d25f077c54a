import Knitout.Proofs.Run

/-!
What a lowering puts out is a program without faults, and the machine that replays it ends up where
the lowering does: with the same loops, the same racking, and the feeders and the attachments of the
carriers in action (`Context.Carried`).
-/

namespace Knitout

/-! ## Loops and racking -/

/-- The text of a lowering can be read, no instruction of it is refused, and the replay ends with
the loops and the racking of the lowering. Yarns are 32-bit numbers, so a file may not name more
carriers than these can count. -/
theorem check_lower {source : Text} {lowered : Lowered} (done : lower source = .ok lowered)
    (few : lowered.headers.carriers.length ≤ maxHalfWord) :
    (check lowered.text).program.errors = [] ∧ (check lowered.text).replay.rejections = #[] ∧
      (check lowered.text).replay.final.loops = lowered.loops ∧
      (check lowered.text).replay.final.racking = lowered.racking := by
  obtain ⟨c, s, followed⟩ := followed_of_lower done few
  refine ⟨followed.errors, followed.rejections, ?_, ?_⟩
  · rw [followed.final, followed.loops, followed.mirrors.loops]
  · rw [followed.final, followed.racking, followed.mirrors.racking]

theorem check_lower_swatch :
    ∃ lowered, lower swatch = .ok lowered ∧
      (check lowered.text).program.errors = [] ∧ (check lowered.text).replay.rejections = #[] ∧
        (check lowered.text).replay.final.loops = lowered.loops ∧
        (check lowered.text).replay.final.racking = lowered.racking := by
  obtain ⟨lowered, done, few⟩ := lower_swatch
  exact ⟨lowered, done, check_lower done few⟩

/-! ## Carriers -/

namespace Context

/-- The carrier is in action, parked here and attached there. -/
def InAction (c : Context) (yarn : Yarn) (parked attached : Location) : Prop :=
  (∃ carrier ∈ c.carriers.carriers, carrier.yarn = yarn) ∧
    c.stages.get? yarn = some (.active parked attached)

/-- What the machine knows of the carriers, once it has done what the lowering of these lines put
out. -/
structure Carried (c : Context) (lines : List Text) (s : State) : Prop where
  /-- It has the feeders of the carriers in action and no others, where the lowering parks them. -/
  feeders : ∀ yarn column, s.carriers.get? yarn = some column ↔
    ∃ parked attached, c.InAction yarn parked attached ∧ column = parked.column c.racking
  /-- What is attached is in action, and attached where the lowering says. -/
  attachments : ∀ yarn location, s.attachments.get? yarn = some location →
    ∃ parked, c.InAction yarn parked location
  /-- A carrier in action without an attachment has done nothing but miss. -/
  loose : ∀ carrier ∈ c.carriers.carriers, ∀ parked attached,
    c.InAction carrier.yarn parked attached → s.attachments.get? carrier.yarn = none →
      OnlyMissed carrier.name lines

variable {c : Context} {s : State} {lines : List Text} {yarn : Yarn}

/-- A carrier that still waits when all is done has not been brought in. -/
private theorem column?_pending (sound : c.Sound) {slot : Nat}
    (pending : c.stages.get? yarn = some (.pending slot)) :
    (CarrierStage.pending slot).column? c.output c.racking = none := by
  obtain ⟨carrier, there, _⟩ := sound.waiting yarn slot pending
  rw [CarrierStage.column?, there]
  rfl

theorem carried_of_mirrors (sound : c.Sound)
    (mirrors : Mirrors c.output (Worked c.carriers lines) (fun _ _ => False) c s) :
    c.Carried lines s where
  feeders yarn column := by
    have agrees := mirrors.yarns yarn
    constructor
    · intro there
      rw [agrees.carrier] at there
      obtain ⟨stage, held, column⟩ := Option.bind_eq_some_iff.1 there
      cases stage with
      | pending slot =>
        rw [column?_pending sound held] at column
        cases column
      | active parked attached =>
        cases column
        exact ⟨parked, attached, ⟨sound.owned yarn _ held, held⟩, rfl⟩
    · rintro ⟨parked, attached, ⟨_, held⟩, rfl⟩
      exact agrees.column held
  attachments yarn location there := by
    have known := (mirrors.yarns yarn).attachment location there
    obtain ⟨stage, held, attached⟩ := Option.bind_eq_some_iff.1 known
    cases stage with
    | pending slot => cases attached
    | active parked attached' =>
      cases attached
      exact ⟨parked, sound.owned yarn _ held, held⟩
  loose carrier listed parked attached active loose := by
    by_contra busy
    have attached := (mirrors.yarns carrier.yarn).worked ⟨carrier, listed, rfl, busy⟩
      (by rw [active.2]; rfl)
    rw [loose] at attached
    cases attached

end Context

/-- At the end of a lowering the machine that replayed its text has the feeders and the attachments
of the carriers in action. -/
theorem carried_lower {source : Text} {lowered : Lowered} (done : lower source = .ok lowered)
    (few : lowered.headers.carriers.length ≤ maxHalfWord) :
    ∃ c, finalContext? source = some c ∧
      c.Carried (bodyLines source) (check lowered.text).replay.final := by
  obtain ⟨c, s, followed⟩ := followed_of_lower done few
  refine ⟨c, followed.context, ?_⟩
  rw [followed.final]
  exact Context.carried_of_mirrors followed.sound followed.mirrors

theorem carried_lower_swatch :
    ∃ lowered, lower swatch = .ok lowered ∧ ∃ c, finalContext? swatch = some c ∧
      c.Carried (bodyLines swatch) (check lowered.text).replay.final := by
  obtain ⟨lowered, done, few⟩ := lower_swatch
  exact ⟨lowered, done, carried_lower done few⟩

end Knitout
