import Knitout.Proofs.Driving
import Knitout.Proofs.Stitch

/-!
An operation either breaks a rule or has its effect (`State.apply_eq`): what it asks of the machine
(`State.demands`) is one thing, what it makes of it (`State.after`) another, and each part of the
machine is changed without a look at the others but the racking.
-/

namespace Knitout

/-! ## Effects -/

section
variable {κ ν : Type} [Ord κ] [Std.TransOrd κ] [Std.LawfulEqOrd κ]

/-- The table with one value set at several keys. -/
def Table.setAll (t : Table κ ν) (keys : List κ) (value : ν) : Table κ ν :=
  keys.foldl (fun t key => t.insert key value) t

theorem Table.get?_setAll [DecidableEq κ] (t : Table κ ν) (keys : List κ) (value : ν) (key : κ) :
    (t.setAll keys value).get? key = if key ∈ keys then some value else t.get? key :=
  get?_foldl_insert keys value t key

end

namespace Operation

/-- The needles whose loops an operation works with. -/
def loopNeedles : Operation → List Needle
  | .knit _ needle _ _ | .tuck _ needle _ _ | .drop needle => [needle]
  | .split _ needle target _ _ | .transfer needle target => [needle, target]
  | .miss .. | .bringIn .. | .bringOut .. | .rack _ => []

/-- The needles between which an operation moves loops. -/
def carries? : Operation → Option (Needle × Needle)
  | .split _ needle target _ _ | .transfer needle target => some (needle, target)
  | _ => none

/-- What an operation makes of the loops on the needles. -/
def reload (loops : Loops) : Operation → Loops
  | .knit _ needle _ strands =>
    if (yarnsOf strands).length = 0 then loops.erase needle
    else loops.insert needle (yarnsOf strands).length
  | .tuck _ needle _ strands =>
    if (yarnsOf strands).isEmpty then loops
    else loops.insert needle (match loops.get? needle with
      | some count => count + 1
      | none => (yarnsOf strands).length)
  | .split _ needle target _ strands =>
    if (yarnsOf strands).isEmpty then loops.move needle target
    else (loops.move needle target).insert needle (yarnsOf strands).length
  | .drop needle => loops.erase needle
  | .transfer needle target => loops.move needle target
  | .miss .. | .bringIn .. | .bringOut .. | .rack _ => loops

/-- It leaves the loops of all other needles. -/
theorem get?_reload (loops : Loops) {op : Operation} {needle : Needle}
    (other : needle ∉ op.loopNeedles) : (op.reload loops).get? needle = loops.get? needle := by
  cases op with
  | knit direction needle' length strands =>
    have apart : needle ≠ needle' := by simpa [loopNeedles] using other
    simp only [reload]
    split
    · rw [Table.get?_erase, if_neg apart]
    · rw [Table.get?_insert, if_neg apart]
  | tuck direction needle' length strands =>
    have apart : needle ≠ needle' := by simpa [loopNeedles] using other
    simp only [reload]
    split
    · rfl
    · rw [Table.get?_insert, if_neg apart]
  | split direction needle' target length strands =>
    obtain ⟨apart, apart'⟩ : needle ≠ needle' ∧ needle ≠ target := by
      simpa [loopNeedles] using other
    simp only [reload]
    split
    · exact loops.get?_move_other apart apart'
    · rw [Table.get?_insert, if_neg apart, loops.get?_move_other apart apart']
  | drop needle' =>
    have apart : needle ≠ needle' := by simpa [loopNeedles] using other
    rw [reload, Table.get?_erase, if_neg apart]
  | transfer needle' target =>
    obtain ⟨apart, apart'⟩ : needle ≠ needle' ∧ needle ≠ target := by
      simpa [loopNeedles] using other
    exact loops.get?_move_other apart apart'
  | miss | bringIn | bringOut | rack => rfl

/-- A tuck with one yarn adds one loop. -/
theorem reload_tuck (loops : Loops) (direction : Direction) (needle : Needle) (length : Length)
    {strands : List Strand} (one : strands.length = 1) :
    (tuck direction needle length strands).reload loops =
      loops.insert needle (loops.count needle + 1) := by
  obtain ⟨strand, rfl⟩ := List.length_eq_one_iff.1 one
  unfold Loops.count
  cases there : loops.get? needle <;> simp [reload, yarnsOf, there]

/-- What it makes of the feeders at a racking. -/
def refeed (racking : Int) (feeders : Table Yarn Int) : Operation → Table Yarn Int
  | .knit direction needle _ strands | .tuck direction needle _ strands
  | .split direction needle _ _ strands =>
    feeders.setAll (yarnsOf strands) (needle.column racking + direction.feederOffset)
  | .miss direction needle yarn | .bringIn direction needle yarn =>
    feeders.setAll [yarn] (needle.column racking + direction.feederOffset)
  | .bringOut _ _ yarn => feeders.erase yarn
  | .drop _ | .transfer .. | .rack _ => feeders

/-- What it makes of the attachments. -/
def reattach (attachments : Table Yarn Location) : Operation → Table Yarn Location
  | .knit direction needle _ strands | .tuck direction needle _ strands =>
    attachments.setAll (yarnsOf strands) ⟨needle, direction⟩
  | .split direction needle target _ strands =>
    (attachments.mapValues (Location.follow needle target)).setAll (yarnsOf strands)
      ⟨needle, direction⟩
  | .transfer needle target => attachments.mapValues (Location.follow needle target)
  | .bringOut _ _ yarn => attachments.erase yarn
  | .miss .. | .bringIn .. | .drop _ | .rack _ => attachments

/-- What it makes of the racking. -/
def rerack (racking : Int) : Operation → Int
  | .rack target => target
  | _ => racking

end Operation

namespace State

/-- What an operation makes of a state, if it breaks no rule. -/
def after (s : State) (op : Operation) : State where
  racking := op.rerack s.racking
  loops := op.reload s.loops
  carriers := op.refeed s.racking s.carriers
  attachments := op.reattach s.attachments

/-! ## Demands -/

/-- Feeders can only be taken past a needle if they stand where the carriage comes from and can
stand where it goes. -/
def checkPassage (s : State) (needle : Needle) (direction : Direction) (yarns : List Yarn) :
    Except Fault Unit := do
  s.checkApproach isWord needle direction yarns
  let _ ← s.feederColumn isWord needle direction
  .ok ()

/-- The rules for an operation; the answer is the first one that it breaks. -/
def demands (s : State) : Operation → Except Fault Unit
  | .knit direction needle _ strands | .tuck direction needle _ strands =>
    s.checkPassage needle direction (yarnsOf strands)
  | .split direction needle target _ strands => do
    s.checkAligned isWord needle target
    s.checkPassage needle direction (yarnsOf strands)
  | .miss direction needle yarn => s.checkPassage needle direction [yarn]
  | .bringIn direction needle yarn => do
    if s.carriers.contains yarn then .error (.alreadyIn yarn)
    let _ ← s.feederColumn isWord needle direction
    .ok ()
  | .bringOut direction needle yarn => do
    let expected ← s.feederColumn isWord needle direction
    s.checkCarrier expected yarn
  | .drop needle => if s.loopCount needle = 0 then .error (.dropEmpty needle) else .ok ()
  | .transfer needle target => s.checkAligned isWord needle target
  | .rack racking =>
    if (s.racking - racking).natAbs = 1 then .ok () else .error (.rackStep s.racking racking)

section
variable {s s' t : State} {needle : Needle} {direction : Direction} {yarns : List Yarn}

/-- Feeders are carried from a state of the same racking. -/
private theorem carry_eq_map (racking : s'.racking = s.racking) :
    s'.carry isWord needle direction yarns =
      (s.feederColumn isWord needle direction).map fun _ =>
        s'.park yarns (needle.column s.racking + direction.feederOffset) := by
  unfold carry feederColumn
  rw [racking]
  simp only
  split <;> rfl

/-- Taking feeders past a needle after some other change of the state. -/
private theorem passage_eq_map (racking : s'.racking = s.racking) :
    (do
      s.checkApproach isWord needle direction yarns
      s'.carry isWord needle direction yarns) =
      (s.checkPassage needle direction yarns).map fun _ =>
        s'.park yarns (needle.column s.racking + direction.feederOffset) := by
  rw [carry_eq_map racking, checkPassage]
  cases s.checkApproach isWord needle direction yarns with
  | error fault => rfl
  | ok => cases s.feederColumn isWord needle direction <;> rfl

/-- An operation has its effect unless it breaks a rule. -/
theorem apply_eq (s : State) (op : Operation) :
    s.apply op = (s.demands op).map fun _ => s.after op := by
  unfold apply
  cases op with
  | knit direction needle length strands => exact passage_eq_map rfl
  | tuck direction needle length strands =>
    refine (passage_eq_map ?_).trans ?_
    · split <;> rfl
    · congr 1
      funext _
      simp only [after, Operation.reload]
      split <;> rfl
  | split direction needle target length strands =>
    simp only [applyWithin, demands]
    cases s.checkAligned isWord needle target with
    | error fault => rfl
    | ok =>
      refine (passage_eq_map ?_).trans ?_
      · split <;> rfl
      · congr 1
        funext _
        simp only [after, Operation.reload]
        split <;> rfl
  | miss direction needle yarn => exact passage_eq_map rfl
  | bringIn direction needle yarn =>
    simp only [applyWithin, demands]
    split
    · rfl
    · rw [carry_eq_map rfl]
      cases s.feederColumn isWord needle direction <;> rfl
  | bringOut direction needle yarn =>
    simp only [applyWithin, demands]
    cases s.feederColumn isWord needle direction with
    | error fault => rfl
    | ok expected => cases s.checkCarrier expected yarn <;> rfl
  | drop needle =>
    simp only [applyWithin, demands]
    split <;> rfl
  | transfer needle target =>
    simp only [applyWithin, demands]
    cases s.checkAligned isWord needle target <;> rfl
  | rack racking =>
    simp only [applyWithin, demands]
    split <;> rfl

theorem apply_ok_iff {op : Operation} :
    s.apply op = .ok t ↔ s.demands op = .ok () ∧ t = s.after op := by
  rw [apply_eq]
  cases s.demands op with
  | error fault => simp [Except.map]
  | ok => simp [Except.map, eq_comm]

theorem apply_error_iff {op : Operation} {fault : Fault} :
    s.apply op = .error fault ↔ s.demands op = .error fault := by
  rw [apply_eq]
  cases s.demands op <;> simp [Except.map]

/-- An operation moves loops between different needles only. -/
theorem apart_of_demands {op : Operation} {target : Needle} (allowed : s.demands op = .ok ())
    (carries : op.carries? = some (needle, target)) : needle ≠ target := by
  cases op with
  | split =>
    cases carries
    obtain ⟨_, aligned, _⟩ := Except.bind_ok allowed
    exact apart_of_checkAligned aligned
  | transfer =>
    cases carries
    exact apart_of_checkAligned allowed
  | _ => cases carries

end

end State

end Knitout
