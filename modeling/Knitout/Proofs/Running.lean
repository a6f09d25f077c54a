import Knitout.Machine.Replay

/-!
What the machine does when nothing is wrong: one statement for each operation whose needles are in
reach and whose feeders stand where the carriage comes from, and runs of such operations
(`State.applyAll`). A replay of a run ends in the run's state and refuses nothing
(`Replay.ofInstructions_of_applyAll`).
-/

namespace Knitout

/-! ## Tables -/

/-- Setting one value at several keys. -/
theorem Table.get?_foldl_insert {κ ν : Type} [Ord κ] [Std.TransOrd κ] [Std.LawfulEqOrd κ]
    [DecidableEq κ] (keys : List κ) (value : ν) (t : Table κ ν) (key : κ) :
    (keys.foldl (fun t k => t.insert k value) t).get? key =
      if key ∈ keys then some value else t.get? key := by
  induction keys generalizing t with
  | nil => simp
  | cons k rest ih =>
    rw [List.foldl_cons, ih, Table.get?_insert]
    by_cases later : key ∈ rest
    · simp [later]
    · by_cases same : key = k <;> simp [later, same]

/-- Setting a key twice leaves the second value. -/
theorem Table.insert_insert {κ ν : Type} [Ord κ] [Std.TransOrd κ] [Std.LawfulEqOrd κ]
    [DecidableEq κ] (t : Table κ ν) (key : κ) (first second : ν) :
    (t.insert key first).insert key second = t.insert key second := by
  refine Table.ext_get? ?_
  intro k
  rw [Table.get?_insert, Table.get?_insert, Table.get?_insert]
  split <;> rfl

/-- Setting a key to the value that it has changes nothing. -/
theorem Table.insert_get? {κ ν : Type} [Ord κ] [Std.TransOrd κ] [Std.LawfulEqOrd κ]
    [DecidableEq κ] {t : Table κ ν} {key : κ} {value : ν} (there : t.get? key = some value) :
    t.insert key value = t := by
  refine Table.ext_get? ?_
  intro k
  rw [Table.get?_insert]
  split
  · next same => rw [same, there]
  · rfl

/-! ## One operation -/

/-- Feeders can stand on both sides of a needle in this column. -/
def Needle.InColumns (needle : Needle) (racking : Int) : Prop :=
  isWord (needle.column racking) = true ∧ isWord (needle.column racking + 1) = true

theorem Needle.inColumns_of_natAbs {needle : Needle} {racking : Int}
    (near : (needle.column racking).natAbs ≤ 4000000) : needle.InColumns racking := by
  simp only [InColumns, isWord, decide_eq_true_eq]
  omega

namespace State

variable {s : State} {needle target : Needle} {direction : Direction}

theorem get?_park (s : State) (yarns : List Yarn) (column : Int) (yarn : Yarn) :
    (s.park yarns column).carriers.get? yarn =
      if yarn ∈ yarns then some column else s.carriers.get? yarn :=
  Table.get?_foldl_insert yarns column s.carriers yarn

theorem get?_attach (s : State) (yarns : List Yarn) (location : Location) (yarn : Yarn) :
    (s.attach yarns location).attachments.get? yarn =
      if yarn ∈ yarns then some location else s.attachments.get? yarn :=
  Table.get?_foldl_insert yarns location s.attachments yarn

theorem get?_moveAttachments (s : State) (source target : Needle) (yarn : Yarn) :
    (s.moveAttachments source target).attachments.get? yarn =
      (s.attachments.get? yarn).map (Location.follow source target) :=
  Table.get?_mapValues _ _ _

theorem feederColumn_eq (fits : needle.InColumns s.racking) (direction : Direction) :
    s.feederColumn isWord needle direction =
      .ok (needle.column s.racking + direction.feederOffset) := by
  obtain ⟨here, past⟩ := fits
  cases direction <;> simp [feederColumn, Direction.feederOffset, here, past]

theorem checkCarriers_eq {expected : Int} {yarns : List Yarn}
    (waiting : ∀ yarn ∈ yarns, s.carriers.get? yarn = some expected) :
    s.checkCarriers expected yarns = .ok () := by
  induction yarns with
  | nil => rfl
  | cons yarn rest ih =>
    have first : s.checkCarrier expected yarn = .ok () := by
      simp [checkCarrier, waiting yarn (by simp)]
    simp [checkCarriers, first, bind, Except.bind, ih fun y later => waiting y (by simp [later])]

/-- The feeders of these yarns stand where a carriage comes from that passes the needle. -/
def Waiting (s : State) (needle : Needle) (direction : Direction) (yarns : List Yarn) : Prop :=
  ∀ yarn ∈ yarns,
    s.carriers.get? yarn = some (needle.column s.racking + direction.opposite.feederOffset)

theorem checkApproach_eq {yarns : List Yarn} (fits : needle.InColumns s.racking)
    (waiting : s.Waiting needle direction yarns) :
    s.checkApproach isWord needle direction yarns = .ok () := by
  simp [checkApproach, feederColumn_eq fits, bind, Except.bind, checkCarriers_eq waiting]

theorem carry_eq (fits : needle.InColumns s.racking) (direction : Direction)
    (yarns : List Yarn) : s.carry isWord needle direction yarns =
      .ok (s.park yarns (needle.column s.racking + direction.feederOffset)) := by
  simp [carry, feederColumn_eq fits, bind, Except.bind]

theorem checkAligned_eq (fits : needle.InColumns s.racking) (opposite : needle.bed ≠ target.bed)
    (aligned : needle.column s.racking = target.column s.racking) :
    s.checkAligned isWord needle target = .ok () := by
  have fits' : target.InColumns s.racking := by
    rwa [Needle.InColumns, ← aligned]
  simp [checkAligned, opposite, feederColumn_eq fits, feederColumn_eq fits', bind, Except.bind,
    aligned]

theorem apply_miss {yarn : Yarn} (fits : needle.InColumns s.racking)
    (waiting : s.Waiting needle direction [yarn]) :
    s.apply (.miss direction needle yarn) =
      .ok (s.park [yarn] (needle.column s.racking + direction.feederOffset)) := by
  -- `apply` reduces to the rule of the operation; here and below the goal is put as that rule.
  change (s.checkApproach isWord needle direction [yarn]).bind
    (fun _ => s.carry isWord needle direction [yarn]) = _
  rw [checkApproach_eq fits waiting]
  exact carry_eq fits direction [yarn]

theorem apply_bringIn {yarn : Yarn} (fits : needle.InColumns s.racking)
    (absent : s.carriers.get? yarn = none) :
    s.apply (.bringIn direction needle yarn) =
      .ok (s.park [yarn] (needle.column s.racking + direction.feederOffset)) := by
  have outside : ¬ s.carriers.contains yarn = true := by simp [Table.contains, absent]
  exact (if_neg outside).trans (carry_eq fits direction [yarn])

theorem apply_bringOut {yarn : Yarn} (fits : needle.InColumns s.racking)
    (parked : s.carriers.get? yarn = some (needle.column s.racking + direction.feederOffset)) :
    s.apply (.bringOut direction needle yarn) =
      .ok { s with
        carriers := s.carriers.erase yarn
        attachments := s.attachments.erase yarn } := by
  have there : s.checkCarrier (needle.column s.racking + direction.feederOffset) yarn = .ok () := by
    simp [checkCarrier, parked]
  change (s.feederColumn isWord needle direction).bind
    (fun expected => (s.checkCarrier expected yarn).bind fun _ => .ok _) = _
  rw [feederColumn_eq fits, Except.bind, there]
  rfl

theorem apply_rack {racking : Int} (step : (s.racking - racking).natAbs = 1) :
    s.apply (.rack racking) = .ok { s with racking } :=
  if_pos step

theorem apply_drop (loaded : s.loopCount needle ≠ 0) :
    s.apply (.drop needle) = .ok { s with loops := s.loops.erase needle } :=
  if_neg loaded

theorem apply_transfer (fits : needle.InColumns s.racking) (opposite : needle.bed ≠ target.bed)
    (aligned : needle.column s.racking = target.column s.racking) :
    s.apply (.transfer needle target) =
      .ok ((s.moveLoops needle target).moveAttachments needle target) := by
  change (s.checkAligned isWord needle target).bind (fun _ => .ok _) = _
  rw [checkAligned_eq fits opposite aligned]
  rfl

section
variable {length : Length} {strands : List Strand}

/-- A knit leaves one loop for each of its yarns on the needle. -/
theorem apply_knit (fits : needle.InColumns s.racking) (filled : strands ≠ [])
    (waiting : s.Waiting needle direction (yarnsOf strands)) :
    s.apply (.knit direction needle length strands) =
      .ok (({ s with loops := s.loops.insert needle strands.length }.attach (yarnsOf strands)
        ⟨needle, direction⟩).park (yarnsOf strands)
          (needle.column s.racking + direction.feederOffset)) := by
  have some : (yarnsOf strands).length ≠ 0 := by simpa [yarnsOf] using filled
  have set : s.setLoops needle (yarnsOf strands).length =
      { s with loops := s.loops.insert needle strands.length } := by
    rw [setLoops, if_neg some, yarnsOf, List.length_map]
  change (s.checkApproach isWord needle direction (yarnsOf strands)).bind (fun _ =>
    ((s.setLoops needle (yarnsOf strands).length).attach (yarnsOf strands)
      ⟨needle, direction⟩).carry isWord needle direction (yarnsOf strands)) = _
  rw [checkApproach_eq fits waiting, set]
  exact carry_eq (by exact fits) direction _

/-- A tuck adds one loop. -/
theorem apply_tuck {strand : Strand} (fits : needle.InColumns s.racking)
    (waiting : s.Waiting needle direction (yarnsOf [strand])) :
    s.apply (.tuck direction needle length [strand]) =
      .ok (({ s with loops := s.loops.insert needle (s.loopCount needle + 1) }.attach
        (yarnsOf [strand]) ⟨needle, direction⟩).park (yarnsOf [strand])
          (needle.column s.racking + direction.feederOffset)) := by
  have count : s.loopCount needle = (s.loops.get? needle).getD 0 := rfl
  simp only [apply, applyWithin, checkApproach_eq fits waiting, bind, Except.bind]
  rw [count]
  cases s.loops.get? needle <;> exact carry_eq (by exact fits) direction _

/-- A split moves the loops of the needle to the target and leaves one loop for each of its yarns on
the needle. -/
theorem apply_split (fits : needle.InColumns s.racking) (filled : strands ≠ [])
    (opposite : needle.bed ≠ target.bed)
    (aligned : needle.column s.racking = target.column s.racking)
    (waiting : s.Waiting needle direction (yarnsOf strands)) :
    s.apply (.split direction needle target length strands) =
      .ok ((({ s with
          loops := (s.loops.move needle target).insert needle strands.length }.moveAttachments
            needle target).attach (yarnsOf strands) ⟨needle, direction⟩).park (yarnsOf strands)
          (needle.column s.racking + direction.feederOffset)) := by
  have some : (yarnsOf strands).isEmpty = false := by simpa [yarnsOf] using filled
  have count : strands.length = (yarnsOf strands).length := by simp [yarnsOf]
  change (s.checkAligned isWord needle target).bind (fun _ =>
    (s.checkApproach isWord needle direction (yarnsOf strands)).bind fun _ =>
      (((if (yarnsOf strands).isEmpty then s.moveLoops needle target else _).moveAttachments
        needle target).attach (yarnsOf strands) ⟨needle, direction⟩).carry isWord needle
          direction (yarnsOf strands)) = _
  rw [checkAligned_eq fits opposite aligned, checkApproach_eq fits waiting, count,
    if_neg (by simp [some])]
  exact carry_eq (by exact fits) direction _

end

/-! ## Runs -/

/-- Apply operations one after the other, up to the first that is refused. -/
def applyAll (s : State) (operations : List Operation) : Except Fault State :=
  operations.foldlM apply s

theorem applyAll_append (s : State) (xs ys : List Operation) :
    s.applyAll (xs ++ ys) = (s.applyAll xs).bind fun t => t.applyAll ys :=
  List.foldlM_append

theorem applyAll_cons (s : State) (op : Operation) (rest : List Operation) :
    s.applyAll (op :: rest) = (s.apply op).bind fun t => t.applyAll rest :=
  List.foldlM_cons

/-- A run goes on with one more operation. -/
theorem applyAll_concat {s t u : State} {ops : List Operation} {op : Operation}
    (before : s.applyAll ops = .ok t) (last : t.apply op = .ok u) :
    s.applyAll (ops ++ [op]) = .ok u := by
  rw [applyAll_append, before, Except.bind, applyAll_cons, last]
  rfl

/-- The first operations of a run are a run. -/
theorem applyAll_prefix {s u : State} {xs ys : List Operation}
    (whole : s.applyAll (xs ++ ys) = .ok u) :
    ∃ t, s.applyAll xs = .ok t ∧ t.applyAll ys = .ok u := by
  rw [applyAll_append] at whole
  cases first : s.applyAll xs with
  | error e => rw [first] at whole; cases whole
  | ok t => exact ⟨t, rfl, by rwa [first] at whole⟩

end State

/-- A replay of a run ends in the state of the run and refuses nothing. -/
theorem Replay.foldl_advance_of_applyAll {instructions : List Instruction} {r : Replay} {s : State}
    (run : r.final.applyAll (instructions.map (·.operation)) = .ok s) :
    (instructions.foldl advance r).final = s ∧
      (instructions.foldl advance r).rejections = r.rejections := by
  induction instructions generalizing r with
  | nil =>
    cases run
    exact ⟨rfl, rfl⟩
  | cons i rest ih =>
    rw [List.map_cons, State.applyAll_cons] at run
    cases step : r.final.apply i.operation with
    | error e => rw [step] at run; cases run
    | ok next =>
      rw [step] at run
      rw [List.foldl_cons, advance_ok step]
      exact ih run

theorem Replay.ofInstructions_of_applyAll {instructions : List Instruction} {s : State}
    (run : State.initial.applyAll (instructions.map (·.operation)) = .ok s) :
    (ofInstructions instructions).final = s ∧ (ofInstructions instructions).rejections = #[] :=
  foldl_advance_of_applyAll run

end Knitout
