import Knitout.Proofs.Widths

/-!
A machine that counts in words (`WordState`): 64 bits for columns, 32 for loops, and a sum that does
not fit goes around unless it is tested first. It does what the rules say, so no sum goes around.
Main statement: `State.apply_refines_exact`.
-/

namespace Knitout

/-! ## Sums of words -/

/-- The sum of two words, which would go around at the ends of the range, if it does not. -/
def checkedAdd (a b : Int64) : Option Int64 :=
  if isWord (a.toInt + b.toInt) then some (a + b) else none

/-- How far two words are apart, as a word without a sign. -/
def absDiff (a b : Int64) : UInt64 :=
  if a < b then b.toUInt64 - a.toUInt64 else a.toUInt64 - b.toUInt64

theorem toInt_ofInt_of_isWord {x : Int} (fits : isWord x = true) : (Int64.ofInt x).toInt = x := by
  simp only [isWord, decide_eq_true_eq] at fits
  exact Int64.toInt_ofInt_of_le (by omega) (by omega)

/-- A sum that was tested is the sum of the integers, or there is none. -/
theorem checkedAdd_cases (a b : Int64) :
    (∃ c, checkedAdd a b = some c ∧ isWord (a.toInt + b.toInt) = true ∧
      c.toInt = a.toInt + b.toInt) ∨
    (checkedAdd a b = none ∧ isWord (a.toInt + b.toInt) = false) := by
  unfold checkedAdd
  split
  · next fits =>
    refine .inl ⟨_, rfl, fits, ?_⟩
    simp only [isWord, decide_eq_true_eq] at fits
    rw [Int64.toInt_add, Int.bmod_eq_of_le (by omega) (by omega)]
  · next far => exact .inr ⟨rfl, by simpa using far⟩

/-- The top half of the words stands for the negative numbers. -/
private theorem toInt_cases (a : Int64) :
    a.toInt = a.toUInt64.toNat ∨ a.toInt = a.toUInt64.toNat - 18446744073709551616 := by
  have value : a.toInt = if _ then _ else _ := BitVec.toInt_eq_toNat_cond a.toBitVec
  split at value
  · exact .inl value
  · exact .inr value

theorem toNat_absDiff (a b : Int64) : (absDiff a b).toNat = (a.toInt - b.toInt).natAbs := by
  have ha := toInt_cases a
  have hb := toInt_cases b
  have la := a.toUInt64.toNat_lt
  have lb := b.toUInt64.toNat_lt
  have ra := a.toInt_lt
  have ra' := a.le_toInt
  have rb := b.toInt_lt
  have rb' := b.le_toInt
  unfold absDiff
  split
  · next less =>
    rw [Int64.lt_iff_toInt_lt] at less
    rw [UInt64.toNat_sub]
    omega
  · next less =>
    rw [Int64.lt_iff_toInt_lt] at less
    rw [UInt64.toNat_sub]
    omega

/-! ## States in words -/

/-- A state in words: 64 bits for columns, 32 for loops. -/
structure WordState where
  racking : Int64
  loops : Table Needle UInt32
  carriers : Table Yarn Int64
  attachments : Table Yarn Location

namespace WordState

/-- The loop counts that words stand for. -/
def counts (loops : Table Needle UInt32) : Loops :=
  loops.mapValues UInt32.toNat

/-- The state that the words stand for. -/
def value (w : WordState) : State where
  racking := w.racking.toInt
  loops := counts w.loops
  carriers := w.carriers.mapValues Int64.toInt
  attachments := w.attachments

def feederColumn (w : WordState) (needle : Needle) (direction : Direction) : Except Fault Int64 :=
  let index := Int64.ofInt needle.index
  let column? := match needle.bed with
    | .front => some index
    | .back => checkedAdd index w.racking
  match column?.bind fun column => checkedAdd column (.ofInt direction.feederOffset) with
  | some column => .ok column
  | none => .error (.outOfRange needle w.racking.toInt)

def checkCarrier (w : WordState) (expected : Int64) (yarn : Yarn) : Except Fault Unit :=
  match w.carriers.get? yarn with
  | none => .error (.yarnNotInAction yarn)
  | some actual =>
    if actual = expected then .ok ()
    else .error (.yarnMisplaced yarn expected.toInt actual.toInt)

def checkCarriers (w : WordState) (expected : Int64) : List Yarn → Except Fault Unit
  | [] => .ok ()
  | yarn :: rest => do
    w.checkCarrier expected yarn
    w.checkCarriers expected rest

def checkApproach (w : WordState) (needle : Needle) (direction : Direction) (yarns : List Yarn) :
    Except Fault Unit := do
  let expected ← w.feederColumn needle direction.opposite
  w.checkCarriers expected yarns

def checkAligned (w : WordState) (needle target : Needle) : Except Fault Unit :=
  if needle.bed = target.bed then .error (.sameBed needle target)
  else do
    let here ← w.feederColumn needle .decreasing
    let there ← w.feederColumn target .decreasing
    if here = there then .ok () else .error (.misaligned needle target w.racking.toInt)

def carry (w : WordState) (needle : Needle) (direction : Direction) (yarns : List Yarn) :
    Except Fault WordState := do
  let column ← w.feederColumn needle direction
  .ok { w with carriers := yarns.foldl (fun t yarn => t.insert yarn column) w.carriers }

def attach (w : WordState) (yarns : List Yarn) (location : Location) : WordState :=
  { w with attachments := yarns.foldl (fun t yarn => t.insert yarn location) w.attachments }

/-- Put all loops of a needle on top of those of another one. -/
def moveLoops (loops : Table Needle UInt32) (source target : Needle) : Table Needle UInt32 :=
  match loops.get? source with
  | none => loops
  | some moved =>
    let rest := loops.erase source
    rest.insert target ((rest.get? target).getD 0 + moved)

/-- The rules in words: sums of columns are checked, loop counts go around. -/
def apply (w : WordState) : Operation → Except Fault WordState
  | .knit direction needle _ strands => do
    let yarns := yarnsOf strands
    w.checkApproach needle direction yarns
    let loops := if yarns.isEmpty then w.loops.erase needle
      else w.loops.insert needle (.ofNat yarns.length)
    ({ w with loops }.attach yarns ⟨needle, direction⟩).carry needle direction yarns
  | .tuck direction needle _ strands => do
    let yarns := yarnsOf strands
    w.checkApproach needle direction yarns
    let count := match w.loops.get? needle with
      | some count => count + 1
      | none => .ofNat yarns.length
    let loops := if yarns.isEmpty then w.loops else w.loops.insert needle count
    ({ w with loops }.attach yarns ⟨needle, direction⟩).carry needle direction yarns
  | .split direction needle target _ strands => do
    let yarns := yarnsOf strands
    w.checkAligned needle target
    w.checkApproach needle direction yarns
    let moved := moveLoops w.loops needle target
    let loops := if yarns.isEmpty then moved else moved.insert needle (.ofNat yarns.length)
    let attachments := w.attachments.mapValues (Location.follow needle target)
    ({ w with loops, attachments }.attach yarns ⟨needle, direction⟩).carry needle direction yarns
  | .miss direction needle yarn => do
    w.checkApproach needle direction [yarn]
    w.carry needle direction [yarn]
  | .bringIn direction needle yarn =>
    if w.carriers.contains yarn then .error (.alreadyIn yarn)
    else w.carry needle direction [yarn]
  | .bringOut direction needle yarn => do
    let expected ← w.feederColumn needle direction
    w.checkCarrier expected yarn
    .ok { w with
      carriers := w.carriers.erase yarn
      attachments := w.attachments.erase yarn }
  | .drop needle =>
    if (w.loops.get? needle).getD 0 = 0 then .error (.dropEmpty needle)
    else .ok { w with loops := w.loops.erase needle }
  | .transfer needle target => do
    w.checkAligned needle target
    .ok { w with
      loops := moveLoops w.loops needle target
      attachments := w.attachments.mapValues (Location.follow needle target) }
  | .rack racking =>
    let racked := Int64.ofInt racking
    if absDiff w.racking racked = 1 then .ok { w with racking := racked }
    else .error (.rackStep w.racking.toInt racked.toInt)

end WordState

/-! ## The same in numbers -/

theorem Except.map_bind {ε α β γ δ : Type} {x : Except ε α} {y : Except ε β} {k : α → β}
    {f : α → Except ε γ} {g : β → Except ε δ} {v : γ → δ} (first : x.map k = y)
    (second : ∀ a, x = .ok a → (f a).map v = g (k a)) : (x >>= f).map v = y >>= g := by
  subst first
  cases x with
  | error e => rfl
  | ok a => exact second a rfl

theorem State.loops_of_carry {t next : State} {fits : Int → Bool} {needle : Needle}
    {direction : Direction} {yarns : List Yarn}
    (done : t.carry fits needle direction yarns = .ok next) : next.loops = t.loops := by
  obtain ⟨column, _, done⟩ := Except.bind_ok done
  cases done
  rfl

namespace WordState
variable {w : WordState} {needle target : Needle} {direction : Direction} {yarns : List Yarn}

theorem feederColumn_value (w : WordState) (fits : isWord needle.index = true)
    (direction : Direction) : (w.feederColumn needle direction).map Int64.toInt =
      w.value.feederColumn isWord needle direction := by
  have offset : (Int64.ofInt direction.feederOffset).toInt = direction.feederOffset :=
    toInt_ofInt_of_isWord (by cases direction <;> rfl)
  have index := toInt_ofInt_of_isWord fits
  obtain ⟨bed, i⟩ := needle
  unfold feederColumn State.feederColumn
  cases bed with
  | front =>
    simp only [Option.bind_some, Needle.column, fits, Bool.true_and]
    rcases checkedAdd_cases (.ofInt i) (.ofInt direction.feederOffset) with
      ⟨c, added, near, sum⟩ | ⟨added, far⟩
    · rw [index, offset] at near sum
      simp [added, near, sum, Except.map]
    · rw [index, offset] at far
      simp [added, far, Except.map, value]
  | back =>
    simp only [Needle.column]
    rcases checkedAdd_cases (.ofInt i) w.racking with ⟨c, added, near, sum⟩ | ⟨added, far⟩
    · rw [index] at near sum
      rcases checkedAdd_cases c (.ofInt direction.feederOffset) with
        ⟨c', added', near', sum'⟩ | ⟨added', far'⟩
      · rw [sum, offset] at near' sum'
        simp [added, added', near, near', sum', Except.map, value]
      · rw [sum, offset] at far'
        simp [added, added', far', Except.map, value]
    · rw [index] at far
      simp [added, far, Except.map, value]

theorem checkCarrier_value (w : WordState) (expected : Int64) (yarn : Yarn) :
    w.checkCarrier expected yarn = w.value.checkCarrier expected.toInt yarn := by
  unfold checkCarrier State.checkCarrier value
  simp only [Table.get?_mapValues]
  cases w.carriers.get? yarn with
  | none => rfl
  | some actual => simp [Int64.toInt_inj]

theorem checkCarriers_value (w : WordState) (expected : Int64) (yarns : List Yarn) :
    w.checkCarriers expected yarns = w.value.checkCarriers expected.toInt yarns := by
  induction yarns with
  | nil => rfl
  | cons yarn rest ih =>
    unfold checkCarriers State.checkCarriers
    rw [checkCarrier_value, ih]

theorem checkApproach_value (w : WordState) (fits : isWord needle.index = true)
    (direction : Direction) (yarns : List Yarn) : w.checkApproach needle direction yarns =
      w.value.checkApproach isWord needle direction yarns := by
  refine (congrFun Except.map_id _).symm.trans ?_
  refine Except.map_bind (w.feederColumn_value fits direction.opposite) fun expected _ => ?_
  rw [checkCarriers_value, congrFun Except.map_id, id]

theorem checkAligned_value (w : WordState) (fits : isWord needle.index = true)
    (fits' : isWord target.index = true) : w.checkAligned needle target =
      w.value.checkAligned isWord needle target := by
  refine (congrFun Except.map_id _).symm.trans ?_
  unfold State.checkAligned
  split
  · rfl
  · refine Except.map_bind (w.feederColumn_value fits .decreasing) fun here _ => ?_
    refine Except.map_bind (w.feederColumn_value fits' .decreasing) fun there _ => ?_
    simp only [Int64.toInt_inj]
    split <;> rfl

/-- The feeders are carried to the same columns, from a state that stands for the same racking, and
for the same feeders and loops unless there is no column for them. -/
theorem carry_value {t : State} (fits : isWord needle.index = true)
    (racking : t.racking = w.racking.toInt)
    (same : ∀ next, t.carry isWord needle direction yarns = .ok next → w.value = t) :
    (w.carry needle direction yarns).map value = t.carry isWord needle direction yarns := by
  have column : (w.feederColumn needle direction).map Int64.toInt =
      t.feederColumn isWord needle direction := by
    rw [w.feederColumn_value fits direction]
    unfold State.feederColumn
    rw [racking]
    rfl
  refine Except.map_bind column fun c found => ?_
  rw [found] at column
  have stands : w.value = t := same _ (by rw [State.carry, ← column]; rfl)
  subst stands
  simp only [Except.map, value, State.park, Table.mapValues_foldl_insert]

theorem count_counts (loops : Table Needle UInt32) (needle : Needle) :
    (counts loops).count needle = ((loops.get? needle).getD 0).toNat := by
  rw [Loops.count, counts, Table.get?_mapValues]
  cases loops.get? needle <;> rfl

theorem counts_insert {loops : Table Needle UInt32} {count : UInt32} :
    counts (loops.insert needle count) = (counts loops).insert needle count.toNat :=
  Table.mapValues_insert _ _ _ _

theorem counts_erase {loops : Table Needle UInt32} :
    counts (loops.erase needle) = (counts loops).erase needle :=
  Table.mapValues_erase _ _ _

theorem counts_moveLoops {loops : Table Needle UInt32} (apart : needle ≠ target)
    (few : ((counts loops).move needle target).count target ≤ maxHalfWord) :
    counts (moveLoops loops needle target) = (counts loops).move needle target := by
  rw [Loops.count_move _ apart, if_pos rfl] at few
  have source := count_counts loops needle
  have goal := count_counts loops target
  unfold moveLoops Loops.move
  have held : (counts loops).get? needle = (loops.get? needle).map UInt32.toNat :=
    Table.get?_mapValues _ _ _
  rw [held]
  cases here : loops.get? needle with
  | none => rfl
  | some moved =>
    simp only [Option.map_some]
    rw [here] at source
    simp only [Option.getD_some] at source
    have rest : (loops.erase needle).get? target = loops.get? target := by
      rw [Table.get?_erase, if_neg apart.symm]
    rw [counts_insert, counts_erase, ← counts_erase, count_counts, rest, ← goal, counts_erase,
      UInt32.toNat_add, ← goal, ← source, Nat.mod_eq_of_lt]
    unfold maxHalfWord at few
    omega

theorem counts_insert_ofNat {loops : Table Needle UInt32} {n : Nat} (few : n ≤ maxHalfWord) :
    counts (loops.insert needle (.ofNat n)) = (counts loops).insert needle n := by
  rw [counts_insert, UInt32.toNat_ofNat_of_lt' (Nat.lt_succ_of_le few)]

theorem counts_insert_succ {loops : Table Needle UInt32} {count : UInt32}
    (few : count.toNat + 1 ≤ maxHalfWord) :
    counts (loops.insert needle (count + 1)) = (counts loops).insert needle (count.toNat + 1) := by
  unfold maxHalfWord at few
  rw [counts_insert, UInt32.toNat_add, Nat.mod_eq_of_lt]
  · rfl
  · exact Nat.lt_succ_of_le few

/-- Work on loops, in words and in numbers: the counts only have to agree if they are in range at
the end. -/
theorem work_value {loops : Table Needle UInt32} {loops' : Loops}
    {attachments : Table Yarn Location} (fits : isWord needle.index = true)
    (same : (∀ n, loops'.count n ≤ maxHalfWord) → counts loops = loops')
    (few : ∀ next, ({ w.value with loops := loops', attachments }.attach yarns
        ⟨needle, direction⟩).carry isWord needle direction yarns = .ok next →
      ∀ n, next.loopCount n ≤ maxHalfWord) :
    (({ w with loops, attachments }.attach yarns ⟨needle, direction⟩).carry needle direction
        yarns).map value =
      ({ w.value with loops := loops', attachments }.attach yarns ⟨needle, direction⟩).carry isWord
        needle direction yarns := by
  refine carry_value fits rfl fun next done => ?_
  have bound := few next done
  unfold State.loopCount at bound
  rw [State.loops_of_carry done] at bound
  simp only [value, attach, State.attach, same bound]

/-- Where a checking step comes to the same in words, so does what follows it. -/
theorem guarded_value {check : Except Fault Unit} {f : Unit → Except Fault WordState}
    {g : Unit → Except Fault State}
    (few : ∀ next, (check >>= g) = .ok next → ∀ n, next.loopCount n ≤ maxHalfWord)
    (second : check = .ok () → (∀ next, g () = .ok next → ∀ n, next.loopCount n ≤ maxHalfWord) →
      (f ()).map value = g ()) : (check >>= f).map value = check >>= g := by
  cases check with
  | error e => rfl
  | ok => exact second rfl few

private theorem ite_loops (s : State) (c : Bool) (loops : Loops) :
    (if c then s else { s with loops }) = { s with loops := if c then s.loops else loops } := by
  cases c <;> rfl

private theorem counts_knit {loops : Table Needle UInt32}
    (few : ∀ n, (if yarns.length = 0 then (counts loops).erase needle
      else (counts loops).insert needle yarns.length : Loops).count n ≤ maxHalfWord) :
    counts (if yarns.isEmpty then loops.erase needle
      else loops.insert needle (.ofNat yarns.length)) =
      if yarns.length = 0 then (counts loops).erase needle
      else (counts loops).insert needle yarns.length := by
  cases yarns with
  | nil => exact counts_erase
  | cons yarn rest =>
    refine counts_insert_ofNat ?_
    simpa [Loops.count, Table.get?_insert] using few needle

private theorem counts_tuck {loops : Table Needle UInt32}
    (few : ∀ n, (if yarns.isEmpty then counts loops else (counts loops).insert needle
      (match (counts loops).get? needle with
        | some count => count + 1
        | none => yarns.length) : Loops).count n ≤ maxHalfWord) :
    counts (if yarns.isEmpty then loops else loops.insert needle
      (match loops.get? needle with
        | some count => count + 1
        | none => .ofNat yarns.length)) =
      if yarns.isEmpty then counts loops else (counts loops).insert needle
        (match (counts loops).get? needle with
          | some count => count + 1
          | none => yarns.length) := by
  have held : (counts loops).get? needle = (loops.get? needle).map UInt32.toNat :=
    Table.get?_mapValues _ _ _
  rw [held] at few ⊢
  cases yarns with
  | nil => rfl
  | cons yarn rest =>
    have bound := few needle
    cases there : loops.get? needle with
    | none =>
      rw [there] at bound
      refine counts_insert_ofNat ?_
      simpa [Loops.count, Table.get?_insert] using bound
    | some count =>
      rw [there] at bound
      refine counts_insert_succ ?_
      simpa [Loops.count, Table.get?_insert] using bound

private theorem counts_split {loops : Table Needle UInt32} (apart : needle ≠ target)
    (few : ∀ n, (if yarns.isEmpty then (counts loops).move needle target
      else ((counts loops).move needle target).insert needle yarns.length : Loops).count n ≤
        maxHalfWord) :
    counts (if yarns.isEmpty then moveLoops loops needle target
      else (moveLoops loops needle target).insert needle (.ofNat yarns.length)) =
      if yarns.isEmpty then (counts loops).move needle target
      else ((counts loops).move needle target).insert needle yarns.length := by
  have moved : counts (moveLoops loops needle target) = (counts loops).move needle target := by
    refine counts_moveLoops apart ?_
    have bound := few target
    split at bound
    · exact bound
    · simpa [Loops.count, Table.get?_insert, apart.symm] using bound
  cases yarns with
  | nil => exact moved
  | cons yarn rest =>
    rw [← moved]
    refine counts_insert_ofNat ?_
    simpa [Loops.count, Table.get?_insert] using few needle

/-- A machine that counts in words does what the rules say, as long as no needle holds more loops
than a word can count. -/
theorem apply_value {op : Operation} (fits : op.InWords)
    (few : ∀ next, w.value.apply op = .ok next → ∀ n, next.loopCount n ≤ maxHalfWord) :
    (w.apply op).map value = w.value.apply op := by
  unfold State.apply at few ⊢
  cases op with
  | knit direction needle length strands =>
    have near := fits.needles needle (by simp [Operation.needles])
    simp only [apply, State.applyWithin, w.checkApproach_value near] at few ⊢
    exact guarded_value few fun _ => work_value near counts_knit
  | tuck direction needle length strands =>
    have near := fits.needles needle (by simp [Operation.needles])
    simp only [apply, State.applyWithin, w.checkApproach_value near, ite_loops] at few ⊢
    exact guarded_value few fun _ => work_value near counts_tuck
  | split direction needle target length strands =>
    have near := fits.needles needle (by simp [Operation.needles])
    have near' := fits.needles target (by simp [Operation.needles])
    simp only [apply, State.applyWithin, w.checkAligned_value near near',
      w.checkApproach_value near, ite_loops] at few ⊢
    refine guarded_value few fun aligned few => guarded_value few fun _ few => ?_
    exact work_value near (counts_split (State.apart_of_checkAligned aligned)) few
  | miss direction needle yarn =>
    have near := fits.needles needle (by simp [Operation.needles])
    have checked := w.checkApproach_value near direction [yarn]
    simp only [apply, State.applyWithin, checked]
    cases w.value.checkApproach isWord needle direction [yarn] with
    | error e => rfl
    | ok => exact carry_value near rfl fun _ _ => rfl
  | bringIn direction needle yarn =>
    have near := fits.needles needle (by simp [Operation.needles])
    have known : w.value.carriers.contains yarn = w.carriers.contains yarn := by
      simp [Table.contains, value, Table.get?_mapValues]
    simp only [apply, State.applyWithin, known]
    split
    · rfl
    · exact carry_value near rfl fun _ _ => rfl
  | bringOut direction needle yarn =>
    have near := fits.needles needle (by simp [Operation.needles])
    refine Except.map_bind (w.feederColumn_value near direction) fun expected _ => ?_
    rw [checkCarrier_value]
    cases w.value.checkCarrier expected.toInt yarn with
    | error e => rfl
    | ok => 
      simp only [bind, Except.bind, Except.map, value, Table.mapValues_erase]
  | drop needle =>
    have count : w.value.loopCount needle = ((w.loops.get? needle).getD 0).toNat :=
      count_counts w.loops needle
    simp only [apply, State.applyWithin, count]
    by_cases empty : (w.loops.get? needle).getD 0 = 0
    · simp [empty, Except.map]
    · have some : ((w.loops.get? needle).getD 0).toNat ≠ 0 := by
        simpa [← UInt32.toNat_inj] using empty
      simp [empty, some, Except.map, value, counts_erase]
  | transfer needle target =>
    have near := fits.needles needle (by simp [Operation.needles])
    have near' := fits.needles target (by simp [Operation.needles])
    have checked := w.checkAligned_value near near'
    simp only [apply, State.applyWithin, checked] at few ⊢
    cases aligned : w.value.checkAligned isWord needle target with
    | error e => rfl
    | ok =>
      rw [aligned] at few
      have moved := counts_moveLoops (State.apart_of_checkAligned aligned) (few _ rfl target)
      simp only [bind, Except.bind, Except.map, value, State.moveLoops, State.moveAttachments,
        moved]
  | rack racking =>
    have racked := toInt_ofInt_of_isWord (fits.racking racking rfl)
    have apart := toNat_absDiff w.racking (.ofInt racking)
    rw [racked] at apart
    have one : absDiff w.racking (.ofInt racking) = 1 ↔ (w.racking.toInt - racking).natAbs = 1 := by
      rw [← UInt64.toNat_inj, apart]
      rfl
    simp only [apply, State.applyWithin, racked]
    by_cases step : (w.racking.toInt - racking).natAbs = 1
    · simp [one, step, value, Except.map, racked]
    · simp [one, step, value, Except.map]

/-- The words for a state. -/
def ofState (s : State) : WordState where
  racking := .ofInt s.racking
  loops := s.loops.mapValues .ofNat
  carriers := s.carriers.mapValues .ofInt
  attachments := s.attachments

theorem value_ofState {s : State} (inWords : s.InWords)
    (few : ∀ needle, s.loopCount needle ≤ maxHalfWord) : (ofState s).value = s := by
  have loops : counts (s.loops.mapValues .ofNat) = s.loops := by
    refine Table.ext_get? fun needle => ?_
    have bound := few needle
    unfold State.loopCount Loops.count at bound
    rw [counts, Table.get?_mapValues, Table.get?_mapValues]
    cases held : s.loops.get? needle with
    | none => rfl
    | some count =>
      rw [held] at bound
      exact congrArg some (UInt32.toNat_ofNat_of_lt' (Nat.lt_succ_of_le bound))
  have carriers : (s.carriers.mapValues Int64.ofInt).mapValues Int64.toInt = s.carriers := by
    refine Table.ext_get? fun yarn => ?_
    rw [Table.get?_mapValues, Table.get?_mapValues]
    cases parked : s.carriers.get? yarn with
    | none => rfl
    | some column =>
      exact congrArg some (toInt_ofInt_of_isWord (inWords.carriers yarn column parked))
  simp only [ofState, value, loops, carriers, toInt_ofInt_of_isWord inWords.racking]

end WordState

/-! ## Refinement -/

namespace State

/-- How an operation on words compares with the same rules for all integers. -/
structure Refines (s : State) (op : Operation) : Prop where
  /-- What is accepted is accepted with all integers, with the same state, again in words. -/
  accepted : ∀ next, s.apply op = .ok next → s.applyExact op = .ok next ∧ next.InWords
  /-- What breaks a rule, other than that of the range, breaks the same one with all integers. -/
  refused : ∀ fault, s.apply op = .error fault →
    (∀ needle racking, fault ≠ .outOfRange needle racking) → s.applyExact op = .error fault
  /-- A needle that is out of range is one of the operation's, and its column, or that of a feeder
  that the operation looks for beside it, is not a word. -/
  outside : ∀ needle racking, s.apply op = .error (.outOfRange needle racking) →
    racking = s.racking ∧ needle ∈ op.needles ∧
      (isWord (needle.column s.racking) = false ∨
        ∃ direction, (needle, direction) ∈ op.probes ∧
          isWord (needle.column s.racking + direction.feederOffset) = false)
  /-- As long as words can count the loops, sums that go around come to the same. -/
  words : (∀ needle, s.loopCount needle ≤ maxHalfWord) →
    (∀ next, s.apply op = .ok next → ∀ needle, next.loopCount needle ≤ maxHalfWord) →
    ∃ w : WordState, w.value = s ∧ (w.apply op).map WordState.value = s.apply op

theorem apply_refines_exact {s : State} {op : Operation} (inWords : s.InWords)
    (fits : op.InWords) : s.Refines op := by
  have limits := applyWithin_limits isWord s op
  refine ⟨fun next done => ⟨applyExact_of_apply done, inWords_of_apply inWords fits done⟩, ?_, ?_,
    fun few few' => ?_⟩
  · intro fault refused inside
    rcases limits with ⟨same, _⟩ | ⟨pass, _, _, stopped⟩
    · rw [← same]
      exact refused
    · rw [apply, stopped] at refused
      cases refused
      exact absurd rfl (inside pass.1 s.racking)
  · intro needle racking refused
    rcases limits with ⟨same, reached⟩ | ⟨pass, looked, beyond, stopped⟩
    · rw [apply, same] at refused
      exact absurd refused (reached needle racking)
    · rw [apply, stopped] at refused
      cases refused
      refine ⟨rfl, Operation.mem_needles_of_mem_probes looked, ?_⟩
      rcases Bool.eq_false_or_eq_true (isWord (pass.1.column s.racking)) with near | far
      · exact .inr ⟨pass.2, looked, by simpa [Beyond, near] using beyond⟩
      · exact .inl far
  · have stands := WordState.value_ofState inWords few
    refine ⟨.ofState s, stands, ?_⟩
    rw [← stands] at few'
    rw [WordState.apply_value fits few', stands]

/-- The last needle of the back bed, with the beds racked by one. -/
theorem apply_refines_exact_last :
    (⟨1, ∅, ∅, ∅⟩ : State).Refines (.bringIn .increasing ⟨.back, 9223372036854775807⟩ 1) ∧
      (⟨1, ∅, ∅, ∅⟩ : State).apply (.bringIn .increasing ⟨.back, 9223372036854775807⟩ 1) =
        .error (.outOfRange ⟨.back, 9223372036854775807⟩ 1) := by
  refine ⟨apply_refines_exact ⟨by decide, ?_⟩ ⟨?_, ?_⟩, by decide⟩
  · intro yarn column there
    cases there
  · intro needle named
    rw [Operation.needles, List.mem_singleton] at named
    subst named
    decide
  · intro racking same
    cases same

end State

end Knitout
