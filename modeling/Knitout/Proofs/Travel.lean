import Knitout.Proofs.Driving
import Knitout.Proofs.Rejecting

/-!
Feeders travel one column at a time (`Replay.feeders_travel`). Columns are worked out anew from the
needle, its bed and the racking at each use, but a feeder that is used stands where the carriage
comes from, which is one column before the place that it leaves for. So however often the beds are
racked in between, a feeder is as many columns from where it came in as it was used one way more
often than the other.
-/

namespace Knitout

/-- The direction in which an operation takes the feeder of a yarn, if it takes it past a needle. -/
def Operation.heading? (op : Operation) (yarn : Yarn) : Option Direction :=
  op.passage?.bind fun p => if yarn ∈ p.yarns then some p.direction else none

theorem Operation.heading?_of_passage {op : Operation} {p : Passage}
    (passes : op.passage? = some p) (yarn : Yarn) :
    op.heading? yarn = if yarn ∈ p.yarns then some p.direction else none := by
  rw [heading?, passes, Option.bind_some]

theorem Operation.heading?_of_none {op : Operation} (still : op.passage? = none) (yarn : Yarn) :
    op.heading? yarn = none := by
  rw [heading?, still, Option.bind_none]

namespace State

/-- How the feeders stand after an operation, seen from where they stood before it. -/
structure Travels (s t : State) (op : Operation) : Prop where
  /-- A feeder that is taken past a needle moves by one column. -/
  moves : ∀ yarn before after direction, s.carriers.get? yarn = some before →
    t.carriers.get? yarn = some after → op.heading? yarn = some direction →
      after = before + direction.step
  /-- Any other stays where it is. -/
  rests : ∀ yarn before after, s.carriers.get? yarn = some before →
    t.carriers.get? yarn = some after → op.heading? yarn = none → after = before
  enters : ∀ yarn after, s.carriers.get? yarn = none → t.carriers.get? yarn = some after →
    ∃ direction needle, op = .bringIn direction needle yarn ∧
      after = needle.column s.racking + direction.feederOffset
  /-- It leaves from the column that its `out` names. -/
  leaves : ∀ yarn before, s.carriers.get? yarn = some before → t.carriers.get? yarn = none →
    ∃ direction needle, op = .bringOut direction needle yarn ∧
      before = needle.column s.racking + direction.feederOffset

/-! ## One operation -/

section
variable {s t : State} {op : Operation}

private theorem travels_pass {p : Passage} {before after : Int} (passes : op.passage? = some p)
    (approach : s.feederColumn isWord p.needle p.direction.opposite = .ok before)
    (waiting : ∀ yarn ∈ p.yarns, s.carriers.get? yarn = some before)
    (leaving : s.feederColumn isWord p.needle p.direction = .ok after)
    (carriers : t.carriers = (s.park p.yarns after).carriers) : s.Travels t op := by
  have step : after = before + p.direction.step := by
    rw [(feederColumn_ok leaving).1, (feederColumn_ok approach).1,
      p.direction.feederOffset_opposite]
    omega
  have there (yarn : Yarn) : t.carriers.get? yarn =
      if yarn ∈ p.yarns then some after else s.carriers.get? yarn := by
    rw [carriers, get?_park]
  have heading := Operation.heading?_of_passage passes
  refine ⟨?_, ?_, ?_, ?_⟩
  · intro yarn column column' direction stood stands headed
    rw [heading] at headed
    split at headed
    · next used =>
      cases headed
      rw [there, if_pos used] at stands
      rw [waiting yarn used] at stood
      cases stood
      cases stands
      exact step
    · cases headed
  · intro yarn column column' stood stands headed
    rw [heading] at headed
    split at headed
    · cases headed
    · next unused =>
      rw [there, if_neg unused, stood] at stands
      cases stands
      rfl
  · intro yarn column absent stands
    rw [there, absent] at stands
    split at stands
    · next used =>
      rw [waiting yarn used] at absent
      cases absent
    · cases stands
  · intro yarn column stood gone
    rw [there, stood] at gone
    split at gone <;> cases gone

private theorem travels_enter {direction : Direction} {needle : Needle} {yarn : Yarn} {column : Int}
    (absent : s.carriers.get? yarn = none)
    (arriving : s.feederColumn isWord needle direction = .ok column)
    (carriers : t.carriers = (s.park [yarn] column).carriers) :
    s.Travels t (.bringIn direction needle yarn) := by
  have there (other : Yarn) : t.carriers.get? other =
      if other = yarn then some column else s.carriers.get? other := by
    rw [carriers, get?_park]
    simp
  refine ⟨?_, ?_, ?_, ?_⟩
  · intro _ _ _ _ _ _ headed
    cases headed
  · intro other before after stood stands _
    rw [there] at stands
    split at stands
    · next same =>
      rw [same, absent] at stood
      cases stood
    · rw [stood] at stands
      cases stands
      rfl
  · intro other after missing stands
    rw [there] at stands
    split at stands
    · next same =>
      cases stands
      exact ⟨direction, needle, by rw [same], (feederColumn_ok arriving).1⟩
    · rw [missing] at stands
      cases stands
  · intro other before stood gone
    rw [there, stood] at gone
    split at gone <;> cases gone

private theorem travels_leave {direction : Direction} {needle : Needle} {yarn : Yarn} {column : Int}
    (leaving : s.feederColumn isWord needle direction = .ok column)
    (parked : s.carriers.get? yarn = some column)
    (carriers : t.carriers = s.carriers.erase yarn) :
    s.Travels t (.bringOut direction needle yarn) := by
  have there (other : Yarn) : t.carriers.get? other =
      if other = yarn then none else s.carriers.get? other := by
    rw [carriers, Table.get?_erase]
  refine ⟨?_, ?_, ?_, ?_⟩
  · intro _ _ _ _ _ _ headed
    cases headed
  · intro other before after stood stands _
    rw [there, stood] at stands
    split at stands
    · cases stands
    · cases stands
      rfl
  · intro other after missing stands
    rw [there, missing] at stands
    split at stands <;> cases stands
  · intro other before stood gone
    rw [there, stood] at gone
    split at gone
    · next same =>
      rw [same, parked] at stood
      cases stood
      exact ⟨direction, needle, by rw [same], (feederColumn_ok leaving).1⟩
    · cases gone

private theorem travels_stay (still : op.passage? = none) (carriers : t.carriers = s.carriers) :
    s.Travels t op := by
  refine ⟨?_, ?_, ?_, ?_⟩
  · intro yarn _ _ _ _ _ headed
    rw [Operation.heading?_of_none still] at headed
    cases headed
  · intro yarn before after stood stands _
    rw [carriers, stood] at stands
    cases stands
    rfl
  · intro yarn _ missing stands
    rw [carriers, missing] at stands
    cases stands
  · intro yarn _ stood gone
    rw [carriers, stood] at gone
    cases gone

/-- An accepted operation moves the feeders that it uses by one column and leaves the others. -/
theorem travels_of_apply (done : s.apply op = .ok t) : s.Travels t op := by
  cases drives_of_apply done with
  | pass passes approach waiting leaving carriers =>
    exact travels_pass passes approach waiting leaving carriers
  | enter absent arriving carriers => exact travels_enter absent arriving carriers
  | leave leaving parked carriers => exact travels_leave leaving parked carriers
  | stay still _ _ carriers => exact travels_stay still carriers

/-- A feeder that is brought in stands where its `in` says. -/
theorem column_of_bringIn {direction : Direction} {needle : Needle} {yarn : Yarn}
    (done : s.apply (.bringIn direction needle yarn) = .ok t) :
    t.carriers.get? yarn = some (needle.column s.racking + direction.feederOffset) := by
  cases drives_of_apply done with
  | pass passes => cases passes
  | enter absent arriving carriers =>
    rw [carriers, get?_park, if_pos (List.mem_singleton_self yarn), (feederColumn_ok arriving).1]
  | stay _ inside => exact absurd rfl (inside direction needle yarn)

end

/-! ## Many operations -/

/-- How often operations take the feeder of a yarn past a needle in one direction. -/
def uses (yarn : Yarn) (direction : Direction) (ops : List Operation) : Nat :=
  ops.countP fun op => op.heading? yarn = some direction

section
variable {s u : State} {ops : List Operation} {states : List State}

/-- From state to state of a path the machine does the operation between them. -/
theorem Path.apply_getElem (path : Path s ops states u) {n : Nat} {a b : State}
    (here : (s :: states)[n]? = some a) (next : (s :: states)[n + 1]? = some b) :
    ∃ op, ops[n]? = some op ∧ a.apply op = .ok b := by
  induction path generalizing n with
  | stop => cases next
  | step applied _ ih =>
    cases n with
    | zero =>
      cases here
      cases next
      exact ⟨_, rfl, applied⟩
    | succ n => exact ih here next

/-- A path can be cut anywhere; the second part goes through the states that are left. -/
theorem Path.cut {xs ys : List Operation} (path : Path s (xs ++ ys) states u) :
    ∃ t earlier later, (s :: states).drop xs.length = t :: later ∧ Path s xs earlier t ∧
      Path t ys later u := by
  induction xs generalizing s states with
  | nil => exact ⟨s, [], states, rfl, .stop s, path⟩
  | cons op xs ih =>
    cases path with
    | step applied others =>
      obtain ⟨t, earlier, later, left, first, second⟩ := ih others
      exact ⟨t, _ :: earlier, later, left, .step applied first, second⟩

/-- As long as it is not taken out, a feeder gets one column further with each use. -/
theorem Path.column (path : Path s ops states u) {yarn : Yarn} {column : Int}
    (stands : s.carriers.get? yarn = some column)
    (inside : ∀ op ∈ ops, ∀ direction needle, op ≠ .bringOut direction needle yarn) :
    u.carriers.get? yarn =
      some (column + uses yarn .increasing ops - uses yarn .decreasing ops) := by
  induction path generalizing column with
  | stop => simpa [uses] using stands
  | @step s t u op rest states applied _ ih =>
    have travels := travels_of_apply applied
    cases after : t.carriers.get? yarn with
    | none =>
      obtain ⟨direction, needle, out, _⟩ := travels.leaves yarn column stands after
      exact absurd out (inside op (by simp) direction needle)
    | some column' =>
      rw [ih after fun op member => inside op (List.mem_cons_of_mem _ member)]
      unfold uses
      rw [List.countP_cons, List.countP_cons]
      cases headed : op.heading? yarn with
      | none =>
        rw [travels.rests yarn column column' stands after headed]
        simp
      | some direction =>
        rw [travels.moves yarn column column' direction stands after headed]
        cases direction <;> simp [Direction.step] <;> omega

end

end State

/-! ## Replays -/

namespace Replay

/-- Feeders travel one column at a time in every replay. Between two states of its trace the machine
has done an accepted instruction, which moves the feeders that it uses by one column and no others;
and a feeder that came in has got as far as its accepted uses since then took it. -/
theorem feeders_travel (instructions : List Instruction) :
    let r := ofInstructions instructions
    (∀ n s t, r.trace[n]? = some s → r.trace[n + 1]? = some t →
      ∃ i, (r.accepted instructions)[n]? = some i ∧ s.apply i.operation = .ok t ∧
        s.Travels t i.operation) ∧
    ∀ earlier i between later direction needle yarn,
      r.accepted instructions = earlier ++ i :: (between ++ later) →
      i.operation = .bringIn direction needle yarn →
      (∀ i' ∈ between, ∀ direction needle, i'.operation ≠ .bringOut direction needle yarn) →
        ∃ s t, ∃ column : Int, r.trace[earlier.length + 1]? = some s ∧
          r.trace[earlier.length + 1 + between.length]? = some t ∧
          s.carriers.get? yarn = some column ∧
          t.carriers.get? yarn =
            some (column + State.uses yarn .increasing (between.map (·.operation)) -
              State.uses yarn .decreasing (between.map (·.operation))) := by
  obtain ⟨states, trace, path⟩ := (skips_ofInstructions instructions).path
  simp only [← Array.getElem?_toList, trace]
  refine ⟨?_, ?_⟩
  · intro n s t here next
    obtain ⟨op, there, applied⟩ := path.apply_getElem here next
    rw [List.getElem?_map, Option.map_eq_some_iff] at there
    obtain ⟨i, accepted, rfl⟩ := there
    exact ⟨i, accepted, applied, State.travels_of_apply applied⟩
  · intro earlier i between later direction needle yarn accepted entering inside
    rw [accepted, List.map_append, List.map_cons, List.map_append] at path
    obtain ⟨a, _, rest, left, _, path⟩ := path.cut
    rw [entering] at path
    cases path with
    | @step _ s _ _ _ rest applied path =>
      obtain ⟨t, _, last, left', travelled, _⟩ := path.cut
      have stands := State.column_of_bringIn applied
      rw [List.length_map] at left left'
      have after : (State.initial :: states).drop (earlier.length + 1) = s :: rest := by
        rw [← List.drop_drop, left, List.drop_one, List.tail_cons]
      refine ⟨s, t, _, ?_, ?_, stands, travelled.column stands ?_⟩
      · rw [← List.head?_drop, after, List.head?_cons]
      · rw [← List.head?_drop, ← List.drop_drop, after, left', List.head?_cons]
      · intro op member
        obtain ⟨i', there, rfl⟩ := List.mem_map.1 member
        exact inside i' there

/-- A feeder comes in, goes two columns up and one down again while the beds are racked, loops are
transferred and a miss from elsewhere is refused. -/
def zigzag : List Instruction :=
  [.bringIn .decreasing (.front 0) 1,
    .tuck .increasing (.front 0) (.ofNat 30) [⟨1, .ofNat 1⟩],
    .rack 1,
    .miss .increasing (.front 5) 1,
    .miss .increasing (.back 0) 1,
    .transfer (.front 1) (.back 0),
    .miss .decreasing (.front 1) 1].map fun op => ⟨op, 1, none⟩

theorem feeders_travel_zigzag :
    (∃ s t i, (ofInstructions zigzag).trace[3]? = some s ∧
      (ofInstructions zigzag).trace[3 + 1]? = some t ∧
      ((ofInstructions zigzag).accepted zigzag)[3]? = some i ∧ s.apply i.operation = .ok t ∧
      s.Travels t i.operation) ∧
    ∃ s t, ∃ column : Int, (ofInstructions zigzag).trace[1]? = some s ∧
      (ofInstructions zigzag).trace[6]? = some t ∧ s.carriers.get? 1 = some column ∧
      t.carriers.get? 1 = some (column + 2 - 1) := by
  obtain ⟨steps, whole⟩ := feeders_travel zigzag
  refine ⟨?_, ?_⟩
  · obtain ⟨s, here⟩ : ∃ s, (ofInstructions zigzag).trace[3]? = some s :=
      Option.isSome_iff_exists.1 (by decide)
    obtain ⟨t, next⟩ : ∃ t, (ofInstructions zigzag).trace[3 + 1]? = some t :=
      Option.isSome_iff_exists.1 (by decide)
    obtain ⟨i, accepted, applied, travels⟩ := steps 3 s t here next
    exact ⟨s, t, i, here, next, accepted, applied, travels⟩
  · have accepted : (ofInstructions zigzag).accepted zigzag =
        [] ++ ⟨.bringIn .decreasing (.front 0) 1, 1, none⟩ :: (zigzag.tail.eraseIdx 2 ++ []) := by
      rw [accepted_eq]
      set_option maxRecDepth 2000 in
      decide
    refine whole [] _ _ _ .decreasing (.front 0) 1 accepted rfl ?_
    simp [zigzag]

end Replay

end Knitout
