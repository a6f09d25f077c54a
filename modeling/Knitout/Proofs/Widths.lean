import Knitout.Proofs.Driving

/-!
The columns of the machine are words of 64 bits. What it does is what the same rules do with all
integers (`State.applyExact`), unless it stops at a needle past which a feeder cannot stand
(`State.applyWithin_limits`).
-/

namespace Knitout

/-! ## The columns that an operation looks at -/

namespace Operation

/-- The needles that an operation names. -/
def needles : Operation → List Needle
  | .knit _ needle _ _ | .tuck _ needle _ _ | .miss _ needle _ | .bringIn _ needle _
  | .bringOut _ needle _ | .drop needle => [needle]
  | .split _ needle target _ _ | .transfer needle target => [needle, target]
  | .rack _ => []

/-- The needles whose columns an operation looks at, each with the direction in which a feeder
probes it: aligned needles are compared as if it went down, a carriage comes from where it would be
going the other way, and leaves for where it goes. -/
def probes : Operation → List (Needle × Direction)
  | .knit direction needle _ _ | .tuck direction needle _ _ | .miss direction needle _ =>
    [(needle, direction.opposite), (needle, direction)]
  | .split direction needle target _ _ =>
    [(needle, .decreasing), (target, .decreasing), (needle, direction.opposite),
      (needle, direction)]
  | .bringIn direction needle _ | .bringOut direction needle _ => [(needle, direction)]
  | .transfer needle target => [(needle, .decreasing), (target, .decreasing)]
  | .drop _ | .rack _ => []

theorem mem_needles_of_mem_probes {op : Operation} {pass : Needle × Direction}
    (looked : pass ∈ op.probes) : pass.1 ∈ op.needles := by
  cases op <;> simp only [probes, needles, List.mem_cons, List.not_mem_nil, or_false] at looked ⊢
    <;> grind

/-- Needle indices and the racking are 64-bit words. -/
structure InWords (op : Operation) : Prop where
  needles : ∀ needle ∈ op.needles, isWord needle.index = true
  racking : ∀ racking, op = .rack racking → isWord racking = true

end Operation

/-! ## All integers -/

namespace State

/-- The same rules with all integers as columns. -/
def applyExact (s : State) (op : Operation) : Except Fault State :=
  s.applyWithin (fun _ => true) op

/-- The racking and the columns of the feeders are 64-bit words. -/
structure InWords (s : State) : Prop where
  racking : isWord s.racking = true
  carriers : ∀ yarn column, s.carriers.get? yarn = some column → isWord column = true

/-- A feeder cannot stand past a needle in this direction: the needle's column or its own is none of
the machine's. -/
def Beyond (fits : Int → Bool) (racking : Int) (pass : Needle × Direction) : Prop :=
  ¬ (fits (pass.1.column racking) = true ∧
    fits (pass.1.column racking + pass.2.feederOffset) = true)

/-- A computation did not stop for want of a column. -/
def Reached {α : Type} (x : Except Fault α) : Prop :=
  ∀ needle racking, x ≠ .error (.outOfRange needle racking)

/-- A computation with limited columns comes to what the one with all integers comes to, which is
never stopped by a column, or it stops at one of the needles because a feeder cannot stand past
it. -/
def Limits {α : Type} (fits : Int → Bool) (racking : Int) (probes : List (Needle × Direction))
    (limited exact : Except Fault α) : Prop :=
  (limited = exact ∧ Reached exact) ∨
    ∃ pass ∈ probes, Beyond fits racking pass ∧ limited = .error (.outOfRange pass.1 racking)

section
variable {fits : Int → Bool} {racking : Int} {probes : List (Needle × Direction)} {α β : Type}

theorem reached_ok (a : α) : Reached (.ok a) :=
  fun _ _ same => by cases same

theorem Limits.refl {x : Except Fault α} (reached : Reached x) : Limits fits racking probes x x :=
  .inl ⟨rfl, reached⟩

theorem Limits.ok (a : α) : Limits fits racking probes (.ok a) (.ok a) :=
  .refl (reached_ok a)

/-- Limits carry through computations in two parts. -/
theorem Limits.bind {x y : Except Fault α} {f g : α → Except Fault β}
    (first : Limits fits racking probes x y)
    (second : ∀ a, Limits fits racking probes (f a) (g a)) :
    Limits fits racking probes (x >>= f) (y >>= g) := by
  rcases first with ⟨rfl, reached⟩ | ⟨pass, looked, beyond, rfl⟩
  · cases x with
    | error e => exact .refl fun needle racking same => reached needle racking (by cases same; rfl)
    | ok a => exact second a
  · exact .inr ⟨pass, looked, beyond, rfl⟩

variable {s : State} {needle target : Needle} {direction : Direction} {yarns : List Yarn}

/-- With all integers every needle can be passed. -/
theorem feederColumn_exact (s : State) (needle : Needle) (direction : Direction) :
    s.feederColumn (fun _ => true) needle direction =
      .ok (needle.column s.racking + direction.feederOffset) :=
  rfl

theorem feederColumn_limits (looked : (needle, direction) ∈ probes) :
    Limits fits s.racking probes (s.feederColumn fits needle direction)
      (s.feederColumn (fun _ => true) needle direction) := by
  rw [feederColumn_exact]
  unfold feederColumn
  simp only
  split
  · exact .ok _
  · next beyond => exact .inr ⟨_, looked, by simpa [Beyond] using beyond, rfl⟩

theorem reached_checkCarrier (s : State) (expected : Int) (yarn : Yarn) :
    Reached (s.checkCarrier expected yarn) := by
  intro needle racking
  unfold checkCarrier
  split
  · simp
  · split <;> simp

theorem reached_checkCarriers (s : State) (expected : Int) (yarns : List Yarn) :
    Reached (s.checkCarriers expected yarns) := by
  induction yarns with
  | nil => exact reached_ok ()
  | cons yarn rest ih =>
    intro needle racking
    have first := reached_checkCarrier s expected yarn needle racking
    unfold checkCarriers
    cases checked : s.checkCarrier expected yarn with
    | error e => rwa [checked] at first
    | ok => exact ih needle racking

theorem checkApproach_limits (looked : (needle, direction.opposite) ∈ probes) :
    Limits fits s.racking probes (s.checkApproach fits needle direction yarns)
      (s.checkApproach (fun _ => true) needle direction yarns) :=
  (feederColumn_limits looked).bind fun expected => .refl (reached_checkCarriers s expected yarns)

theorem checkAligned_limits (here : (needle, .decreasing) ∈ probes)
    (there : (target, .decreasing) ∈ probes) :
    Limits fits s.racking probes (s.checkAligned fits needle target)
      (s.checkAligned (fun _ => true) needle target) := by
  unfold checkAligned
  split
  · exact .refl fun _ _ => by simp
  · refine (feederColumn_limits here).bind fun column => ?_
    refine (feederColumn_limits there).bind fun column' => .refl fun _ _ => ?_
    split <;> simp

/-- Loops and attachments do not matter for where feeders get to. -/
theorem carry_limits {t : State} (kept : t.racking = racking)
    (looked : (needle, direction) ∈ probes) :
    Limits fits racking probes (t.carry fits needle direction yarns)
      (t.carry (fun _ => true) needle direction yarns) := by
  subst kept
  exact (feederColumn_limits looked).bind fun column => .ok _

end

/-- An operation comes to the same with limited columns as with all integers, or stops at one of the
columns that it looks at. -/
theorem applyWithin_limits (fits : Int → Bool) (s : State) (op : Operation) :
    Limits fits s.racking op.probes (s.applyWithin fits op) (s.applyExact op) := by
  unfold applyExact
  cases op with
  | knit direction needle length strands =>
    refine (checkApproach_limits (by simp [Operation.probes])).bind fun _ => ?_
    exact carry_limits rfl (by simp [Operation.probes])
  | tuck direction needle length strands =>
    refine (checkApproach_limits (by simp [Operation.probes])).bind fun _ => ?_
    refine carry_limits ?_ (by simp [Operation.probes])
    cases (yarnsOf strands).isEmpty <;> rfl
  | split direction needle target length strands =>
    refine (checkAligned_limits (by simp [Operation.probes]) (by simp [Operation.probes])).bind
      fun _ => ?_
    refine (checkApproach_limits (by simp [Operation.probes])).bind fun _ => ?_
    refine carry_limits ?_ (by simp [Operation.probes])
    cases (yarnsOf strands).isEmpty <;> rfl
  | miss direction needle yarn =>
    refine (checkApproach_limits (by simp [Operation.probes])).bind fun _ => ?_
    exact carry_limits rfl (by simp [Operation.probes])
  | bringIn direction needle yarn =>
    simp only [applyWithin]
    split
    · exact .refl fun _ _ => by simp
    · exact carry_limits rfl (by simp [Operation.probes])
  | bringOut direction needle yarn =>
    refine (feederColumn_limits (by simp [Operation.probes])).bind fun expected => ?_
    exact (Limits.refl (reached_checkCarrier s expected yarn)).bind fun _ => .ok _
  | drop needle =>
    refine .refl fun _ _ => ?_
    simp only [applyWithin]
    split <;> simp
  | transfer needle target =>
    exact (checkAligned_limits (by simp [Operation.probes]) (by simp [Operation.probes])).bind
      fun _ => .ok _
  | rack racking =>
    refine .refl fun _ _ => ?_
    simp only [applyWithin]
    split <;> simp

theorem applyExact_of_apply {s t : State} {op : Operation} (done : s.apply op = .ok t) :
    s.applyExact op = .ok t := by
  rcases applyWithin_limits isWord s op with ⟨same, _⟩ | ⟨_, _, _, stopped⟩
  · rw [← same]
    exact done
  · rw [apply, stopped] at done
    cases done

theorem inWords_of_apply {s t : State} {op : Operation} (inWords : s.InWords) (fits : op.InWords)
    (done : s.apply op = .ok t) : t.InWords := by
  cases drives_of_apply done with
  | pass _ _ _ leaving carriers racking =>
    refine ⟨racking ▸ inWords.racking, fun yarn column there => ?_⟩
    rw [carriers, get?_park] at there
    split at there
    · cases there
      exact (feederColumn_ok leaving).2
    · exact inWords.carriers yarn column there
  | enter _ arriving carriers racking =>
    refine ⟨racking ▸ inWords.racking, fun yarn column there => ?_⟩
    rw [carriers, get?_park] at there
    split at there
    · cases there
      exact (feederColumn_ok arriving).2
    · exact inWords.carriers yarn column there
  | leave _ _ carriers racking =>
    refine ⟨racking ▸ inWords.racking, fun yarn column there => ?_⟩
    rw [carriers, Table.get?_erase] at there
    split at there
    · cases there
    · exact inWords.carriers yarn column there
  | stay _ _ _ carriers racking =>
    refine ⟨?_, fun yarn column there => inWords.carriers yarn column (carriers ▸ there)⟩
    rcases racking with same | racked
    · rw [same]
      exact inWords.racking
    · exact fits.racking t.racking racked

end State

end Knitout
