import Knitout.Machine.Rules
import Knitout.Proofs.Literals
import Knitout.Proofs.Running
import Mathlib.Data.List.Induction

/-!
What is left of an operation once lengths, feeders and racking are set aside (`Stitch`), and what the
operations so far say about the lengths of the next one (`Operation.Measured`).
-/

namespace Knitout

/-- An operation on loops: which needles, and which yarns in which order. -/
inductive Stitch where
  | knit (direction : Direction) (needle : Needle) (yarns : List Yarn)
  | tuck (direction : Direction) (needle : Needle) (yarns : List Yarn)
  | split (direction : Direction) (needle target : Needle) (yarns : List Yarn)
  | drop (needle : Needle)
  | transfer (needle target : Needle)
  deriving DecidableEq

/-- Whether a needle holds loops. -/
def State.holds (s : State) (needle : Needle) : Bool :=
  decide (0 < s.loopCount needle)

namespace Operation

/-- The stitch that an operation makes; bringing carriers in and out, missing and racking make
none. -/
def stitch? : Operation → Option Stitch
  | .knit direction needle _ strands => some (.knit direction needle (yarnsOf strands))
  | .tuck direction needle _ strands => some (.tuck direction needle (yarnsOf strands))
  | .split direction needle target _ strands =>
    some (.split direction needle target (yarnsOf strands))
  | .drop needle => some (.drop needle)
  | .transfer needle target => some (.transfer needle target)
  | .miss .. | .bringIn .. | .bringOut .. | .rack _ => none

/-- The needle and the strands of an operation that forms loops. -/
def formed? : Operation → Option (Needle × List Strand)
  | .knit _ needle _ strands | .tuck _ needle _ strands | .split _ needle _ _ strands =>
    some (needle, strands)
  | _ => none

/-- The yarns that an operation names. -/
def yarns : Operation → List Yarn
  | .knit _ _ _ strands | .tuck _ _ _ strands | .split _ _ _ _ strands => yarnsOf strands
  | .miss _ _ yarn | .bringIn _ _ yarn | .bringOut _ _ yarn => [yarn]
  | .drop _ | .transfer _ _ | .rack _ => []

end Operation

/-- Nothing has named the yarn since it was last brought in. -/
def Untouched (yarn : Yarn) (operations : List Operation) : Prop :=
  ∃ earlier direction needle later,
    operations = earlier ++ .bringIn direction needle yarn :: later ∧
      ∀ op ∈ later, yarn ∉ op.yarns

/-- A yarn that was untouched before an operation stays so if the operation does not name it, and is
so otherwise only after its `in`. -/
theorem Untouched.of_concat {yarn : Yarn} {operations : List Operation} {op : Operation}
    (untouched : Untouched yarn (operations ++ [op])) :
    (∃ direction needle, op = .bringIn direction needle yarn) ∨
      (yarn ∉ op.yarns ∧ Untouched yarn operations) := by
  obtain ⟨earlier, direction, needle, later, whole, quiet⟩ := untouched
  rcases List.eq_nil_or_concat later with rfl | ⟨later, last, rfl⟩
  · obtain ⟨-, same⟩ := List.append_inj' whole rfl
    cases same
    exact .inl ⟨direction, needle, rfl⟩
  · rw [List.concat_eq_append, ← List.cons_append, ← List.append_assoc] at whole
    obtain ⟨same, last'⟩ := List.append_inj' whole rfl
    cases last'
    rw [List.concat_eq_append] at quiet
    exact .inr ⟨quiet op (by simp), earlier, direction, needle, later, same,
      fun op member => quiet op (List.mem_append_left _ member)⟩

/-- A yarn that is named after its `in` is touched. -/
theorem not_untouched_append {yarn : Yarn} {earlier later : List Operation}
    (kept : ∀ op ∈ later, ∀ direction needle, op ≠ .bringIn direction needle yarn)
    (named : ∃ op ∈ later, yarn ∈ op.yarns) : ¬ Untouched yarn (earlier ++ later) := by
  induction later using List.reverseRecOn with
  | nil =>
    obtain ⟨op, member, _⟩ := named
    cases member
  | append_singleton rest last ih =>
    intro untouched
    rw [← List.append_assoc] at untouched
    rcases untouched.of_concat with ⟨direction, needle, same⟩ | ⟨absent, before⟩
    · exact kept last (by simp) direction needle same
    · obtain ⟨op, member, naming⟩ := named
      rcases List.mem_append.1 member with member | member
      · exact ih (fun op member => kept op (List.mem_append_left _ member)) ⟨op, member, naming⟩
          before
      · rw [List.mem_singleton.1 member] at naming
        exact absent naming

/-- What the lengths of an operation have to be after the operations so far. A strand reaches from
the loop that its yarn is attached to as far as the needle, in columns; that of a yarn which nothing
named since its `in` has length one. -/
def Operation.Measured (op : Operation) (earlier : List Operation) : Prop :=
  ∀ needle strands, op.formed? = some (needle, strands) → ∀ strand ∈ strands,
    ∀ s, State.initial.applyAll earlier = .ok s →
      (∀ location, s.attachments.get? strand.yarn = some location →
        strand.length.IsNat
          (needle.column s.racking - location.needle.column s.racking).natAbs) ∧
      (Untouched strand.yarn earlier → strand.length.IsNat 1)

theorem Operation.measured_of_formed? {op : Operation} (none : op.formed? = none)
    (earlier : List Operation) : op.Measured earlier := by
  intro needle strands some
  rw [none] at some
  cases some

end Knitout
