import Knitout.Lowering.Output
import Knitout.Proofs.Readback

/-!
How an output grows. A slot is final when it is added, unless it waits for the `in` of a carrier;
then it may still become that `in`. So what the machine will have been told before a slot can be read
off the final output (`Output.before`), also for the slots that are still waiting: an output settles
into a final one (`Output.Settles`) if every slot is there, as it is or settled.
-/

namespace Knitout

/-! ## Contents -/

namespace Content

/-- The operation that an output line holds, if any. -/
def operation? : Content → Option Operation
  | .operation op => some op
  | _ => none

/-- Where an `in` leaves its feeder; it names a needle of the front bed. -/
def arrival? : Content → Option Int
  | .operation (.bringIn direction needle _) => some (needle.index + direction.feederOffset)
  | _ => none

/-- A content stays as it is, or a waiting place becomes the `in` of its carrier, within the columns
that feeders get to. -/
inductive Settles : Content → Content → Prop
  | same (content : Content) : Settles content content
  | brought {carrier : Carrier} {direction : Direction} {column : Int}
      (near : column.natAbs ≤ 2000000) :
      Settles (.pendingIn carrier)
        (.operation (.bringIn direction (.front column) carrier.yarn))

theorem Settles.trans {a b c : Content} (first : a.Settles b) (second : b.Settles c) :
    a.Settles c := by
  cases first with
  | same => exact second
  | brought near =>
    cases second
    exact .brought near

/-- The operation is well formed, and a carrier's name does not go over the end of the line. -/
def Tidy : Content → Prop
  | .operation op => op.WellFormed
  | .remark _ => True
  | .pendingIn carrier => '\n' ∉ carrier.name

end Content

/-! ## Outputs -/

namespace Output

/-- What a slot holds. -/
def content? (o : Output) (index : Nat) : Option Content :=
  o.slots[index]?.map (·.content)

theorem content?_lt {o : Output} {index : Nat} {content : Content}
    (there : o.content? index = some content) : index < o.slots.size := by
  obtain ⟨slot, found, _⟩ := Option.map_eq_some_iff.1 there
  exact (Array.getElem?_eq_some_iff.1 found).1

theorem content?_of_lt {o : Output} {index : Nat} (inside : index < o.slots.size) :
    o.content? index = some o.slots[index].content := by
  rw [content?, Array.getElem?_eq_getElem inside]
  rfl

/-- Every slot has a place. -/
theorem exists_content? {o : Output} {slot : Slot} (member : slot ∈ o.slots.toList) :
    ∃ index, o.content? index = some slot.content := by
  obtain ⟨index, inside, rfl⟩ := Array.mem_iff_getElem.1 (Array.mem_toList_iff.1 member)
  exact ⟨index, content?_of_lt inside⟩

theorem content?_emit (o : Output) (content : Content) (index : Nat) :
    (o.emit content).content? index =
      if index = o.slots.size then some content else o.content? index := by
  unfold content? emit
  rw [Array.getElem?_push]
  split <;> rfl

theorem content?_fill (o : Output) (place : Nat) (content : Content) (index : Nat) :
    (o.fill place content).content? index =
      if index = place then (o.content? index).map fun _ => content else o.content? index := by
  unfold content? fill
  rw [Array.getElem?_modify]
  by_cases same : index = place
  · simp [same, Function.comp_def]
  · simp [same, Ne.symm same]

/-- The operations in the first slots. -/
def before (o : Output) (count : Nat) : List Operation :=
  (o.slots.toList.take count).filterMap fun slot => slot.content.operation?

/-- All the operations. -/
def operations (o : Output) : List Operation :=
  o.slots.toList.filterMap fun slot => slot.content.operation?

theorem before_size (o : Output) : o.before o.slots.size = o.operations := by
  unfold before operations
  rw [List.take_of_length_le (by simp)]

theorem before_zero (o : Output) : o.before 0 = [] := by
  simp [before]

theorem before_succ {o : Output} {index : Nat} {content : Content}
    (there : o.content? index = some content) :
    o.before (index + 1) = o.before index ++ content.operation?.toList := by
  obtain ⟨slot, found, rfl⟩ := Option.map_eq_some_iff.1 there
  unfold before
  rw [List.take_add_one, List.filterMap_append]
  have here : o.slots.toList[index]? = some slot := by simpa using found
  cases operation : slot.content.operation? <;> simp [here, operation]

/-- More slots hold more operations. -/
theorem before_append (o : Output) {fewer more : Nat} (le : fewer ≤ more) :
    ∃ block, o.before more = o.before fewer ++ block := by
  refine ⟨((o.slots.toList.drop fewer).take (more - fewer)).filterMap
    fun slot => slot.content.operation?, ?_⟩
  unfold before
  rw [← List.filterMap_append, ← List.take_add, Nat.add_sub_cancel' le]

/-- Every operation stands in a slot behind the operations before it. -/
theorem exists_slot {o : Output} {earlier later : List Operation} {op : Operation}
    (split : o.operations = earlier ++ op :: later) :
    ∃ index, o.content? index = some (.operation op) ∧ o.before index = earlier := by
  obtain ⟨front, rest, whole, rfl, tail⟩ := List.filterMap_eq_append_iff.1 split
  obtain ⟨skipped, slot, others, rfl, none, here, _⟩ := List.filterMap_eq_cons_iff.1 tail
  have content : slot.content = .operation op := by
    cases held : slot.content with
    | operation op' =>
      rw [held] at here
      cases here
      rfl
    | remark note => rw [held] at here; cases here
    | pendingIn carrier => rw [held] at here; cases here
  rw [← List.append_assoc] at whole
  refine ⟨(front ++ skipped).length, ?_, ?_⟩
  · have found : o.slots.toList[(front ++ skipped).length]? = some slot := by
      rw [whole, List.getElem?_append_right (Nat.le_refl _), Nat.sub_self]
      rfl
    rw [content?, ← Array.getElem?_toList, found, ← content]
    rfl
  · rw [before, whole, List.take_left', List.filterMap_append]
    · have nothing : skipped.filterMap (fun slot => slot.content.operation?) = [] :=
        List.filterMap_eq_nil_iff.2 none
      rw [nothing, List.append_nil]
    · rfl

/-- Every slot is in the final output, as it is or settled. -/
def Settles (o final : Output) : Prop :=
  ∀ index content, o.content? index = some content →
    ∃ settled, final.content? index = some settled ∧ content.Settles settled

theorem Settles.refl (o : Output) : o.Settles o :=
  fun _ content there => ⟨content, there, .same content⟩

theorem Settles.trans {a b c : Output} (first : a.Settles b) (second : b.Settles c) :
    a.Settles c := by
  intro index content there
  obtain ⟨between, here, settles⟩ := first index content there
  obtain ⟨last, found, settles'⟩ := second index between here
  exact ⟨last, found, settles.trans settles'⟩

theorem settles_emit (o : Output) (content : Content) : o.Settles (o.emit content) := by
  intro index content' there
  have other : index ≠ o.slots.size := Nat.ne_of_lt (content?_lt there)
  exact ⟨content', by rw [content?_emit, if_neg other, there], .same content'⟩

/-- A waiting place may be filled with its `in`. -/
theorem settles_fill {o : Output} {place : Nat} {carrier : Carrier}
    (waiting : o.content? place = some (.pendingIn carrier)) (direction : Direction) {column : Int}
    (near : column.natAbs ≤ 2000000) :
    o.Settles (o.fill place (.operation (.bringIn direction (.front column) carrier.yarn))) := by
  intro index content there
  rw [content?_fill]
  by_cases same : index = place
  · subst same
    rw [waiting] at there
    cases there
    exact ⟨_, by rw [if_pos rfl, waiting]; rfl, .brought near⟩
  · exact ⟨content, by rw [if_neg same, there], .same content⟩

/-- What is no longer waiting is in the final output. -/
theorem Settles.operation {o final : Output} (settles : o.Settles final) {index : Nat}
    {op : Operation} (there : o.content? index = some (.operation op)) :
    final.content? index = some (.operation op) := by
  obtain ⟨settled, found, change⟩ := settles index _ there
  cases change
  exact found

theorem Settles.size_le {o final : Output} (settles : o.Settles final) :
    o.slots.size ≤ final.slots.size := by
  by_contra fewer
  have inside : final.slots.size < o.slots.size := Nat.lt_of_not_le fewer
  have there : o.content? final.slots.size = some o.slots[final.slots.size].content := by
    simp [content?, inside]
  obtain ⟨settled, found, _⟩ := settles _ _ there
  exact Nat.lt_irrefl _ (content?_lt found)

/-! ## Tidy outputs -/

/-- All slots quote lines that are fine, and so will the next slot. -/
structure Quoting (o : Output) (fine : Text → Prop) : Prop where
  quotes : ∀ slot ∈ o.slots.toList, ∀ source, slot.annotation = some source → fine source
  next : ∀ source, o.annotation = some source → fine source

section
variable {fine : Text → Prop}

theorem Quoting.empty : Output.empty.Quoting fine := by
  refine ⟨?_, ?_⟩
  · intro slot member
    cases member
  · intro source none
    cases none

theorem Quoting.emit {o : Output} (quoting : o.Quoting fine) (content : Content) :
    (o.emit content).Quoting fine := by
  refine ⟨?_, ?_⟩
  · intro slot member source quoted
    rw [Output.emit, Array.toList_push] at member
    rcases List.mem_append.1 member with member | member
    · exact quoting.quotes slot member source quoted
    · cases List.mem_singleton.1 member
      exact quoting.next source quoted
  · intro _ none
    cases none

theorem Quoting.fill {o : Output} (quoting : o.Quoting fine) (place : Nat) (content : Content) :
    (o.fill place content).Quoting fine := by
  refine ⟨?_, quoting.next⟩
  intro slot member source quoted
  have member : slot ∈ o.slots.modify place fun slot => { slot with content } :=
    Array.mem_toList_iff.1 member
  obtain ⟨index, inside, rfl⟩ := Array.mem_iff_getElem.1 member
  rw [Array.getElem_modify] at quoted
  have old : index < o.slots.size := by simpa using inside
  have here : Slot.annotation (o.slots[index]) = some source := by
    split at quoted <;> exact quoted
  exact quoting.quotes o.slots[index] (by simp) source here

theorem Quoting.beginLine {o : Output} (quoting : o.Quoting fine) {source : Text}
    (whole : fine source) : (o.beginLine source).Quoting fine := by
  refine ⟨quoting.quotes, ?_⟩
  intro quoted same
  unfold Output.beginLine at same
  simp only at same
  split at same
  · cases same
  · cases same
    exact whole

end

/-- All slots hold tidy contents and quote single lines, and the next slot will quote one. -/
structure Tidy (o : Output) : Prop extends Quoting o fun source => '\n' ∉ source where
  contents : ∀ index content, o.content? index = some content → content.Tidy

theorem Tidy.emit {o : Output} (tidy : o.Tidy) {content : Content} (fine : content.Tidy) :
    (o.emit content).Tidy := by
  refine ⟨tidy.toQuoting.emit content, ?_⟩
  intro index content' there
  rw [content?_emit] at there
  split at there
  · cases there
    exact fine
  · exact tidy.contents index content' there

theorem Tidy.fill {o : Output} (tidy : o.Tidy) (place : Nat) {content : Content}
    (fine : content.Tidy) : (o.fill place content).Tidy := by
  refine ⟨tidy.toQuoting.fill place content, ?_⟩
  intro index content' there
  rw [content?_fill] at there
  split at there
  · obtain ⟨_, _, rfl⟩ := Option.map_eq_some_iff.1 there
    exact fine
  · exact tidy.contents index content' there

theorem Tidy.beginLine {o : Output} (tidy : o.Tidy) {source : Text} (whole : '\n' ∉ source) :
    (o.beginLine source).Tidy :=
  ⟨tidy.toQuoting.beginLine whole, tidy.contents⟩

end Output

end Knitout
