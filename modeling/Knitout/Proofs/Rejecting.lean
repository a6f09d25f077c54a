import Knitout.Proofs.Running
import Mathlib.Data.List.Induction

/-!
A replay is a run of the instructions that it did not refuse (`Replay.skips_ofInstructions`): each
refused one is recorded with the fault that it has in the state left by the accepted ones before it,
and the others find the state as if it had not been there.
-/

namespace Knitout

/-! ## Paths -/

namespace State

/-- The machine gets from one state to another by doing operations one after the other, each with
the state that it results in. -/
inductive Path : State → List Operation → List State → State → Prop
  | stop (s : State) : Path s [] [] s
  | step {s t u : State} {op : Operation} {rest : List Operation} {states : List State}
      (applied : s.apply op = .ok t) (others : Path t rest states u) :
    Path s (op :: rest) (t :: states) u

theorem Path.concat {s t u : State} {ops : List Operation} {op : Operation} {states : List State}
    (path : Path s ops states t) (applied : t.apply op = .ok u) :
    Path s (ops ++ [op]) (states ++ [u]) u := by
  induction path with
  | stop => exact .step applied (.stop u)
  | step here _ ih => exact .step here (ih applied)

theorem Path.applyAll {s t : State} {ops : List Operation} {states : List State}
    (path : Path s ops states t) : s.applyAll ops = .ok t := by
  induction path with
  | stop => rfl
  | step here _ ih =>
    rw [applyAll_cons, here]
    exact ih

end State

namespace Replay

/-- A replay of the operations of a path goes along the path and refuses nothing. -/
theorem foldl_advance_of_path {instructions : List Instruction} {r : Replay} {states : List State}
    {t : State} (path : r.final.Path (instructions.map (·.operation)) states t) :
    (instructions.foldl advance r).trace.toList = r.trace.toList ++ states ∧
      (instructions.foldl advance r).rejections = r.rejections := by
  induction instructions generalizing r states with
  | nil =>
    cases path
    exact ⟨(List.append_nil _).symm, rfl⟩
  | cons i rest ih =>
    cases path with
    | step applied others =>
      have advanced := advance_ok applied
      obtain ⟨states', rejections⟩ := ih (r := r.advance i) (by rw [advanced]; exact others)
      rw [List.foldl_cons, states', rejections, advanced]
      exact ⟨by simp [trace], rfl⟩

/-! ## Accepted instructions -/

/-- The replay has recorded a fault of the instruction at this position. -/
def rejects (r : Replay) (index : Nat) : Bool :=
  r.rejections.any fun rejection => rejection.index == index

/-- The instructions that the replay has no fault of, in order. -/
def accepted (r : Replay) (instructions : List Instruction) : List Instruction :=
  (instructions.zipIdx.filter fun entry => !r.rejects entry.2).map (·.1)

/-- In lists only, a form that can be evaluated. -/
theorem accepted_eq (r : Replay) (instructions : List Instruction) :
    r.accepted instructions = (instructions.zipIdx.filter fun entry =>
      !r.rejections.toList.any fun rejection => rejection.index == entry.2).map (·.1) := by
  simp only [accepted, rejects, Array.any_toList]

/-- Faults elsewhere leave the accepted instructions as they are. -/
theorem accepted_congr {r r' : Replay} {instructions : List Instruction}
    (same : ∀ index, index < instructions.length → r'.rejects index = r.rejects index) :
    r'.accepted instructions = r.accepted instructions := by
  unfold accepted
  congr 1
  refine List.filter_congr ?_
  intro entry member
  rw [same entry.2 (by simpa using List.snd_lt_of_mem_zipIdx member)]

theorem accepted_concat (r : Replay) (instructions : List Instruction) (i : Instruction) :
    r.accepted (instructions ++ [i]) =
      r.accepted instructions ++ if r.rejects instructions.length then [] else [i] := by
  unfold accepted
  rw [List.zipIdx_append, List.filter_append, List.map_append, Nat.zero_add]
  cases rejected : r.rejects instructions.length <;> simp [rejected]

/-- What a replay has made of instructions: it went along the accepted ones and recorded the others
with their faults. -/
structure Skips (instructions : List Instruction) (r : Replay) : Prop where
  /-- The positions of the refused instructions increase. -/
  increasing : (r.rejections.toList.map (·.index)).Pairwise (· < ·)
  /-- There is one state for each accepted instruction, and one before them all. -/
  size : r.trace.size + r.rejections.size = 1 + instructions.length
  /-- The states are the empty machine and what the accepted instructions make of it. -/
  path : ∃ states, r.trace.toList = .initial :: states ∧
    State.initial.Path ((r.accepted instructions).map (·.operation)) states r.final
  /-- A refused instruction has its fault in the state that the accepted ones before it leave. -/
  faults : ∀ rejection ∈ r.rejections, ∃ before i after s,
    instructions = before ++ i :: after ∧ rejection.index = before.length ∧
      rejection.line = i.line ∧
      State.initial.applyAll ((r.accepted before).map (·.operation)) = .ok s ∧
      s.apply i.operation = .error rejection.fault

theorem Skips.index_lt {instructions : List Instruction} {r : Replay} (skips : r.Skips instructions)
    {rejection : Rejection} (member : rejection ∈ r.rejections) :
    rejection.index < instructions.length := by
  obtain ⟨before, i, after, _, rfl, index, _⟩ := skips.faults rejection member
  rw [index, List.length_append, List.length_cons]
  omega

theorem Skips.start : Replay.start.Skips [] where
  increasing := .nil
  size := rfl
  path := ⟨[], rfl, .stop _⟩
  faults _ none := absurd none (Array.not_mem_empty _)

section
variable {instructions : List Instruction} {r : Replay} {i : Instruction}

theorem Skips.accept (skips : r.Skips instructions) {next : State}
    (applied : r.final.apply i.operation = .ok next) :
    (r.advance i).Skips (instructions ++ [i]) := by
  have advanced := advance_ok applied
  have same : (r.advance i).rejections = r.rejections := by rw [advanced]
  have before (xs : List Instruction) : (r.advance i).accepted xs = r.accepted xs := by
    simp only [accepted, rejects, same]
  have kept : (r.advance i).accepted (instructions ++ [i]) = r.accepted instructions ++ [i] := by
    have fresh : r.rejects instructions.length = false := by
      rw [rejects, Array.any_eq_false']
      intro rejection member found
      have := skips.index_lt member
      simp at found
      omega
    rw [before, accepted_concat, fresh]
    rfl
  refine ⟨?_, ?_, ?_, ?_⟩
  · rw [same]
    exact skips.increasing
  · have size := skips.size
    rw [same, advanced, List.length_append, List.length_singleton]
    simp only [trace, Array.size_push] at size ⊢
    omega
  · obtain ⟨states, whole, path⟩ := skips.path
    refine ⟨states ++ [next], ?_, ?_⟩
    · rw [advanced, trace, Array.toList_push, ← List.cons_append, ← whole]
      rfl
    · rw [kept, List.map_append, advanced]
      exact path.concat applied
  · intro rejection member
    rw [same] at member
    obtain ⟨earlier, j, after, s, rfl, index, line, left, fault⟩ := skips.faults rejection member
    exact ⟨earlier, j, after ++ [i], s, by simp, index, line, by rw [before, left], fault⟩

theorem Skips.refuse (skips : r.Skips instructions) (tried : r.tried = instructions.length)
    {fault : Fault} (refused : r.final.apply i.operation = .error fault) :
    (r.advance i).Skips (instructions ++ [i]) := by
  have advanced := advance_error refused
  have more : (r.advance i).rejections = r.rejections.push ⟨instructions.length, i.line, fault⟩ := by
    rw [advanced, tried]
  have rejects' (index : Nat) :
      (r.advance i).rejects index = (r.rejects index || instructions.length == index) := by
    simp [rejects, more]
  have before {xs : List Instruction} (few : xs.length ≤ instructions.length) :
      (r.advance i).accepted xs = r.accepted xs := by
    refine accepted_congr fun index inside => ?_
    have other : (instructions.length == index) = false := beq_eq_false_iff_ne.2 (by omega)
    rw [rejects', other, Bool.or_false]
  have kept : (r.advance i).accepted (instructions ++ [i]) = r.accepted instructions := by
    rw [accepted_concat, before (Nat.le_refl _), rejects', beq_self_eq_true, Bool.or_true, if_pos rfl,
      List.append_nil]
  obtain ⟨states, whole, path⟩ := skips.path
  refine ⟨?_, ?_, ⟨states, ?_, ?_⟩, ?_⟩
  · rw [more, Array.toList_push, List.map_append, List.pairwise_append]
    refine ⟨skips.increasing, List.pairwise_singleton _ _, ?_⟩
    intro index member last same
    obtain ⟨rejection, here, rfl⟩ := List.mem_map.1 member
    rw [List.mem_singleton.1 same]
    exact skips.index_lt (Array.mem_toList_iff.1 here)
  · have size := skips.size
    rw [more, advanced, List.length_append, List.length_singleton, Array.size_push]
    simp only [trace, Array.size_push] at size ⊢
    omega
  · rw [advanced]
    exact whole
  · rw [kept, advanced]
    exact path
  · intro rejection member
    rw [more] at member
    rcases Array.mem_push.1 member with member | rfl
    · obtain ⟨earlier, j, after, s, rfl, index, line, left, fault⟩ := skips.faults rejection member
      refine ⟨earlier, j, after ++ [i], s, by simp, index, line, ?_, fault⟩
      rw [before (by simp), left]
    · refine ⟨instructions, i, [], r.final, rfl, rfl, rfl, ?_, refused⟩
      rw [before (Nat.le_refl _)]
      exact path.applyAll

end

theorem tried_ofInstructions (instructions : List Instruction) :
    (ofInstructions instructions).tried = instructions.length := by
  induction instructions using List.reverseRecOn with
  | nil => rfl
  | append_singleton xs i ih =>
    rw [ofInstructions_append, List.length_append, ← ih]
    unfold List.foldl advance
    split <;> rfl

theorem skips_ofInstructions (instructions : List Instruction) :
    (ofInstructions instructions).Skips instructions := by
  induction instructions using List.reverseRecOn with
  | nil => exact .start
  | append_singleton xs i ih =>
    rw [ofInstructions_append]
    cases applied : (ofInstructions xs).final.apply i.operation with
    | ok next => exact ih.accept applied
    | error fault => exact ih.refuse (tried_ofInstructions xs) applied

/-- A replay skips what it refuses, so a replay of what it accepted goes through the same states and
refuses nothing. -/
theorem skips_and_repeats (instructions : List Instruction) :
    let r := ofInstructions instructions
    r.Skips instructions ∧ (ofInstructions (r.accepted instructions)).trace = r.trace ∧
      (ofInstructions (r.accepted instructions)).rejections = #[] := by
  have skips := skips_ofInstructions instructions
  obtain ⟨states, whole, path⟩ := skips.path
  obtain ⟨again, rejections⟩ := foldl_advance_of_path (r := start) path
  refine ⟨skips, Array.toList_inj.1 ?_, rejections⟩
  rw [whole]
  exact again

-- a carrier that was never brought in cannot go out
example : ((ofInstructions [⟨.rack 1, 1, none⟩, ⟨.bringOut .increasing ⟨.front, 0⟩ 3, 2, none⟩,
    ⟨.rack 2, 3, none⟩]).rejections.map (·.index)) = #[1] := by cbv

end Replay

end Knitout
