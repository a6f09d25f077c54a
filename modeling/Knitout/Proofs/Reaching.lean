import Knitout.Proofs.Run

/-!
The states that the lowering of a source text comes to (`Context.Reached`): between two lines, at the
beginning of one, and with some of the feeders of a request in place. Each of them is sound, and
whatever becomes of the places that are still reserved by then, the machine that does the operations
added so far agrees with it (`Context.Reached.mirrored`).
-/

namespace Knitout

/-- The header lists no more carriers than a 32-bit number can count. -/
def FewCarriers (source : Text) : Prop :=
  ∀ block, Headers.ofLines (lines source) = .ok block →
    block.headers.carriers.length ≤ maxHalfWord

namespace Context

/-- The state in which a line is executed: the next output line has to quote it. -/
def atLine (c : Context) (line : Text) : Context :=
  { c with output := c.output.beginLine line }

/-- The states between two lines, with the number of the next line and the lines that are left. -/
inductive Between (source : Text) : Context → Nat → List Text → Prop
  | start {block : HeaderBlock} {t : CarrierTable}
      (read : Headers.ofLines (lines source) = .ok block)
      (named : CarrierTable.ofNames block.headers.carriers = .ok t) :
    Between source (.start t) (block.bodyStart + 1) (bodyLines source)
  | line {c d : Context} {number : Nat} {line : Text} {rest : List Text}
      (here : Between source c number (line :: rest)) (done : c.lowerLine number line = .ok d) :
    Between source d (number + 1) rest

/-- The states of the lowering of a source text. -/
inductive Reached (source : Text) : Context → Prop
  | between {c : Context} {number : Nat} {rest : List Text} (here : Between source c number rest) :
    Reached source c
  | atLine {c : Context} {number : Nat} {line : Text} {rest : List Text}
      (here : Between source c number (line :: rest)) : Reached source (c.atLine line)
  /-- Some of the carriers of a request have been got into place, and the others wait. -/
  | placing {c d : Context} {number : Nat} {line : Text} {rest : List Text} {request : Request}
      {p : Plan} {placed waiting : List Carrier} (here : Between source c number (line :: rest))
      (asks : Command.ofLine line = .ok (some (.loops request)))
      (planned : (c.atLine line).plan request = .ok p)
      (checked : (c.atLine line).checkPlan p = .ok ()) (carriers : p.carriers = placed ++ waiting)
      (done : (c.atLine line).positionAll (approach request) placed = .ok d) : Reached source d

variable {source : Text} {c d : Context} {number : Nat} {rest : List Text}

/-! ## Between two lines -/

/-- Lines that are lowered lead from one of these states to another. -/
theorem Between.lines {lines : List Text} (here : Between source c number (lines ++ rest))
    (done : c.lowerLines number lines = .ok d) :
    Between source d (number + lines.length) rest := by
  induction lines generalizing c number with
  | nil =>
    cases done
    exact here
  | cons line others ih =>
    unfold lowerLines at done
    split at done
    · cases done
    · next between first =>
      have later := ih (here.line first) done
      rwa [Nat.add_assoc, Nat.add_comm 1] at later

/-- The last of them is the state that the lowering ends in. -/
theorem Between.of_finalContext? (ends : finalContext? source = some c) :
    ∃ number, Between source c number [] := by
  unfold finalContext? at ends
  split at ends
  · cases ends
  · next block read =>
    split at ends
    · cases ends
    · next t named =>
      cases run : (Context.start t).lowerLines (block.bodyStart + 1) (bodyLines source) with
      | error failure =>
        rw [run] at ends
        cases ends
      | ok last =>
        rw [run] at ends
        cases ends
        have begins : Between source (.start t) (block.bodyStart + 1) (bodyLines source ++ []) := by
          rw [List.append_nil]
          exact .start read named
        exact ⟨_, begins.lines run⟩

/-- No line goes over the end of a line. -/
theorem Between.whole (here : Between source c number rest) : ∀ line ∈ rest, '\n' ∉ line := by
  induction here with
  | start => exact fun line => newline_not_mem_bodyLines
  | line _ _ ih => exact fun other member => ih other (List.mem_cons_of_mem _ member)

/-- The machine has come as far, whatever becomes of the places that are still reserved. -/
theorem Between.mirrored (few : FewCarriers source) (here : Between source c number rest) :
    c.Sound ∧ ∀ final, c.output.Settles final →
      ∃ s, Mirrors final (fun _ => False) (fun _ _ => False) c s := by
  -- nothing is claimed of the yarns that were worked, so a line need not know the lines before it
  induction here with
  | start read named =>
    obtain ⟨numbered, oneLine, _⟩ := tidy_of_header read named (few _ read)
    exact ⟨.start numbered oneLine, fun final _ => ⟨.initial, mirrors_start final _ _⟩⟩
  | line here done ih =>
    obtain ⟨sound, follows⟩ := ih
    have step := step_of_lowerLine sound (here.whole _ (by simp)) done
    refine ⟨step.sound sound, fun final settles => ?_⟩
    obtain ⟨s, mirrors⟩ := follows final ((step.settles sound).trans settles)
    obtain ⟨⟨t, after⟩, _⟩ := step.follow sound settles mirrors
    exact ⟨t, after.weaken (fun _ never => never.elim) fun _ _ _ never => never⟩

/-! ## Everywhere -/

/-- A plan has some carriers of the file, each of them once. -/
theorem carriers_of_plan {request : Request} {p : Plan} (sound : c.Sound)
    (planned : c.plan request = .ok p) :
    (∀ carrier ∈ p.carriers, carrier ∈ c.carriers.carriers) ∧
      (p.carriers.map (·.yarn)).Nodup := by
  obtain ⟨_, resolved, _⟩ := plan_ok planned
  exact ⟨fun carrier member => (CarrierTable.mem_of_resolve resolved member).1,
    CarrierTable.nodup_resolve sound.table resolved⟩

section
variable {settling : Yarn → Location → Prop} {line : Text}

theorem Between.moves_atLine (here : Between source c number (line :: rest)) :
    Moves (fun _ => False) settling c (c.atLine line) :=
  .single (.beginLine (here.whole line (by simp)))

/-- Quiet steps that bring in nothing lead from one state that the machine agrees with to another. -/
private theorem mirrored_of_moves (moves : Moves (fun _ => False) settling c d) (sound : c.Sound)
    (follows : ∀ final, c.output.Settles final →
      ∃ s, Mirrors final (fun _ => False) (fun _ _ => False) c s) :
    d.Sound ∧ ∀ final, d.output.Settles final →
      ∃ s, Mirrors final (fun _ => False) (fun _ _ => True) d s := by
  refine ⟨moves.sound sound, fun final settles => ?_⟩
  obtain ⟨s, mirrors⟩ := follows final ((moves.settles sound).trans settles)
  have weaker : Mirrors final (fun _ => False) (fun _ _ => True) c s :=
    mirrors.weaken (fun _ never => never) fun _ _ _ _ => trivial
  exact moves.mirrors sound weaker settles (fun _ _ never => never) fun _ _ _ => trivial

end

/-- The machine has come as far as the lowering, wherever the lowering is. -/
theorem Reached.mirrored (few : FewCarriers source) (reached : Reached source c) :
    c.Sound ∧ ∀ final, c.output.Settles final →
      ∃ s, Mirrors final (fun _ => False) (fun _ _ => True) c s := by
  cases reached with
  | between here =>
    obtain ⟨sound, follows⟩ := here.mirrored few
    have stays : Moves (fun _ => False) (fun _ _ => True) c c := .refl
    exact mirrored_of_moves stays sound follows
  | atLine here =>
    obtain ⟨sound, follows⟩ := here.mirrored few
    have begins : Moves (fun _ => False) (fun _ _ => True) _ _ := here.moves_atLine
    exact mirrored_of_moves begins sound follows
  | placing here asks planned checked carriers done =>
    obtain ⟨sound, follows⟩ := here.mirrored few
    have begins : Moves (fun _ => False) (fun _ _ => True) _ _ := here.moves_atLine
    have sound' := begins.sound sound
    obtain ⟨listed, distinct⟩ := carriers_of_plan sound' planned
    rw [carriers] at listed distinct
    rw [List.map_append] at distinct
    have placing : Moves (fun _ => False) (fun _ _ => True) _ c ∧ _ := moves_positionAll sound'
      (fun carrier member => listed carrier (List.mem_append_left _ member))
      distinct.of_append_left (approach_nearby (Command.near_ofLine asks).1)
      (fun _ _ => trivial) done
    exact mirrored_of_moves (begins.trans placing.1) sound follows

end Context

end Knitout
