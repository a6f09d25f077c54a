import Knitout.Proofs.Run
import Knitout.Proofs.Trails

/-!
The protocol of carriers (`carriers_keep_sessions`). A lowering that succeeds takes each carrier
through sessions, in the source as well as in the output, and a source that leaves this form is
refused at the latest where it does so.
-/

namespace Knitout

/-! ## Runs -/

namespace Context

variable {c c' : Context} {number : Nat} {lines : List Text}

private theorem lowerLines_concat {line : Text}
    (done : c.lowerLines number (lines ++ [line]) = .ok c') :
    ∃ d, c.lowerLines number lines = .ok d ∧ d.lowerLine (number + lines.length) line = .ok c' := by
  rw [lowerLines_append] at done
  obtain ⟨d, first, last⟩ := Except.bind_ok done
  refine ⟨d, first, ?_⟩
  unfold lowerLines at last
  split at last
  · cases last
  · next e step =>
    cases last
    exact step

/-- A lowering that stops does so at one of its lines. -/
private theorem line_lt_of_error {failure : LowerFailure}
    (stopped : c.lowerLines number lines = .error failure) :
    failure.error.line < number + lines.length := by
  obtain ⟨before, line, after, d, e, rfl, _, _, rfl⟩ := lowerLines_error stopped
  simp

/-- The slots that the line with this index adds. -/
def Block (c : Context) (number : Nat) (lines : List Text) (index slot : Nat) : Prop :=
  ∃ d d', c.lowerLines number (lines.take index) = .ok d ∧
    c.lowerLines number (lines.take (index + 1)) = .ok d' ∧
    d.output.slots.size ≤ slot ∧ slot < d'.output.slots.size

/-- The marks of a carrier follow its events in any number of lines. -/
theorem tracks_lowerLines {t : CarrierTable} (numbered : t.Numbered)
    (oneLine : ∀ carrier ∈ t.carriers, '\n' ∉ carrier.name) {carrier : Carrier}
    (listed : carrier ∈ t.carriers) (whole : ∀ line ∈ lines, '\n' ∉ line) {count : Nat}
    (done : (start t).lowerLines number (lines.take count) = .ok c) :
    c.Tracks ((start t).Block number lines) carrier.yarn
      (timeline carrier.name (lines.take count)) := by
  have sound : (start t).Sound := .start numbered oneLine
  induction count generalizing c with
  | zero =>
    cases done
    exact .start
  | succ count ih =>
    rcases Nat.lt_or_ge count lines.length with inside | outside
    · have split : lines.take (count + 1) = lines.take count ++ [lines[count]] :=
        (List.take_concat_get' lines count inside).symm
      obtain ⟨d, first, step⟩ := lowerLines_concat (split ▸ done)
      obtain ⟨sound', carriers, _⟩ :=
        follow_lowerLines sound (fun line member => whole line (List.mem_of_mem_take member)) first
      have length : (lines.take count).length = count :=
        List.length_take_of_le (Nat.le_of_lt inside)
      rw [split, timeline_concat, length]
      refine tracks_lowerLine sound' (carriers ▸ listed) (whole _ (List.getElem_mem inside)) step ?_
        (ih first)
      intro slot low high
      exact ⟨d, c, first, done, low, high⟩
    · have all : lines.take (count + 1) = lines.take count := by
        rw [List.take_of_length_le outside, List.take_of_length_le (Nat.le_succ_of_le outside)]
      rw [all] at done ⊢
      exact ih done

end Context

/-! ## Instructions -/

/-- What the instructions of a document do with a yarn, and the line of each that names it. -/
def instructionEvents (yarn : Yarn) (instructions : List Instruction) : Timeline :=
  instructions.filterMap fun i => (i.operation.event? yarn).map (i.line, ·)

private theorem filterMap_zipIdx {α β : Type} (f : α × Nat → Option β) (start : Nat)
    (xs : List α) : (xs.zipIdx start).filterMap f =
      (List.range xs.length).filterMap fun index => xs[index]?.bind fun x => f (x, start + index) := by
  induction xs using List.reverseRecOn with
  | nil => rfl
  | append_singleton xs x ih =>
    rw [List.zipIdx_append, List.filterMap_append, ih, List.length_append, List.length_singleton,
      List.range_succ, List.filterMap_append]
    congr 1
    · refine List.filterMap_congr ?_
      intro index inside
      rw [List.getElem?_append_left (List.mem_range.1 inside)]
    · simp [List.filterMap_cons]

/-- The instructions of an output that name a yarn are its marks that are finished. -/
theorem Output.instructionEvents_ofText {o : Output} (tidy : o.Tidy) (yarn : Yarn) :
    instructionEvents yarn (Program.ofText (joinLines o.lines ++ ['\n'])).instructions =
      (finished (o.trail yarn)).map fun (slot, event) => (1 + slot, event) := by
  have numbered := (ofText_numbered tidy).2
  have events (instructions : List Instruction) : instructionEvents yarn instructions =
      (instructions.map fun i => (i.line, i.operation)).filterMap fun (line, op) =>
        (op.event? yarn).map (line, ·) := by
    rw [List.filterMap_map]
    rfl
  rw [events, numbered, Output.numbered, filterMap_zipIdx, List.filterMap_filterMap, finished,
    trail, List.filterMap_filterMap, List.map_filterMap, Array.length_toList]
  refine List.filterMap_congr ?_
  intro slot _
  rw [mark?, content?, Array.getElem?_toList]
  cases o.slots[slot]? with
  | none => rfl
  | some held =>
    obtain ⟨content, _⟩ := held
    cases content with
    | operation op =>
      cases event : op.event? yarn <;> simp [Content.operation?, Content.mark?, event]
    | remark => rfl
    | pendingIn carrier =>
      by_cases own : carrier.yarn = yarn <;> simp [Content.operation?, Content.mark?, own]

/-! ## The protocol -/

/-- The state of a lowering after so many lines behind the header, if it gets there. -/
def contextAfter? (source : Text) (count : Nat) : Option Context :=
  match Headers.ofLines (lines source) with
  | .error _ => none
  | .ok block =>
    match CarrierTable.ofNames block.headers.carriers with
    | .error _ => none
    | .ok t =>
      ((Context.start t).lowerLines (block.bodyStart + 1) ((bodyLines source).take count)).toOption

/-- The output lines that lowering the line with this index adds. Source lines are counted from
zero behind the header, output lines from one. -/
def InBlock (source : Text) (index line : Nat) : Prop :=
  ∃ c c', contextAfter? source index = some c ∧ contextAfter? source (index + 1) = some c' ∧
    c.output.slots.size < line ∧ line ≤ c'.output.slots.size

/-- Events from the source and instructions of a carrier keep the protocol: both go through sessions,
and the `in` instructions are those of the lines that bring the carrier in to use it. -/
structure KeepsSessions (source : Text) (events instructions : Timeline) : Prop where
  asked : events.map (·.2) ∈ CarrierEvent.used.matches'
  told : instructions.map (·.2) ∈ CarrierEvent.worked.matches'
  entries : List.Forall₂ (InBlock source) events.usedEntries instructions.entries

section
variable {source : Text} {block : HeaderBlock} {t : CarrierTable}

theorem inBlock_of_block (read : Headers.ofLines (lines source) = .ok block)
    (named : CarrierTable.ofNames block.headers.carriers = .ok t) {index slot : Nat}
    (inside : (Context.start t).Block (block.bodyStart + 1) (bodyLines source) index slot) :
    InBlock source index (1 + slot) := by
  obtain ⟨c, c', before, after, low, high⟩ := inside
  have known (count : Nat) : contextAfter? source count =
      ((Context.start t).lowerLines (block.bodyStart + 1)
        ((bodyLines source).take count)).toOption := by
    unfold contextAfter?
    rw [read]
    simp only [named]
  exact ⟨c, c', by rw [known, before]; rfl, by rw [known, after]; rfl, by omega, by omega⟩

/-- A lowering that succeeds keeps the protocol of each of its carriers. -/
theorem keepsSessions_of_lower {lowered : Lowered} (done : lower source = .ok lowered)
    (few : lowered.headers.carriers.length ≤ maxHalfWord) :
    ∃ t, CarrierTable.ofNames lowered.headers.carriers = .ok t ∧ ∀ carrier ∈ t.carriers,
      KeepsSessions source (timeline carrier.name (bodyLines source))
        (instructionEvents carrier.yarn (check lowered.text).program.instructions) := by
  obtain ⟨block, t, c, read, headers, named, run, lines', _⟩ := lower_ok done
  obtain ⟨numbered, oneLine, whole⟩ := tidy_of_header read named (headers ▸ few)
  refine ⟨t, headers ▸ named, ?_⟩
  intro carrier listed
  obtain ⟨sound, _⟩ := Context.follow_lowerLines (.start numbered oneLine) whole run
  have follows : c.Tracks ((Context.start t).Block (block.bodyStart + 1) (bodyLines source))
      carrier.yarn (timeline carrier.name (bodyLines source)) := by
    have all := List.take_length (l := bodyLines source)
    rw [← all] at run
    have tracks := Context.tracks_lowerLines numbered oneLine listed whole run
    rwa [all] at tracks
  have instructions : instructionEvents carrier.yarn (check lowered.text).program.instructions =
      (finished (c.output.trail carrier.yarn)).map fun (slot, event) => (1 + slot, event) := by
    rw [← Output.instructionEvents_ofText sound.tidy, ← lines']
    rfl
  rw [instructions]
  refine ⟨Phase.mem_used follows.source, ?_, ?_⟩
  · rw [List.map_map]
    refine Phase.mem_worked follows.output ?_
    cases c.stand carrier.yarn <;> simp [Stand.told]
  · have entries (t : Timeline) : Timeline.entries (t.map fun (slot, event) => (1 + slot, event)) =
        (Timeline.entries t).map (1 + ·) := by
      unfold Timeline.entries
      rw [List.filterMap_map, List.map_filterMap]
      refine List.filterMap_congr ?_
      rintro ⟨slot, event⟩ _
      cases event <;> rfl
    rw [entries, List.forall₂_map_right_iff]
    exact follows.entries.imp fun _ _ => inBlock_of_block read named

/-- A source that leaves the form of sessions is refused where it does so, or before. -/
theorem refused_of_events {carrier : Carrier}
    (read : Headers.ofLines (lines source) = .ok block)
    (few : block.headers.carriers.length ≤ maxHalfWord)
    (named : CarrierTable.ofNames block.headers.carriers = .ok t) (listed : carrier ∈ t.carriers)
    {count : Nat} (wrong : (timeline carrier.name ((bodyLines source).take count)).map (·.2) ∉
      CarrierEvent.used.matches') :
    ∃ failure, lower source = .error failure ∧ failure.error.line ≤ block.bodyStart + count := by
  obtain ⟨numbered, oneLine, whole⟩ := tidy_of_header read named few
  cases first : (Context.start t).lowerLines (block.bodyStart + 1)
      ((bodyLines source).take count) with
  | ok c =>
    have tracks := Context.tracks_lowerLines numbered oneLine listed whole first
    exact absurd (Phase.mem_used tracks.source) wrong
  | error failure =>
    have early := Context.line_lt_of_error first
    have short : ((bodyLines source).take count).length ≤ count := List.length_take_le _ _
    have all : (Context.start t).lowerLines (block.bodyStart + 1) (bodyLines source) =
        .error failure := by
      rw [← List.take_append_drop count (bodyLines source), Context.lowerLines_append, first]
      rfl
    unfold bodyLines at all
    unfold lower lowerLines lowerBody
    rw [read] at all ⊢
    simp only at all
    simp only [named, all]
    exact ⟨_, rfl, by simp only; omega⟩

end

/-- The protocol of carriers. A lowering that succeeds keeps it for each carrier of the header; and
once the first lines of a source leave its form for some carrier, the lowering stops at one of them. -/
theorem carriers_keep_sessions (source : Text) :
    (∀ lowered, lower source = .ok lowered → lowered.headers.carriers.length ≤ maxHalfWord →
      ∃ t, CarrierTable.ofNames lowered.headers.carriers = .ok t ∧ ∀ carrier ∈ t.carriers,
        KeepsSessions source (timeline carrier.name (bodyLines source))
          (instructionEvents carrier.yarn (check lowered.text).program.instructions)) ∧
    ∀ block t, Headers.ofLines (lines source) = .ok block →
      block.headers.carriers.length ≤ maxHalfWord →
      CarrierTable.ofNames block.headers.carriers = .ok t → ∀ carrier ∈ t.carriers, ∀ count,
        (timeline carrier.name ((bodyLines source).take count)).map (·.2) ∉
            CarrierEvent.used.matches' →
          ∃ failure, lower source = .error failure ∧
            failure.error.line ≤ block.bodyStart + count :=
  ⟨fun _ => keepsSessions_of_lower, fun _ _ read few named _ listed _ =>
    refused_of_events read few named listed⟩

/-- Carrier `A` has a session and is in again, `B` comes in for nothing. -/
def twice : Text :=
  joinLines ([
    ";!knitout-2",
    ";;Carriers: A B",
    "inhook A",
    "in B",
    "tuck + f0 A",
    "out A",
    "in A",
    "miss - f0 A"].map String.toList)

example : (timeline "A".toList (bodyLines twice)).usedEntries = [0, 4] := by decide
example : (timeline "B".toList (bodyLines twice)).usedEntries = [] := by decide

/-- Carrier `A` is to go out before it is used. -/
def hasty : Text :=
  joinLines ([
    ";!knitout-2",
    ";;Carriers: A",
    "in A",
    "out A",
    "in A"].map String.toList)

theorem carriers_keep_sessions_twice :
    (∃ lowered, lower twice = .ok lowered ∧ lowered.headers.carriers.length ≤ maxHalfWord ∧
      ∃ t, CarrierTable.ofNames lowered.headers.carriers = .ok t ∧ ∀ carrier ∈ t.carriers,
        KeepsSessions twice (timeline carrier.name (bodyLines twice))
          (instructionEvents carrier.yarn (check lowered.text).program.instructions)) ∧
    ∃ failure, lower hasty = .error failure ∧ failure.error.line ≤ 4 := by
  refine ⟨?_, ?_⟩
  · have named : (lower twice).map (·.headers.carriers.length) = .ok 2 := by decide
    obtain ⟨lowered, done, two⟩ := Except.map_ok named
    have few : lowered.headers.carriers.length ≤ maxHalfWord := by rw [two]; decide
    exact ⟨lowered, done, few, (carriers_keep_sessions twice).1 lowered done few⟩
  · have header : Headers.ofLines (lines hasty) = .ok ⟨⟨2, ["A".toList], none⟩, 2, []⟩ := by
      decide
    have wrong : (timeline "A".toList ((bodyLines hasty).take 2)).map (·.2) ∉
        CarrierEvent.used.matches' := by
      rw [← RegularExpression.rmatch_iff_matches']
      decide
    exact (carriers_keep_sessions hasty).2 _ _ header (by decide) rfl ⟨"A".toList, 1⟩
      (List.mem_singleton_self _) 2 wrong

end Knitout
