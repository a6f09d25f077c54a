import Knitout.Proofs.Abreast
import Knitout.Proofs.Online
import Knitout.Proofs.Slots

/-!
Lines that ask the machine for nothing (`Inert`). Such a line may warn or pass a comment on, and then
all later output lines have other numbers; but it leaves the state of the lowering as it is, up to
remarks. Main statement: wherever such a line is put, a lowering that succeeded does so again, with
the same instructions (`inert_lines_change_nothing`).
-/

namespace Knitout

/-! ## Lines without an action -/

/-- The operations of vendors that are known. -/
def knownExtensions : List Text :=
  ["x-stitch-number".toList, "x-presser-mode".toList, "x-speed-number".toList]

/-- Words that ask the machine for nothing. -/
inductive Restful : List Text → Prop
  | blank : Restful []
  | pause (tokens : List Text) : Restful ("pause".toList :: tokens)
  | releasehook (tokens : List Text) : Restful ("releasehook".toList :: tokens)
  | stitch {leading size : Text} (first : isSignedDigits leading = true)
      (second : isSignedDigits size = true) : Restful ["stitch".toList, leading, size]
  | stitchNumber {number : Text} (digits : isUnsignedDigits number = true) :
      Restful ["x-stitch-number".toList, number]
  | presserMode (tokens : List Text) : Restful ("x-presser-mode".toList :: tokens)
  | speedNumber (tokens : List Text) : Restful ("x-speed-number".toList :: tokens)
  | vendor {rest : Text} (unknown : "x-".toList ++ rest ∉ knownExtensions) (tokens : List Text) :
      Restful (("x-".toList ++ rest) :: tokens)

/-- A line that asks the machine for nothing, with or without a comment behind it. -/
def Inert (line : Text) : Prop :=
  Restful (words (cutComment line).1)

/-- An extension that is not known is not in the table of keywords. -/
theorem Keyword.ofText?_vendor {rest : Text} (unknown : "x-".toList ++ rest ∉ knownExtensions) :
    Keyword.ofText? ("x-".toList ++ rest) = none := by
  have apart : ∀ entry ∈ Keyword.table, entry.1 ≠ "x-".toList ++ rest := by
    rintro ⟨word, keyword⟩ member rfl
    have extensions : ∀ entry ∈ Keyword.table, "x-".toList <+: entry.1 →
        entry.1 ∈ knownExtensions := by decide
    exact unknown (extensions _ member ⟨rest, rfl⟩)
  rw [Keyword.ofText?, List.lookup_eq_none_iff]
  intro entry member
  simpa [bne_iff_ne] using (apart entry member).symm

/-- Such a line asks for nothing, or for what the machine does not do. -/
theorem Inert.command {line : Text} (inert : Inert line) :
    Command.ofLine line = .ok none ∨ ∃ command, Command.ofLine line = .ok (some command) ∧
      ∀ (c : Context) (number : Nat), ∃ warnings,
        c.execute number command = .ok { c with warnings } := by
  unfold Inert at inert
  generalize found : words (cutComment line).1 = all at inert
  have reads {command : Command} {word : Text} {tokens : List Text} (line' : all = word :: tokens)
      (read : Command.ofWords word tokens = .ok command) :
      Command.ofLine line = .ok (some command) := by
    rw [Command.ofLine, found, line']
    simp only [read]
    rfl
  cases inert with
  | blank =>
    rw [Command.ofLine, found]
    exact .inl rfl
  | pause | releasehook => exact .inr ⟨.idle, reads rfl rfl, fun c _ => ⟨c.warnings, rfl⟩⟩
  | @stitch leading size first second =>
    refine .inr ⟨.stitch leading size, reads rfl ?_, fun c _ => ⟨c.warnings, rfl⟩⟩
    show (if isSignedDigits leading && isSignedDigits size then _ else _) = _
    rw [first, second]
    rfl
  | @stitchNumber number digits =>
    refine .inr ⟨.stitchNumber number, reads rfl ?_, fun c _ => ⟨c.warnings, rfl⟩⟩
    exact if_pos digits
  | presserMode | speedNumber =>
    exact .inr ⟨.setting _, reads rfl rfl, fun c _ => ⟨c.warnings, rfl⟩⟩
  | @vendor rest unknown tokens =>
    refine .inr ⟨.vendor ("x-".toList ++ rest), reads rfl ?_, fun c number => ⟨_, rfl⟩⟩
    unfold Command.ofWords
    simp only [Keyword.ofText?_vendor unknown]
    rfl

/-! ## Nothing moves -/

namespace Motion

/-- The motion by no needle. -/
abbrev still : Motion := .shift 0

@[simp] theorem needle_still (needle : Needle) : still.needle needle = needle := by
  simp [Motion.needle, Motion.index]

@[simp] theorem location_still (location : Location) : still.location location = location := by
  simp [Motion.location, Motion.direction]

@[simp] theorem operation_still (op : Operation) : still.operation op = op := by
  cases op <;> simp [Motion.operation, Motion.direction, Motion.racking]

@[simp] theorem content_still (content : Content) : still.content content = content := by
  cases content <;> simp [Motion.content]

@[simp] theorem work_still (work : LoopWork) : still.work work = work := by
  cases work <;> simp [Motion.work]

theorem slots_still {slot slot' : Slot} : still.Slots Eq slot slot' ↔ slot = slot' := by
  constructor
  · obtain ⟨content, annotation⟩ := slot
    obtain ⟨content', annotation'⟩ := slot'
    rintro ⟨contents, annotations⟩
    have same : content' = content := contents.trans (content_still _)
    cases annotations with
    | none => rw [same]
    | some quoted => rw [same, quoted]
  · rintro rfl
    refine ⟨(content_still _).symm, ?_⟩
    cases slot.annotation with
    | none => exact .none
    | some source => exact .some rfl

theorem commands_still (command : Command) : still.Commands command command := by
  cases command with
  | rack target => exact .rack target
  | loops request =>
    exact .loops ⟨(work_still _).symm, (needle_still _).symm, rfl, rfl, fun _ => rfl⟩
  | _ => exact .other (by simp) (by simp)

/-- Every line is its own counterpart. -/
theorem lines_still (line : Text) : still.Lines Eq line line := by
  refine ⟨?_, rfl, rfl, rfl⟩
  cases Command.ofLine line with
  | error e => exact .error (.same e)
  | ok command? =>
    cases command? with
    | none => exact .ok .none
    | some command => exact .ok (.some (commands_still command))

end Motion

open Motion (still)

namespace Context

variable {c d : Context}

theorem Alike.refl (c : Context) : c.Alike still Eq c := by
  refine ⟨rfl, ?_, ?_, rfl, ?_⟩
  · intro yarn
    cases c.stages.get? yarn with
    | none => exact .none
    | some stage =>
      refine .some ?_
      cases stage with
      | pending slot => exact .pending slot slot
      | active parked attached =>
        have same := Motion.Stages.active (m := still) parked attached
        rwa [Motion.location_still, Motion.location_still] at same
  · intro needle
    rw [Motion.needle_still]
  · exact List.forall₂_same.2 fun slot _ => Motion.slots_still.2 rfl

/-- An inert line leaves everything as it is, up to remarks. -/
theorem alike_lowerLine {line : Text} (inert : Inert line) (c : Context) (number : Nat) :
    ∃ d, c.lowerLine number line = .ok d ∧ c.Alike still Eq d := by
  rcases inert.command with nothing | ⟨command, read, quiet⟩
  · rw [lowerLine, nothing]
    cases (cutComment line).2.isSome with
    | false => exact ⟨_, rfl, { Alike.refl c with }⟩
    | true =>
      have remarked : ((c.output.beginLine line).emit (.remark .sourceComment)).essence =
          c.output.essence := by
        rw [Output.essence_emit]
        exact List.append_nil _
      refine ⟨_, rfl, { Alike.refl c with slots := ?_ }⟩
      show List.Forall₂ _ c.output.essence
        ((c.output.beginLine line).emit (.remark .sourceComment)).essence
      rw [remarked]
      exact (Alike.refl c).slots
  · obtain ⟨warnings, done⟩ := quiet { c with output := c.output.beginLine line } number
    rw [lowerLine, read]
    exact ⟨_, done, { Alike.refl c with }⟩

theorem Alike.essence (alike : c.Alike still Eq d) : d.output.essence = c.output.essence := by
  have same := alike.slots.imp fun _ _ => Motion.slots_still.1
  exact (List.forall₂_eq_eq_eq ▸ same).symm

theorem Alike.loops_eq (alike : c.Alike still Eq d) : d.loops = c.loops := by
  refine Table.ext_get? fun needle => ?_
  rw [← alike.loops needle, Motion.needle_still]

end Context

/-! ## Lines that say something -/

/-- A line that is not only blank or a comment. -/
def isSpoken (line : Text) : Bool :=
  !(words (cutComment line).1).isEmpty

/-- Remarks say nothing, so the other slots are enough. -/
theorem Output.filter_lines (o : Output) :
    o.lines.filter isSpoken = (o.essence.map Slot.render).filter isSpoken := by
  simp only [lines, essence, List.filter_map, List.filter_filter]
  refine congrArg (List.map _) (List.filter_congr fun slot _ => ?_)
  cases remark : slot.content.isRemark with
  | false => simp
  | true =>
    have quiet : slot.content.operation? = none := by
      cases holds : slot.content with
      | remark note => rfl
      | operation op => rw [holds] at remark; cases remark
      | pendingIn carrier => rfl
    simp [isSpoken, Slot.words_render_quiet quiet]

/-- What is read from lines, apart from where it stands. -/
theorem Program.instructions_said (lines : List Text) :
    (ofLines lines).instructions.map (fun i => (i.operation, i.comment)) =
      lines.filterMap fun line =>
        (Operation.onWords? (words (cutComment line).1)).map (·, (cutComment line).2) := by
  rw [instructions_ofLines, List.map_filterMap]
  conv_rhs => rw [← List.zipIdx_map_fst 1 lines, List.filterMap_map]
  refine List.filterMap_congr ?_
  rintro ⟨line, number⟩ _
  simp [Instruction.onLine?, Function.comp_def]

/-- An instruction stands on a line that says something. -/
theorem Program.instructions_filter (lines : List Text) :
    (ofLines (lines.filter isSpoken)).instructions.map (fun i => (i.operation, i.comment)) =
      (ofLines lines).instructions.map fun i => (i.operation, i.comment) := by
  rw [instructions_said, instructions_said, List.filterMap_filter]
  refine List.filterMap_congr ?_
  intro line _
  cases said : isSpoken line with
  | true => rfl
  | false =>
    have quiet : words (cutComment line).1 = [] := by simpa [isSpoken] using said
    rw [quiet]
    rfl

/-! ## Lowering -/

/-- Lines that are lowered with success are so with an inert line among them. -/
theorem Context.lowerLines_inert {c c' : Context} {number : Nat} {before after : List Text}
    {line : Text} (linked : c.Linked) (inert : Inert line)
    (done : c.lowerLines number (before ++ after) = .ok c') :
    ∃ d, c.lowerLines number (before ++ line :: after) = .ok d ∧ c'.Alike still Eq d := by
  rw [lowerLines_append] at done ⊢
  obtain ⟨c₁, first, second⟩ := Except.bind_ok done
  have linked₁ := (leads_lowerLines linked first).linked
  obtain ⟨d₁, rested, alike⟩ := alike_lowerLine inert c₁ (number + before.length)
  have linked₁' := (leads_lowerLine linked₁ rested).linked
  have same : List.Forall₂ (still.Lines Eq) after after :=
    List.forall₂_same.2 fun source _ => Motion.lines_still source
  -- the lines behind the new one are lowered from states that are alike
  rcases lowerLines_moved alike linked₁ linked₁' same (number + before.length)
      (number + before.length + 1) with
    ⟨c₂, d, run, run', alike⟩ | ⟨_, _, _, _, _, stopped, _⟩
  · have last : c₂ = c' := Except.ok.inj (run.symm.trans second)
    refine ⟨d, ?_, last ▸ alike⟩
    rw [first]
    simp only [Except.bind, lowerLines, rested, run']
  · exact absurd (stopped.symm.trans second) (by simp)

/-- A line that asks the machine for nothing may stand anywhere: a body that is lowered with success
is so with the line in it. The output lines that are not comments are the same, so the same
instructions are read from them, and the loops and the racking in the end are the same. -/
theorem inert_lines_change_nothing {headers : Headers} {before after : List Text} {line : Text}
    {firstLine : Nat} {lowered : Lowered} (inert : Inert line)
    (done : lowerBody headers (before ++ after) firstLine = .ok lowered) :
    ∃ lowered', lowerBody headers (before ++ line :: after) firstLine = .ok lowered' ∧
      lowered'.lines.filter isSpoken = lowered.lines.filter isSpoken ∧
      (Program.ofLines lowered'.lines).instructions.map (fun i => (i.operation, i.comment)) =
        (Program.ofLines lowered.lines).instructions.map (fun i => (i.operation, i.comment)) ∧
      lowered'.loops = lowered.loops ∧ lowered'.racking = lowered.racking := by
  obtain ⟨t, c, named, run, rfl⟩ := lowerBody_ok done
  obtain ⟨_, _, distinct⟩ := CarrierTable.distinct_ofNames named
  obtain ⟨d, run', alike⟩ := Context.lowerLines_inert (.start distinct) inert run
  have spoken : (d.finish headers).lines.filter isSpoken =
      (c.finish headers).lines.filter isSpoken := by
    show d.output.lines.filter isSpoken = c.output.lines.filter isSpoken
    rw [Output.filter_lines, Output.filter_lines, alike.essence]
  refine ⟨d.finish headers, ?_, spoken, ?_, alike.loops_eq, alike.racking⟩
  · rw [lowerBody, named]
    simp only [run']
  · rw [← Program.instructions_filter, spoken, Program.instructions_filter]

/-- The comment stands where the `in` waits for the first stitch, which settles it. -/
theorem inert_lines_change_nothing_waiting :
    ∃ lowered lowered', Inert "; first stitch".toList ∧
      lowerBody (.withCarriers ["A".toList]) (["in A".toList] ++ ["tuck - f1 A".toList]) 2 =
        .ok lowered ∧
      lowerBody (.withCarriers ["A".toList])
        (["in A".toList] ++ "; first stitch".toList :: ["tuck - f1 A".toList]) 2 = .ok lowered' ∧
      lowered'.lines.filter isSpoken = lowered.lines.filter isSpoken ∧
      (Program.ofLines lowered'.lines).instructions.map (fun i => (i.operation, i.comment)) =
        (Program.ofLines lowered.lines).instructions.map (fun i => (i.operation, i.comment)) ∧
      lowered'.loops = lowered.loops ∧ lowered'.racking = lowered.racking := by
  have inert : Inert "; first stitch".toList := by
    have blank : words (cutComment "; first stitch".toList).1 = [] := by decide
    show Restful _
    rw [blank]
    exact .blank
  have lowers : (lowerBody (.withCarriers ["A".toList])
      (["in A".toList] ++ ["tuck - f1 A".toList]) 2).map (·.lines.length) = .ok 2 := by
    decide
  obtain ⟨lowered, done, _⟩ := Except.map_ok lowers
  obtain ⟨lowered', done', same⟩ := inert_lines_change_nothing inert done
  exact ⟨lowered, lowered', inert, done, done', same⟩

end Knitout
