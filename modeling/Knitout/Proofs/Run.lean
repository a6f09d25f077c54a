import Knitout.Proofs.Document
import Knitout.Proofs.Lines

/-!
A whole lowering and the replay of its text. The machine follows line by line
(`Context.follow_lowerLines`), so the output of a lowering that succeeds is read back, replayed
without a fault, and leaves the machine where the lowering left off (`followed_of_lower`).
-/

namespace Knitout

/-! ## Many lines -/

/-- Operations behind others answer for lines one by one, each in a block of its own. -/
inductive AnswersAll (t : CarrierTable) : List Operation → List Text → List Operation → Prop
  | nil (earlier : List Operation) : AnswersAll t earlier [] []
  | cons {earlier block rest : List Operation} {line : Text} {lines : List Text}
      (first : Answers t earlier line block)
      (others : AnswersAll t (earlier ++ block) lines rest) :
    AnswersAll t earlier (line :: lines) (block ++ rest)

/-- Some line has formed a loop with the yarn since the last one that brought its carrier in. -/
def Worked (t : CarrierTable) (lines : List Text) (yarn : Yarn) : Prop :=
  ∃ carrier ∈ t.carriers, carrier.yarn = yarn ∧ ¬ OnlyMissed carrier.name lines

namespace Context

variable {c c' : Context} {lines : List Text}

/-- One more line works yarns that were worked before and are not brought in anew, or yarns that it
forms loops with. -/
private theorem worked_concat (numbered : c.carriers.Numbered) {line : Text} {yarn : Yarn}
    (busy : Worked c.carriers (lines ++ [line]) yarn) :
    Worked c.carriers lines yarn ∧ ¬ c.Enters line yarn ∨ c.Forms line yarn := by
  obtain ⟨carrier, listed, rfl, busy⟩ := busy
  cases formed : formsWith carrier.name line with
  | true => exact .inr ⟨carrier, listed, rfl, formed⟩
  | false =>
    have before := mt (OnlyMissed.concat · formed) busy
    rw [not_or] at before
    refine .inl ⟨⟨carrier, listed, rfl, before.2⟩, ?_⟩
    rintro ⟨other, listed', same, brought⟩
    rw [numbered.eq_of_yarn listed' listed same] at brought
    exact before.1 brought

/-- The machine follows lines one by one. -/
theorem follow_lowerLines {number : Nat} (sound : c.Sound) (whole : ∀ line ∈ lines, '\n' ∉ line)
    (done : c.lowerLines number lines = .ok c') :
    c'.Sound ∧ c'.carriers = c.carriers ∧ c.output.Settles c'.output ∧
      ∀ final s earlier, c'.output.Settles final →
        Mirrors final (Worked c.carriers earlier) (fun _ _ => False) c s →
        (∃ s', Mirrors final (Worked c.carriers (earlier ++ lines)) (fun _ _ => False) c' s') ∧
        ∃ rest, final.before c'.output.slots.size =
            final.before c.output.slots.size ++ rest ∧
          AnswersAll c.carriers (final.before c.output.slots.size) lines rest := by
  -- the final output is the same for all the lines, since any later line may settle an earlier slot
  induction lines generalizing c number with
  | nil =>
    cases done
    refine ⟨sound, rfl, .refl _, fun final s earlier _ mirrors => ⟨⟨s, ?_⟩, [], ?_, .nil _⟩⟩
    · rwa [List.append_nil]
    · rw [List.append_nil]
  | cons line rest ih =>
    unfold lowerLines at done
    split at done
    · cases done
    · next d first =>
      have step := step_of_lowerLine sound (whole line (by simp)) first
      have keeps := step.keeps sound
      obtain ⟨sound', carriers, settles, tail⟩ := ih (step.sound sound)
        (fun other member => whole other (List.mem_cons_of_mem line member)) done
      refine ⟨sound', carriers.trans keeps, (step.settles sound).trans settles, ?_⟩
      intro final s earlier settles' mirrors
      obtain ⟨⟨t, between⟩, block, more, answers⟩ :=
        step.follow sound (settles.trans settles') mirrors
      rw [keeps] at tail
      obtain ⟨⟨s', after⟩, others, more', all⟩ := tail final t (earlier ++ [line]) settles'
        (between.weaken (fun _ busy => worked_concat sound.table busy) fun _ _ _ never => never)
      refine ⟨⟨s', ?_⟩, block ++ others, ?_, .cons answers (more ▸ all)⟩
      · rwa [List.append_assoc] at after
      · rw [more', more, List.append_assoc]

theorem mirrors_start (final : Output) (worked : Yarn → Prop) (t : CarrierTable) :
    Mirrors final worked (fun _ _ => False) (.start t) .initial where
  recorded := .start final
  racking := rfl
  loops := rfl
  yarns _ := .absent rfl rfl rfl

end Context

/-! ## Whole sources -/

/-- The lines behind the header. -/
def bodyLines (source : Text) : List Text :=
  match Headers.ofLines (lines source) with
  | .error _ => []
  | .ok block => (lines source).drop block.bodyStart

/-- None of them goes over the end of a line. -/
theorem newline_not_mem_bodyLines {source line : Text} (member : line ∈ bodyLines source) :
    '\n' ∉ line := by
  unfold bodyLines at member
  split at member
  · cases member
  · exact newline_not_mem_lines (List.mem_of_mem_drop member)

/-- The state of a lowering after the last line, if it gets there. -/
def finalContext? (source : Text) : Option Context :=
  match Headers.ofLines (lines source) with
  | .error _ => none
  | .ok block =>
    match CarrierTable.ofNames block.headers.carriers with
    | .error _ => none
    | .ok t => ((Context.start t).lowerLines (block.bodyStart + 1) (bodyLines source)).toOption

/-- A lowering and the replay of its text: the state that the lowering ends in, and the state of the
machine that agrees with it. -/
structure Followed (source : Text) (lowered : Lowered) (c : Context) (s : State) : Prop where
  context : finalContext? source = some c
  sound : c.Sound
  table : CarrierTable.ofNames lowered.headers.carriers = .ok c.carriers
  loops : lowered.loops = c.loops
  racking : lowered.racking = c.racking
  mirrors : Mirrors c.output (Worked c.carriers (bodyLines source)) (fun _ _ => False) c s
  answers : AnswersAll c.carriers [] (bodyLines source) c.output.operations
  errors : (check lowered.text).program.errors = []
  operations : (check lowered.text).program.instructions.map (·.operation) = c.output.operations
  rejections : (check lowered.text).replay.rejections = #[]
  final : (check lowered.text).replay.final = s

theorem lower_ok {source : Text} {lowered : Lowered} (done : lower source = .ok lowered) :
    ∃ block t c, Headers.ofLines (lines source) = .ok block ∧ block.headers = lowered.headers ∧
      CarrierTable.ofNames block.headers.carriers = .ok t ∧
      (Context.start t).lowerLines (block.bodyStart + 1) (bodyLines source) = .ok c ∧
      lowered.lines = c.output.lines ∧ lowered.loops = c.loops ∧ lowered.racking = c.racking := by
  unfold lower lowerLines at done
  unfold bodyLines
  split at done
  · cases done
  · next block read =>
    split at done
    · cases done
    · next inner body =>
      cases done
      unfold lowerBody at body
      split at body
      · cases body
      · next t named =>
        split at body
        · cases body
        · next c lowered =>
          cases body
          rw [read]
          exact ⟨block, t, c, rfl, rfl, named, lowered, rfl, rfl, rfl⟩

/-- What is known of a document behind its header: the carriers are well numbered, and neither a
name nor a line goes over the end of a line. -/
theorem tidy_of_header {source : Text} {block : HeaderBlock} {t : CarrierTable}
    (read : Headers.ofLines (lines source) = .ok block)
    (named : CarrierTable.ofNames block.headers.carriers = .ok t)
    (few : block.headers.carriers.length ≤ maxHalfWord) :
    t.Numbered ∧ (∀ carrier ∈ t.carriers, '\n' ∉ carrier.name) ∧
      ∀ line ∈ bodyLines source, '\n' ∉ line := by
  obtain ⟨names, numbered⟩ := CarrierTable.numbered_ofNames named few
  refine ⟨numbered, ?_, fun line => newline_not_mem_bodyLines⟩
  intro carrier member
  refine Headers.newline_not_mem_carriers read _ ?_
  rw [← names]
  exact List.mem_map_of_mem member

/-- A lowering that succeeds is followed by the machine, as long as the yarns of its carriers are
32-bit numbers. -/
theorem followed_of_lower {source : Text} {lowered : Lowered} (done : lower source = .ok lowered)
    (few : lowered.headers.carriers.length ≤ maxHalfWord) :
    ∃ c s, Followed source lowered c s := by
  obtain ⟨block, t, c, read, headers, named, run, lines', loops, racking⟩ := lower_ok done
  have table : CarrierTable.ofNames lowered.headers.carriers = .ok t := headers ▸ named
  obtain ⟨numbered, oneLine, whole⟩ := tidy_of_header read named (headers ▸ few)
  obtain ⟨sound, carriers, _, follow⟩ :=
    Context.follow_lowerLines (.start numbered oneLine) whole run
  obtain ⟨⟨s, mirrors⟩, rest, more, answers⟩ := follow c.output .initial [] (.refl _)
    (Context.mirrors_start c.output _ t)
  have empty : (Context.start t).output.slots.size = 0 := rfl
  rw [empty, Output.before_zero] at more answers
  have operations : rest = c.output.operations := by
    rw [← Output.before_size, more, List.nil_append]
  have text : lowered.text = joinLines c.output.lines ++ ['\n'] := by rw [Lowered.text, lines']
  obtain ⟨errors, instructions⟩ := Output.ofText_text sound.tidy
  rw [← text] at errors instructions
  have replayed := mirrors.recorded.run
  rw [Output.before_size, ← instructions] at replayed
  obtain ⟨final, rejections⟩ := Replay.ofInstructions_of_applyAll replayed
  have same : c.carriers = t := carriers
  refine ⟨c, s, ?_, sound, same ▸ table, loops, racking, same ▸ mirrors, ?_, errors, instructions,
    rejections, final⟩
  · unfold finalContext?
    rw [read]
    simp only [named, run]
    rfl
  · rw [same, ← operations]
    exact answers

/-! ## A small source -/

/-- It leaves carrier `A` in action with a loop, `B` with misses only, `C` waiting and `D` out. -/
def swatch : Text :=
  joinLines ([
    ";!knitout-2",
    ";;Carriers: A B C D",
    "in A",
    "tuck + f0 A",
    "in D",
    "knit + f2 D",
    "drop f5",
    "amiss f2",
    "rack 2",
    "knit - f0 A",
    "xfer f0 b-2",
    "split - f2 b0 A ; over the carriage",
    "in B",
    "miss + f1 B",
    "rack 0",
    "knit - b-2 A",
    "drop f2",
    "out D",
    "in C"].map String.toList)

/-- It lowers. -/
theorem lower_swatch :
    ∃ lowered, lower swatch = .ok lowered ∧ lowered.headers.carriers.length ≤ maxHalfWord := by
  have named : (lower swatch).map (·.headers.carriers.length) = .ok 4 := by
    set_option maxRecDepth 2000 in
    decide
  obtain ⟨lowered, done, four⟩ := Except.map_ok named
  exact ⟨lowered, done, by rw [four]; decide⟩

end Knitout
