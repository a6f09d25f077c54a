import Knitout.Proofs.Agreement
import Knitout.Proofs.Inputs
import Knitout.Proofs.Running

/-!
What the exit status of a run says: whether the program is flawless (`Checker.code_run`), or whether
it could be lowered and written (`Converter.code_run`). Neither depends on how the run reports.
-/

namespace Knitout

/-! ## Flawless programs -/

/-- Every line of a text is an instruction or says nothing, and the machine accepts all instructions
one after the other. -/
def Flawless (text : Text) : Prop :=
  (∀ line ∈ lines text, ∀ number, ∃ instruction?,
      Instruction.ofLine? line number = .ok instruction?) ∧
    ∃ s, State.initial.applyAll ((Program.ofText text).instructions.map (·.operation)) = .ok s

/-- Whether a line can be read does not depend on its number. -/
theorem Instruction.ofLine?_renumber {line : Text} {number : Nat}
    {instruction? : Option Instruction} (read : ofLine? line number = .ok instruction?) (number' : Nat) :
    ∃ instruction?, ofLine? line number' = .ok instruction? := by
  unfold ofLine? at read ⊢
  simp only at read ⊢
  split at read
  · cases read
  · exact ⟨_, rfl⟩
  · exact ⟨_, rfl⟩

theorem Program.errors_ofLines_eq_nil_iff {lines : List Text} :
    (ofLines lines).errors = [] ↔ ∀ line ∈ lines, ∀ number, ∃ instruction?,
      Instruction.ofLine? line number = .ok instruction? := by
  show ((lines.zipIdx 1).map _).filterMap _ = [] ↔ _
  rw [List.filterMap_map, List.filterMap_eq_nil_iff]
  constructor
  · intro fine line member number
    rw [← List.zipIdx_map_fst 1 lines] at member
    obtain ⟨⟨line, number'⟩, inside, rfl⟩ := List.mem_map.1 member
    have nothing := fine _ inside
    cases read : Instruction.ofLine? line number' with
    | ok instruction? => exact Instruction.ofLine?_renumber read number
    | error e => simp [read] at nothing
  · rintro fine ⟨line, number⟩ inside
    have member : line ∈ lines := by
      rw [← List.zipIdx_map_fst 1 lines]
      exact List.mem_map_of_mem inside
    obtain ⟨instruction?, read⟩ := fine line member number
    simp only [Function.comp_apply, read]

/-- A replay refuses nothing exactly if the machine accepts all instructions one after the other. -/
theorem Replay.rejections_foldl_eq_empty_iff {instructions : List Instruction} {r : Replay} :
    (instructions.foldl advance r).rejections = #[] ↔
      r.rejections = #[] ∧ ∃ s, r.final.applyAll (instructions.map (·.operation)) = .ok s := by
  induction instructions generalizing r with
  | nil => exact ⟨fun none => ⟨none, r.final, rfl⟩, fun both => both.1⟩
  | cons i rest ih =>
    rw [List.foldl_cons, ih, List.map_cons, State.applyAll_cons]
    cases step : r.final.apply i.operation with
    | ok next =>
      rw [advance_ok step]
      rfl
    | error fault =>
      rw [advance_error step]
      simp [Except.bind]

theorem flawless_iff {text : Text} : Flawless text ↔
    (check text).program.errors = [] ∧ (check text).replay.rejections = #[] := by
  have read : (check text).program.errors = [] ↔ _ := Program.errors_ofLines_eq_nil_iff
  have replayed : (check text).replay.rejections = #[] ↔ _ := Replay.rejections_foldl_eq_empty_iff
  rw [read, replayed]
  exact ⟨fun ⟨lines, run⟩ => ⟨lines, rfl, run⟩, fun ⟨lines, _, run⟩ => ⟨lines, run⟩⟩

/-- Everything that is found in a program is an error, so none is found in a flawless one only. -/
theorem Checker.errorCount_eq_zero_iff {settings : CheckerSettings} {text : Text} :
    Report.errorCount (diagnostics settings (check text)) = 0 ↔ Flawless text := by
  have errors : ∀ d ∈ diagnostics settings (check text), d.severity.isError = true := by
    intro d member
    simp only [diagnostics, Checked.diagnostics, List.map_append, List.map_map, List.mem_append,
      List.mem_map] at member
    rcases member with ⟨e, _, rfl⟩ | ⟨r, _, rfl⟩ <;> rfl
  rw [Report.errorCount, List.countP_eq_length.2 errors, List.length_eq_zero_iff, flawless_iff]
  simp [diagnostics, Checked.diagnostics]

/-! ## The checker -/

namespace Checker

variable {settings : CheckerSettings} {s : Session} {text : Text}

theorem code_report : (report settings s text).code = 0 ↔ Flawless text := by
  have found : Report.errorCount (diagnostics settings (check text)) = 0 ↔ Flawless text :=
    errorCount_eq_zero_iff
  rw [← found]
  show (if Report.errorCount (diagnostics settings (check text)) = 0 then 0 else 1) = 0 ↔ _
  by_cases none : Report.errorCount (diagnostics settings (check text)) = 0 <;> simp [none]

/-- The summary in JSON is one object, whose only field named `ok` says whether the run succeeds. -/
theorem summary_report (json : settings.report.format = .json)
    (loud : settings.report.quiet = false) :
    ∃ before fields, (report settings s text).stdout =
        before ++ (String.ofList (Json.object fields).render ++ "\n") ∧
      (fields.map (·.1)).Nodup ∧
      ("ok".toList, Json.bool (decide ((report settings s text).code = 0))) ∈ fields := by
  have printed : ∃ before, (report settings s text).stdout = before ++
      summaryText settings (check text)
        (Report.errorCount (diagnostics settings (check text))) := by
    unfold report
    simp only [loud]
    exact ⟨_, rfl⟩
  obtain ⟨before, printed⟩ := printed
  have status : decide ((report settings s text).code = 0) =
      (Report.errorCount (diagnostics settings (check text)) == 0) := by
    rw [Bool.eq_iff_iff, decide_eq_true_iff, beq_iff_eq, code_report, errorCount_eq_zero_iff]
  unfold summaryText at printed
  rw [json] at printed
  refine ⟨before, _, printed, ?_, ?_⟩
  · rw [((List.mergeSort_perm _ _).map _).nodup_iff]
    simp only [List.map_cons, List.map_nil]
    decide
  · rw [List.mem_mergeSort, status]
    simp

end Checker

/-! ## Files -/

/-- INPUT is a text, and the sink opens and does not lead to INPUT. -/
structure FileTree.Serves (t : FileTree) (input : Text) (sink : Sink) (text : Text) : Prop where
  readable : t.readText input = .ok text
  opens : ∃ s, Session.start t sink = .ok s
  apart : ∀ path ∈ sink.paths, t.locate path ≠ t.locate input

/-- Once the sink is open, INPUT can be read as before, and folders are where they were. -/
theorem FileTree.Serves.begins {t : FileTree} {input text : Text} {sink : Sink}
    (serves : t.Serves input sink text) : ∃ place s, Session.start t sink = .ok s ∧
      s.Spares place t ∧ s.tree.readText input = .ok text := by
  obtain ⟨s, started⟩ := serves.opens
  obtain ⟨bytes, full, _⟩ := Except.bind_ok serves.readable
  obtain ⟨place, leads, _⟩ := FileTree.read_iff.1 full
  have begun := Session.spares_start started (leads ▸ serves.apart)
  refine ⟨place, s, started, begun, ?_⟩
  rw [readText, begun.tree.read_eq leads]
  exact serves.readable

/-- The program that was lowered can be written there. -/
def FileTree.Takes (t : FileTree) : Target → Prop
  | .stdout => True
  | .file path => ∃ place, t.locate path = .ok place ∧ t.node place ≠ some .folder ∧
      namesFolder path = false

/-- Only folders matter for that. -/
theorem FileTree.SameFolders.takes_iff {t t' : FileTree} (folders : t.SameFolders t')
    {target : Target} : t'.Takes target ↔ t.Takes target := by
  cases target with
  | stdout => rfl
  | file path =>
    refine exists_congr fun place => ?_
    rw [folders.locate_iff, Ne, folders place]

theorem FileTree.openFile_iff {t : FileTree} {path : Text} (keep : Bool) :
    (∃ opened, t.openFile path keep = .ok opened) ↔ t.Takes (.file path) := by
  show _ ↔ ∃ place, t.locate path = .ok place ∧ t.node place ≠ some .folder ∧
    namesFolder path = false
  unfold openFile
  cases t.locate path with
  | error e => simp [bind, Except.bind]
  | ok place =>
    simp only [bind, Except.bind, Except.ok.injEq, exists_eq_left']
    cases there : t.node place with
    | none => cases namesFolder path <;> simp
    | some node =>
      cases node with
      | folder => simp
      | file content => cases namesFolder path <;> cases keep <;> simp

/-- The program that was lowered is written where it can be. -/
theorem Converter.write_iff {s : Session} {target : Target} {text : Text} :
    (∃ s', write s target text = .ok s') ↔ s.tree.Takes target := by
  cases target with
  | stdout => exact ⟨fun _ => trivial, fun _ => ⟨_, rfl⟩⟩
  | file path =>
    rw [← FileTree.openFile_iff false]
    constructor
    · rintro ⟨s', written⟩
      obtain ⟨tree, stored, _⟩ := Except.bind_ok written
      obtain ⟨opened, done, _⟩ := Except.bind_ok stored
      exact ⟨opened, done⟩
    · rintro ⟨opened, done⟩
      exact ⟨_, by rw [write, FileTree.write, done]; rfl⟩

/-! ## The converter -/

namespace Converter

variable {settings : ConverterSettings} {t : FileTree} {place : PathParts} {s : Session}
  {source text : Text} {lowered : Lowered}

/-- A lowering with success ends well if its result can be written, unless warnings count as errors
and there are some. -/
theorem code_succeed {lines : List Text} (spared : s.Spares place t)
    (done : lower source = .ok lowered)
    (few : settings.check = true → lowered.headers.carriers.length ≤ maxHalfWord) :
    (succeed settings s lines lowered).code = 0 ↔ t.Takes settings.output ∧
      ¬ (settings.warningsAsErrors = true ∧ ∃ d ∈ lowered.warnings, d.severity = .warning) := by
  have warned : 0 < Report.warningCount lowered.warnings ↔
      ∃ d ∈ lowered.warnings, d.severity = .warning := by
    rw [Report.warningCount, List.countP_pos_iff]
    refine exists_congr fun d => and_congr_right fun _ => ?_
    cases d.severity <;> simp [Severity.isError]
  have clean (checked : settings.check = true) : (check lowered.text).isClean = true := by
    obtain ⟨errors, rejections, _⟩ := check_lower done (few checked)
    simp [Checked.isClean, errors, rejections]
  unfold succeed
  simp only
  generalize emitted : (if settings.emitWarnings = true then _ else s) = session
  have kept : session.Spares place t := by
    rw [← emitted]
    exact .ite (spared.emit _ _ _) spared
  have written : (∃ s', write session settings.output lowered.text = .ok s') ↔ _ := write_iff
  rw [← kept.tree.folders.takes_iff, ← written, ← warned]
  cases write session settings.output lowered.text with
  | error e => simp [Session.finish]
  | ok s' =>
    cases checked : settings.check with
    | false => cases settings.warningsAsErrors <;> simp [Session.finish]
    | true => cases settings.warningsAsErrors <;> simp [Session.finish, checkOutput, clean checked]

/-- A run ends well exactly if the lowering succeeds and its result can be written, unless warnings
count as errors and there are some. -/
theorem code_run (serves : t.Serves settings.input settings.report.sink text)
    (few : settings.check = true → ∀ lowered, lower text = .ok lowered →
      lowered.headers.carriers.length ≤ maxHalfWord) :
    (run settings t).code = 0 ↔ ∃ lowered, lower text = .ok lowered ∧ t.Takes settings.output ∧
      ¬ (settings.warningsAsErrors = true ∧ ∃ d ∈ lowered.warnings, d.severity = .warning) := by
  obtain ⟨place, s, started, spared, read⟩ := serves.begins
  unfold run
  rw [started]
  have whole : lowerLines (lines text) = lower text := rfl
  simp only [read, whole]
  cases done : lower text with
  | ok lowered =>
    have status : (succeed settings s (lines text) lowered).code = 0 ↔ _ :=
      code_succeed spared done fun checked => few checked lowered done
    simpa using status
  | error failure =>
    have failed : (fail settings s (lines text) failure).code = 1 := rfl
    simp [failed]

end Converter

/-! ## Command lines -/

/-- A command line and an environment that say how the checker runs. -/
def CheckerSettings.Given (settings : CheckerSettings) (arguments : List Text)
    (env : Environment) : Prop :=
  ∃ options, CheckerOptions.ofArguments arguments = .ok options ∧ resolve options env = .ok settings

/-- A command line and an environment that say how the converter runs. -/
def ConverterSettings.Given (settings : ConverterSettings) (arguments : List Text)
    (env : Environment) : Prop :=
  ∃ options, ConverterOptions.ofArguments arguments = .ok options ∧
    resolve options env = .ok settings

/-- The exit status tells about the program, however the run reports. The checker ends well exactly
if the program is flawless, and its summary in JSON says the same. The converter ends well exactly if
the file is lowered with success and the result can be written, unless warnings count as errors and
there are some; so a check of the result never makes a run fail. -/
theorem status_tells_program (arguments : List Text) (env : Environment) (tree : FileTree)
    (text : Text) :
    (∀ settings : CheckerSettings, settings.Given arguments env →
      tree.Serves settings.input settings.report.sink text →
      ((Checker.runArguments arguments env tree).code = 0 ↔ Flawless text) ∧
      (settings.report.format = .json → settings.report.quiet = false →
        ∃ before fields, (Checker.runArguments arguments env tree).stdout =
            before ++ (String.ofList (Json.object fields).render ++ "\n") ∧
          (fields.map (·.1)).Nodup ∧ ("ok".toList, Json.bool
            (decide ((Checker.runArguments arguments env tree).code = 0))) ∈ fields)) ∧
    ∀ settings : ConverterSettings, settings.Given arguments env →
      tree.Serves settings.input settings.report.sink text →
      (settings.check = true → ∀ lowered, lower text = .ok lowered →
        lowered.headers.carriers.length ≤ maxHalfWord) →
      ((Converter.runArguments arguments env tree).code = 0 ↔
        ∃ lowered, lower text = .ok lowered ∧ tree.Takes settings.output ∧
          ¬ (settings.warningsAsErrors = true ∧
            ∃ d ∈ lowered.warnings, d.severity = .warning)) ∧
      ((Converter.runArguments arguments env tree).code = 0 ↔
        (Converter.run { settings with check := false } tree).code = 0) := by
  refine ⟨fun settings given serves => ?_, fun settings given serves few => ?_⟩
  · obtain ⟨options, read, resolved⟩ := given
    obtain ⟨_, s, started, _, readable⟩ := serves.begins
    have run : Checker.runArguments arguments env tree = Checker.report settings s text := by
      rw [Checker.runArguments, read]
      simp only [resolved, Checker.run, started, readable]
    rw [run]
    exact ⟨Checker.code_report, Checker.summary_report⟩
  · obtain ⟨options, read, resolved⟩ := given
    have run : Converter.runArguments arguments env tree = Converter.run settings tree := by
      rw [Converter.runArguments, read]
      simp only [resolved]
    rw [run]
    have unchecked : (Converter.run { settings with check := false } tree).code = 0 ↔ _ :=
      Converter.code_run serves nofun
    have status := Converter.code_run serves few
    exact ⟨status, status.trans unchecked.symm⟩

/-- A program that is checked, and a file that is converted and whose result is checked. -/
theorem status_tells_program_twice :
    (Checker.runArguments [['a'], ['-', 'E'], ['b']] {} (.single ['a'] "in + f.0 1")).code = 0 ∧
      (Converter.runArguments [['a'], ['b'], "--check".toList] {}
        (.single ['a'] ";!knitout-2\n;;Carriers: A\nrack 1")).code = 0 := by
  refine ⟨?_, ?_⟩
  · have serves : (FileTree.single ['a'] "in + f.0 1").Serves ['a'] (.file ['b'] false)
        "in + f.0 1".toList := ⟨by decide, ⟨_, rfl⟩, by decide⟩
    have flawless : Flawless "in + f.0 1".toList := flawless_iff.2 (by decide)
    exact (((status_tells_program _ _ _ _).1 ⟨['a'], ⟨false, .text, .file ['b'] false⟩, false, none⟩
      ⟨_, rfl, rfl⟩ serves).1).2 flawless
  · have serves : (FileTree.single ['a'] ";!knitout-2\n;;Carriers: A\nrack 1").Serves ['a'] .stderr
        ";!knitout-2\n;;Carriers: A\nrack 1".toList := ⟨by decide, ⟨_, rfl⟩, by decide⟩
    have lowers : (lower ";!knitout-2\n;;Carriers: A\nrack 1".toList).map
        (fun l => (l.headers.carriers.length, l.warnings)) = .ok (1, []) := by
      set_option maxRecDepth 2000 in
      decide
    obtain ⟨lowered, done, facts⟩ := Except.map_ok lowers
    obtain ⟨one, none⟩ := Prod.mk.inj facts
    have status := (status_tells_program [['a'], ['b'], "--check".toList] {}
      (.single ['a'] ";!knitout-2\n;;Carriers: A\nrack 1") _).2
      ⟨['a'], .file ['b'], ⟨false, .text, .stderr⟩, true, false, true⟩ ⟨_, rfl, rfl⟩ serves
      fun _ other same => by
        cases done.symm.trans same
        rw [one]
        decide
    refine status.1.2 ⟨lowered, done, ⟨⟨false, [['b']]⟩, rfl, nofun, rfl⟩, ?_⟩
    rw [none]
    simp

end Knitout
