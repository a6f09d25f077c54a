import Knitout.Main
import Knitout.Proofs.Carriers

/-!
What a run leaves alone: every place that no path it writes to leads to (`Checker.run_spares`,
`Converter.run_spares`). Nothing more can be said of INPUT (`inputs_survive`): the path of the sink
is not compared with it at all, and OUTPUT only part by part. A sink that leads to INPUT empties it
before it is read (`Checker.run_empties`), an output that leads there takes its place
(`Converter.run_replaces`).
-/

namespace Knitout

/-! ## Trees -/

namespace FileTree

/-- Folders are where they were, so the same paths lead to the same places. -/
def SameFolders (t t' : FileTree) : Prop :=
  ∀ place, t'.node place = some .folder ↔ t.node place = some .folder

/-- A place holds what it held, and folders are where they were. -/
structure Spares (place : PathParts) (t t' : FileTree) : Prop where
  same : t'.node place = t.node place
  folders : t.SameFolders t'

variable {t t' t'' : FileTree} {place other : PathParts} {path : Text} {bytes : ByteArray}

/-- Files are written where no folder is. -/
theorem sameFolders_set (plain : t.node other ≠ some .folder) (content : ByteArray) :
    t.SameFolders (t.set other (.file content)) := by
  intro place
  unfold FileTree.set
  simp only
  split
  · next same => simp [same, plain]
  · rfl

private theorem SameFolders.follow_iff (folders : t.SameFolders t') (start : PathParts)
    (parts : List Text) : t'.follow start parts = .ok other ↔ t.follow start parts = .ok other := by
  induction parts generalizing start with
  | nil => rfl
  | cons part rest ih =>
    unfold follow
    have folder := folders start
    cases before : t.node start with
    | none => grind
    | some node => cases node <;> grind

theorem SameFolders.locate_iff (folders : t.SameFolders t') :
    t'.locate path = .ok other ↔ t.locate path = .ok other := by
  unfold locate
  split
  · rfl
  · split
    · rfl
    · exact folders.follow_iff _ _

theorem read_iff : t.read path = .ok bytes ↔
    ∃ place, t.locate path = .ok place ∧ t.node place = some (.file bytes) ∧
      namesFolder path = false := by
  constructor
  · intro full
    obtain ⟨place, leads, full⟩ := Except.bind_ok full
    refine ⟨place, leads, ?_⟩
    split at full
    · cases full
    · cases full
    · next file =>
      split at full
      · cases full
      · next named =>
        cases full
        exact ⟨file, by simpa using named⟩
  · rintro ⟨place, leads, file, named⟩
    unfold read
    rw [leads]
    simp [bind, Except.bind, file, named]

namespace Spares

theorem refl (place : PathParts) (t : FileTree) : t.Spares place t :=
  ⟨rfl, fun _ => .rfl⟩

theorem trans (first : t.Spares place t') (second : t'.Spares place t'') : t.Spares place t'' :=
  ⟨second.same.trans first.same, fun other => (second.folders other).trans (first.folders other)⟩

/-- A file is written elsewhere. -/
theorem set (apart : other ≠ place) (plain : t.node other ≠ some .folder) (content : ByteArray) :
    t.Spares place (t.set other (.file content)) :=
  ⟨if_neg apart.symm, sameFolders_set plain content⟩

theorem read_eq (spared : t.Spares place t') (leads : t.locate path = .ok place) :
    t'.read path = t.read path := by
  unfold read
  rw [leads, spared.folders.locate_iff.2 leads]
  simp only [bind, Except.bind, spared.same]

end Spares

/-- A file is opened at the place that its path leads to, where no folder is. -/
theorem openFile_ok {keep : Bool} (opened : t.openFile path keep = .ok (t', other)) :
    t.locate path = .ok other ∧ t.node other ≠ some .folder ∧
      (keep = true ∧ t' = t ∨ t' = t.set other (.file .empty)) := by
  obtain ⟨found, leads, opened⟩ := Except.bind_ok opened
  split at opened
  · cases opened
  · next content file =>
    split at opened
    · cases opened
    · split at opened
      · next kept =>
        cases opened
        exact ⟨leads, by simp [file], .inl ⟨kept, rfl⟩⟩
      · cases opened
        exact ⟨leads, by simp [file], .inr rfl⟩
  · next nothing =>
    split at opened
    · cases opened
    · cases opened
      exact ⟨leads, by simp [nothing], .inr rfl⟩

theorem spares_openFile {keep : Bool} (opened : t.openFile path keep = .ok (t', other))
    (apart : t.locate path ≠ .ok place) : t.Spares place t' ∧ other ≠ place := by
  obtain ⟨leads, plain, same⟩ := openFile_ok opened
  have away : other ≠ place := fun same => apart (same ▸ leads)
  refine ⟨?_, away⟩
  rcases same with ⟨_, rfl⟩ | rfl
  · exact .refl place t'
  · exact .set away plain _

theorem spares_writeAt (apart : other ≠ place) (offset : Nat) (bytes : ByteArray) :
    t.Spares place (t.writeAt other offset bytes) := by
  unfold writeAt
  split
  · next file => exact .set apart (by simp [file]) _
  · exact .refl place t

theorem spares_append (apart : other ≠ place) (bytes : ByteArray) :
    t.Spares place (t.append other bytes) := by
  unfold append
  split
  · next file => exact .set apart (by simp [file]) _
  · exact .refl place t

theorem spares_write (written : t.write path bytes = .ok t')
    (apart : t.locate path ≠ .ok place) : t.Spares place t' := by
  obtain ⟨⟨opened, other⟩, done, written⟩ := Except.bind_ok written
  cases written
  obtain ⟨spared, away⟩ := spares_openFile done apart
  obtain ⟨leads, plain, same⟩ := openFile_ok done
  refine spared.trans (.set away ?_ bytes)
  rcases same with ⟨_, rfl⟩ | rfl
  · exact plain
  · simp [FileTree.set]

/-- A file that is not appended to loses what it held when it is opened. -/
theorem openFile_of_file (leads : t.locate path = .ok place)
    (file : t.node place = some (.file bytes)) (named : namesFolder path = false) :
    t.openFile path false = .ok (t.set place (.file .empty), place) := by
  unfold openFile
  rw [leads]
  simp [bind, Except.bind, file, named]

/-- A file that is written to is there afterwards, with the new bytes. -/
theorem write_of_file {content : ByteArray} (leads : t.locate path = .ok place)
    (file : t.node place = some (.file content)) (named : namesFolder path = false)
    (bytes : ByteArray) : ∃ t', t.write path bytes = .ok t' ∧ t.SameFolders t' ∧
      t'.node place = some (.file bytes) := by
  refine ⟨_, by rw [write, openFile_of_file leads file named]; rfl, fun other => ?_, if_pos rfl⟩
  have emptied : t.SameFolders (t.set place (.file .empty)) :=
    sameFolders_set (by simp [file]) _
  exact (sameFolders_set (by simp [FileTree.set]) bytes other).trans (emptied other)

end FileTree

/-! ## Sessions -/

/-- The place that a sink writes to, if it writes to a file. -/
def OpenSink.place? : OpenSink → Option PathParts
  | .disabled | .stderr => none
  | .appending place | .writing place _ => some place

/-- The paths that the checker writes to. -/
def CheckerSettings.written (s : CheckerSettings) : List Text :=
  s.report.sink.paths

/-- The paths that the converter writes to. -/
def ConverterSettings.written (s : ConverterSettings) : List Text :=
  s.output.paths ++ s.report.sink.paths

namespace Session

/-- A session has spared a place so far, and its sink is elsewhere. -/
structure Spares (place : PathParts) (t : FileTree) (s : Session) : Prop where
  tree : t.Spares place s.tree
  sink : s.sink.place? ≠ some place

variable {place : PathParts} {t : FileTree} {s : Session}

theorem spares_start {sink : Sink} (started : start t sink = .ok s)
    (apart : ∀ path ∈ sink.paths, t.locate path ≠ .ok place) : s.Spares place t := by
  cases sink with
  | disabled | stderr =>
    cases started
    exact ⟨.refl place t, by simp [OpenSink.place?]⟩
  | file path append =>
    obtain ⟨⟨tree, other⟩, opened, started⟩ := Except.bind_ok started
    cases started
    obtain ⟨spared, away⟩ := FileTree.spares_openFile opened (apart path (by simp [Sink.paths]))
    refine ⟨spared, ?_⟩
    cases append <;> simpa [OpenSink.place?] using away

namespace Spares

theorem print (spared : s.Spares place t) (text : String) : (s.print text).Spares place t :=
  ⟨spared.tree, spared.sink⟩

theorem emitLine (spared : s.Spares place t) (line : String) :
    (s.emitLine line).Spares place t := by
  obtain ⟨tree, sink⟩ := spared
  unfold Session.emitLine
  simp only
  split
  · exact ⟨tree, sink⟩
  · next stderr => exact ⟨tree, sink⟩
  · next other appending =>
    rw [appending] at sink
    have away : other ≠ place := by simpa [OpenSink.place?] using sink
    exact ⟨tree.trans (FileTree.spares_append away _), by simpa [appending] using sink⟩
  · next other offset writing =>
    rw [writing] at sink
    have away : other ≠ place := by simpa [OpenSink.place?] using sink
    exact ⟨tree.trans (FileTree.spares_writeAt away offset _), sink⟩

theorem emit (spared : s.Spares place t) (format : OutputFormat) (source : List Text)
    (diagnostics : List Diagnostic) : (s.emit format source diagnostics).Spares place t := by
  unfold Session.emit
  induction diagnostics generalizing s with
  | nil => exact spared
  | cons d rest ih => exact ih (spared.emitLine _)

theorem write {s' : Session} {target : Target} {text : Text} (spared : s.Spares place t)
    (written : Converter.write s target text = .ok s')
    (apart : ∀ path ∈ target.paths, t.locate path ≠ .ok place) : s'.Spares place t := by
  cases target with
  | stdout =>
    cases written
    exact spared.print _
  | file path =>
    obtain ⟨tree, changed, done⟩ := Except.bind_ok written
    cases done
    have apart : s.tree.locate path ≠ .ok place := fun leads =>
      apart path (by simp [Target.paths]) (spared.tree.folders.locate_iff.1 leads)
    exact ⟨spared.tree.trans (FileTree.spares_write changed apart), spared.sink⟩

theorem ite {s' : Session} {c : Prop} [Decidable c] (spared : s.Spares place t)
    (spared' : s'.Spares place t) :
    (if c then s else s').Spares place t := by
  split <;> assumption

end Spares

end Session

/-! ## Runs -/

section
variable {place : PathParts} {t : FileTree} {s : Session}

namespace Checker

theorem spares_report (spared : s.Spares place t) (settings : CheckerSettings) (text : Text) :
    t.Spares place (report settings s text).tree := by
  unfold report
  simp only
  have shown := spared.emit settings.report.format (lines text)
    (Report.limitErrors settings.maxErrors (diagnostics settings (check text))).1
  have noted {line : String} {c : Prop} [Decidable c] :=
    Session.Spares.ite (c := c) (shown.emitLine line) shown
  refine Session.Spares.tree (.ite ?_ (.print ?_ _)) <;> exact .ite (.print noted _) noted

/-- The checker leaves every place alone that its sink does not lead to. -/
theorem run_spares {settings : CheckerSettings}
    (apart : ∀ path ∈ settings.written, t.locate path ≠ .ok place) :
    t.Spares place (run settings t).tree := by
  unfold run
  split
  · exact .refl place t
  · next session started =>
    have spared := Session.spares_start started apart
    split
    · exact (spared.emit _ _ _).tree
    · next text read => exact spares_report spared settings text

/-- A sink that leads to INPUT, and is not appended to, empties INPUT before it is read: no
instruction is found in it, and nothing is left of it. -/
theorem run_empties {settings : CheckerSettings} {path : Text} {bytes : ByteArray}
    (full : t.read settings.input = .ok bytes) (sink : settings.report.sink = .file path false)
    (same : t.locate path = t.locate settings.input) (named : FileTree.namesFolder path = false) :
    (run settings t).tree.read settings.input = .ok .empty := by
  obtain ⟨place, leads, file, named'⟩ := FileTree.read_iff.1 full
  have opened := FileTree.openFile_of_file (same.trans leads) file named
  have started : Session.start t settings.report.sink =
      .ok ⟨t.set place (.file .empty), .writing place 0, "", ""⟩ := by
    rw [sink, Session.start, opened]
    rfl
  have folders : t.SameFolders (t.set place (.file .empty)) :=
    FileTree.sameFolders_set (by simp [file]) _
  have emptied : (t.set place (.file .empty)).read settings.input = .ok .empty :=
    FileTree.read_iff.2 ⟨place, folders.locate_iff.2 leads, if_pos rfl, named'⟩
  have blank : (t.set place (.file .empty)).readText settings.input = .ok [] := by
    rw [FileTree.readText, emptied]
    rfl
  have nothing : Report.limitErrors settings.maxErrors [] = ([], 0) := by
    cases settings.maxErrors <;> simp [Report.limitErrors]
  have clean : diagnostics settings (check []) = [] := rfl
  unfold run
  rw [started]
  simp only [blank, report, clean, nothing]
  cases settings.trace <;> cases settings.report.quiet <;> exact emptied

end Checker

namespace Converter

theorem spares_checkOutput (spared : s.Spares place t) (settings : ConverterSettings)
    (lowered : Lowered) : (checkOutput settings s lowered).1.Spares place t :=
  spared.emit _ _ _

theorem spares_succeed {settings : ConverterSettings} (spared : s.Spares place t)
    (apart : ∀ path ∈ settings.output.paths, t.locate path ≠ .ok place) (source : List Text)
    (lowered : Lowered) : t.Spares place (succeed settings s source lowered).tree := by
  unfold succeed
  simp only
  have warned {c : Prop} [Decidable c] {warnings : List Diagnostic} :=
    Session.Spares.ite (c := c) (spared.emit settings.report.format source warnings) spared
  split
  · exact (warned.emit _ _ _).tree
  · next session written =>
    have spared := warned.write written apart
    cases settings.check with
    | false => exact spared.tree
    | true => exact (spares_checkOutput spared settings lowered).tree

theorem spares_fail (spared : s.Spares place t) (settings : ConverterSettings)
    (source : List Text) (failure : LowerFailure) :
    t.Spares place (fail settings s source failure).tree := by
  unfold fail
  simp only
  have shown {found : List Diagnostic} := spared.emit settings.report.format source found
  exact (Session.Spares.ite (shown.emitLine _) shown).tree

/-- The converter leaves every place alone that neither its output nor its sink leads to. -/
theorem run_spares {settings : ConverterSettings}
    (apart : ∀ path ∈ settings.written, t.locate path ≠ .ok place) :
    t.Spares place (run settings t).tree := by
  have output : ∀ path ∈ settings.output.paths, t.locate path ≠ .ok place := fun path member =>
    apart path (List.mem_append_left _ member)
  have sink : ∀ path ∈ settings.report.sink.paths, t.locate path ≠ .ok place :=
    fun path member => apart path (List.mem_append_right _ member)
  unfold run
  split
  · exact .refl place t
  · next session started =>
    have spared := Session.spares_start started sink
    split
    · exact (spared.emit _ _ _).tree
    · next text read =>
      simp only
      split
      · next lowered done => exact spares_succeed spared output (lines text) lowered
      · next failure stopped => exact spares_fail spared settings (lines text) failure

/-- An output that leads to INPUT, however it is spelled, takes its place. -/
theorem run_replaces {settings : ConverterSettings} {path text : Text} {lowered : Lowered}
    (readable : t.readText settings.input = .ok text) (done : lowerLines (lines text) = .ok lowered)
    (output : settings.output = .file path) (same : t.locate path = t.locate settings.input)
    (named : FileTree.namesFolder path = false)
    (started : Session.start t settings.report.sink = .ok s)
    (apart : ∀ other ∈ settings.report.sink.paths, t.locate other ≠ t.locate settings.input) :
    (run settings t).tree.read settings.input = .ok (String.ofList lowered.text).toUTF8 := by
  obtain ⟨bytes, full, decoded⟩ := Except.bind_ok readable
  obtain ⟨place, leads, file, named'⟩ := FileTree.read_iff.1 full
  have begun := Session.spares_start started (leads ▸ apart)
  have read : s.tree.readText settings.input = .ok text := by
    rw [FileTree.readText, begun.tree.read_eq leads]
    exact readable
  unfold run
  rw [started]
  simp only [read, done, succeed, output]
  generalize warned : (if settings.emitWarnings = true then _ else s) = session
  have spared : session.Spares place t := by
    rw [← warned]
    exact .ite (begun.emit _ _ _) begun
  obtain ⟨tree, written, folders, there⟩ := FileTree.write_of_file
    (spared.tree.folders.locate_iff.2 (same.trans leads)) (spared.tree.same.trans file) named
    (String.ofList lowered.text).toUTF8
  have stored : write session (.file path) lowered.text = .ok { session with tree } := by
    rw [write, written]
    rfl
  have kept : Session.Spares place tree { session with tree } := ⟨.refl place tree, spared.sink⟩
  have replaced : tree.read settings.input = .ok (String.ofList lowered.text).toUTF8 :=
    FileTree.read_iff.2 ⟨place, folders.locate_iff.2 (spared.tree.folders.locate_iff.2 leads),
      there, named'⟩
  rw [stored]
  cases settings.check with
  | false => exact replaced
  | true =>
    have checked := spares_checkOutput kept settings lowered
    exact (checked.tree.read_eq (folders.locate_iff.2
      (spared.tree.folders.locate_iff.2 leads))).trans replaced

end Converter

end

/-! ## INPUT -/

/-- Whatever the command line and the environment are, INPUT has the same bytes after a run, as long
as no path that the run writes to leads to it. -/
theorem inputs_survive (arguments : List Text) (env : Environment) (tree : FileTree) :
    (∀ options bytes, CheckerOptions.ofArguments arguments = .ok options →
      (∀ settings, CheckerSettings.resolve options env = .ok settings →
        ∀ path ∈ settings.written, tree.locate path ≠ tree.locate options.input) →
      tree.read options.input = .ok bytes →
      (Checker.runArguments arguments env tree).tree.read options.input = .ok bytes) ∧
    (∀ options bytes, ConverterOptions.ofArguments arguments = .ok options →
      (∀ settings, ConverterSettings.resolve options env = .ok settings →
        ∀ path ∈ settings.written, tree.locate path ≠ tree.locate options.input) →
      tree.read options.input = .ok bytes →
      (Converter.runArguments arguments env tree).tree.read options.input = .ok bytes) := by
  refine ⟨fun options bytes given apart full => ?_, fun options bytes given apart full => ?_⟩
  · obtain ⟨place, leads, _⟩ := FileTree.read_iff.1 full
    unfold Checker.runArguments
    rw [given]
    simp only
    split
    · exact full
    · next settings resolved =>
      have spared := Checker.run_spares (leads ▸ apart settings resolved)
      exact (spared.read_eq leads).trans full
  · obtain ⟨place, leads, _⟩ := FileTree.read_iff.1 full
    unfold Converter.runArguments
    rw [given]
    simp only
    split
    · exact full
    · next settings resolved =>
      have spared := Converter.run_spares (leads ▸ apart settings resolved)
      exact (spared.read_eq leads).trans full

/-- The working folder with one file in it. -/
def FileTree.single (name : Text) (text : String) : FileTree :=
  FileTree.empty.set ⟨false, [name]⟩ (.file text.toUTF8)

/-- A program is as it was after its diagnostics went to another file, and so is one that was
converted into another file. -/
theorem inputs_survive_elsewhere :
    (Checker.runArguments [['a'], ['-', 'E'], ['b']] {} (.single ['a'] "rack 5")).tree.read ['a'] =
        .ok "rack 5".toUTF8 ∧
      (Converter.runArguments [['a'], ['b']] {} (.single ['a'] "rack 5")).tree.read ['a'] =
        .ok "rack 5".toUTF8 := by
  have apart : (FileTree.single ['a'] "rack 5").locate ['b'] ≠
      (FileTree.single ['a'] "rack 5").locate ['a'] := by decide
  refine ⟨(inputs_survive _ _ _).1 ⟨['a'], ⟨none, false, some ['b'], false, false⟩, false, 0⟩ _ rfl
      ?_ rfl, (inputs_survive _ _ _).2 ⟨['a'], ['b'], {}, false, false, false⟩ _ rfl ?_ rfl⟩
  · intro settings resolved path member
    cases resolved
    obtain rfl := List.mem_singleton.1 member
    exact apart
  · intro settings resolved path member
    cases resolved
    obtain rfl := List.mem_singleton.1 member
    exact apart

/-- A program is lost when its diagnostics go to the same file, and a knitout file that is converted
into the same file by another spelling of its path holds the formal program afterwards. -/
theorem inputs_do_not_survive :
    let program := FileTree.single ['a'] "in + f.0 1\n"
    let source := FileTree.single ['a'] ";!knitout-2\n;;Carriers: A\nrack 1"
    ((∃ options, CheckerOptions.ofArguments [['a'], ['-', 'E'], ['a']] = .ok options ∧
        options.input = ['a']) ∧
      program.read ['a'] = .ok "in + f.0 1\n".toUTF8 ∧
      (Checker.runArguments [['a'], ['-', 'E'], ['a']] {} program).tree.read ['a'] =
        .ok "".toUTF8) ∧
    (∃ options, ConverterOptions.ofArguments [['a'], ['.', '/', 'a']] = .ok options ∧
        options.input = ['a']) ∧
      source.read ['a'] = .ok ";!knitout-2\n;;Carriers: A\nrack 1".toUTF8 ∧
      (Converter.runArguments [['a'], ['.', '/', 'a']] {} source).tree.read ['a'] =
        .ok "rack 1                        ; rack 1\n".toUTF8 := by
  intro program source
  refine ⟨⟨⟨_, rfl, rfl⟩, rfl, ?_⟩, ⟨_, rfl, rfl⟩, rfl, ?_⟩
  · have emptied : (Checker.run ⟨['a'], ⟨false, .text, .file ['a'] false⟩, false, none⟩
        program).tree.read ['a'] = .ok .empty := Checker.run_empties rfl rfl rfl rfl
    exact emptied
  · have text : (lower ";!knitout-2\n;;Carriers: A\nrack 1".toList).map (·.text) =
        .ok "rack 1                        ; rack 1\n".toList := by
      set_option maxRecDepth 2000 in
      decide
    obtain ⟨lowered, done, same⟩ := Except.map_ok text
    have read : source.readText ['a'] = .ok ";!knitout-2\n;;Carriers: A\nrack 1".toList := by
      decide
    have replaced : (Converter.run ⟨['a'], .file ['.', '/', 'a'], ⟨false, .text, .stderr⟩, true,
        false, false⟩ source).tree.read ['a'] = .ok (String.ofList lowered.text).toUTF8 :=
      Converter.run_replaces read done rfl rfl rfl rfl (by simp [Sink.paths])
    rw [same] at replaced
    exact replaced

end Knitout
