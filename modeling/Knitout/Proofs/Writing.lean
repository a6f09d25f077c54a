import Knitout.Proofs.Status
import Mathlib.Data.Fintype.EquivFin

/-!
The converter writes all of the lowered program or none of it (`writes_all_or_nothing`): as long as
nothing is lowered, standard output is empty and what OUTPUT leads to is as it was; once a file is
lowered and can be written, all its lines are there, whatever the run reports afterwards.
-/

namespace Knitout

/-! ## Trees -/

namespace FileTree

variable {t t' : FileTree} {path : Text} {place : PathParts}

/-- Two paths lead to the same place. -/
def SamePlace (t : FileTree) (path other : Text) : Prop :=
  ∃ place, t.locate path = .ok place ∧ t.locate other = .ok place

/-- A path leads where it led, if anywhere, and what is there is as it was. -/
def KeepsAt (path : Text) (t t' : FileTree) : Prop :=
  ∀ place, (t'.locate path = .ok place ↔ t.locate path = .ok place) ∧
    (t.locate path = .ok place → t'.node place = t.node place)

instance : Infinite PathParts :=
  .of_injective (fun n => ⟨false, List.replicate n []⟩) fun m n same => by
    simpa using congrArg (fun place : PathParts => place.parts.length) same

/-- There is room for a place that none of the paths leads to. -/
theorem exists_elsewhere (t : FileTree) (paths : List Text) :
    ∃ place, ∀ path ∈ paths, t.locate path ≠ .ok place := by
  obtain ⟨place, fresh⟩ :=
    Infinite.exists_notMem_finset (paths.filterMap fun path => (t.locate path).toOption).toFinset
  refine ⟨place, fun path member leads => fresh ?_⟩
  rw [List.mem_toFinset, List.mem_filterMap]
  exact ⟨path, member, by rw [leads]; rfl⟩

/-- What can be written is written, and is all that the file holds afterwards. -/
theorem write_of_takes (takes : t.Takes (.file path)) (leads : t.locate path = .ok place)
    (bytes : ByteArray) : ∃ t', t.write path bytes = .ok t' ∧ t'.locate path = .ok place ∧
      t'.read path = .ok bytes := by
  obtain ⟨_, _, _, named⟩ := id takes
  obtain ⟨⟨opened, other⟩, done⟩ := (openFile_iff false).2 takes
  obtain ⟨leads', plain, same⟩ := openFile_ok done
  cases leads.symm.trans leads'
  have folders : t.SameFolders opened := by
    rcases same with ⟨_, rfl⟩ | rfl
    · exact fun _ => .rfl
    · exact sameFolders_set plain _
  have plain' : opened.node place ≠ some .folder := fun folder => plain ((folders place).1 folder)
  have folders' : t.SameFolders (opened.set place (.file bytes)) := fun other =>
    (sameFolders_set plain' bytes other).trans (folders other)
  have leads' := folders'.locate_iff.2 leads
  refine ⟨opened.set place (.file bytes), ?_, leads', read_iff.2 ⟨place, leads', if_pos rfl, named⟩⟩
  rw [write, done]
  rfl

end FileTree

/-! ## Sessions -/

namespace Session

variable {t : FileTree} {s s' : Session}

theorem stdout_start {sink : Sink} (started : start t sink = .ok s) : s.stdout = "" := by
  cases sink with
  | disabled | stderr =>
    cases started
    rfl
  | file path append =>
    obtain ⟨_, _, started⟩ := Except.bind_ok started
    cases started
    rfl

/-- Opening the sink leaves folders where they were. -/
theorem sameFolders_start {sink : Sink} (started : start t sink = .ok s) :
    t.SameFolders s.tree := by
  obtain ⟨elsewhere, fresh⟩ := t.exists_elsewhere sink.paths
  exact (spares_start started fresh).tree.folders

/-- The sink is not where a target that it does not share a place with leads. -/
theorem place?_start {sink : Sink} {target : Target} (started : start t sink = .ok s)
    (apart : ∀ path ∈ sink.paths, ∀ output ∈ target.paths, ¬ t.SamePlace path output) :
    ∀ output ∈ target.paths, ∀ place, s.tree.locate output = .ok place →
      s.sink.place? ≠ some place := by
  intro output member place leads
  have leads := (sameFolders_start started).locate_iff.1 leads
  exact (spares_start started fun path inside leads' =>
    apart path inside output member ⟨place, leads', leads⟩).sink

theorem stdout_emitLine (s : Session) (line : String) : (s.emitLine line).stdout = s.stdout := by
  unfold emitLine
  simp only
  split <;> rfl

/-- Diagnostics never go to standard output. -/
theorem stdout_emit (s : Session) (format : OutputFormat) (source : List Text)
    (diagnostics : List Diagnostic) : (s.emit format source diagnostics).stdout = s.stdout := by
  unfold emit
  induction diagnostics generalizing s with
  | nil => rfl
  | cons d rest ih => exact (ih _).trans (stdout_emitLine s _)

end Session

/-! ## Runs of the converter -/

theorem ConverterSettings.Given.runArguments_eq {settings : ConverterSettings}
    {arguments : List Text} {env : Environment} {tree : FileTree}
    (given : settings.Given arguments env) :
    Converter.runArguments arguments env tree = Converter.run settings tree := by
  obtain ⟨options, read, resolved⟩ := given
  rw [Converter.runArguments, read]
  simp only [resolved]

/-- The lines of a program with a line feed behind each; a single line feed if there are none. -/
def endLines (lines : List Text) : Text :=
  if lines = [] then ['\n'] else lines.flatMap (· ++ ['\n'])

theorem joinLines_append_newline {lines : List Text} :
    joinLines lines ++ ['\n'] = endLines lines := by
  have ends (line : Text) (rest : List Text) :
      joinLines (line :: rest) ++ ['\n'] = (line :: rest).flatMap (· ++ ['\n']) := by
    induction rest generalizing line with
    | nil => simp [joinLines]
    | cons next rest ih =>
      have more : joinLines (line :: next :: rest) = line ++ '\n' :: joinLines (next :: rest) := by
        simp [joinLines, List.intercalate]
      rw [more, List.flatMap_cons, ← ih]
      simp
  cases lines with
  | nil => rfl
  | cons line rest => exact ends line rest

/-- The text that INPUT holds when it is read, which is after the sink was opened. -/
def ConverterSettings.Finds (settings : ConverterSettings) (tree : FileTree) (text : Text) : Prop :=
  ∃ s, Session.start tree settings.report.sink = .ok s ∧ s.tree.readText settings.input = .ok text

/-- After a run the output is exactly a text, and standard output is empty unless it is the
output. -/
def Target.Holds (text : Text) (outcome : Outcome) : Target → Prop
  | .stdout => outcome.stdout = String.ofList text
  | .file path =>
    outcome.stdout = "" ∧ outcome.tree.read path = .ok (String.ofList text).toUTF8

namespace Converter

variable {settings : ConverterSettings} {t : FileTree} {s : Session} {lowered : Lowered}

/-- A run that lowers nothing prints nothing, and only the sink is written to. -/
theorem run_unlowered (none : ∀ text lowered, settings.Finds t text → lower text ≠ .ok lowered) :
    (run settings t).stdout = "" ∧ ∀ place,
      (∀ path ∈ settings.report.sink.paths, t.locate path ≠ .ok place) →
      t.Spares place (run settings t).tree := by
  unfold run
  split
  · exact ⟨rfl, fun place _ => .refl place t⟩
  · next session started =>
    have silent := Session.stdout_start started
    have begun {place : PathParts}
        (apart : ∀ path ∈ settings.report.sink.paths, t.locate path ≠ .ok place) :
        session.Spares place t := Session.spares_start started apart
    split
    · exact ⟨(Session.stdout_emit _ _ _ _).trans silent,
        fun place apart => ((begun apart).emit _ _ _).tree⟩
    · next text read =>
      simp only
      split
      · next lowered done => exact absurd done (none text lowered ⟨session, started, read⟩)
      · next failure stopped =>
        refine ⟨?_, fun place apart => spares_fail (begun apart) settings (lines text) failure⟩
        unfold fail
        simp only
        split
        · exact (Session.stdout_emitLine _ _).trans ((Session.stdout_emit _ _ _ _).trans silent)
        · exact (Session.stdout_emit _ _ _ _).trans silent

/-- What is lowered is written whole, and nothing that comes after it changes that. -/
theorem succeed_holds {source : List Text} (silent : s.stdout = "")
    (apart : ∀ path ∈ settings.output.paths, ∀ place, s.tree.locate path = .ok place →
      s.sink.place? ≠ some place)
    (takes : s.tree.Takes settings.output) :
    settings.output.Holds lowered.text (succeed settings s source lowered) := by
  unfold succeed
  simp only
  generalize emitted : (if settings.emitWarnings = true then _ else s) = session
  have silent' : session.stdout = "" := by
    rw [← emitted]
    split
    · exact (Session.stdout_emit _ _ _ _).trans silent
    · exact silent
  have kept {place : PathParts} (away : s.sink.place? ≠ some place) :
      session.Spares place s.tree := by
    have begun : s.Spares place s.tree := ⟨.refl place s.tree, away⟩
    rw [← emitted]
    exact .ite (begun.emit _ _ _) begun
  cases output : settings.output with
  | stdout =>
    have printed : write session .stdout lowered.text =
        .ok (session.print (String.ofList lowered.text)) := rfl
    have shown : (session.print (String.ofList lowered.text)).stdout = String.ofList lowered.text := by
      rw [Session.print, silent', String.empty_append]
    rw [printed]
    cases settings.check with
    | false => exact shown
    | true => exact (Session.stdout_emit _ _ _ _).trans shown
  | file path =>
    rw [output] at takes apart
    obtain ⟨place, leads, _⟩ := id takes
    have kept' := kept (apart path (by simp [Target.paths]) place leads)
    have folders := kept'.tree.folders
    obtain ⟨tree, written, leads', full⟩ := FileTree.write_of_takes (folders.takes_iff.2 takes)
      (folders.locate_iff.2 leads) (String.ofList lowered.text).toUTF8
    have stored : write session (.file path) lowered.text = .ok { session with tree } := by
      rw [write, written]
      rfl
    rw [stored]
    cases settings.check with
    | false => exact ⟨silent', full⟩
    | true =>
      have spared : Session.Spares place tree { session with tree } := ⟨.refl place tree, kept'.sink⟩
      have checked := (spares_checkOutput spared settings lowered).tree
      exact ⟨(Session.stdout_emit _ _ _ _).trans silent', (checked.read_eq leads').trans full⟩

end Converter

/-! ## All or nothing -/

/-- A run of the converter writes the lowered program whole or not at all. If the command line or the
environment is refused, it writes nothing anywhere. If INPUT cannot be read or cannot be lowered,
standard output is empty and OUTPUT is as it was. If INPUT is lowered and OUTPUT can be written,
OUTPUT holds the lines of the program and nothing else, whether or not warnings make the run fail. -/
theorem writes_all_or_nothing (arguments : List Text) (env : Environment) (tree : FileTree) :
    (((∃ e, ConverterOptions.ofArguments arguments = .error (.usage e)) ∨
        ∃ options e, ConverterOptions.ofArguments arguments = .ok options ∧
          ConverterSettings.resolve options env = .error e) →
      (Converter.runArguments arguments env tree).stdout = "" ∧
        (Converter.runArguments arguments env tree).tree = tree) ∧
    ∀ settings : ConverterSettings, settings.Given arguments env →
      (∀ sink ∈ settings.report.sink.paths, ∀ output ∈ settings.output.paths,
        ¬ tree.SamePlace sink output) →
      ((∀ text lowered, settings.Finds tree text → lower text ≠ .ok lowered) →
        (Converter.runArguments arguments env tree).stdout = "" ∧
          ∀ output ∈ settings.output.paths,
            tree.KeepsAt output (Converter.runArguments arguments env tree).tree) ∧
      ∀ text lowered, settings.Finds tree text → lower text = .ok lowered →
        tree.Takes settings.output →
        settings.output.Holds (endLines lowered.lines)
          (Converter.runArguments arguments env tree) := by
  constructor
  · rintro (⟨e, refused⟩ | ⟨options, e, read, refused⟩)
    · rw [Converter.runArguments, refused]
      exact ⟨rfl, rfl⟩
    · rw [Converter.runArguments, read]
      simp only [refused]
      exact ⟨rfl, rfl⟩
  · intro settings given apart
    rw [given.runArguments_eq]
    constructor
    · intro none
      obtain ⟨silent, spared⟩ := Converter.run_unlowered none
      refine ⟨silent, fun output member place => ⟨?_, fun leads => ?_⟩⟩
      · obtain ⟨elsewhere, fresh⟩ := tree.exists_elsewhere settings.report.sink.paths
        exact (spared elsewhere fresh).folders.locate_iff
      · exact (spared place fun sink inside leads' =>
          apart sink inside output member ⟨place, leads', leads⟩).same
    · rintro text lowered ⟨s, started, found⟩ done takes
      have folders := Session.sameFolders_start started
      have whole : settings.output.Holds lowered.text
          (Converter.succeed settings s (lines text) lowered) :=
        Converter.succeed_holds (Session.stdout_start started) (Session.place?_start started apart)
          (folders.takes_iff.2 takes)
      have lowers : lowerLines (lines text) = .ok lowered := done
      rw [← joinLines_append_newline, Converter.run, started]
      simp only [found, lowers]
      exact whole

/-- A file that is converted with a warning, which counts as an error, and one that is no knitout
file. -/
theorem writes_all_or_nothing_warned :
    let warned := FileTree.single ['a'] ";!knitout-2\n;;Carriers: A\n;;Yarn: wool\nrack 1"
    let broken := (FileTree.single ['a'] "rack 1").set ⟨false, [['b']]⟩ (.file "kept".toUTF8)
    ((Converter.runArguments [['a'], ['b'], "--Werror".toList] {} warned).code = 1 ∧
      (Converter.runArguments [['a'], ['b'], "--Werror".toList] {} warned).tree.read ['b'] =
        .ok "rack 1                        ; rack 1\n".toUTF8) ∧
    (Converter.runArguments [['a'], ['b']] {} broken).tree.node ⟨false, [['b']]⟩ =
      some (.file "kept".toUTF8) := by
  intro warned broken
  refine ⟨⟨by set_option maxRecDepth 2000 in decide, ?_⟩, ?_⟩
  · have lowers : (lower ";!knitout-2\n;;Carriers: A\n;;Yarn: wool\nrack 1".toList).map (·.lines) =
        .ok ["rack 1                        ; rack 1".toList] := by
      set_option maxRecDepth 2000 in
      decide
    obtain ⟨lowered, done, whole⟩ := Except.map_ok lowers
    have read : warned.readText ['a'] =
        .ok ";!knitout-2\n;;Carriers: A\n;;Yarn: wool\nrack 1".toList := by decide
    have held := ((writes_all_or_nothing [['a'], ['b'], "--Werror".toList] {} warned).2
      ⟨['a'], .file ['b'], ⟨false, .text, .stderr⟩, true, true, false⟩ ⟨_, rfl, rfl⟩ nofun).2 _
      lowered ⟨_, rfl, read⟩ done ⟨⟨false, [['b']]⟩, rfl, nofun, rfl⟩
    rw [whole] at held
    exact held.2
  · have kept := ((writes_all_or_nothing [['a'], ['b']] {} broken).2
      ⟨['a'], .file ['b'], ⟨false, .text, .stderr⟩, true, false, false⟩ ⟨_, rfl, rfl⟩ nofun).1
      fun text lowered ⟨s, started, found⟩ done => by
        cases started
        have read : broken.readText ['a'] = .ok "rack 1".toList := by decide
        cases read.symm.trans found
        have stops : (lower "rack 1".toList).toOption = none := by decide
        rw [done] at stops
        cases stops
    exact (kept.2 ['b'] (by simp [Target.paths]) ⟨false, [['b']]⟩).2 rfl

end Knitout
