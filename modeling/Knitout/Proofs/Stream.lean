import Knitout.Proofs.JsonText
import Knitout.Proofs.Writing

/-!
The stream of diagnostics in JSON. What a run sends to its sink stands behind what the file of the
sink held (`Session.Sends.receives`), and is one line for each diagnostic that is reported
(`Checker.run_sends`, `Converter.run_sends`); each line can be read back
(`Diagnostic.ofText?_toJson`). So the sink tells all that is reported, and nothing else
(`json_stream_is_readable`).
-/

namespace Knitout

/-! ## Entries -/

namespace Json

/-- The value of a field whose name no other field has. -/
def field? (name : Text) (fields : List (Text × Json)) : Option Json :=
  match fields.filter fun field => field.1 = name with
  | [(_, value)] => some value
  | _ => none

def text? : Json → Option Text
  | .string value => some value
  | _ => none

/-- A text, or null for none. -/
def textOrNull? : Json → Option (Option Text)
  | .null => some none
  | .string value => some (some value)
  | _ => none

def count? : Json → Option Nat
  | .number (.ofNat n) => some n
  | _ => none

def texts? : Json → Option (List Text)
  | .array items => items.mapM text?
  | _ => none

/-- The order of the fields does not matter. -/
theorem field?_perm {name : Text} {fields fields' : List (Text × Json)} {value : Json}
    (same : fields.Perm fields') (found : field? name fields = some value) :
    field? name fields' = some value := by
  have same := same.filter fun field => field.1 = name
  unfold field? at found ⊢
  split at found
  · next only =>
    rw [only, List.singleton_perm] at same
    rw [← same]
    exact found
  · cases found

theorem texts?_map (texts : List String) :
    texts? (.array (texts.map fun text => .string text.toList)) = some (texts.map String.toList) := by
  show (texts.map _).mapM text? = _
  induction texts with
  | nil => rfl
  | cons text rest ih =>
    rw [List.map_cons, List.mapM_cons, ih]
    rfl

end Json

/-- What a line of the stream tells about a diagnostic. -/
structure DiagnosticEntry where
  code : Text
  severity : Text
  message : Text
  file : Option Text
  line : Nat
  notes : List Text
  deriving DecidableEq

/-- Read a line of the stream: a JSON object in which each of the six fields stands once. -/
def DiagnosticEntry.ofText? (text : Text) : Option DiagnosticEntry := do
  match ← Json.ofText? text with
  | .object fields =>
    let code ← (← Json.field? "code".toList fields).text?
    let severity ← (← Json.field? "severity".toList fields).text?
    let message ← (← Json.field? "message".toList fields).text?
    let file ← (← Json.field? "file".toList fields).textOrNull?
    let line ← (← Json.field? "line".toList fields).count?
    let notes ← (← Json.field? "notes".toList fields).texts?
    some { code, severity, message, file, line, notes }
  | _ => none

namespace Diagnostic

/-- What the stream is to tell about a diagnostic. -/
def entry (d : Diagnostic) : DiagnosticEntry where
  code := d.code.toList
  severity := d.severity.word.toList
  message := d.message.toList
  file := d.file.map String.toList
  line := d.line
  notes := d.notes.map String.toList

/-- All that is told of a diagnostic is read back from its object, in whatever order the fields
stand. -/
theorem ofText?_toJson (d : Diagnostic) :
    DiagnosticEntry.ofText? d.toJson.render = some d.entry := by
  obtain ⟨place, told, fields, object, same⟩ : ∃ place : Json,
      place.textOrNull? = some (d.file.map String.toList) ∧
      ∃ fields, d.toJson = .object fields ∧ List.Perm [
        ("code".toList, .string d.code.toList),
        ("severity".toList, .string d.severity.word.toList),
        ("message".toList, .string d.message.toList),
        ("file".toList, place),
        ("line".toList, .number d.line),
        ("notes".toList, .array (d.notes.map fun note => .string note.toList))] fields :=
    ⟨_, by cases d.file <;> rfl, _, rfl, (List.mergeSort_perm _ _).symm⟩
  have code : Json.field? "code".toList fields = some (.string d.code.toList) :=
    Json.field?_perm same rfl
  have severity : Json.field? "severity".toList fields = some (.string d.severity.word.toList) :=
    Json.field?_perm same rfl
  have message : Json.field? "message".toList fields = some (.string d.message.toList) :=
    Json.field?_perm same rfl
  have file : Json.field? "file".toList fields = some place := Json.field?_perm same rfl
  have line : Json.field? "line".toList fields = some (.number d.line) :=
    Json.field?_perm same rfl
  have notes : Json.field? "notes".toList fields =
      some (.array (d.notes.map fun note => .string note.toList)) :=
    Json.field?_perm same rfl
  rw [DiagnosticEntry.ofText?, Json.ofText?_render, object]
  simp only [Option.bind_eq_bind, Option.bind_some, code, severity, message, file, line, notes,
    Json.text?, told, Json.texts?_map]
  rfl

/-- Nothing in a line of the stream ends it early. -/
theorem newline_notMem_toJson (d : Diagnostic) : '\n' ∉ d.toJson.render :=
  fun member => absurd (Json.le_toNat_render d.toJson '\n' member) (by decide)

/-- The lines of the stream for some diagnostics. -/
def jsonLines (diagnostics : List Diagnostic) : Text :=
  diagnostics.flatMap fun d => d.toJson.render ++ ['\n']

theorem jsonLines_append (diagnostics more : List Diagnostic) :
    jsonLines (diagnostics ++ more) = jsonLines diagnostics ++ jsonLines more :=
  List.flatMap_append

end Diagnostic

/-! ## Trees -/

/-- Whether it is a folder. -/
def Node.isFolder : Node → Bool
  | .folder => true
  | .file _ => false

namespace FileTree

/-- Files, folders and nothing are where they were; only what the files hold may be different. -/
def SameKinds (t t' : FileTree) : Prop :=
  ∀ place, (t'.node place).map Node.isFolder = (t.node place).map Node.isFolder

/-- Why a program cannot be written there, if it cannot. -/
def refusal? (t : FileTree) : Target → Option FileError
  | .stdout => none
  | .file path =>
    match t.openFile path false with
    | .ok _ => none
    | .error e => some e

/-- What a file holds once it has been opened: all that it held if this is kept, and else nothing. -/
def kept (t : FileTree) (path : Text) (keep : Bool) : ByteArray :=
  match keep, t.read path with
  | true, .ok bytes => bytes
  | _, _ => .empty

variable {t t' t'' : FileTree} {place : PathParts} {path : Text} {bytes : ByteArray}

namespace SameKinds

theorem refl (t : FileTree) : t.SameKinds t :=
  fun _ => rfl

theorem trans (first : t.SameKinds t') (second : t'.SameKinds t'') : t.SameKinds t'' :=
  fun place => (second place).trans (first place)

/-- A file that is there gets other bytes. -/
theorem set (file : t.node place = some (.file bytes)) (content : ByteArray) :
    t.SameKinds (t.set place (.file content)) := by
  intro other
  unfold FileTree.set
  simp only
  split
  · next same =>
    rw [same, file]
    rfl
  · rfl

theorem append (t : FileTree) (place : PathParts) (bytes : ByteArray) :
    t.SameKinds (t.append place bytes) := by
  unfold FileTree.append
  split
  · next file => exact .set file _
  · exact .refl t

theorem writeAt (t : FileTree) (place : PathParts) (offset : Nat) (bytes : ByteArray) :
    t.SameKinds (t.writeAt place offset bytes) := by
  unfold FileTree.writeAt
  split
  · next file => exact .set file _
  · exact .refl t

/-- Folders are among what is where it was. -/
theorem folders (kinds : t.SameKinds t') : t.SameFolders t' := by
  intro place
  have folder (node : Option Node) : node = some .folder ↔ node.map Node.isFolder = some true := by
    rcases node with _ | node
    · simp
    · cases node <;> simp [Node.isFolder]
  rw [folder, folder, kinds place]

/-- What is at a place in both trees: nothing, a folder, or a file. -/
theorem cases (kinds : t.SameKinds t') (place : PathParts) :
    t.node place = none ∧ t'.node place = none ∨
      t.node place = some .folder ∧ t'.node place = some .folder ∨
      ∃ bytes bytes', t.node place = some (.file bytes) ∧ t'.node place = some (.file bytes') := by
  have kind := kinds place
  revert kind
  rcases t.node place with _ | ⟨bytes⟩ | _ <;> rcases t'.node place with _ | ⟨bytes'⟩ | _ <;>
    simp [Node.isFolder]

theorem follow_eq (kinds : t.SameKinds t') (start : PathParts) (parts : List Text) :
    t'.follow start parts = t.follow start parts := by
  induction parts generalizing start with
  | nil => rfl
  | cons part rest ih =>
    unfold follow
    rcases kinds.cases start with ⟨before, now⟩ | ⟨before, now⟩ | ⟨_, _, before, now⟩
    · rw [before, now]
    · simp only [before, now, ih]
    · rw [before, now]

theorem locate_eq (kinds : t.SameKinds t') (path : Text) : t'.locate path = t.locate path := by
  unfold locate
  simp only [kinds.follow_eq]

/-- Whether a program can be written, and if not why, does not depend on what files hold. -/
theorem refusal_eq (kinds : t.SameKinds t') (target : Target) :
    t'.refusal? target = t.refusal? target := by
  cases target with
  | stdout => rfl
  | file path =>
    unfold refusal? openFile
    simp only [kinds.locate_eq]
    cases t.locate path with
    | error e => rfl
    | ok place =>
      simp only [bind, Except.bind]
      rcases kinds.cases place with ⟨before, now⟩ | ⟨before, now⟩ | ⟨_, _, before, now⟩
      · rw [before, now]
        cases namesFolder path <;> rfl
      · rw [before, now]
      · rw [before, now]
        cases namesFolder path <;> rfl

end SameKinds

theorem append_of_file (file : t.node place = some (.file bytes)) (more : ByteArray) :
    (t.append place more).node place = some (.file (bytes ++ more)) := by
  unfold append
  rw [file]
  exact if_pos rfl

/-- What is written from the end of a file on is appended to it. -/
theorem writeAt_of_file (file : t.node place = some (.file bytes)) (more : ByteArray) :
    (t.writeAt place bytes.size more).node place = some (.file (bytes ++ more)) := by
  have all : bytes.extract 0 bytes.size = bytes := ByteArray.extract_zero_size
  have none : bytes.extract (bytes.size + more.size) bytes.size = .empty :=
    ByteArray.extract_eq_empty_iff.2 (by omega)
  have gap : (⟨Array.replicate (bytes.size - bytes.size) 0⟩ : ByteArray) = .empty := by
    rw [Nat.sub_self]
    rfl
  have spliced : splice bytes bytes.size more = bytes ++ more := by
    simp only [splice, all, none, gap, ByteArray.append_empty]
  unfold writeAt
  simp only [file, spliced]
  exact if_pos rfl

/-- A file that has been opened is there, and holds what was kept. -/
theorem openFile_kept {keep : Bool} (opened : t.openFile path keep = .ok (t', place)) :
    t.locate path = .ok place ∧ t.SameFolders t' ∧ namesFolder path = false ∧
      t'.node place = some (.file (t.kept path keep)) := by
  obtain ⟨leads, plain, same⟩ := openFile_ok opened
  obtain ⟨_, _, _, named⟩ := (openFile_iff keep).1 ⟨_, opened⟩
  have folders : t.SameFolders t' := by
    rcases same with ⟨_, rfl⟩ | rfl
    · exact fun _ => .rfl
    · exact sameFolders_set plain _
  refine ⟨leads, folders, named, ?_⟩
  rw [openFile, leads] at opened
  simp only [bind, Except.bind, named] at opened
  rcases file : t.node place with _ | ⟨bytes⟩ | _
  · have new : t.kept path keep = .empty := by
      unfold kept
      split
      · next bytes full =>
        obtain ⟨place', leads', file', _⟩ := read_iff.1 full
        cases leads.symm.trans leads'
        cases file.symm.trans file'
      · rfl
    simp only [file] at opened
    cases opened
    rw [new]
    exact if_pos rfl
  · simp only [file] at opened
    cases keep with
    | false =>
      cases opened
      exact if_pos rfl
    | true =>
      cases opened
      have full : t.read path = .ok bytes := read_iff.2 ⟨place, leads, file, named⟩
      unfold kept
      rw [full]
      exact file
  · exact absurd file plain

end FileTree

/-! ## Sessions -/

namespace Session

/-- What the sink of a session holds. Nothing goes to standard error unless it is the sink. -/
def Holds (bytes : ByteArray) (s : Session) : Prop :=
  match s.sink with
  | .disabled => s.stderr = ""
  | .stderr => s.stderr.toUTF8 = bytes
  | .appending place => s.tree.node place = some (.file bytes) ∧ s.stderr = ""
  | .writing place offset =>
    s.tree.node place = some (.file bytes) ∧ s.stderr = "" ∧ offset = bytes.size

/-- A session has gone on and has sent a text to its sink meanwhile. -/
structure Sends (s : Session) (text : Text) (s' : Session) : Prop where
  folders : s.tree.SameFolders s'.tree
  place : s'.sink.place? = s.sink.place?
  stderr : s'.sink = .stderr ↔ s.sink = .stderr
  holds : ∀ bytes, s.Holds bytes → s'.Holds (bytes ++ (String.ofList text).toUTF8)

variable {s s' s'' : Session} {text more : Text}

namespace Holds

variable {bytes : ByteArray}

theorem silent (holds : s.Holds bytes) (other : s.sink ≠ .stderr) : s.stderr = "" := by
  unfold Holds at holds
  split at holds
  · exact holds
  · next sink => exact absurd sink other
  · exact holds.2
  · exact holds.2.1

theorem stderr (holds : s.Holds bytes) (sink : s.sink = .stderr) : s.stderr.toUTF8 = bytes := by
  simpa [Holds, sink] using holds

theorem file {place : PathParts} (holds : s.Holds bytes) (there : s.sink.place? = some place) :
    s.tree.node place = some (.file bytes) := by
  unfold Holds at holds
  split at holds
  · next sink => simp [sink, OpenSink.place?] at there
  · next sink => simp [sink, OpenSink.place?] at there
  · next other sink =>
    obtain rfl : other = place := by simpa [sink, OpenSink.place?] using there
    exact holds.1
  · next other offset sink =>
    obtain rfl : other = place := by simpa [sink, OpenSink.place?] using there
    exact holds.1

end Holds

theorem sameKinds_emitLine (s : Session) (line : String) :
    s.tree.SameKinds (s.emitLine line).tree := by
  unfold Session.emitLine
  simp only
  split
  · exact .refl _
  · exact .refl _
  · exact .append _ _ _
  · exact .writeAt _ _ _ _

/-- Diagnostics in a file only change what it holds. -/
theorem sameKinds_emit (s : Session) (format : OutputFormat) (source : List Text)
    (diagnostics : List Diagnostic) : s.tree.SameKinds (s.emit format source diagnostics).tree := by
  unfold Session.emit
  induction diagnostics generalizing s with
  | nil => exact .refl _
  | cons d rest ih => exact (sameKinds_emitLine s _).trans (ih _)

namespace Sends

theorem refl (s : Session) : s.Sends [] s := by
  refine ⟨fun _ => .rfl, rfl, .rfl, fun bytes holds => ?_⟩
  rwa [String.ofList_nil, String.toUTF8, String.toByteArray_empty, ByteArray.append_empty]

theorem trans (first : s.Sends text s') (second : s'.Sends more s'') :
    s.Sends (text ++ more) s'' where
  folders place := (second.folders place).trans (first.folders place)
  place := second.place.trans first.place
  stderr := second.stderr.trans first.stderr
  holds bytes holds := by
    have sent := second.holds _ (first.holds bytes holds)
    rwa [ByteArray.append_assoc, String.toUTF8, String.toUTF8, ← String.toByteArray_append,
      ← String.ofList_append] at sent

theorem emitLine (s : Session) (line : Text) :
    s.Sends (line ++ ['\n']) (s.emitLine (String.ofList line)) := by
  have folders := (sameKinds_emitLine s (String.ofList line)).folders
  have sent : String.ofList line ++ "\n" = String.ofList (line ++ ['\n']) :=
    String.ofList_append.symm
  obtain ⟨tree, sink, stdout, stderr⟩ := s
  cases sink with
  | disabled => exact ⟨folders, rfl, .rfl, fun _ holds => holds⟩
  | stderr =>
    refine ⟨folders, rfl, .rfl, ?_⟩
    rintro _ rfl
    rw [← sent]
    exact String.toByteArray_append
  | appending place =>
    refine ⟨folders, rfl, .rfl, ?_⟩
    rintro bytes ⟨file, silent⟩
    rw [← sent]
    exact ⟨FileTree.append_of_file file _, silent⟩
  | writing place offset =>
    refine ⟨folders, rfl, by simp [Session.emitLine], ?_⟩
    rintro bytes ⟨file, silent, rfl⟩
    rw [← sent]
    exact ⟨FileTree.writeAt_of_file file _, silent, ByteArray.size_append.symm⟩

theorem emit (s : Session) (source : List Text) (diagnostics : List Diagnostic) :
    s.Sends (Diagnostic.jsonLines diagnostics) (s.emit .json source diagnostics) := by
  unfold Session.emit
  induction diagnostics generalizing s with
  | nil => exact .refl s
  | cons d rest ih => exact (emitLine s _).trans (ih _)

theorem print (sends : s.Sends text s') (shown : String) : s.Sends text (s'.print shown) :=
  ⟨sends.folders, sends.place, sends.stderr, sends.holds⟩

theorem ite {c : Prop} [Decidable c] (sends : s.Sends text s') (sends' : s.Sends text s'') :
    s.Sends text (if c then s' else s'') := by
  split <;> assumption

/-- What is written elsewhere does not go to the sink. -/
theorem write {target : Target} (written : Converter.write s target text = .ok s')
    (apart : ∀ path ∈ target.paths, ∀ place, s.tree.locate path = .ok place →
      s.sink.place? ≠ some place) : s.Sends [] s' := by
  cases target with
  | stdout =>
    cases written
    exact (refl s).print _
  | file path =>
    obtain ⟨tree, changed, done⟩ := Except.bind_ok written
    cases done
    have spared {place : PathParts} (away : s.tree.locate path ≠ .ok place) :
        s.tree.Spares place tree := FileTree.spares_write changed away
    obtain ⟨elsewhere, fresh⟩ := s.tree.exists_elsewhere [path]
    refine ⟨(spared (fresh path (by simp))).folders, rfl, .rfl, fun bytes holds => ?_⟩
    have away {place : PathParts} (here : s.sink.place? = some place) :
        s.tree.locate path ≠ .ok place := fun leads =>
      apart path (by simp [Target.paths]) place leads here
    rw [String.ofList_nil, String.toUTF8, String.toByteArray_empty, ByteArray.append_empty]
    unfold Holds at holds ⊢
    simp only
    split at holds
    · exact holds
    · exact holds
    · next place sink =>
      exact ⟨(spared (away (by rw [sink]; rfl))).same.trans holds.1, holds.2⟩
    · next place offset sink =>
      exact ⟨(spared (away (by rw [sink]; rfl))).same.trans holds.1, holds.2⟩

end Sends

end Session

/-- After a run that began with a tree of files, the sink holds what was kept of its file, and a text
behind that. Standard error is empty unless it is the sink. -/
def Sink.Receives (t : FileTree) (text : Text) (outcome : Outcome) : Sink → Prop
  | .disabled => outcome.stderr = ""
  | .stderr => outcome.stderr = String.ofList text
  | .file path append => outcome.stderr = "" ∧
    outcome.tree.read path = .ok (t.kept path append ++ (String.ofList text).toUTF8)

/-- What a session has sent since its sink was opened is what the sink receives. -/
theorem Session.Sends.receives {t : FileTree} {sink : Sink} {s s' : Session} {text : Text}
    (started : Session.start t sink = .ok s) (sends : s.Sends text s') (code : Nat) :
    sink.Receives t text (s'.finish code) := by
  cases sink with
  | disabled =>
    cases started
    have holds := sends.holds .empty rfl
    exact holds.silent fun sink => nomatch sends.stderr.1 sink
  | stderr =>
    cases started
    have holds := sends.holds .empty rfl
    rw [ByteArray.empty_append] at holds
    exact String.toByteArray_inj.1 (holds.stderr (sends.stderr.2 rfl))
  | file path append =>
    obtain ⟨⟨tree, place⟩, opened, started⟩ := Except.bind_ok started
    obtain ⟨leads, folders, named, file⟩ := FileTree.openFile_kept opened
    have begun : s.Holds (t.kept path append) ∧ s.sink.place? = some place ∧
        s.sink ≠ .stderr ∧ s.tree = tree := by
      cases started
      cases append with
      | true => exact ⟨⟨file, rfl⟩, rfl, nofun, rfl⟩
      | false => exact ⟨⟨file, rfl, rfl⟩, rfl, nofun, rfl⟩
    obtain ⟨begun, there, other, rfl⟩ := begun
    have holds := sends.holds _ begun
    refine ⟨holds.silent fun sink => other (sends.stderr.1 sink), FileTree.read_iff.2 ?_⟩
    exact ⟨place, sends.folders.locate_iff.2 (folders.locate_iff.2 leads),
      holds.file (sends.place.trans there), named⟩

/-! ## Runs -/

/-- What the checker reports on when INPUT is read from a tree of files. -/
def Checker.reported (settings : CheckerSettings) (t : FileTree) : List Diagnostic :=
  match t.readText settings.input with
  | .error e => [e.toDiagnostic "read" settings.input]
  | .ok text => (Report.limitErrors settings.maxErrors (diagnostics settings (check text))).1

namespace Converter

/-- What the converter reports on when a lowering stops. -/
def reportedFailure (settings : ConverterSettings) (failure : LowerFailure) : List Diagnostic :=
  (failure.diagnostics.filter fun d => settings.emitWarnings || d.severity != .warning).map
    fun d => d.withFallbackFile (String.ofList settings.input)

/-- What the converter reports on when a lowering succeeds: what it warns of, and then either that
OUTPUT cannot be written or what is found in it. -/
def reportedSuccess (settings : ConverterSettings) (t : FileTree) (lowered : Lowered) :
    List Diagnostic :=
  (if settings.emitWarnings then
    lowered.warnings.map fun d => d.withFallbackFile (String.ofList settings.input) else []) ++
  match t.refusal? settings.output with
  | some e => [e.toDiagnostic "write" (outputName settings.output)]
  | none =>
    if settings.check then
      (check lowered.text).diagnostics.map fun d =>
        d.withFallbackFile (String.ofList (outputName settings.output))
    else []

/-- What the converter reports on when INPUT is read from a tree of files and OUTPUT is written
there. -/
def reported (settings : ConverterSettings) (t : FileTree) : List Diagnostic :=
  match t.readText settings.input with
  | .error e => [e.toDiagnostic "read" settings.input]
  | .ok text =>
    match lower text with
    | .error failure => reportedFailure settings failure
    | .ok lowered => reportedSuccess settings t lowered

end Converter

open Diagnostic (jsonLines)

/-- In JSON the checker says nothing of errors that it leaves out. -/
theorem Checker.report_sends {settings : CheckerSettings} (json : settings.report.format = .json)
    (s : Session) (text : Text) : ∃ s' code, report settings s text = s'.finish code ∧
      s.Sends (jsonLines (Report.limitErrors settings.maxErrors
        (diagnostics settings (check text))).1) s' := by
  have shown := Session.Sends.emit s (lines text)
    (Report.limitErrors settings.maxErrors (diagnostics settings (check text))).1
  unfold report
  simp only [json, reduceCtorEq, decide_false, Bool.and_false, Bool.false_eq_true, if_false]
  exact ⟨_, _, rfl, .ite (.ite (shown.print _) shown) (.print (.ite (shown.print _) shown) _)⟩

/-- A run of the checker sends what it reports, and nothing else. -/
theorem Checker.run_sends {settings : CheckerSettings} {t : FileTree} {s : Session}
    (json : settings.report.format = .json)
    (started : Session.start t settings.report.sink = .ok s) :
    ∃ s' code, run settings t = s'.finish code ∧
      s.Sends (jsonLines (reported settings s.tree)) s' := by
  unfold run reported
  rw [started]
  simp only
  cases s.tree.readText settings.input with
  | error e =>
    simp only [json]
    exact ⟨_, _, rfl, .emit s _ _⟩
  | ok text => exact report_sends json s text

namespace Converter

variable {settings : ConverterSettings} {t : FileTree} {s s' : Session}

theorem refusal_eq (s : Session) (target : Target) (text : Text) :
    s.tree.refusal? target = match write s target text with
      | .ok _ => none
      | .error e => some e := by
  cases target with
  | stdout => rfl
  | file path =>
    show (match s.tree.openFile path false with
      | .ok _ => none
      | .error e => some e) = _
    rw [write, FileTree.write]
    cases s.tree.openFile path false <;> rfl

theorem fail_sends (json : settings.report.format = .json) (s : Session) (source : List Text)
    (failure : LowerFailure) : ∃ s' code, fail settings s source failure = s'.finish code ∧
      s.Sends (jsonLines (reportedFailure settings failure)) s' := by
  unfold fail
  simp only [json, reduceCtorEq, if_false]
  exact ⟨_, _, rfl, .emit s source _⟩

theorem succeed_sends (json : settings.report.format = .json) (source : List Text)
    (lowered : Lowered)
    (apart : ∀ path ∈ settings.output.paths, ∀ place, s.tree.locate path = .ok place →
      s.sink.place? ≠ some place) :
    ∃ s' code, succeed settings s source lowered = s'.finish code ∧
      s.Sends (jsonLines (reportedSuccess settings s.tree lowered)) s' := by
  unfold succeed reportedSuccess
  simp only [json, Diagnostic.jsonLines_append]
  generalize lowered.warnings.map _ = found
  generalize emitted : (if settings.emitWarnings = true then _ else s) = session
  have warned : s.Sends (jsonLines (if settings.emitWarnings then found else [])) session ∧
      s.tree.SameKinds session.tree := by
    rw [← emitted]
    cases settings.emitWarnings with
    | true => exact ⟨.emit s source found, Session.sameKinds_emit s _ source found⟩
    | false => exact ⟨.refl s, .refl s.tree⟩
  obtain ⟨warned, kinds⟩ := warned
  have refusal := refusal_eq session settings.output lowered.text
  rw [kinds.refusal_eq] at refusal
  rw [refusal]
  cases written : write session settings.output lowered.text with
  | error e => exact ⟨_, _, rfl, warned.trans (.emit session [] _)⟩
  | ok s' =>
    have apart' : ∀ path ∈ settings.output.paths, ∀ place, session.tree.locate path = .ok place →
        session.sink.place? ≠ some place := by
      intro path member place leads
      rw [warned.place]
      rw [kinds.locate_eq] at leads
      exact apart path member place leads
    have stored := warned.trans (.write written apart')
    rw [List.append_nil] at stored
    cases settings.check with
    | false => exact ⟨_, _, rfl, stored.trans (.refl s')⟩
    | true =>
      have checked : (checkOutput settings s' lowered).1 = s'.emit .json lowered.lines
          ((check lowered.text).diagnostics.map fun d =>
            d.withFallbackFile (String.ofList (outputName settings.output))) := by
        rw [checkOutput, json]
      refine ⟨_, _, rfl, stored.trans ?_⟩
      show s'.Sends _ (checkOutput settings s' lowered).1
      rw [checked]
      exact .emit s' lowered.lines _

/-- A run of the converter sends what it reports, and nothing else. -/
theorem run_sends (json : settings.report.format = .json)
    (started : Session.start t settings.report.sink = .ok s)
    (apart : ∀ path ∈ settings.output.paths, ∀ place, s.tree.locate path = .ok place →
      s.sink.place? ≠ some place) :
    ∃ s' code, run settings t = s'.finish code ∧
      s.Sends (jsonLines (reported settings s.tree)) s' := by
  unfold run reported
  rw [started]
  simp only
  cases s.tree.readText settings.input with
  | error e =>
    simp only [json]
    exact ⟨_, _, rfl, .emit s _ _⟩
  | ok text =>
    have whole : lowerLines (lines text) = lower text := rfl
    simp only [whole]
    cases lower text with
    | error failure => exact fail_sends json s _ failure
    | ok lowered => exact succeed_sends json _ lowered apart

end Converter

/-! ## The stream -/

/-- Lines that tell about diagnostics, one about each, in their order. -/
def TellsAll (lines : List Text) (diagnostics : List Diagnostic) : Prop :=
  List.Forall₂ (fun line d => '\n' ∉ line ∧ DiagnosticEntry.ofText? line = some d.entry)
    lines diagnostics

theorem exists_tellsAll (diagnostics : List Diagnostic) :
    ∃ lines, TellsAll lines diagnostics ∧ jsonLines diagnostics = lines.flatMap (· ++ ['\n']) := by
  refine ⟨diagnostics.map fun d => d.toJson.render, ?_, by rw [jsonLines, List.flatMap_map]⟩
  rw [TellsAll, List.forall₂_map_left_iff, List.forall₂_same]
  exact fun d _ => ⟨d.newline_notMem_toJson, d.ofText?_toJson⟩

theorem CheckerSettings.Given.runArguments_eq {settings : CheckerSettings}
    {arguments : List Text} {env : Environment} {tree : FileTree}
    (given : settings.Given arguments env) :
    Checker.runArguments arguments env tree = Checker.run settings tree := by
  obtain ⟨options, read, resolved⟩ := given
  rw [Checker.runArguments, read]
  simp only [resolved]

/-- In JSON the stream of diagnostics can be read back: what the sink receives is one line for each
diagnostic that is reported, in order, and each line is an object that tells all about its
diagnostic. -/
theorem json_stream_is_readable (arguments : List Text) (env : Environment) (tree : FileTree) :
    (∀ settings : CheckerSettings, settings.Given arguments env →
      settings.report.format = .json →
      ∀ s, Session.start tree settings.report.sink = .ok s →
      ∃ lines, TellsAll lines (Checker.reported settings s.tree) ∧
        settings.report.sink.Receives tree (lines.flatMap (· ++ ['\n']))
          (Checker.runArguments arguments env tree)) ∧
    ∀ settings : ConverterSettings, settings.Given arguments env →
      settings.report.format = .json →
      (∀ sink ∈ settings.report.sink.paths, ∀ output ∈ settings.output.paths,
        ¬ tree.SamePlace sink output) →
      ∀ s, Session.start tree settings.report.sink = .ok s →
      ∃ lines, TellsAll lines (Converter.reported settings s.tree) ∧
        settings.report.sink.Receives tree (lines.flatMap (· ++ ['\n']))
          (Converter.runArguments arguments env tree) := by
  refine ⟨fun settings given json s started => ?_, fun settings given json apart s started => ?_⟩
  · obtain ⟨lines, tells, stream⟩ := exists_tellsAll (Checker.reported settings s.tree)
    obtain ⟨s', code, ended, sends⟩ := Checker.run_sends json started
    refine ⟨lines, tells, ?_⟩
    rw [given.runArguments_eq, ended, ← stream]
    exact sends.receives started code
  · obtain ⟨lines, tells, stream⟩ := exists_tellsAll (Converter.reported settings s.tree)
    obtain ⟨s', code, ended, sends⟩ :=
      Converter.run_sends json started (Session.place?_start started apart)
    refine ⟨lines, tells, ?_⟩
    rw [given.runArguments_eq, ended, ← stream]
    exact sends.receives started code

/-- A program with quotation marks, a backslash and a control character in it is checked, and the
diagnostics of a file that is converted with a warning until it stops go to a file. -/
theorem json_stream_is_readable_quoted :
    let program := FileTree.single ['a'] "in \"+\" f.0 1\nout \\ f.0\r 1\x01"
    let source := FileTree.single ['a'] ";!knitout-2\n;;Carriers: A\n;;Yarn: \"wool\"\nknit \\"
    (∃ lines, lines.length = 2 ∧
      TellsAll lines (Checker.reported ⟨['a'], ⟨false, .json, .stderr⟩, false, none⟩ program) ∧
      (Checker.runArguments [['a'], "--format".toList, "json".toList] {} program).stderr =
        String.ofList (lines.flatMap (· ++ ['\n']))) ∧
    ∃ lines, lines.length = 2 ∧
      TellsAll lines (Converter.reported
        ⟨['a'], .file ['b'], ⟨false, .json, .file ['d'] false⟩, true, false, false⟩
        (source.set ⟨false, [['d']]⟩ (.file .empty))) ∧
      (Converter.runArguments [['a'], ['b'], "--format".toList, "json".toList, ['-', 'E'], ['d']] {}
        source).tree.read ['d'] = .ok (String.ofList (lines.flatMap (· ++ ['\n']))).toUTF8 := by
  intro program source
  constructor
  · obtain ⟨lines, tells, sent⟩ := (json_stream_is_readable
      [['a'], "--format".toList, "json".toList] {} program).1
      ⟨['a'], ⟨false, .json, .stderr⟩, false, none⟩ ⟨_, rfl, rfl⟩ rfl _ rfl
    have two : (Checker.reported ⟨['a'], ⟨false, .json, .stderr⟩, false, none⟩ program).length = 2 := by
      decide
    exact ⟨lines, tells.length_eq.trans two, tells, sent⟩
  · have apart : ¬ source.SamePlace ['d'] ['b'] := by
      rintro ⟨place, leads, leads'⟩
      cases leads
      cases leads'
    obtain ⟨lines, tells, _, sent⟩ := (json_stream_is_readable
      [['a'], ['b'], "--format".toList, "json".toList, ['-', 'E'], ['d']] {} source).2
      ⟨['a'], .file ['b'], ⟨false, .json, .file ['d'] false⟩, true, false, false⟩ ⟨_, rfl, rfl⟩ rfl
      (by simpa [Sink.paths, Target.paths] using apart) _ rfl
    have two : (Converter.reported
        ⟨['a'], .file ['b'], ⟨false, .json, .file ['d'] false⟩, true, false, false⟩
        (source.set ⟨false, [['d']]⟩ (.file .empty))).length = 2 := by
      decide
    refine ⟨lines, tells.length_eq.trans two, tells, sent.trans ?_⟩
    exact congrArg Except.ok ByteArray.empty_append

end Knitout
