import Knitout.Proofs.Annotations
import Knitout.Proofs.HeaderBlock
import Knitout.Proofs.Inert
import Knitout.Proofs.Unused

/-!
The warnings of a lowering, told from the words of the source. First come those of the header, then
one for each operation of a vendor that is not known, and behind them, if all lines could be
lowered, one for each carrier that was brought in for nothing. Main statement:
`warnings_are_complete`.
-/

namespace Knitout

/-! ## What is warned of -/

/-- The warning about the operation of a vendor that is not known. -/
def extensionWarning (number : Nat) (word : Text) : Diagnostic :=
  { line := number, severity := .warning, kind := .extension,
    message := s!"unsupported extension operation '{String.ofList word}'." }

/-- The word names an operation of some vendor, and none of those that are known. -/
def isForeign (word : Text) : Bool :=
  "x-".toList.isPrefixOf word && !knownExtensions.contains word

theorem isForeign_iff {word : Text} :
    isForeign word = true ↔ "x-".toList <+: word ∧ word ∉ knownExtensions := by
  rw [isForeign, Bool.and_eq_true, List.isPrefixOf_iff_prefix, Bool.not_eq_true',
    ← Bool.not_eq_true, List.contains_iff_mem]

/-- The warning that a line gives, if its operation is one of a vendor and is not known. -/
def extensionWarning? (line : Text) (number : Nat) : Option Diagnostic :=
  match words (cutComment line).1 with
  | [] => none
  | word :: _ => if isForeign word then some (extensionWarning number word) else none

/-- The warnings that lines give, of which the first one has this number. -/
def extensionWarnings (lines : List Text) (first : Nat) : List Diagnostic :=
  (lines.zipIdx first).filterMap fun (line, number) => extensionWarning? line number

/-- The warning about a carrier of this name that was brought in for nothing. It is about no line in
particular. -/
def unusedWarning (name : Text) : Diagnostic :=
  { line := 0, severity := .warning, kind := .carrier,
    message := s!"Carrier '{String.ofList name}' was brought in but never used; its 'in' was dropped." }

theorem extensionWarnings_cons (line : Text) (rest : List Text) (number : Nat) :
    extensionWarnings (line :: rest) number =
      (extensionWarning? line number).toList ++ extensionWarnings rest (number + 1) := by
  unfold extensionWarnings
  cases here : extensionWarning? line number <;> simp [here]

/-- All of these are warnings. -/
theorem severity_of_mem_extensionWarnings {lines : List Text} {number : Nat} {d : Diagnostic}
    (member : d ∈ extensionWarnings lines number) : d.severity = .warning := by
  obtain ⟨⟨line, number'⟩, _, given⟩ := List.mem_filterMap.1 member
  simp only [extensionWarning?] at given
  split at given
  · cases given
  · split at given
    · cases given
      rfl
    · cases given

/-! ## Operations of vendors -/

namespace Command

variable {word line : Text} {tokens : List Text} {vendor : Text}

/-- An operation that is known is not taken for one of a vendor. -/
private theorem not_vendor_of_keyword {keyword : Keyword}
    (known : Keyword.ofText? word = some keyword) : ofWords word tokens ≠ .ok (.vendor vendor) := by
  intro read
  unfold ofWords at read
  rw [known] at read
  cases keyword with
  | idle | setting => cases read
  | bringIn | bringOut =>
    simp only at read
    split at read <;> cases read
  | stitch | stitchNumber =>
    simp only at read
    split at read
    · split at read <;> cases read
    · cases read
  | rack =>
    simp only at read
    split at read
    · obtain ⟨_, _, same⟩ := Except.map_ok read
      cases same
    · cases read
  | verb | synonym =>
    obtain ⟨_, _, same⟩ := Except.map_ok read
    cases same

theorem ofWords_vendor_iff : ofWords word tokens = .ok (.vendor vendor) ↔
    vendor = word ∧ isForeign word = true := by
  rw [isForeign_iff]
  constructor
  · intro read
    cases known : Keyword.ofText? word with
    | some keyword => exact absurd read (not_vendor_of_keyword known)
    | none =>
      have unknown : word ∉ knownExtensions := by
        have extensions : ∀ word ∈ knownExtensions, (Keyword.ofText? word).isSome = true := by
          decide
        intro member
        have keyword := extensions word member
        rw [known] at keyword
        cases keyword
      unfold ofWords at read
      rw [known] at read
      simp only at read
      split at read
      · next leads =>
        cases read
        obtain ⟨rest, found⟩ := Option.isSome_iff_exists.1 leads
        exact ⟨rfl, ⟨rest, (Headers.after?_eq_some_iff.1 found).symm⟩, unknown⟩
      · cases read
  · rintro ⟨rfl, ⟨rest, rfl⟩, unknown⟩
    have leads : (after? "x-".toList ("x-".toList ++ rest)).isSome = true := by
      rw [Headers.after?_eq_some_iff.2 rfl]
      rfl
    unfold ofWords
    rw [Keyword.ofText?_vendor unknown]
    exact if_pos leads

/-- The lines whose operation is taken for one of a vendor. -/
theorem ofLine_vendor_iff : ofLine line = .ok (some (.vendor word)) ↔
    ∃ tokens, words (cutComment line).1 = word :: tokens ∧ isForeign word = true := by
  constructor
  · intro read
    obtain ⟨word', tokens, split, read⟩ := ofLine_some read
    obtain ⟨rfl, foreign⟩ := ofWords_vendor_iff.1 read
    exact ⟨tokens, split, foreign⟩
  · rintro ⟨tokens, split, foreign⟩
    have read : ofWords word tokens = .ok (.vendor word) := ofWords_vendor_iff.2 ⟨rfl, foreign⟩
    unfold ofLine
    rw [split]
    simp only [read]
    rfl

end Command

/-! ## Lines -/

namespace Context

variable {c d : Context}

/-- A line gives no other warnings than its own. -/
theorem warnings_lowerLine {number : Nat} {line : Text} (done : c.lowerLine number line = .ok d) :
    d.warnings = c.warnings ++ (extensionWarning? line number).toList := by
  unfold extensionWarning?
  rcases lowerLine_cases done with ⟨word, read, rfl⟩ | ⟨none, writes⟩
  · obtain ⟨tokens, split, foreign⟩ := Command.ofLine_vendor_iff.1 read
    rw [split]
    simp only [if_pos foreign]
    rfl
  · have nothing : d.warnings = c.warnings := writes.warnings
    split
    · simpa using nothing
    · next word tokens split =>
      rw [if_neg fun foreign => none word (Command.ofLine_vendor_iff.2 ⟨tokens, split, foreign⟩)]
      simpa using nothing

theorem warnings_lowerLines {number : Nat} {lines : List Text}
    (done : c.lowerLines number lines = .ok d) :
    d.warnings = c.warnings ++ extensionWarnings lines number := by
  induction lines generalizing c number with
  | nil =>
    cases done
    simp [extensionWarnings]
  | cons line rest ih =>
    unfold lowerLines at done
    split at done
    · cases done
    · next m step =>
      rw [ih done, warnings_lowerLine step, extensionWarnings_cons, List.append_assoc]

/-- From the start of the lowering, those wait at the end that were brought in for nothing. -/
theorem waiting_of_start {t : CarrierTable} {names : List Text}
    (named : CarrierTable.ofNames names = .ok t) {number : Nat} {lines : List Text}
    (done : (start t).lowerLines number lines = .ok d) : d.waiting = unusedIns lines := by
  obtain ⟨listed, distinct, yarns⟩ := CarrierTable.distinct_ofNames named
  have begins : (start t).Named := ⟨.start yarns, show (t.carriers.map (·.name)).Nodup by
    rwa [listed]⟩
  exact waiting_lowerLines begins done

end Context

/-! ## Headers -/

namespace Headers

/-- All notices are warnings about the header. -/
theorem severity_of_mem_notices {version : Nat} {entries : List Entry} {rest : List Text}
    {d : Diagnostic} (member : d ∈ notices version entries rest) :
    d.severity = .warning ∧ d.kind = .header := by
  have single {line : Nat} {message : String} (member : d ∈ [notice line message]) :
      d.severity = .warning ∧ d.kind = .header := by
    rw [List.mem_singleton.1 member]
    exact ⟨rfl, rfl⟩
  rcases List.mem_append.1 member with member | ending
  · rcases List.mem_append.1 member with version' | entry
    · unfold versionNotices at version'
      split at version'
      · exact single version'
      · cases version'
    · obtain ⟨⟨entry, place⟩, _, member⟩ := List.mem_flatMap.1 entry
      rcases List.mem_append.1 member with again | key
      · unfold repeatNotices at again
        split at again
        · exact single again
        · cases again
      · unfold keyNotices at key
        split at key
        · cases key
        · exact single key
  · unfold endNotices at ending
    split at ending
    · cases ending
    · split at ending
      · exact single ending
      · cases ending

theorem severity_of_ofLines {source : List Text} {block : HeaderBlock}
    (read : ofLines source = .ok block) {d : Diagnostic} (member : d ∈ block.warnings) :
    d.severity = .warning ∧ d.kind = .header := by
  obtain ⟨entries, rest, holds⟩ := exists_block source.tail
  rcases ofLines_outcome holds with ⟨b, read', _, describes⟩ | ⟨first, refused, _⟩
  · cases read.symm.trans read'
    rw [describes.warnings] at member
    exact severity_of_mem_notices member
  · cases read.symm.trans refused

end Headers

/-! ## Whole sources -/

section
variable {source : Text} {block : HeaderBlock}

theorem bodyLines_eq (read : Headers.ofLines (lines source) = .ok block) :
    bodyLines source = (lines source).drop block.bodyStart := by
  rw [bodyLines, read]

theorem warnings_of_lower {lowered : Lowered} (done : lower source = .ok lowered) :
    ∃ block, Headers.ofLines (lines source) = .ok block ∧
      lowered.warnings = block.warnings ++
        extensionWarnings (bodyLines source) (block.bodyStart + 1) ++
        (unusedIns (bodyLines source)).map unusedWarning := by
  obtain ⟨block, t, c, read, _, named, run, _⟩ := lower_ok done
  refine ⟨block, read, ?_⟩
  rw [lower, lowerLines_of_header read named, ← bodyLines_eq read, run] at done
  have unused : c.output.unused.map Carrier.unusedWarning =
      (unusedIns (bodyLines source)).map unusedWarning := by
    rw [← Context.waiting_of_start named run, Context.waiting, List.map_map]
    rfl
  have given : c.warnings = extensionWarnings (bodyLines source) (block.bodyStart + 1) :=
    Context.warnings_lowerLines run
  cases done
  show block.warnings ++ (c.finish block.headers).warnings = _
  rw [c.warnings_finish, given, unused, List.append_assoc]

theorem warnings_of_failure {failure : LowerFailure}
    (read : Headers.ofLines (lines source) = .ok block) (stopped : lower source = .error failure) :
    ∃ before line after, bodyLines source = before ++ line :: after ∧
      failure.error.line = block.bodyStart + 1 + before.length ∧
      failure.warnings = block.warnings ++ extensionWarnings before (block.bodyStart + 1) := by
  obtain ⟨t, named⟩ := Headers.named_ofLines read
  rw [lower, lowerLines_of_header read named, ← bodyLines_eq read] at stopped
  split at stopped
  · next inner failed =>
    obtain ⟨before, line, after, d, e, split, done, _, rfl⟩ := Context.lowerLines_error failed
    cases stopped
    refine ⟨before, line, after, split, rfl, ?_⟩
    simp only [Context.warnings_lowerLines done]
    rfl
  · cases stopped

end

/-- The warnings of a lowering are complete and in order. If it succeeds they are those of the
header, one for each line whose operation belongs to a vendor and is not known, with the number of
the line, and one for each carrier whose last `in` no use follows, in the order of these. If it
fails at a line behind the header they are those of the header and of the lines before, and the
diagnostics are these and a single fatal one, about the line. -/
theorem warnings_are_complete :
    (∀ source lowered, lower source = .ok lowered →
      ∃ block, Headers.ofLines (lines source) = .ok block ∧
        lowered.warnings = block.warnings ++
          extensionWarnings (bodyLines source) (block.bodyStart + 1) ++
          (unusedIns (bodyLines source)).map unusedWarning) ∧
    (∀ source block failure, Headers.ofLines (lines source) = .ok block →
      lower source = .error failure →
        (∃ before line after, bodyLines source = before ++ line :: after ∧
          failure.error.line = block.bodyStart + 1 + before.length ∧
          failure.warnings = block.warnings ++ extensionWarnings before (block.bodyStart + 1)) ∧
        (∀ d ∈ failure.warnings, d.severity = .warning) ∧
        ∃ fatal, failure.diagnostics = failure.warnings ++ [fatal] ∧ fatal.severity = .fatal ∧
          fatal.line = failure.error.line) ∧
    (∀ source block, Headers.ofLines source = .ok block →
      ∀ d ∈ block.warnings, d.severity = .warning ∧ d.code = "k2f001") ∧
    (∀ number word, (extensionWarning number word).code = "k2f002") ∧
    ∀ name, (unusedWarning name).code = "k2f003" := by
  refine ⟨fun source lowered => warnings_of_lower, ?_, ?_, fun _ _ => rfl, fun _ => rfl⟩
  · intro source block failure read stopped
    obtain ⟨before, line, after, split, about, warnings⟩ := warnings_of_failure read stopped
    refine ⟨⟨before, line, after, split, about, warnings⟩, ?_, _, rfl, rfl, rfl⟩
    intro d member
    rw [warnings] at member
    rcases List.mem_append.1 member with header | extension
    · exact (Headers.severity_of_ofLines read header).1
    · exact severity_of_mem_extensionWarnings extension
  · intro source block read d member
    obtain ⟨severity, kind⟩ := Headers.severity_of_ofLines read member
    refine ⟨severity, ?_⟩
    rw [Diagnostic.code, severity, kind]

/-- Of the carriers that come in together only `A` is used; then it comes in again for nothing. -/
def leftover : Text :=
  joinLines ([
    ";!knitout-3",
    ";;Carriers: A B",
    ";;Mood: good",
    "x-blink",
    "in A B",
    "tuck + f0 A",
    "x-speed-number 3",
    "out A",
    "in A"].map String.toList)

example : unusedIns (bodyLines leftover) = ["B".toList, "A".toList] := by decide

/-- The line behind an operation that is not known cannot be lowered. -/
def stuck : Text :=
  joinLines ([
    ";!knitout-2",
    ";;Carriers: A",
    "x-blink",
    "out A",
    "x-wink"].map String.toList)

theorem warnings_are_complete_leftover :
    (∃ lowered block, lower leftover = .ok lowered ∧
      Headers.ofLines (lines leftover) = .ok block ∧
      lowered.warnings = block.warnings ++
        extensionWarnings (bodyLines leftover) (block.bodyStart + 1) ++
        (unusedIns (bodyLines leftover)).map unusedWarning ∧
      lowered.warnings.map (fun d => (d.line, d.code)) =
        [(1, "k2f001"), (3, "k2f001"), (4, "k2f002"), (0, "k2f003"), (0, "k2f003")]) ∧
    ∃ failure before line after, lower stuck = .error failure ∧
      bodyLines stuck = before ++ line :: after ∧ failure.error.line = 4 ∧
      failure.error.line = 3 + before.length ∧ failure.warnings = extensionWarnings before 3 ∧
      failure.warnings.length = 1 ∧
      ∃ fatal, failure.diagnostics = failure.warnings ++ [fatal] ∧ fatal.severity = .fatal := by
  refine ⟨?_, ?_⟩
  · have warns : (lower leftover).map (fun l => l.warnings.map fun d => (d.line, d.code)) =
        .ok [(1, "k2f001"), (3, "k2f001"), (4, "k2f002"), (0, "k2f003"), (0, "k2f003")] := by
      decide
    obtain ⟨lowered, done, found⟩ := Except.map_ok warns
    obtain ⟨block, read, whole⟩ := warnings_are_complete.1 leftover lowered done
    exact ⟨lowered, block, done, read, whole, found⟩
  · have header : Headers.ofLines (lines stuck) = .ok ⟨.withCarriers [['A']], 2, []⟩ := by
      decide
    have stops : lower stuck =
        .error ⟨⟨4, .outAbsent ['A']⟩, [extensionWarning 3 "x-blink".toList]⟩ := by
      decide
    obtain ⟨⟨before, line, after, split, about, warnings⟩, _, fatal, diagnostics, severity, _⟩ :=
      warnings_are_complete.2.1 stuck _ _ header stops
    exact ⟨_, before, line, after, stops, split, rfl, about, warnings, rfl, fatal, diagnostics,
      severity⟩

end Knitout
