import Knitout.Proofs.Numbering
import Knitout.Proofs.Preamble

/-!
What the header block is, told without reading it line by line: the longest run of lines behind the
first that hold a key and a value (`Headers.Block`). All that is read out of it depends on the list
of these entries: the carriers and the gauge are those of its last entries with these keys, each
oddity is worth a notice, and there is an objection to the header for each thing that is wrong. Main
statement: `Headers.header_is_its_block`.
-/

namespace Knitout

namespace Headers

/-! ## Entries -/

/-- A key and its value. -/
@[ext]
structure Entry where
  key : Text
  value : Text
  deriving DecidableEq

variable {line : Text} {lines rest source : List Text} {entry : Entry}
  {earlier entries : List Entry} {d d' : Draft} {number version : Nat} {e : LoweringError}

/-- Two semicolons, the key up to the first colon that a space follows, and the value behind it. -/
def EntrySpelled (entry : Entry) (line : Text) : Prop :=
  line = ";;".toList ++ entry.key ++ ": ".toList ++ entry.value ∧ ¬ ": ".toList <:+: entry.key

/-- A first line that names a version; one that does not fit 32 bits counts as the largest. -/
def MagicSpelled (version : Nat) (line : Text) : Prop :=
  ∃ digits number, line = ";!knitout-".toList ++ digits ∧ Numeral number digits ∧
    version = min number maxHalfWord

theorem after?_eq_some_iff {lead text behind : Text} :
    after? lead text = some behind ↔ text = lead ++ behind := by
  rw [after?, List.isPrefixOf?_eq_some_iff_append_eq, eq_comm]

theorem after?_eq_none_iff {lead text : Text} : after? lead text = none ↔ ¬ lead <+: text := by
  rw [Option.eq_none_iff_forall_ne_some]
  constructor
  · rintro none ⟨behind, rfl⟩
    exact none behind (after?_eq_some_iff.2 rfl)
  · intro other behind found
    exact other ⟨behind, (after?_eq_some_iff.1 found).symm⟩

theorem cutAtColon?_eq_some_iff {text key value : Text} :
    cutAtColon? text = some (key, value) ↔
      text = key ++ ": ".toList ++ value ∧ ¬ ": ".toList <:+: key := by
  fun_induction cutAtColon? text generalizing key with
  | case1 => simp
  | case2 behind =>
    constructor
    · intro read
      cases read
      exact ⟨rfl, by decide⟩
    · rintro ⟨split, first⟩
      cases key with
      | nil =>
        cases split
        rfl
      | cons colon more =>
        cases more with
        | nil => cases split
        | cons space more =>
          cases split
          exact absurd ⟨[], more, rfl⟩ first
  | case3 c rest other ih =>
    constructor
    · intro read
      obtain ⟨⟨key', value'⟩, behind, same⟩ := Option.map_eq_some_iff.1 read
      cases same
      obtain ⟨rfl, first⟩ := ih.1 behind
      refine ⟨rfl, fun inside => ?_⟩
      rcases List.infix_cons_iff.1 inside with ⟨more, lead⟩ | later
      · cases lead
        exact other _ rfl rfl
      · exact first later
    · rintro ⟨split, first⟩
      cases key with
      | nil =>
        cases split
        exact absurd rfl (other value rfl)
      | cons c' more =>
        cases split
        have behind := ih.2 ⟨rfl, fun inside => first (List.infix_cons inside)⟩
        rw [behind]
        rfl

theorem ofText_eq_entry_iff : BlockLine.ofText line = .entry entry.key entry.value ↔
    EntrySpelled entry line := by
  obtain ⟨key, value⟩ := entry
  constructor
  · intro read
    unfold BlockLine.ofText at read
    split at read
    · cases read
    · next behind found =>
      split at read
      · next cut =>
        cases read
        obtain ⟨rfl, first⟩ := cutAtColon?_eq_some_iff.1 cut
        exact ⟨by simp [after?_eq_some_iff.1 found], first⟩
      · cases read
  · rintro ⟨rfl, first⟩
    have found : after? ";;".toList (";;".toList ++ key ++ ": ".toList ++ value) =
        some (key ++ ": ".toList ++ value) := after?_eq_some_iff.2 (by simp)
    simp only [BlockLine.ofText, found, cutAtColon?_eq_some_iff.2 ⟨rfl, first⟩]

/-- A line that holds no entry ends the block, with a warning if it looks like one. -/
theorem ofText_of_no_entry (stop : ∀ entry, ¬ EntrySpelled entry line) :
    BlockLine.ofText line = if ";;".toList <+: line then .odd else .other := by
  unfold BlockLine.ofText
  split
  · next other => rw [if_neg (after?_eq_none_iff.1 other)]
  · next behind found =>
    rw [if_pos ⟨behind, (after?_eq_some_iff.1 found).symm⟩]
    split
    · next key value cut =>
      refine absurd (ofText_eq_entry_iff.1 ?_) (stop ⟨key, value⟩)
      simp only [BlockLine.ofText, found, cut]
    · rfl

theorem readMagic?_eq_some_iff : readMagic? line = some version ↔ MagicSpelled version line := by
  unfold readMagic?
  constructor
  · intro read
    split at read
    · next digits found =>
      split at read
      · next good =>
        cases read
        exact ⟨digits, _, after?_eq_some_iff.1 found, numeral_iff.2 ⟨good, rfl⟩, rfl⟩
      · cases read
    · cases read
  · rintro ⟨digits, number, rfl, spelled, rfl⟩
    obtain ⟨good, rfl⟩ := numeral_iff.1 spelled
    simp only [after?_eq_some_iff.2 rfl, if_pos good]

/-! ## The block -/

/-- The lines begin with these entries, and what follows them begins with no entry. -/
inductive Block : List Text → List Entry → List Text → Prop
  | ends {rest : List Text} (stop : ∀ line ∈ rest.head?, ∀ entry, ¬ EntrySpelled entry line) :
    Block rest [] rest
  | entry {line : Text} {lines rest : List Text} {entry : Entry} {entries : List Entry}
      (spelled : EntrySpelled entry line) (block : Block lines entries rest) :
    Block (line :: lines) (entry :: entries) rest

theorem EntrySpelled.unique {entry' : Entry} (spelled : EntrySpelled entry line)
    (spelled' : EntrySpelled entry' line) : entry = entry' := by
  have same := (ofText_eq_entry_iff.2 spelled).symm.trans (ofText_eq_entry_iff.2 spelled')
  injection same with key value
  exact Entry.ext key value

theorem Block.unique {entries' : List Entry} {rest' : List Text} (block : Block lines entries rest)
    (block' : Block lines entries' rest') : entries' = entries ∧ rest' = rest := by
  induction block generalizing entries' with
  | ends stop =>
    cases block' with
    | ends stop' => exact ⟨rfl, rfl⟩
    | entry spelled' block' => exact absurd spelled' (stop _ rfl _)
  | entry spelled block ih =>
    cases block' with
    | ends stop' => exact absurd spelled (stop' _ rfl _)
    | entry spelled' block' =>
      obtain ⟨rfl, rfl⟩ := ih block'
      exact ⟨congrArg (· :: _) (spelled'.unique spelled), rfl⟩

theorem exists_block (lines : List Text) : ∃ entries rest, Block lines entries rest := by
  induction lines with
  | nil => exact ⟨[], [], .ends nofun⟩
  | cons line lines ih =>
    by_cases holds : ∃ entry, EntrySpelled entry line
    · obtain ⟨entry, spelled⟩ := holds
      obtain ⟨entries, rest, block⟩ := ih
      exact ⟨entry :: entries, rest, .entry spelled block⟩
    · refine ⟨[], line :: lines, .ends ?_⟩
      rintro _ ⟨⟩
      exact not_exists.1 holds

/-- The values of the entries with a key, in order. -/
def values (key : String) (entries : List Entry) : List Text :=
  (entries.filter (·.key = key.toList)).map (·.value)

/-- The names that stand between the spaces of a value. -/
def namesIn (value : Text) : List Text :=
  (value.splitOn ' ').filter (!·.isEmpty)

theorem mem_values {key : String} {value : Text} :
    value ∈ values key entries ↔ ⟨key.toList, value⟩ ∈ entries := by
  simp only [values, List.mem_map, List.mem_filter, decide_eq_true_eq]
  constructor
  · rintro ⟨⟨_, _⟩, ⟨member, rfl⟩, rfl⟩
    exact member
  · intro member
    exact ⟨_, ⟨member, rfl⟩, rfl⟩

theorem values_concat (key : String) : values key (earlier ++ [entry]) =
    values key earlier ++ if entry.key = key.toList then [entry.value] else [] := by
  by_cases same : entry.key = key.toList <;> simp [values, same]

/-! ## Notices -/

/-- The keys that are known: some do matter, the others are left alone. -/
def Known (key : Text) : Prop :=
  key ∈ ["Carriers", "Gauge", "Machine", "Width", "Position"].map String.toList ∨
    "Yarn-".toList <+: key

instance (key : Text) : Decidable (Known key) :=
  inferInstanceAs (Decidable (_ ∨ _))

theorem known_carriers : Known "Carriers".toList :=
  .inl (List.mem_map_of_mem (by simp))

theorem known_gauge : Known "Gauge".toList :=
  .inl (List.mem_map_of_mem (by simp))

/-- A warning about a line of the header. -/
def notice (line : Nat) (message : String) : Diagnostic :=
  { line, severity := .warning, kind := .header, message }

def versionNotices (version : Nat) : List Diagnostic :=
  if knownVersion < version then
    [notice 1
      s!"File is version {version}, but this code only knows about versions up to {knownVersion}."]
  else []

def repeatNotices (earlier : List Entry) (entry : Entry) (line : Nat) : List Diagnostic :=
  if entry.key ∈ earlier.map (·.key) then
    [notice line
      s!"header '{String.ofList entry.key}' specified more than once. Will use last value."]
  else []

def keyNotices (entry : Entry) (line : Nat) : List Diagnostic :=
  if Known entry.key then []
  else [notice line s!"File contains unknown comment header '{String.ofList entry.key}'."]

/-- The notices about the entries, of which the first is on the second line: whether the key stood
before, then whether it is known. -/
def entryNotices (entries : List Entry) : List Diagnostic :=
  entries.zipIdx.flatMap fun (entry, place) =>
    repeatNotices (entries.take place) entry (place + 2) ++ keyNotices entry (place + 2)

/-- The notice about the line behind the block. -/
def endNotices (rest : List Text) (number : Nat) : List Diagnostic :=
  match rest with
  | [] => []
  | line :: _ =>
    if ";;".toList <+: line then
      [notice number
        s!"Comment-header-like line '{String.ofList line}' does not contain string ': ' -- interpreting as regular comment."]
    else []

/-- All the notices, in the order of the lines. -/
def notices (version : Nat) (entries : List Entry) (rest : List Text) : List Diagnostic :=
  versionNotices version ++ entryNotices entries ++ endNotices rest (entries.length + 2)

theorem entryNotices_concat : entryNotices (earlier ++ [entry]) =
    entryNotices earlier ++ (repeatNotices earlier entry (earlier.length + 2) ++
      keyNotices entry (earlier.length + 2)) := by
  rw [entryNotices, List.zipIdx_append, List.flatMap_append, entryNotices]
  congr 1
  · refine List.flatMap_congr ?_
    rintro ⟨other, place⟩ member
    have inside : place < earlier.length := by simpa using List.snd_lt_of_mem_zipIdx member
    simp only [List.take_append_of_le_length (Nat.le_of_lt inside)]
  · simp

/-! ## Faults -/

/-- What is wrong with an entry by itself. -/
inductive Fault (entry : Entry) : LoweringError → Prop
  | names {name : Text} (named : entry.key = "Carriers".toList)
      (again : CarrierTable.FirstRepeat name (namesIn entry.value)) :
    Fault entry (.duplicateCarrierName name)
  | gauge (gauged : entry.key = "Gauge".toList) (bad : readGauge? entry.value = none) :
    Fault entry (.badGauge entry.value)

namespace Draft

theorem setValue_carriers (value : Text) : d.setValue number "Carriers".toList value =
    (CarrierTable.ofNames (namesIn value)).map
      fun _ => { d with carriers := some (namesIn value) } :=
  rfl

theorem setValue_gauge (value : Text) : d.setValue number "Gauge".toList value =
    match readGauge? value with
    | some gauge => .ok { d with gauge := some gauge }
    | none => .error (.badGauge value) :=
  rfl

theorem isIgnored_iff {key : Text} (carriers : key ≠ "Carriers".toList)
    (gauge : key ≠ "Gauge".toList) : isIgnored key = true ↔ Known key := by
  unfold isIgnored Known
  simp only [Bool.or_eq_true, Option.isSome_iff_ne_none, ne_eq, after?_eq_none_iff, not_not,
    decide_eq_true_eq, List.map_cons, List.map_nil, List.mem_cons, List.not_mem_nil, or_false,
    carriers, gauge, false_or, or_assoc]

/-- A key that does not matter leaves all as it is, with a warning if it is not known. -/
theorem setValue_other (carriers : entry.key ≠ "Carriers".toList)
    (gauge : entry.key ≠ "Gauge".toList) : d.setValue number entry.key entry.value =
      .ok { d with warnings := d.warnings ++ keyNotices entry number } := by
  rw [setValue, if_neg carriers, if_neg gauge, keyNotices]
  by_cases known : Known entry.key
  · rw [if_pos ((isIgnored_iff carriers gauge).2 known), if_pos known, List.append_nil]
  · rw [if_neg (known ∘ (isIgnored_iff carriers gauge).1), if_neg known]
    rfl

theorem setValue_error_iff :
    d.setValue number entry.key entry.value = .error e ↔ Fault entry e := by
  constructor
  · intro refused
    by_cases named : entry.key = "Carriers".toList
    · rw [named, setValue_carriers] at refused
      obtain ⟨name, again, rfl⟩ := CarrierTable.ofNames_error_iff.1 (Except.map_error refused)
      exact .names named again
    · by_cases gauged : entry.key = "Gauge".toList
      · rw [gauged, setValue_gauge] at refused
        split at refused
        · cases refused
        · next bad =>
          cases refused
          exact .gauge gauged bad
      · rw [setValue_other named gauged] at refused
        cases refused
  · intro fault
    cases fault with
    | names named again =>
      rw [named, setValue_carriers, CarrierTable.ofNames_error_iff.2 ⟨_, again, rfl⟩]
      rfl
    | gauge gauged bad => rw [gauged, setValue_gauge, bad]

/-- What a value does to a draft. -/
theorem setValue_ok (set : d.setValue number entry.key entry.value = .ok d') :
    d'.keys = d.keys ∧
      d'.carriers = (if entry.key = "Carriers".toList then some (namesIn entry.value)
        else d.carriers) ∧
      d'.gauge = (if entry.key = "Gauge".toList then readGauge? entry.value else d.gauge) ∧
      d'.warnings = d.warnings ++ keyNotices entry number := by
  by_cases named : entry.key = "Carriers".toList
  · have other : entry.key ≠ "Gauge".toList := by
      rw [named]
      decide
    have quiet : keyNotices entry number = [] := if_pos (named ▸ known_carriers)
    rw [named, setValue_carriers] at set
    obtain ⟨t, _, rfl⟩ := Except.map_ok set
    rw [if_pos named, if_neg other, quiet, List.append_nil]
    exact ⟨rfl, rfl, rfl, rfl⟩
  · rw [if_neg named]
    by_cases gauged : entry.key = "Gauge".toList
    · have quiet : keyNotices entry number = [] := if_pos (gauged ▸ known_gauge)
      rw [gauged, setValue_gauge] at set
      split at set
      · next gauge read =>
        cases set
        rw [if_pos gauged, read, quiet, List.append_nil]
        exact ⟨rfl, rfl, rfl, rfl⟩
      · cases set
    · rw [setValue_other named gauged] at set
      cases set
      rw [if_neg gauged]
      exact ⟨rfl, rfl, rfl, rfl⟩

/-- What remembering a key does to a draft. -/
theorem addKey_spec (number : Nat) (entry : Entry)
    (tells : ∀ key, key ∈ d.keys ↔ key ∈ earlier.map (·.key)) :
    (∀ key, key ∈ (d.addKey number entry.key).keys ↔ key ∈ (earlier ++ [entry]).map (·.key)) ∧
      (d.addKey number entry.key).gauge = d.gauge ∧
      (d.addKey number entry.key).warnings = d.warnings ++ repeatNotices earlier entry number := by
  unfold addKey repeatNotices
  by_cases known : entry.key ∈ earlier.map (·.key)
  · rw [if_pos (by simpa [tells] using known), if_pos known]
    refine ⟨fun key => ?_, rfl, rfl⟩
    simp only [warn, tells, List.map_append, List.mem_append, List.map_singleton,
      List.mem_singleton]
    grind
  · rw [if_neg (by simpa [tells] using known), if_neg known, List.append_nil]
    refine ⟨fun key => ?_, rfl, rfl⟩
    rw [List.mem_cons, tells, List.map_append, List.mem_append, List.map_singleton,
      List.mem_singleton, or_comm]

/-- What a draft is that has read these entries. -/
structure Tells (d : Draft) (version : Nat) (entries : List Entry) : Prop where
  keys : ∀ key, key ∈ d.keys ↔ key ∈ entries.map (·.key)
  carriers : d.carriers = (values "Carriers" entries).getLast?.map namesIn
  gauge : d.gauge = (values "Gauge" entries).getLast?.bind readGauge?
  warnings : d.warnings = versionNotices version ++ entryNotices entries

theorem tells_versionDraft (version : Nat) : Tells (versionDraft version) version [] := by
  unfold versionDraft
  by_cases newer : knownVersion < version
  · rw [if_pos newer]
    exact ⟨by simp [start, warn], rfl, rfl,
      by simp [versionNotices, newer, start, warn, notice, entryNotices]⟩
  · rw [if_neg newer]
    exact ⟨by simp [start], rfl, rfl, by simp [versionNotices, newer, start, entryNotices]⟩

/-- One more entry. -/
theorem Tells.next (tells : Tells d version earlier)
    (set : (d.addKey (earlier.length + 2) entry.key).setValue (earlier.length + 2) entry.key
      entry.value = .ok d') : Tells d' version (earlier ++ [entry]) := by
  obtain ⟨keys, gauge, warnings⟩ := addKey_spec (earlier.length + 2) entry tells.keys
  obtain ⟨keys', carriers', gauge', warnings'⟩ := setValue_ok set
  constructor
  · rwa [keys']
  · rw [carriers', carriers_addKey, tells.carriers, values_concat]
    split <;> simp
  · rw [gauge', gauge, tells.gauge, values_concat]
    split <;> simp
  · rw [warnings', warnings, tells.warnings, entryNotices_concat]
    simp only [List.append_assoc]

end Draft

/-! ## Reading the block -/

/-- Nothing is wrong with any of the entries by itself. -/
def Faultless (entries : List Entry) : Prop :=
  ∀ entry ∈ entries, ∀ e, ¬ Fault entry e

/-- The first of the entries with which something is wrong has so many entries before it. -/
def FirstFault (entries : List Entry) (place : Nat) (e : LoweringError) : Prop :=
  ∃ before entry after, entries = before ++ entry :: after ∧ before.length = place ∧
    Faultless before ∧ Fault entry e

/-- How the reading of a block behind earlier entries ends: with all that its entries say, or at the
first of them with which something is wrong. -/
inductive Reading (version : Nat) (earlier entries : List Entry) (rest : List Text) :
    Draft × Except FatalError Nat → Prop
  | whole {d : Draft} (faultless : Faultless entries)
      (carriers : d.carriers = (values "Carriers" (earlier ++ entries)).getLast?.map namesIn)
      (gauge : d.gauge = (values "Gauge" (earlier ++ entries)).getLast?.bind readGauge?)
      (warnings : d.warnings = notices version (earlier ++ entries) rest) :
    Reading version earlier entries rest (d, .ok ((earlier ++ entries).length + 2))
  | faulty {d : Draft} {place : Nat} {e : LoweringError} (first : FirstFault entries place e) :
    Reading version earlier entries rest (d, .error ⟨earlier.length + place + 2, e⟩)

theorem Reading.cons {result : Draft × Except FatalError Nat} (fine : ∀ e, ¬ Fault entry e)
    (reading : Reading version (earlier ++ [entry]) entries rest result) :
    Reading version earlier (entry :: entries) rest result := by
  have faultless {others : List Entry} (others' : Faultless others) :
      Faultless (entry :: others) := List.forall_mem_cons.2 ⟨fine, others'⟩
  cases reading with
  | whole others carriers gauge warnings =>
    rw [List.append_assoc, List.singleton_append] at *
    exact .whole (faultless others) carriers gauge warnings
  | @faulty d place e first =>
    obtain ⟨before, other, after, rfl, rfl, others, fault⟩ := first
    have place : (earlier ++ [entry]).length + before.length + 2 =
        earlier.length + (entry :: before).length + 2 := by
      simp only [List.length_append, List.length_cons, List.length_nil]
      omega
    rw [place]
    exact .faulty ⟨entry :: before, other, after, rfl, rfl, faultless others, fault⟩

theorem faultless_nil : Faultless [] := by
  intro entry member
  cases member

/-- Behind the last entry at most a warning is left. -/
theorem Draft.Tells.reading (tells : d.Tells version earlier) :
    Reading version earlier [] rest
      ({ d with warnings := d.warnings ++ endNotices rest (earlier.length + 2) },
        .ok (earlier.length + 2)) := by
  let ended := { d with warnings := d.warnings ++ endNotices rest (earlier.length + 2) }
  have reading :
      Reading version earlier [] rest (ended, .ok ((earlier ++ []).length + 2)) := by
    refine .whole faultless_nil ?_ ?_ ?_ <;> rw [List.append_nil]
    · exact tells.carriers
    · exact tells.gauge
    · rw [notices, ← tells.warnings]
  rwa [List.append_nil] at reading

theorem readBlock_block (tells : d.Tells version earlier) (block : Block lines entries rest) :
    Reading version earlier entries rest (readBlock d (earlier.length + 2) lines) := by
  induction block generalizing d earlier with
  | @ends rest stop =>
    have reading : Reading version earlier [] rest _ := tells.reading
    cases rest with
    | nil => rwa [endNotices, List.append_nil] at reading
    | cons line rest =>
      rw [readBlock, ofText_of_no_entry (stop line rfl)]
      rw [endNotices] at reading
      by_cases alike : ";;".toList <+: line
      · rw [if_pos alike] at reading
        rwa [if_pos alike]
      · rw [if_neg alike, List.append_nil] at reading
        rwa [if_neg alike]
  | @entry line lines rest entry entries spelled block ih =>
    rw [readBlock, ofText_eq_entry_iff.2 spelled]
    dsimp only
    split
    · next e refused =>
      have fault : Fault entry e := Draft.setValue_error_iff.1 refused
      exact .faulty ⟨[], entry, entries, rfl, rfl, faultless_nil, fault⟩
    · next d' set =>
      have fine (e : LoweringError) : ¬ Fault entry e := by
        intro fault
        cases set.symm.trans (Draft.setValue_error_iff.2 fault)
      have reading := ih (tells.next set)
      rw [List.length_append] at reading
      exact reading.cons fine

/-! ## The header -/

/-- What makes a header one that can be used. -/
structure Acceptable (source : List Text) (entries : List Entry) : Prop where
  magic : ∃ line ∈ source.head?, ∃ version, MagicSpelled version line
  named : values "Carriers" entries ≠ []
  distinct : ∀ value ∈ values "Carriers" entries, (namesIn value).Nodup
  gauges : ∀ value ∈ values "Gauge" entries, ∃ gauge, readGauge? value = some gauge

/-- What there is to object to a header. That no carriers are named is said at the last line of the
block, all else at the line that it is about. -/
inductive Objection (source : List Text) (entries : List Entry) : FatalError → Prop
  | noMagicLine (empty : source = []) : Objection source entries ⟨1, .noMagicLine⟩
  | badMagic {line : Text} (first : source.head? = some line)
      (bad : ∀ version, ¬ MagicSpelled version line) : Objection source entries ⟨1, .badMagic line⟩
  | fault {before after : List Entry} {entry : Entry} {e : LoweringError}
      (split : entries = before ++ entry :: after) (fault : Fault entry e) :
    Objection source entries ⟨before.length + 2, e⟩
  | missingCarriers (none : values "Carriers" entries = []) :
    Objection source entries ⟨entries.length + 1, .missingCarriers⟩

/-- The objection of the earliest line. That no carriers are named counts only if there is no
other. -/
structure FirstObjection (source : List Text) (entries : List Entry)
    (first : FatalError) : Prop where
  applies : Objection source entries first
  earliest : ∀ other, Objection source entries other →
    other = first ∨ other.error = .missingCarriers ∨ first.line < other.line
  alone : first.error = .missingCarriers → ∀ other, Objection source entries other → other = first

/-- What is read out of a header. -/
structure Describes (source : List Text) (entries : List Entry) (rest : List Text)
    (b : HeaderBlock) : Prop where
  version : ∃ line ∈ source.head?, MagicSpelled b.headers.version line
  bodyStart : b.bodyStart = 1 + entries.length
  carriers : (values "Carriers" entries).getLast?.map namesIn = some b.headers.carriers
  gauge : (values "Gauge" entries).getLast?.bind readGauge? = b.headers.gauge
  warnings : b.warnings = notices b.headers.version entries rest

theorem Fault.unique {e' : LoweringError} (fault : Fault entry e) (fault' : Fault entry e') :
    e = e' := by
  have refused : Draft.start.setValue 0 entry.key entry.value = .error e :=
    Draft.setValue_error_iff.2 fault
  cases refused.symm.trans (Draft.setValue_error_iff.2 fault')
  rfl

theorem Acceptable.no_objection {error : FatalError} (acceptable : Acceptable source entries) :
    ¬ Objection source entries error := by
  obtain ⟨line, first, version, spelled⟩ := acceptable.magic
  intro objection
  cases objection with
  | noMagicLine empty => simp [empty] at first
  | badMagic first' bad =>
    cases first'.symm.trans first
    exact bad version spelled
  | @fault before after entry e split fault =>
    have member : entry ∈ entries := by simp [split]
    obtain ⟨key, value⟩ := entry
    cases fault with
    | names named again =>
      obtain rfl : key = _ := named
      obtain ⟨t, made⟩ :=
        CarrierTable.exists_ofNames_iff.2 (acceptable.distinct value (mem_values.2 member))
      cases made.symm.trans (CarrierTable.ofNames_error_iff.2 ⟨_, again, rfl⟩)
    | gauge gauged bad =>
      obtain rfl : key = _ := gauged
      obtain ⟨gauge, good⟩ := acceptable.gauges value (mem_values.2 member)
      cases bad.symm.trans good
  | missingCarriers none => exact acceptable.named none

theorem FirstObjection.unique {first first' : FatalError}
    (objection : FirstObjection source entries first)
    (objection' : FirstObjection source entries first') : first = first' := by
  by_cases missing : first.error = .missingCarriers
  · exact (objection.alone missing first' objection'.applies).symm
  · by_cases missing' : first'.error = .missingCarriers
    · exact objection'.alone missing' first objection.applies
    · rcases objection.earliest first' objection'.applies with same | absurd | later
      · exact same.symm
      · exact (missing' absurd).elim
      · rcases objection'.earliest first objection.applies with same | absurd | later'
        · exact same
        · exact (missing absurd).elim
        · omega

theorem Faultless.distinct {value : Text} (faultless : Faultless entries)
    (member : value ∈ values "Carriers" entries) : (namesIn value).Nodup := by
  cases made : CarrierTable.ofNames (namesIn value) with
  | ok t => exact CarrierTable.exists_ofNames_iff.1 ⟨t, made⟩
  | error e =>
    obtain ⟨name, again, _⟩ := CarrierTable.ofNames_error_iff.1 made
    exact absurd (.names rfl again) (faultless _ (mem_values.1 member) _)

theorem Faultless.gauges {value : Text} (faultless : Faultless entries)
    (member : value ∈ values "Gauge" entries) : ∃ gauge, readGauge? value = some gauge := by
  cases read : readGauge? value with
  | some gauge => exact ⟨gauge, rfl⟩
  | none => exact absurd (.gauge rfl read) (faultless _ (mem_values.1 member) _)

theorem Fault.not_missing (fault : Fault entry e) : e ≠ .missingCarriers := by
  cases fault <;> nofun

/-- An entry behind the first one with which something is wrong is on a later line. -/
theorem FirstFault.earliest {place : Nat} {before after : List Entry} {e' : LoweringError}
    (first : FirstFault entries place e) (split : entries = before ++ entry :: after)
    (fault : Fault entry e') : before.length = place ∧ e' = e ∨ place < before.length := by
  obtain ⟨before', entry', after', split', rfl, faultless, fault'⟩ := first
  have here : entries[before.length]? = some entry := by simp [split]
  have there : entries[before'.length]? = some entry' := by simp [split']
  rcases Nat.lt_trichotomy before.length before'.length with earlier | same | later
  · rw [split', List.getElem?_append_left earlier] at here
    exact absurd fault (faultless entry (List.mem_of_getElem? here) e')
  · rw [same, there] at here
    cases here
    exact .inl ⟨same, fault.unique fault'⟩
  · exact .inr later

variable {magic : Text}

theorem firstObjection_badMagic (bad : ∀ version, ¬ MagicSpelled version magic) :
    FirstObjection (magic :: lines) entries ⟨1, .badMagic magic⟩ := by
  refine ⟨.badMagic rfl bad, fun other objection => ?_, nofun⟩
  cases objection with
  | noMagicLine empty => cases empty
  | badMagic first _ =>
    cases first
    exact .inl rfl
  | fault split fault => exact .inr (.inr (Nat.le_add_left 2 _))
  | missingCarriers none => exact .inr (.inl rfl)

theorem firstObjection_fault {place : Nat} (spelled : MagicSpelled version magic)
    (first : FirstFault entries place e) :
    FirstObjection (magic :: lines) entries ⟨place + 2, e⟩ := by
  have first' := first
  obtain ⟨before, entry, after, split, rfl, faultless, fault⟩ := first'
  refine ⟨.fault split fault, fun other objection => ?_,
    fun missing => absurd missing fault.not_missing⟩
  cases objection with
  | noMagicLine empty => cases empty
  | badMagic head bad =>
    cases head
    exact absurd spelled (bad version)
  | fault split' fault' =>
    rcases first.earliest split' fault' with ⟨same, rfl⟩ | later
    · rw [same]
      exact .inl rfl
    · exact .inr (.inr (Nat.add_lt_add_right later 2))
  | missingCarriers none => exact .inr (.inl rfl)

theorem firstObjection_missing (spelled : MagicSpelled version magic)
    (faultless : Faultless entries) (none : values "Carriers" entries = []) :
    FirstObjection (magic :: lines) entries ⟨entries.length + 1, .missingCarriers⟩ := by
  have alone (other : FatalError) (objection : Objection (magic :: lines) entries other) :
      other = ⟨entries.length + 1, .missingCarriers⟩ := by
    cases objection with
    | noMagicLine empty => cases empty
    | badMagic head bad =>
      cases head
      exact absurd spelled (bad version)
    | fault split fault => exact absurd fault (faultless _ (by simp [split]) _)
    | missingCarriers none => rfl
  exact ⟨.missingCarriers none, fun other objection => .inl (alone other objection),
    fun _ => alone⟩

/-- A header is read as its block says, or it is refused for the first objection. -/
theorem ofLines_outcome (block : Block source.tail entries rest) :
    (∃ b, ofLines source = .ok b ∧ Acceptable source entries ∧ Describes source entries rest b) ∨
      ∃ first, ofLines source = .error first ∧ FirstObjection source entries first := by
  cases source with
  | nil =>
    right
    refine ⟨⟨1, .noMagicLine⟩, rfl, .noMagicLine rfl, fun other objection => ?_, nofun⟩
    cases block
    cases objection with
    | noMagicLine empty => exact .inl rfl
    | badMagic first => cases first
    | fault split => simp at split
    | missingCarriers none => exact .inr (.inl rfl)
  | cons magic lines =>
    rw [List.tail_cons] at block
    cases known : readMagic? magic with
    | none =>
      right
      refine ⟨⟨1, .badMagic magic⟩, by simp only [ofLines, scan, known], ?_⟩
      refine firstObjection_badMagic fun version spelled => ?_
      cases known.symm.trans (readMagic?_eq_some_iff.2 spelled)
    | some version =>
      have spelled := readMagic?_eq_some_iff.1 known
      have reading := readBlock_block (Draft.tells_versionDraft version) block
      rw [List.length_nil, Nat.zero_add] at reading
      cases result : readBlock (versionDraft version) 2 lines with
      | mk d outcome =>
        rw [result] at reading
        cases reading with
        | whole faultless carriers gauge warnings =>
          rw [List.nil_append] at result carriers gauge warnings
          cases last : (values "Carriers" entries).getLast? with
          | none =>
            right
            rw [last, Option.map_none] at carriers
            refine ⟨⟨entries.length + 1, .missingCarriers⟩, ?_,
              firstObjection_missing spelled faultless (List.getLast?_eq_none_iff.1 last)⟩
            simp only [ofLines, scan, known, result, carriers, Nat.add_one_sub_one]
          | some value =>
            left
            rw [last, Option.map_some] at carriers
            let b : HeaderBlock :=
              ⟨⟨version, namesIn value, d.gauge⟩, entries.length + 1, d.warnings⟩
            have read : ofLines (magic :: lines) = .ok b := by
              simp only [ofLines, scan, known, result, carriers, Nat.add_one_sub_one, b]
            refine ⟨b, read, ⟨⟨magic, rfl, version, spelled⟩, ?_, fun value => faultless.distinct,
              fun value => faultless.gauges⟩, ?_⟩
            · exact List.ne_nil_of_mem (List.mem_of_getLast? last)
            · exact ⟨⟨magic, rfl, spelled⟩, Nat.add_comm _ _, by rw [last, Option.map_some],
                gauge.symm, warnings⟩
        | @faulty _ place e first =>
          right
          refine ⟨⟨place + 2, e⟩, ?_, firstObjection_fault spelled first⟩
          simp only [ofLines, scan, known, result, List.length_nil, Nat.zero_add]

/-- The header of a file is its block: the longest run of lines behind the first that hold a key and
a value. It can be read exactly if the first line names a version, an entry names carriers, no such
entry names one twice, and every gauge is one. The body then begins behind the block, carriers and
gauge are those of the last entries that give them, the carriers can be numbered, and every oddity
is worth its notices, in the order of the lines. Otherwise the header is refused for the objection
of the earliest line, and for want of carriers only if there is no other. -/
theorem header_is_its_block (source : List Text) : ∃ entries rest,
    (∀ entries' rest', Block source.tail entries' rest' ↔ entries' = entries ∧ rest' = rest) ∧
      ((∃ b, ofLines source = .ok b) ↔ Acceptable source entries) ∧
      (∀ b, ofLines source = .ok b →
        Describes source entries rest b ∧
        (values "Gauge" entries = [] → b.headers.gaugeText = "15".toList) ∧
        ∃ t, CarrierTable.ofNames b.headers.carriers = .ok t) ∧
      ∀ e, ofLines source = .error e ↔ FirstObjection source entries e := by
  obtain ⟨entries, rest, block⟩ := exists_block source.tail
  refine ⟨entries, rest, fun entries' rest' => ⟨block.unique, ?_⟩, ?_⟩
  · rintro ⟨rfl, rfl⟩
    exact block
  · rcases ofLines_outcome block with ⟨b, read, acceptable, describes⟩ | ⟨first, refused, objection⟩
    · refine ⟨⟨fun _ => acceptable, fun _ => ⟨b, read⟩⟩, ?_, fun e => ?_⟩
      · intro b' read'
        cases read.symm.trans read'
        refine ⟨describes, fun ungauged => ?_, named_ofLines read⟩
        have absent : b.headers.gauge = none := by
          rw [← describes.gauge, ungauged]
          rfl
        rw [gaugeText, absent]
      · rw [read]
        exact ⟨nofun, fun objection => absurd objection.applies acceptable.no_objection⟩
    · refine ⟨⟨?_, fun acceptable => absurd objection.applies acceptable.no_objection⟩, ?_,
        fun e => ?_⟩
      · rintro ⟨b, read⟩
        cases refused.symm.trans read
      · intro b read
        cases refused.symm.trans read
      · rw [refused]
        constructor
        · intro same
          cases same
          exact objection
        · intro objection'
          rw [objection.unique objection']

/-- The line that looks like a header ends the block, so the gauge behind it is not read. -/
example : (ofLines [";!knitout-3".toList, ";;Carriers: 1".toList, ";;Carriers: 1 2".toList,
      ";;Colour: blue".toList, ";;not a header".toList, ";;Gauge: 5".toList]).toOption.map
        (fun b => (b.headers.carriers, b.bodyStart, b.warnings.map (·.line))) =
      some (["1".toList, "2".toList], 4, [1, 3, 4, 5]) := by
  decide

end Headers

end Knitout
