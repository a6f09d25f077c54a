import Knitout.Lowering.Basic
import Knitout.Proofs.Carriers

/-!
How much of a document the reading of its header looks at: the lines of the header and the one
behind them (`Headers.ofLines_ok`). Whatever else follows, the header is the same.
-/

namespace Knitout

namespace Headers

/-! ## The block -/

variable {d d' : Draft} {number last : Nat} {source rest : List Text} {block : HeaderBlock}

/-- The block is read from its own lines and the one behind it. Without that one only a warning can
be missing. -/
theorem readBlock_ok (read : readBlock d number rest = (d', .ok last)) :
    ∃ entries others, rest = entries ++ others ∧ last = number + entries.length ∧
      (∀ tail, tail.head? = others.head? → readBlock d number (entries ++ tail) = (d', .ok last)) ∧
      ∃ warnings, readBlock d number entries = ({ d' with warnings }, .ok last) := by
  induction rest generalizing d number with
  | nil =>
    cases read
    refine ⟨[], [], rfl, rfl, fun tail none => ?_, d'.warnings, rfl⟩
    rw [List.head?_eq_none_iff.1 none]
    rfl
  | cons line rest ih =>
    unfold readBlock at read
    split at read
    · next other =>
      cases read
      refine ⟨[], line :: rest, rfl, rfl, fun tail same => ?_, d'.warnings, rfl⟩
      obtain ⟨rest', rfl⟩ := List.head?_eq_some_iff.1 same
      rw [List.nil_append, readBlock, other]
    · next odd =>
      cases read
      refine ⟨[], line :: rest, rfl, rfl, fun tail same => ?_, d.warnings, rfl⟩
      obtain ⟨rest', rfl⟩ := List.head?_eq_some_iff.1 same
      rw [List.nil_append, readBlock, odd]
    · next key value entry =>
      simp only at read
      split at read
      · cases read
      · next next set =>
        obtain ⟨entries, others, rfl, rfl, same, warnings, short⟩ := ih read
        refine ⟨line :: entries, others, rfl, ?_, fun tail head => ?_, warnings, ?_⟩
        · rw [List.length_cons]
          omega
        · rw [List.cons_append, readBlock, entry]
          simp only [set]
          exact same tail head
        · rw [readBlock, entry]
          simp only [set]
          exact short

/-- What it takes to read a header. -/
theorem ofLines_iff : ofLines source = .ok block ↔
    ∃ magic rest d, source = magic :: rest ∧ readMagic? magic = some block.headers.version ∧
      readBlock (versionDraft block.headers.version) 2 rest = (d, .ok (block.bodyStart + 1)) ∧
      d.carriers = some block.headers.carriers ∧ d.gauge = block.headers.gauge ∧
      d.warnings = block.warnings := by
  constructor
  · intro read
    unfold ofLines scan at read
    split at read
    · cases read
    · next magic rest =>
      split at read
      · cases read
      · next version known =>
        cases block' : readBlock (versionDraft version) 2 rest with
        | mk d result =>
          simp only [block'] at read
          split at read
          · cases read
          · next last =>
            split at read
            · cases read
            · next carriers named =>
              cases read
              obtain ⟨entries, _, _, rfl, _⟩ := readBlock_ok block'
              exact ⟨magic, rest, d, rfl, known, by rw [block']; grind, named, rfl, rfl⟩
  · rintro ⟨magic, rest, d, rfl, known, block', named, gauge, warnings⟩
    unfold ofLines scan
    simp only [known, block', named, gauge, warnings]
    rfl

/-- A header is read from its own lines and the one behind it. -/
theorem ofLines_ok (read : ofLines source = .ok block) :
    ∃ head body, source = head ++ body ∧ head.length = block.bodyStart ∧
      (∀ tail, tail.head? = body.head? → ofLines (head ++ tail) = .ok block) ∧
      ∃ warnings, ofLines head = .ok { block with warnings } := by
  obtain ⟨magic, rest, d, rfl, known, block', named, gauge, warnings⟩ := ofLines_iff.1 read
  obtain ⟨entries, others, rfl, last, same, warnings', short⟩ := readBlock_ok block'
  refine ⟨magic :: entries, others, rfl, ?_, fun tail head => ?_, warnings', ?_⟩
  · rw [List.length_cons]
    omega
  · exact ofLines_iff.2
      ⟨magic, entries ++ tail, d, rfl, known, same tail head, named, gauge, warnings⟩
  · exact ofLines_iff.2
      ⟨magic, entries, _, rfl, known, short, named, gauge, rfl⟩

/-! ## The carriers -/

/-- The names of a draft can be numbered. -/
def Draft.Named (d : Draft) : Prop :=
  ∀ names, d.carriers = some names → ∃ t, CarrierTable.ofNames names = .ok t

private theorem Draft.named_setValue {key value : Text} (set : d.setValue number key value = .ok d')
    (named : d.Named) : d'.Named := by
  unfold setValue at set
  split at set
  · obtain ⟨t, made, rfl⟩ := Except.map_ok set
    intro names same
    cases same
    exact ⟨t, made⟩
  · split at set
    · split at set
      · cases set
        exact named
      · cases set
    · split at set <;> (cases set; exact named)

/-- The carriers of a header that could be read can be numbered. -/
theorem named_ofLines (read : ofLines source = .ok block) :
    ∃ t, CarrierTable.ofNames block.headers.carriers = .ok t := by
  obtain ⟨magic, rest, d, rfl, _, block', named, _⟩ := ofLines_iff.1 read
  have start : (versionDraft block.headers.version).Named := by
    intro names none
    unfold versionDraft at none
    split at none <;> cases none
  refine readBlock_keeps block' start (fun _ _ _ before => before) ?_ ?_ _ named
  · intro d number key before
    rwa [Draft.Named, d.carriers_addKey]
  · intro d next number line key value _ _ set before
    exact Draft.named_setValue set before

end Headers

end Knitout
