import Knitout.Proofs.Images

/-!
What a word is where a source has to name a needle, told from its spelling (`NeedleReading`): a
needle, one out of range, a slider, or nothing of the kind. A word is read as what it is, unless a
signed 64-bit word does not hold its index (`Oversized`); then it is taken for no needle. Main
statement: `needle_words_are_classified`.
-/

namespace Knitout

/-! ## Spelling -/

/-- What a word is where a needle is due. The index may have any number of digits. -/
inductive NeedleReading (token : Text) : Except LoweringError Needle → Prop
  | near {bed : Bed} {digits : Text} {i : Int}
      (form : token = Motion.needleLead bed false ++ digits) (spelled : IndexSpelled i digits)
      (small : i.natAbs ≤ maxNeedleIndex) : NeedleReading token (.ok ⟨bed, i⟩)
  | far {bed : Bed} {digits : Text} {i : Int}
      (form : token = Motion.needleLead bed false ++ digits) (spelled : IndexSpelled i digits)
      (large : maxNeedleIndex < i.natAbs) :
    NeedleReading token (.error (.needleOutOfRange token))
  | slider {bed : Bed} {digits : Text} {i : Int}
      (form : token = Motion.needleLead bed true ++ digits) (spelled : IndexSpelled i digits) :
    NeedleReading token (.error (.slider token))
  | other (strange : ∀ bed slider digits i, IndexSpelled i digits →
      token ≠ Motion.needleLead bed slider ++ digits) :
    NeedleReading token (.error (.badNeedle token))

/-- The word has the form of a needle or of a slider, and its index needs more than 64 bits. -/
def Oversized (token : Text) : Prop :=
  ∃ bed slider digits i, token = Motion.needleLead bed slider ++ digits ∧ IndexSpelled i digits ∧
    isWord i = false

variable {token : Text}

/-- Every word is something. -/
theorem NeedleReading.total (token : Text) : ∃ outcome, NeedleReading token outcome := by
  by_cases formed : ∃ bed slider digits i, IndexSpelled i digits ∧
      token = Motion.needleLead bed slider ++ digits
  · obtain ⟨bed, slider, digits, i, spelled, form⟩ := formed
    cases slider with
    | true => exact ⟨_, .slider form spelled⟩
    | false =>
      rcases Nat.lt_or_ge maxNeedleIndex i.natAbs with large | small
      · exact ⟨_, .far form spelled large⟩
      · exact ⟨_, .near form spelled small⟩
  · exact ⟨_, .other fun bed slider digits i spelled form =>
      formed ⟨bed, slider, digits, i, spelled, form⟩⟩

/-! ## Reading -/

/-- The index is read before anything is made of it. -/
theorem Oversized.read (oversized : Oversized token) :
    readSourceNeedle token = .error (.badNeedle token) := by
  obtain ⟨bed, slider, digits, i, rfl, spelled, wide⟩ := oversized
  rw [readSourceNeedle_lead bed slider spelled, if_pos wide]

/-- A word whose index is not too long is read as what it is. -/
theorem NeedleReading.read {outcome : Except LoweringError Needle}
    (reading : NeedleReading token outcome) (held : ¬ Oversized token) :
    readSourceNeedle token = outcome := by
  have fits {bed : Bed} {slider : Bool} {digits : Text} {i : Int}
      (form : token = Motion.needleLead bed slider ++ digits) (spelled : IndexSpelled i digits) :
      ¬ isWord i = false :=
    fun wide => held ⟨bed, slider, digits, i, form, spelled, wide⟩
  cases reading with
  | @near bed digits i form spelled small =>
    have word := fits form spelled
    subst form
    rw [readSourceNeedle_lead bed false spelled, if_neg word, if_neg Bool.false_ne_true,
      if_neg (Nat.not_lt.2 small)]
  | @far bed digits i form spelled large =>
    have word := fits form spelled
    subst form
    rw [readSourceNeedle_lead bed false spelled, if_neg word, if_neg Bool.false_ne_true,
      if_pos large]
  | @slider bed digits i form spelled =>
    have word := fits form spelled
    subst form
    rw [readSourceNeedle_lead bed true spelled, if_neg word, if_pos rfl]
  | other strange => exact readSourceNeedle_other strange

/-- An index in range is not too long. -/
theorem NeedleReading.read_ok {needle : Needle} (reading : NeedleReading token (.ok needle)) :
    readSourceNeedle token = .ok needle := by
  cases reading with
  | @near bed digits i form spelled small =>
    have word : ¬ isWord i = false := by
      simp only [isWord, decide_eq_false_iff_not, not_not]
      unfold maxNeedleIndex at small
      omega
    subst form
    rw [readSourceNeedle_lead bed false spelled, if_neg word, if_neg Bool.false_ne_true,
      if_neg (Nat.not_lt.2 small)]

/-- Such a word is something else than what it is taken for. -/
theorem Oversized.not_other (oversized : Oversized token) :
    ¬ NeedleReading token (.error (.badNeedle token)) := by
  obtain ⟨bed, slider, digits, i, form, spelled, _⟩ := oversized
  rintro ⟨⟩
  next strange => exact strange bed slider digits i spelled form

/-- Every word is read as what it is, unless its index needs more than 64 bits; then it is taken
for no needle, although it is a needle out of range or a slider. Exactly the needles in range are
read as needles, however long a word may be. -/
theorem needle_words_are_classified (token : Text) :
    (¬ Oversized token → ∀ outcome,
      readSourceNeedle token = outcome ↔ NeedleReading token outcome) ∧
    (∀ needle, readSourceNeedle token = .ok needle ↔ NeedleReading token (.ok needle)) ∧
    (Oversized token → readSourceNeedle token = .error (.badNeedle token) ∧
      ¬ NeedleReading token (.error (.badNeedle token))) := by
  have classified (held : ¬ Oversized token) (outcome : Except LoweringError Needle) :
      readSourceNeedle token = outcome ↔ NeedleReading token outcome := by
    refine ⟨?_, fun reading => reading.read held⟩
    rintro rfl
    obtain ⟨outcome, reading⟩ := NeedleReading.total token
    rwa [reading.read held]
  refine ⟨classified, fun needle => ⟨fun read => ?_, NeedleReading.read_ok⟩,
    fun oversized => ⟨oversized.read, oversized.not_other⟩⟩
  refine (classified (fun oversized => ?_) _).1 read
  rw [oversized.read] at read
  cases read

/-- Leading zeros do not matter, and the digits of a slider do. -/
theorem needle_words_are_classified_digits :
    (¬ Oversized "b-0007".toList ∧ NeedleReading "b-0007".toList (.ok ⟨.back, -7⟩)) ∧
    (¬ Oversized "f1000001".toList ∧
      NeedleReading "f1000001".toList (.error (.needleOutOfRange "f1000001".toList))) ∧
    Oversized "bs-9223372036854775809".toList ∧
      readSourceNeedle "bs-9223372036854775809".toList =
        .error (.badNeedle "bs-9223372036854775809".toList) := by
  have read {token : Text} {outcome : Except LoweringError Needle}
      (read : readSourceNeedle token = outcome) (other : outcome ≠ .error (.badNeedle token)) :
      ¬ Oversized token ∧ NeedleReading token outcome := by
    have held : ¬ Oversized token := fun oversized => other (read.symm.trans oversized.read)
    exact ⟨held, ((needle_words_are_classified token).1 held outcome).1 read⟩
  have long : Oversized "bs-9223372036854775809".toList :=
    ⟨.back, true, "-9223372036854775809".toList, -9223372036854775809, rfl,
      intValue?_eq_some_iff.1 (by decide), by decide⟩
  exact ⟨read (by decide) nofun, read (by decide) (by decide), long,
    ((needle_words_are_classified _).2.2 long).1⟩

/-- Nineteen digits can be too long already, for a needle as well as for a slider. -/
theorem huge_index_is_no_needle :
    (NeedleReading "f9223372036854775808".toList
        (.error (.needleOutOfRange "f9223372036854775808".toList)) ∧
      ¬ NeedleReading "f9223372036854775808".toList
        (readSourceNeedle "f9223372036854775808".toList)) ∧
    NeedleReading "fs9223372036854775808".toList
        (.error (.slider "fs9223372036854775808".toList)) ∧
      ¬ NeedleReading "fs9223372036854775808".toList
        (readSourceNeedle "fs9223372036854775808".toList) := by
  have spelled : IndexSpelled 9223372036854775808 "9223372036854775808".toList :=
    intValue?_eq_some_iff.1 (by decide)
  have refused (slider : Bool) : ¬ NeedleReading
      (Motion.needleLead .front slider ++ "9223372036854775808".toList)
      (readSourceNeedle (Motion.needleLead .front slider ++ "9223372036854775808".toList)) := by
    have oversized : Oversized (Motion.needleLead .front slider ++ "9223372036854775808".toList) :=
      ⟨.front, slider, _, _, rfl, spelled, by decide⟩
    rw [oversized.read]
    exact oversized.not_other
  exact ⟨⟨@NeedleReading.far _ .front _ _ rfl spelled (by decide), refused false⟩,
    @NeedleReading.slider _ .front _ _ rfl spelled, refused true⟩

end Knitout
