import Knitout.Proofs.Carriers
import Knitout.Proofs.Numerals

/-!
How carriers are numbered. The names of a file are numbered exactly if no name stands twice: by the
numbers that they write if these increase from above zero (`OwnNumbers`), else by their places. Main
statement: either way no two carriers share a yarn, and the carriers of an operation have pairwise
distinct yarns in the order of its names (`carriers_are_numbered`).
-/

namespace Knitout

namespace CarrierTable

variable {low : Nat} {names : List Text} {numbers : List Yarn}

/-- The names write these numbers, which fit 32 bits and increase from above zero. Leading zeros do
not matter, so one number may be written in several ways. -/
structure OwnNumbers (names : List Text) (numbers : List Yarn) : Prop where
  spelled : List.Forall₂ Numeral numbers names
  fits : ∀ number ∈ numbers, number ≤ maxHalfWord
  increasing : (0 :: numbers).IsChain (· < ·)

theorem ownNumber?_eq_some_iff {name : Text} {number : Yarn} :
    ownNumber? name = some number ↔ Numeral number name ∧ number ≤ maxHalfWord := by
  unfold ownNumber?
  rw [numeral_iff]
  grind

theorem ownNumbers?_eq_some_iff : ownNumbers? low names = some numbers ↔
    List.Forall₂ Numeral numbers names ∧ (∀ number ∈ numbers, number ≤ maxHalfWord) ∧
      (low :: numbers).IsChain (· < ·) := by
  induction names generalizing low numbers with
  | nil =>
    rw [ownNumbers?, Option.some.injEq, List.forall₂_nil_right_iff]
    constructor
    · rintro rfl
      exact ⟨rfl, by simp, .singleton low⟩
    · rintro ⟨rfl, _⟩
      rfl
  | cons name rest ih =>
    unfold ownNumbers?
    constructor
    · intro read
      split at read
      · cases read
      · next number own =>
        obtain ⟨spelled, fits⟩ := ownNumber?_eq_some_iff.1 own
        split at read
        · next higher =>
          obtain ⟨others, behind, rfl⟩ := Option.map_eq_some_iff.1 read
          obtain ⟨spelled', fits', increasing⟩ := ih.1 behind
          exact ⟨.cons spelled spelled', List.forall_mem_cons.2 ⟨fits, fits'⟩,
            .cons_cons higher increasing⟩
        · cases read
    · rintro ⟨spelled, fits, increasing⟩
      cases spelled with
      | @cons number _ others _ spelled spelled' =>
        obtain ⟨fits, fits'⟩ := List.forall_mem_cons.1 fits
        obtain ⟨higher, increasing⟩ := List.isChain_cons_cons.1 increasing
        rw [ownNumber?_eq_some_iff.2 ⟨spelled, fits⟩]
        dsimp only
        rw [if_pos higher, ih.2 ⟨spelled', fits', increasing⟩]
        rfl

theorem ownNumbers_iff : OwnNumbers names numbers ↔ ownNumbers? 0 names = some numbers := by
  rw [ownNumbers?_eq_some_iff]
  exact ⟨fun own => ⟨own.1, own.2, own.3⟩, fun own => ⟨own.1, own.2.1, own.2.2⟩⟩

/-! ## Repeated names -/

/-- The leftmost name that stands further left already. -/
def FirstRepeat (name : Text) (names : List Text) : Prop :=
  ∃ before after, names = before ++ name :: after ∧ before.Nodup ∧ name ∈ before

private theorem firstRepeat?_eq_some_iff {seen : List Text} {name : Text} :
    firstRepeat? seen names = some name ↔
      ∃ before after, names = before ++ name :: after ∧ before.Nodup ∧
        (∀ other ∈ before, other ∉ seen) ∧ (name ∈ before ∨ name ∈ seen) := by
  induction names generalizing seen with
  | nil => simp [firstRepeat?]
  | cons first rest ih =>
    rw [firstRepeat?]
    by_cases known : first ∈ seen
    · rw [if_pos (by simpa using known), Option.some.injEq]
      constructor
      · rintro rfl
        exact ⟨[], rest, rfl, .nil, by simp, .inr known⟩
      · rintro ⟨before, after, split, _, fresh, _⟩
        cases before with
        | nil => exact List.head_eq_of_cons_eq split
        | cons head more =>
          obtain rfl : first = head := List.head_eq_of_cons_eq split
          exact absurd known (fresh first (by simp))
    · rw [if_neg (by simpa using known), ih]
      constructor
      · rintro ⟨before, after, rfl, distinct, fresh, again⟩
        have new : first ∉ before := fun member => by simpa using fresh first member
        refine ⟨first :: before, after, rfl, .cons new distinct, ?_, by grind⟩
        grind
      · rintro ⟨before, after, split, distinct, fresh, again⟩
        cases before with
        | nil =>
          obtain rfl : first = name := List.head_eq_of_cons_eq split
          simp [known] at again
        | cons head more =>
          cases split
          obtain ⟨new, distinct⟩ := List.nodup_cons.1 distinct
          refine ⟨more, after, rfl, distinct, ?_, by grind⟩
          grind

/-- Names cannot be numbered for the leftmost one that stands further left already. -/
theorem ofNames_error_iff {e : LoweringError} :
    ofNames names = .error e ↔ ∃ name, FirstRepeat name names ∧ e = .duplicateCarrierName name := by
  have repeats (name : Text) :
      firstRepeat? [] names = some name ↔ FirstRepeat name names := by
    simp [firstRepeat?_eq_some_iff, FirstRepeat]
  unfold ofNames
  split
  · next name again =>
    constructor
    · intro refused
      cases refused
      exact ⟨name, (repeats name).1 again, rfl⟩
    · rintro ⟨name', first, rfl⟩
      cases again.symm.trans ((repeats name').2 first)
      rfl
  · next fresh =>
    constructor
    · intro refused
      split at refused <;> cases refused
    · rintro ⟨name, first, _⟩
      cases fresh.symm.trans ((repeats name).2 first)

/-! ## Tables -/

/-- Names with numbers of their own keep them. -/
theorem ofNames_own (distinct : names.Nodup) (own : OwnNumbers names numbers) :
    ofNames names = .ok ⟨List.zipWith Carrier.mk names numbers, false⟩ := by
  have fresh : firstRepeat? [] names = none := firstRepeat?_eq_none_iff.2 ⟨distinct, by simp⟩
  simp only [ofNames, fresh, ownNumbers_iff.1 own]

/-- Other names are numbered by their places. -/
theorem ofNames_places (distinct : names.Nodup) (none : ∀ numbers, ¬ OwnNumbers names numbers) :
    ofNames names = .ok ⟨(names.zipIdx 1).map fun (name, place) => ⟨name, place⟩, true⟩ := by
  have fresh : firstRepeat? [] names = Option.none := firstRepeat?_eq_none_iff.2 ⟨distinct, by simp⟩
  have other : ownNumbers? 0 names = Option.none :=
    Option.eq_none_iff_forall_ne_some.2 fun numbers own => none numbers (ownNumbers_iff.2 own)
  simp only [ofNames, fresh, other]

/-- Names can be numbered exactly if they are pairwise distinct. -/
theorem exists_ofNames_iff : (∃ t, ofNames names = .ok t) ↔ names.Nodup := by
  constructor
  · rintro ⟨t, made⟩
    exact (distinct_ofNames made).2.1
  · intro distinct
    by_cases own : ∃ numbers, OwnNumbers names numbers
    · obtain ⟨numbers, own⟩ := own
      exact ⟨_, ofNames_own distinct own⟩
    · exact ⟨_, ofNames_places distinct (not_exists.1 own)⟩

variable {t : CarrierTable}

private theorem kept_of_own (made : ofNames names = .ok t) (own : OwnNumbers names numbers) :
    t.remapped = false ∧ t.carriers.map (·.yarn) = numbers := by
  rw [ofNames_own (distinct_ofNames made).2.1 own] at made
  cases made
  have length : numbers.length = names.length := own.spelled.length_eq
  refine ⟨rfl, ?_⟩
  rw [← List.map_uncurry_zip_eq_zipWith, List.map_map]
  exact List.map_snd_zip (Nat.le_of_eq length)

/-- Carriers keep the numbers that their names write exactly if these are numbers of their own. -/
theorem own_iff (made : ofNames names = .ok t) :
    OwnNumbers names numbers ↔ t.remapped = false ∧ t.carriers.map (·.yarn) = numbers := by
  refine ⟨kept_of_own made, ?_⟩
  rintro ⟨kept, rfl⟩
  by_cases own : ∃ numbers, OwnNumbers names numbers
  · obtain ⟨numbers, own⟩ := own
    rwa [(kept_of_own made own).2]
  · rw [ofNames_places (distinct_ofNames made).2.1 (not_exists.1 own)] at made
    cases made
    cases kept

/-- All others are numbered by their places, from one. -/
theorem places_iff (made : ofNames names = .ok t) : (∀ numbers, ¬ OwnNumbers names numbers) ↔
    t.remapped = true ∧ t.carriers.map (·.yarn) = List.range' 1 names.length := by
  constructor
  · intro none
    rw [ofNames_places (distinct_ofNames made).2.1 none] at made
    cases made
    refine ⟨rfl, ?_⟩
    rw [List.map_map]
    exact List.zipIdx_map_snd 1 names
  · rintro ⟨remapped, _⟩ numbers own
    rw [(kept_of_own made own).1] at remapped
    cases remapped

/-- No yarn has the number zero. -/
theorem positive_of_ofNames (made : ofNames names = .ok t) :
    ∀ carrier ∈ t.carriers, 0 < carrier.yarn := by
  suffices positive : ∀ yarn ∈ t.carriers.map (·.yarn), 0 < yarn by
    exact fun carrier member => positive _ (List.mem_map_of_mem member)
  by_cases own : ∃ numbers, OwnNumbers names numbers
  · obtain ⟨numbers, own⟩ := own
    rw [(kept_of_own made own).2]
    exact (List.pairwise_cons.1 own.increasing.pairwise).1
  · rw [((places_iff made).1 (not_exists.1 own)).2]
    intro yarn member
    exact (List.mem_range'_1.1 member).1

/-! ## Numbering -/

/-- Names are numbered exactly if no name stands twice. Each carrier then has the number that its
name writes, if all names are digits whose numbers fit 32 bits and increase from above zero, and
otherwise every carrier has the number of its place. Either way no two carriers share a yarn, none
has the number zero, and so the carriers of an operation, which are those that it names, in the
order in which it names them, have pairwise distinct yarns. -/
theorem carriers_are_numbered (few : names.length ≤ maxHalfWord) :
    ((∃ t, ofNames names = .ok t) ↔ names.Nodup) ∧
      ∀ t, ofNames names = .ok t →
        t.carriers.map (·.name) = names ∧
        (t.carriers.map (·.yarn)).Nodup ∧
        (∀ carrier ∈ t.carriers, 0 < carrier.yarn ∧ carrier.yarn ≤ maxHalfWord) ∧
        (∀ numbers, OwnNumbers names numbers ↔
          t.remapped = false ∧ t.carriers.map (·.yarn) = numbers) ∧
        ((∀ numbers, ¬ OwnNumbers names numbers) ↔
          t.remapped = true ∧ t.carriers.map (·.yarn) = List.range' 1 names.length) ∧
        ∀ asked carriers, t.resolve asked = .ok carriers →
          carriers ⊆ t.carriers ∧ carriers.map (·.name) = asked ∧
            (carriers.map (·.yarn)).Nodup := by
  refine ⟨exists_ofNames_iff, fun t made => ?_⟩
  obtain ⟨named, numbered⟩ := numbered_ofNames made few
  refine ⟨named, numbered.yarns, fun carrier member =>
    ⟨positive_of_ofNames made carrier member, numbered.fits carrier member⟩,
    fun numbers => own_iff made, places_iff made, fun asked carriers resolved => ?_⟩
  exact ⟨fun carrier member => (mem_of_resolve resolved member).1, (names_resolve resolved).symm,
    nodup_resolve numbered resolved⟩

/-- Two ways to write one number, and one that is higher. -/
def zeros : List Text := ["7".toList, "007".toList, "8".toList]

/-- The numbers do not increase, so the places count. -/
theorem carriers_are_numbered_zeros :
    zeros.length ≤ maxHalfWord ∧ ∃ t carriers, ofNames zeros = .ok t ∧
      t.resolve ["8".toList, "7".toList] = .ok carriers ∧ (∀ numbers, ¬ OwnNumbers zeros numbers) ∧
      carriers.map (·.yarn) = [3, 1] ∧ (carriers.map (·.yarn)).Nodup := by
  have few : zeros.length ≤ maxHalfWord := by decide
  have made : ofNames zeros =
      .ok ⟨(zeros.zipIdx 1).map fun (name, place) => ⟨name, place⟩, true⟩ := by
    decide
  have resolved : (⟨(zeros.zipIdx 1).map fun (name, place) => ⟨name, place⟩, true⟩ :
      CarrierTable).resolve ["8".toList, "7".toList] = .ok [⟨"8".toList, 3⟩, ⟨"7".toList, 1⟩] := by
    decide
  obtain ⟨_, _, _, _, places, asked⟩ := (carriers_are_numbered few).2 _ made
  exact ⟨few, _, _, made, resolved, places.2 ⟨rfl, rfl⟩, rfl, (asked _ _ resolved).2.2⟩

end CarrierTable

end Knitout
