import Knitout.Proofs.Images
import Knitout.Proofs.Nearest

/-!
Which words are rackings. A word that writes a number is read as the whole number that no binary64
number is nearer than, if there is one and it is not too large. Only a number that is written within
`2 ^ (-40)` of a whole one, and is not that one, is so taken for another (`rackings_are_rounded`);
`1.00000000000000001` is.
-/

namespace Knitout

/-! ## Numbers with a point -/

/-- Digits, or digits, a point and at least one digit: the number that is written so. -/
inductive FractionSpelled : ℚ → Text → Prop
  | whole {digits : Text} (filled : isDigits digits = true) :
    FractionSpelled (natValue digits) digits
  | point {front digits : Text} (whole : ∀ c ∈ front, c.isDigit = true)
      (filled : isDigits digits = true) :
    FractionSpelled (natValue front + natValue digits / 10 ^ digits.length) (front ++ '.' :: digits)

/-- A number as a racking is written: perhaps with a sign in front. -/
inductive RackingSpelled : ℚ → Text → Prop
  | plain {value : ℚ} {text : Text} (spelled : FractionSpelled value text) :
    RackingSpelled value text
  | plus {value : ℚ} {text : Text} (spelled : FractionSpelled value text) :
    RackingSpelled value ('+' :: text)
  | minus {value : ℚ} {text : Text} (spelled : FractionSpelled value text) :
    RackingSpelled (-value) ('-' :: text)

/-- A number with a sign. -/
def withSign (negative : Bool) (x : ℚ) : ℚ :=
  if negative then -x else x

theorem abs_withSign (negative : Bool) (x : ℚ) : |withSign negative x| = |x| := by
  cases negative
  · rfl
  · exact abs_neg x

theorem withSign_sub (negative : Bool) (x y : ℚ) :
    withSign negative x - withSign negative y = withSign negative (x - y) := by
  cases negative
  · rfl
  · exact neg_sub_neg x y ▸ (neg_sub x y).symm

/-- What a length stands for. -/
def Length.value (x : Length) : ℚ :=
  withSign x.negative x.magnitude.value

theorem Magnitude.value_nonneg (m : Magnitude) : 0 ≤ m.value :=
  div_nonneg (Nat.cast_nonneg _) Magnitude.unitsPerOne_pos.le

/-- The decimal that is made of the digits of a racking. -/
def rackingDecimal (unsigned : Text) : Decimal :=
  ⟨natValue ((rackingParts unsigned).1 ++ (rackingParts unsigned).2.1),
    -((rackingParts unsigned).2.2 : Int)⟩

section
variable {value : ℚ} {unsigned token : Text} {size : Nat} {r : Int}

theorem FractionSpelled.digits (spelled : FractionSpelled value unsigned) :
    Motion.RackingDigits unsigned := by
  cases spelled with
  | whole filled => exact .whole filled
  | point whole filled => exact .point whole filled

theorem FractionSpelled.value_eq (spelled : FractionSpelled value unsigned) :
    value = (rackingDecimal unsigned).value := by
  have noPoint {text : Text} (digits : ∀ c ∈ text, c.isDigit = true) : '.' ∉ text :=
    fun member => absurd (digits _ member) (by decide)
  cases spelled with
  | whole filled =>
    have parts : rackingParts unsigned = ([], unsigned, 0) := by
      rw [rackingParts, cutAt?_eq_none (noPoint (isDigits_iff.1 filled).2)]
    simp [rackingDecimal, parts, Decimal.value]
  | @point front digits whole filled =>
    have parts : rackingParts (front ++ '.' :: digits) = (front, digits, digits.length) := by
      rw [rackingParts, cutAt?_append (noPoint whole)]
    simp only [rackingDecimal, parts, Decimal.value, natValue_append, zpow_neg, zpow_natCast]
    push_cast
    field_simp

theorem exists_fractionSpelled (digits : Motion.RackingDigits unsigned) :
    ∃ value, FractionSpelled value unsigned := by
  cases digits with
  | whole filled => exact ⟨_, .whole filled⟩
  | point whole filled => exact ⟨_, .point whole filled⟩

theorem FractionSpelled.nonneg (spelled : FractionSpelled value unsigned) : 0 ≤ value := by
  cases spelled <;> positivity

/-! ## What is read -/

/-- The size of a racking that is rounded so. -/
def roundedSize : Rounded → Except (Text → LoweringError) Nat
  | .overflow => .error fun _ => .fractionalRack
  | .finite m =>
    if m.units % Magnitude.unitsPerOne ≠ 0 then .error fun _ => .fractionalRack
    else if maxRacking * Magnitude.unitsPerOne < m.units then .error .rackOutOfRange
    else .ok (m.units / Magnitude.unitsPerOne)

theorem rackingSize_eq (number : Motion.RackingDigits unsigned) :
    rackingSize unsigned = roundedSize (rackingDecimal unsigned).round := by
  obtain ⟨filled, whole⟩ := rackingDigits_iff.1 number
  exact if_pos (Bool.and_eq_true_iff.2 ⟨filled, List.all_eq_true.2 whole⟩)

theorem roundedSize_eq_ok_iff {rounded : Rounded} : roundedSize rounded = .ok size ↔
    size ≤ maxRacking ∧ ∃ m, rounded = .finite m ∧ m.units = size * Magnitude.unitsPerOne := by
  constructor
  · intro accepted
    unfold roundedSize at accepted
    split at accepted
    · cases accepted
    · next m =>
      split at accepted
      · cases accepted
      · next divides =>
        split at accepted
        · cases accepted
        · next small =>
          cases accepted
          refine ⟨?_, m, rfl, ?_⟩
          · exact Nat.div_le_of_le_mul (Nat.mul_comm _ _ ▸ Nat.le_of_not_lt small)
          · exact (Nat.div_mul_cancel (Nat.dvd_of_mod_eq_zero (not_not.1 divides))).symm
  · rintro ⟨small, m, rfl, units⟩
    have one : 0 < Magnitude.unitsPerOne := by exact_mod_cast Magnitude.unitsPerOne_pos
    have fits : ¬ maxRacking * Magnitude.unitsPerOne < m.units := by
      rw [units, Nat.not_lt]
      exact Nat.mul_le_mul_right _ small
    have whole : ¬ m.units % Magnitude.unitsPerOne ≠ 0 := by
      rw [units, Nat.mul_mod_left]
      exact not_not.2 rfl
    rw [roundedSize, if_neg whole, if_neg fits, units, Nat.mul_div_cancel _ one]

theorem rackingSize_eq_ok_iff : rackingSize unsigned = .ok size ↔
    Motion.RackingDigits unsigned ∧ size ≤ maxRacking ∧
      ∃ m, (rackingDecimal unsigned).round = .finite m ∧
        m.units = size * Magnitude.unitsPerOne := by
  by_cases number : Motion.RackingDigits unsigned
  · rw [rackingSize_eq number, roundedSize_eq_ok_iff, and_iff_right number]
  · rw [rackingSize_other number]
    constructor
    · intro refused
      cases refused
    · rintro ⟨digits, _⟩
      exact absurd digits number

/-- A number is read as the whole number that no magnitude is nearer than. -/
theorem rackingSize_nearest : rackingSize unsigned = .ok size ↔
    ∃ value, FractionSpelled value unsigned ∧ size ≤ maxRacking ∧
      ∀ m : Magnitude, |value - size| ≤ |value - m.value| := by
  rw [rackingSize_eq_ok_iff]
  constructor
  · rintro ⟨digits, small, m, rounds, units⟩
    obtain ⟨value, spelled⟩ := exists_fractionSpelled digits
    refine ⟨value, spelled, small, fun other => ?_⟩
    rw [spelled.value_eq, ← Decimal.value_of_units units]
    exact Decimal.round_nearest rounds other
  · rintro ⟨value, spelled, small, nearest⟩
    rw [spelled.value_eq] at nearest
    have bound : size < 2 ^ 52 := Nat.lt_of_le_of_lt small (by decide)
    exact ⟨spelled.digits, small, Decimal.round_of_nearest bound nearest⟩

/-! ## Signs -/

theorem rackingSpelled_iff : RackingSpelled value token ↔
    ∃ size, FractionSpelled size (Literal.cutSign token).2 ∧
      value = withSign (Literal.cutSign token).1 size := by
  constructor
  · intro spelled
    cases spelled with
    | plain spelled =>
      rw [Literal.cutSign_unsigned spelled.digits.unsigned]
      exact ⟨value, spelled, rfl⟩
    | plus spelled => exact ⟨value, spelled, rfl⟩
    | @minus size _ spelled => exact ⟨size, spelled, rfl⟩
  · rintro ⟨size, spelled, rfl⟩
    unfold Literal.cutSign at *
    split at spelled
    · exact .minus spelled
    · exact .plus spelled
    · exact .plain spelled

/-- What is read is the whole number, of those not too large, that no binary64 number is nearer
than. -/
theorem readRacking_nearest : readRacking token = .ok r ↔
    ∃ value, RackingSpelled value token ∧ r.natAbs ≤ maxRacking ∧
      ∀ x : Length, |value - r| ≤ |value - x.value| := by
  rw [readRacking_eq]
  generalize sign : Literal.cutSign token = cut
  obtain ⟨negative, unsigned⟩ := cut
  constructor
  · intro read
    split at read
    · cases read
    · next size accepted =>
      cases read
      obtain ⟨v, spelled, small, nearest⟩ := rackingSize_nearest.1 accepted
      refine ⟨withSign negative v, rackingSpelled_iff.2 ⟨v, by rwa [sign], by rw [sign]⟩, ?_, ?_⟩
      · cases negative <;> simpa using small
      · intro x
        have result : (((if negative then -(size : Int) else size) : Int) : ℚ) =
            withSign negative size := by
          cases negative <;> simp [withSign]
        rw [result, withSign_sub, abs_withSign]
        calc |v - size| ≤ |v - x.magnitude.value| := nearest x.magnitude
          _ = |(|withSign negative v| - |x.value|)| := by
              rw [abs_withSign, Length.value, abs_withSign, abs_of_nonneg spelled.nonneg,
                abs_of_nonneg x.magnitude.value_nonneg]
          _ ≤ |withSign negative v - x.value| := abs_abs_sub_abs_le _ _
  · rintro ⟨value, written, small, nearest⟩
    obtain ⟨v, spelled, rfl⟩ := rackingSpelled_iff.1 written
    rw [sign] at spelled nearest
    dsimp only at spelled nearest
    have accepted : rackingSize unsigned = .ok r.natAbs := by
      refine rackingSize_nearest.2 ⟨v, spelled, small, fun m => ?_⟩
      calc |v - r.natAbs| = |(|withSign negative v| - |(r : ℚ)|)| := by
            rw [abs_withSign, abs_of_nonneg spelled.nonneg, Nat.cast_natAbs, Int.cast_abs]
        _ ≤ |withSign negative v - r| := abs_abs_sub_abs_le _ _
        _ ≤ |withSign negative v - (⟨negative, m⟩ : Length).value| := nearest ⟨negative, m⟩
        _ = |v - m.value| := by rw [Length.value, withSign_sub, abs_withSign]
    rw [accepted]
    have zero : |withSign negative v - r| ≤ v := by
      have none : Magnitude.zero.units = 0 := rfl
      have origin : (⟨false, .zero⟩ : Length).value = 0 := by
        rw [Length.value, Magnitude.value, none, Nat.cast_zero, zero_div]
        rfl
      have near := nearest ⟨false, .zero⟩
      rwa [origin, sub_zero, abs_withSign, abs_of_nonneg spelled.nonneg] at near
    -- zero would be nearer than a whole number of the other sign
    obtain ⟨low, high⟩ := abs_le.1 zero
    cases negative with
    | false =>
      have sign : (0 : ℚ) ≤ r := by
        simp only [withSign, Bool.false_eq_true, if_false] at high
        linarith
      have sign' : 0 ≤ r := by exact_mod_cast sign
      simp [abs_of_nonneg sign']
    | true =>
      have sign : (r : ℚ) ≤ 0 := by
        simp only [withSign, if_true] at low
        linarith
      have sign' : r ≤ 0 := by exact_mod_cast sign
      simp [abs_of_nonpos sign']

/-! ## Whole numbers -/

/-- A word writes one number at most. -/
theorem RackingSpelled.value_eq (spelled : RackingSpelled value token) :
    value = withSign (Literal.cutSign token).1
      (rackingDecimal (Literal.cutSign token).2).value := by
  obtain ⟨size, digits, rfl⟩ := rackingSpelled_iff.1 spelled
  rw [← digits.value_eq]

/-- A multiple of `2 ^ (-39)` whose factor has at most 53 bits is a binary64 number. -/
theorem exists_length {i : Int} (small : i.natAbs < 2 ^ 53) :
    ∃ x : Length, x.value = i / 2 ^ 39 := by
  obtain ⟨k, scale, units⟩ := Magnitude.exists_scale
  obtain ⟨j, rfl⟩ : ∃ j, k = j + 39 := ⟨k - 39, by omega⟩
  rw [Nat.pow_add] at units
  obtain ⟨m, held⟩ := Rounded.exists_units small (show j ≤ 2044 by omega)
  have size : m.value = |(i : ℚ)| / 2 ^ 39 := by
    rw [Magnitude.value, held, units, ← Int.cast_abs, ← Nat.cast_natAbs]
    rw [Nat.cast_mul, Nat.cast_mul, mul_comm (i.natAbs : ℚ), mul_div_mul_left _ _ (by positivity)]
    norm_num
  refine ⟨⟨decide (i < 0), m⟩, ?_⟩
  rw [Length.value, size]
  rcases lt_or_ge i 0 with negative | positive
  · have negative' : (i : ℚ) ≤ 0 := by exact_mod_cast Int.le_of_lt negative
    simp [withSign, negative, abs_of_nonpos negative', neg_div]
  · have positive' : (0 : ℚ) ≤ i := by exact_mod_cast positive
    simp [withSign, Int.not_lt.2 positive, abs_of_nonneg positive']

/-- What is as near to zero as to a step up and to a step down is within half a step of it. -/
theorem abs_le_half {w step : ℚ} (some : 0 < step) (up : |w| ≤ |w - step|)
    (down : |w| ≤ |w + step|) : |w| ≤ step / 2 := by
  by_contra far
  rw [not_le] at far
  rcases le_total 0 w with positive | negative
  · rw [abs_of_nonneg positive] at far up
    have nearer : |w - step| < w := abs_lt.2 ⟨by linarith, by linarith⟩
    linarith
  · rw [abs_of_nonpos negative] at far down
    have nearer : |w + step| < -w := abs_lt.2 ⟨by linarith, by linarith⟩
    linarith

/-- A whole number that no binary64 number is nearer than is within half the distance of its
neighbours. -/
theorem near_of_nearest (small : r.natAbs ≤ maxRacking)
    (nearest : ∀ x : Length, |value - r| ≤ |value - x.value|) : |value - r| ≤ 1 / 2 ^ 40 := by
  unfold maxRacking at small
  obtain ⟨above, high⟩ := exists_length (i := r * 2 ^ 39 + 1) (by omega)
  obtain ⟨below, low⟩ := exists_length (i := r * 2 ^ 39 - 1) (by omega)
  have up := nearest above
  have down := nearest below
  rw [high] at up
  rw [low] at down
  have right : value - ((r * 2 ^ 39 + 1 : Int) : ℚ) / 2 ^ 39 = value - r - 1 / 2 ^ 39 := by
    push_cast
    ring
  have left : value - ((r * 2 ^ 39 - 1 : Int) : ℚ) / 2 ^ 39 = value - r + 1 / 2 ^ 39 := by
    push_cast
    ring
  rw [right] at up
  rw [left] at down
  have half := abs_le_half (by positivity) up down
  rwa [div_div, ← pow_succ] at half

/-- A word is read as a racking exactly if it writes a number, and what is read is the whole number,
of those not too large, that no binary64 number is nearer than. If the number that a word writes is
a whole one or further than `2 ^ (-40)` from every whole one, the word is read exactly if that
number is whole and not too large, and then it is what is read. -/
theorem rackings_are_rounded (token : Text) :
    (∀ r, readRacking token = .ok r ↔ ∃ value, RackingSpelled value token ∧
      r.natAbs ≤ maxRacking ∧ ∀ x : Length, |value - r| ≤ |value - x.value|) ∧
    ((∀ value, RackingSpelled value token → ∀ n : Int, value = n ∨ 1 / 2 ^ 40 < |value - n|) →
      ∀ r : Int, readRacking token = .ok r ↔
        RackingSpelled r token ∧ r.natAbs ≤ maxRacking) := by
  refine ⟨fun r => readRacking_nearest, fun apart r => readRacking_nearest.trans ?_⟩
  constructor
  · rintro ⟨value, spelled, small, nearest⟩
    rcases apart value spelled r with rfl | far
    · exact ⟨spelled, small⟩
    · exact absurd (near_of_nearest small nearest) (not_le.2 far)
  · rintro ⟨spelled, small⟩
    refine ⟨r, spelled, small, fun x => ?_⟩
    rw [sub_self, abs_zero]
    exact abs_nonneg _

/-- With at most twelve digits behind the point no number is that near to another whole one. -/
theorem apart_of_places (short : (rackingParts (Literal.cutSign token).2).2.2 ≤ 12)
    (spelled : RackingSpelled value token) (n : Int) : value = n ∨ 1 / 2 ^ 40 < |value - n| := by
  obtain ⟨places, bounded, i, scaled⟩ : ∃ places ≤ 12, ∃ i : Int, value = i / 10 ^ places := by
    refine ⟨_, short, ?_⟩
    rw [spelled.value_eq, rackingDecimal, Decimal.value, zpow_neg, zpow_natCast, ← div_eq_mul_inv]
    dsimp only
    generalize natValue ((rackingParts _).1 ++ _) = size
    cases (Literal.cutSign token).1
    · exact ⟨size, rfl⟩
    · refine ⟨-size, ?_⟩
      rw [Int.cast_neg, neg_div]
      rfl
  have power : (0 : ℚ) < 10 ^ places := by positivity
  have distance : value - n = ((i - n * 10 ^ places : Int) : ℚ) / 10 ^ places := by
    rw [scaled]
    push_cast
    field_simp
  by_cases whole : i - n * 10 ^ places = 0
  · left
    rw [whole, Int.cast_zero, zero_div] at distance
    linarith
  · right
    have far : (1 : ℚ) ≤ |((i - n * 10 ^ places : Int) : ℚ)| := by
      exact_mod_cast Int.one_le_abs whole
    have few : (10 : ℚ) ^ places ≤ 10 ^ 12 := pow_le_pow_right₀ (by norm_num) bounded
    rw [distance, abs_div, abs_of_pos power, lt_div_iff₀ power]
    calc 1 / 2 ^ 40 * (10 : ℚ) ^ places ≤ 1 / 2 ^ 40 * 10 ^ 12 :=
          mul_le_mul_of_nonneg_left few (by positivity)
      _ < 1 := by norm_num
      _ ≤ _ := far

/-- Half a needle is no racking, and a whole number is one in every spelling. -/
theorem rackings_are_rounded_halves :
    (∀ r, readRacking "-2.5".toList ≠ .ok r) ∧ readRacking "+7.00".toList = .ok 7 := by
  constructor
  · intro r read
    have read_iff := (rackings_are_rounded "-2.5".toList).2
      (fun value => apart_of_places (by decide)) r
    have written := (read_iff.1 read).1.value_eq
    have decimal : rackingDecimal "2.5".toList = ⟨25, -1⟩ := by decide
    rw [show Literal.cutSign "-2.5".toList = (true, "2.5".toList) by decide, decimal] at written
    have twice : ((2 * r : Int) : ℚ) = ((-5 : Int) : ℚ) := by
      push_cast
      rw [written]
      norm_num [withSign, Decimal.value]
    have whole : 2 * r = -5 := by exact_mod_cast twice
    omega
  · have read_iff := (rackings_are_rounded "+7.00".toList).2
      (fun value => apart_of_places (by decide)) 7
    have spelled : RackingSpelled (natValue "7".toList + natValue "00".toList / 10 ^ 2)
        "+7.00".toList := .plus (.point (isDigits_iff.1 (by decide)).2 (by decide))
    have seven : natValue "7".toList = 7 ∧ natValue "00".toList = 0 := by decide
    rw [seven.1, seven.2] at spelled
    exact read_iff.2 ⟨by simpa using spelled, by decide⟩

/-- One, and a digit that binary64 does not hold. -/
def nearlyOne : Text :=
  "1".toList ++ '.' :: "00000000000000001".toList

/-- A word that writes no whole number is read as one. -/
theorem nearly_one_is_one : readRacking nearlyOne = .ok 1 ∧
    ∃ value, RackingSpelled value nearlyOne ∧ ∀ n : Int, value ≠ n := by
  refine ⟨by set_option maxRecDepth 2000 in decide, _,
    .plain (.point (isDigits_iff.1 (by decide)).2 (by decide)),
    fun n whole => ?_⟩
  have front : natValue "1".toList = 1 := by decide
  have digits : natValue "00000000000000001".toList = 1 := by decide
  have places : ("00000000000000001".toList).length = 17 := by decide
  rw [front, digits, places] at whole
  have scaled : ((10 ^ 17 + 1 : Int) : ℚ) = ((n * 10 ^ 17 : Int) : ℚ) := by
    push_cast
    rw [← whole]
    norm_num
  have whole' : (10 ^ 17 + 1 : Int) = n * 10 ^ 17 := by exact_mod_cast scaled
  omega

end

end Knitout
