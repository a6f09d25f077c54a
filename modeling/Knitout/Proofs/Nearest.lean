import Knitout.Proofs.Rounding
import Mathlib.Algebra.Order.Field.Basic
import Mathlib.Algebra.Order.Ring.Rat
import Mathlib.Tactic.FieldSimp
import Mathlib.Tactic.Linarith

/-!
Rounding to binary64 is to nearest. No magnitude is nearer to a quotient than the one that it is
rounded to (`Rounded.ofQuotient_nearest`), and the limits past which no power of ten is formed
change nothing (`Decimal.round_eq_ofQuotient`). Hence a decimal is rounded to a nearest magnitude
(`Decimal.round_nearest`), and to a whole number that no magnitude is nearer than
(`Decimal.round_of_nearest`).
-/

namespace Knitout

/-! ## Whole numbers -/

section
variable {p q k : Nat}

theorem nearestEven_bounds (positive : 0 < q) (p : Nat) :
    2 * p ≤ (2 * nearestEven p q + 1) * q ∧ 2 * nearestEven p q * q ≤ 2 * p + q := by
  have parts := Nat.div_add_mod p q
  have small := Nat.mod_lt p positive
  unfold nearestEven
  dsimp only
  generalize p / q = quotient at parts ⊢
  generalize p % q = remainder at parts small ⊢
  subst parts
  have below : (2 * quotient + 1) * q = 2 * (q * quotient) + q := by ring
  have above : (2 * (quotient + 1) + 1) * q = 2 * (q * quotient) + 3 * q := by ring
  have below' : 2 * quotient * q = 2 * (q * quotient) := by ring
  have above' : 2 * (quotient + 1) * q = 2 * (q * quotient) + 2 * q := by ring
  split
  · omega
  · split
    · omega
    · split <;> omega

theorem nearestEven_le (positive : 0 < q) (high : p ≤ k * q) : nearestEven p q ≤ k := by
  obtain ⟨_, low⟩ := nearestEven_bounds positive p
  have scaled : 2 * nearestEven p q * q < (2 * k + 2) * q := by
    rw [show (2 * k + 2) * q = 2 * (k * q) + 2 * q by ring]
    omega
  have bound := Nat.lt_of_mul_lt_mul_right scaled
  omega

theorem le_nearestEven (positive : 0 < q) (low : k * q ≤ p) : k ≤ nearestEven p q := by
  obtain ⟨high, _⟩ := nearestEven_bounds positive p
  have scaled : 2 * k * q < (2 * nearestEven p q + 2) * q := by
    rw [show (2 * nearestEven p q + 2) * q = (2 * nearestEven p q + 1) * q + q by ring,
      Nat.mul_assoc]
    omega
  have bound := Nat.lt_of_mul_lt_mul_right scaled
  omega

/-- An even number at a distance of a half at most is the one that counts as nearest. -/
theorem nearestEven_of_even (positive : 0 < q) (even : k % 2 = 0) (high : 2 * p ≤ (2 * k + 1) * q)
    (low : 2 * k * q ≤ 2 * p + q) : nearestEven p q = k := by
  have parts := Nat.div_add_mod p q
  have small := Nat.mod_lt p positive
  have scaled : 2 * (p / q) * q < (2 * k + 2) * q := by
    rw [show 2 * (p / q) * q = 2 * (q * (p / q)) by ring,
      show (2 * k + 2) * q = (2 * k + 1) * q + q by ring]
    omega
  have scaled' : 2 * k * q < (2 * (p / q) + 3) * q := by
    rw [show (2 * (p / q) + 3) * q = 2 * (q * (p / q)) + 3 * q by ring]
    omega
  have above := Nat.lt_of_mul_lt_mul_right scaled
  have below := Nat.lt_of_mul_lt_mul_right scaled'
  unfold nearestEven
  dsimp only
  generalize p / q = quotient at *
  generalize p % q = remainder at *
  subst parts
  obtain rfl | rfl : k = quotient ∨ k = quotient + 1 := by omega
  · rw [show (2 * k + 1) * q = 2 * (q * k) + q by ring] at high
    rw [if_pos even]
    split
    · rfl
    · rw [if_neg (by omega)]
  · rw [show 2 * (quotient + 1) * q = 2 * (q * quotient) + 2 * q by ring] at low
    rw [if_neg (by omega)]
    split
    · rfl
    · rw [if_neg (by omega)]

/-- A distance of a half at most, without fractions. -/
theorem near_iff (positive : 0 < q) :
    |(p : ℚ) / q - k| ≤ 1 / 2 ↔ 2 * p ≤ (2 * k + 1) * q ∧ 2 * k * q ≤ 2 * p + q := by
  have unit : (0 : ℚ) < q := by exact_mod_cast positive
  have above : (p : ℚ) / q - k ≤ 1 / 2 ↔ 2 * p ≤ (2 * k + 1) * q := by
    rw [sub_le_iff_le_add, div_le_iff₀ unit, ← Nat.cast_le (α := ℚ)]
    push_cast
    constructor <;> intro <;> linarith
  have below : -(1 / 2) ≤ (p : ℚ) / q - k ↔ 2 * k * q ≤ 2 * p + q := by
    rw [le_sub_iff_add_le, le_div_iff₀ unit, ← Nat.cast_le (α := ℚ)]
    push_cast
    constructor <;> intro <;> linarith
  rw [abs_le, above, below, and_comm]

theorem nearestEven_near (positive : 0 < q) : |(p : ℚ) / q - nearestEven p q| ≤ 1 / 2 :=
  (near_iff positive).2 (nearestEven_bounds positive p)

theorem nearestEven_nearest (positive : 0 < q) (k : Nat) :
    |(p : ℚ) / q - nearestEven p q| ≤ |(p : ℚ) / q - k| := by
  by_cases same : nearestEven p q = k
  · rw [same]
  · have near := nearestEven_near (p := p) positive
    have apart : (1 : ℚ) ≤ |(nearestEven p q : ℚ) - k| := by
      exact_mod_cast Int.one_le_abs (show (nearestEven p q : ℤ) - k ≠ 0 by omega)
    have between := abs_sub_le (nearestEven p q : ℚ) (p / q) k
    rw [abs_sub_comm (nearestEven p q : ℚ) (p / q)] at between
    linarith

end

/-! ## Quotients -/

namespace Rounded

variable {a b : Nat} {m : Magnitude}

/-- The exponent of a quotient: how many of its bits are rounded away. -/
def gridExponent (a b : Nat) : Nat :=
  (a / b).log2 + 1 - 53

/-- The multiple of that power of two which is nearest to a quotient. -/
def gridSteps (a b : Nat) : Nat :=
  nearestEven a (b * 2 ^ gridExponent a b)

theorem ofQuotient_eq (a b : Nat) : ofQuotient a b =
    if gridSteps a b = 2 ^ 53 then ofParts (2 ^ 52) (gridExponent a b + 1)
    else ofParts (gridSteps a b) (gridExponent a b) :=
  rfl

theorem ofParts_eq_finite {significand exponent : Nat}
    (finite : ofParts significand exponent = .finite m) :
    m.significand = significand ∧ m.exponent = exponent := by
  unfold ofParts at finite
  split at finite
  · cases finite
    exact ⟨rfl, rfl⟩
  · cases finite

/-- The carry into a 54th bit changes the parts and not the value. -/
theorem units_of_ofQuotient (rounds : ofQuotient a b = .finite m) :
    m.units = gridSteps a b * 2 ^ gridExponent a b := by
  rw [ofQuotient_eq] at rounds
  split at rounds
  · next carry =>
    obtain ⟨significand, exponent⟩ := ofParts_eq_finite rounds
    rw [Magnitude.units, significand, exponent, carry, Nat.pow_eq]
    ring
  · obtain ⟨significand, exponent⟩ := ofParts_eq_finite rounds
    rw [Magnitude.units, significand, exponent, Nat.pow_eq]

theorem grid_pos (positive : 0 < b) (exponent : Nat) : 0 < b * 2 ^ exponent :=
  Nat.mul_pos positive (Nat.pow_pos (by decide))

theorem gridSteps_le (positive : 0 < b) : gridSteps a b ≤ 2 ^ 53 := by
  refine nearestEven_le (grid_pos positive _) (Nat.le_of_lt ?_)
  have bits : a / b < 2 ^ 53 * 2 ^ gridExponent a b := by
    refine Nat.lt_of_lt_of_le Nat.lt_log2_self ?_
    rw [← Nat.pow_add]
    exact Nat.pow_le_pow_right (by decide) (by unfold gridExponent; omega)
  rw [Nat.mul_left_comm, Nat.mul_comm]
  exact (Nat.div_lt_iff_lt_mul positive).1 bits

/-- Bits are rounded away only if there are more than 53. -/
theorem le_of_gridExponent (positive : 0 < b) (some : gridExponent a b ≠ 0) :
    2 ^ 52 * (b * 2 ^ gridExponent a b) ≤ a := by
  have long : (a / b).log2 = 52 + gridExponent a b := by
    unfold gridExponent at *
    omega
  have nonzero : a / b ≠ 0 := by
    intro none
    rw [none, Nat.log2_zero] at long
    omega
  have bits : 2 ^ 52 * 2 ^ gridExponent a b ≤ a / b := by
    rw [← Nat.pow_add, ← long]
    exact Nat.log2_self_le nonzero
  rw [Nat.mul_left_comm, Nat.mul_comm]
  exact (Nat.le_div_iff_mul_le positive).1 bits

theorem exists_ofQuotient (positive : 0 < b) (small : gridExponent a b ≤ 2044) :
    ∃ m, ofQuotient a b = .finite m := by
  rw [ofQuotient_eq]
  split
  · exact ⟨_, dif_pos ⟨by decide, .inr (by decide), by omega⟩⟩
  · next short =>
    have high := gridSteps_le (a := a) positive
    have low : gridExponent a b = 0 ∨ 2 ^ 52 ≤ gridSteps a b := by
      by_cases none : gridExponent a b = 0
      · exact .inl none
      · exact .inr (le_nearestEven (grid_pos positive _) (le_of_gridExponent positive none))
    exact ⟨_, dif_pos ⟨by omega, low, by omega⟩⟩

/-- The distance to a multiple of a power of two, in steps of that size. -/
theorem abs_sub_steps (a b exponent : Nat) (n : ℚ) : |(a : ℚ) / b - n * 2 ^ exponent| =
    |(a : ℚ) / ((b * 2 ^ exponent : Nat) : ℚ) - n| * 2 ^ exponent := by
  have step : (0 : ℚ) < 2 ^ exponent := by positivity
  rw [← abs_of_pos step, ← abs_mul, abs_of_pos step]
  congr 1
  push_cast
  field_simp

/-- No multiple of the power of two is nearer. -/
theorem gridSteps_nearest (positive : 0 < b) (k : Nat) :
    |(a : ℚ) / b - gridSteps a b * 2 ^ gridExponent a b| ≤
      |(a : ℚ) / b - k * 2 ^ gridExponent a b| := by
  rw [abs_sub_steps, abs_sub_steps]
  exact mul_le_mul_of_nonneg_right (nearestEven_nearest (grid_pos positive _) k) (by positivity)

/-- No magnitude is nearer to a quotient than the one that it is rounded to. -/
theorem ofQuotient_nearest (positive : 0 < b) (rounds : ofQuotient a b = .finite m)
    (other : Magnitude) : |(a : ℚ) / b - m.units| ≤ |(a : ℚ) / b - other.units| := by
  have units : (m.units : ℚ) = gridSteps a b * 2 ^ gridExponent a b := by
    exact_mod_cast units_of_ofQuotient rounds
  rw [units]
  by_cases fine : gridExponent a b ≤ other.exponent
  · have multiple : (other.units : ℚ) =
        ((other.significand * 2 ^ (other.exponent - gridExponent a b) : Nat) : ℚ) *
          2 ^ gridExponent a b := by
      push_cast
      rw [Magnitude.units, Nat.pow_eq, mul_assoc, ← pow_add, Nat.sub_add_cancel fine]
      push_cast
      rfl
    rw [multiple]
    exact gridSteps_nearest positive _
  · -- a magnitude between multiples is below the least 53-bit one, which is nearer
    have low := le_of_gridExponent positive (a := a) (by omega)
    have lead : (2 ^ 52 : ℚ) * 2 ^ gridExponent a b ≤ a / b := by
      rw [le_div_iff₀ (by exact_mod_cast positive), mul_assoc, mul_comm _ (b : ℚ)]
      exact_mod_cast low
    have below : (other.units : ℚ) ≤ 2 ^ 52 * 2 ^ gridExponent a b := by
      have bound : other.units < 2 ^ 53 * 2 ^ (gridExponent a b - 1) :=
        other.units_lt (by omega)
      have twice : (2 : Nat) ^ 53 * 2 ^ (gridExponent a b - 1) = 2 ^ 52 * 2 ^ gridExponent a b := by
        rw [← Nat.pow_add, ← Nat.pow_add]
        congr 1
        omega
      rw [twice] at bound
      exact_mod_cast Nat.le_of_lt bound
    calc |(a : ℚ) / b - gridSteps a b * 2 ^ gridExponent a b|
        ≤ |(a : ℚ) / b - (2 ^ 52 : Nat) * 2 ^ gridExponent a b| := gridSteps_nearest positive _
      _ = a / b - 2 ^ 52 * 2 ^ gridExponent a b := by
          rw [abs_of_nonneg] <;> push_cast
          · rfl
          · linarith
      _ ≤ a / b - other.units := by linarith
      _ ≤ |(a : ℚ) / b - other.units| := le_abs_self _

/-- An even multiple of the power of two that is as near as the nearest magnitude is what a quotient
is rounded to. -/
theorem units_eq_of_nearest {k : Nat} (positive : 0 < b) (rounds : ofQuotient a b = .finite m)
    (even : k % 2 = 0)
    (near : |(a : ℚ) / b - k * 2 ^ gridExponent a b| ≤ |(a : ℚ) / b - m.units|) :
    m.units = k * 2 ^ gridExponent a b := by
  have grid := grid_pos positive (gridExponent a b)
  have units := units_of_ofQuotient rounds
  have units' : (m.units : ℚ) = gridSteps a b * 2 ^ gridExponent a b := by exact_mod_cast units
  rw [units', abs_sub_steps, abs_sub_steps] at near
  have half : |(a : ℚ) / ((b * 2 ^ gridExponent a b : Nat) : ℚ) - k| ≤ 1 / 2 :=
    (le_of_mul_le_mul_right near (by positivity)).trans (nearestEven_near grid)
  obtain ⟨high, low⟩ := (near_iff grid).1 half
  rw [units, gridSteps, nearestEven_of_even grid even high low]

/-- Every number of 53 bits times a power of two in range is a magnitude. -/
theorem exists_units {k j : Nat} (small : k < 2 ^ 53) (bounded : j ≤ 2044) :
    ∃ m : Magnitude, m.units = k * 2 ^ j := by
  have fine : gridExponent (k * 2 ^ j) 1 ≤ j := by
    have bits : k * 2 ^ j < 2 ^ (53 + j) := by
      rw [Nat.pow_add]
      exact Nat.mul_lt_mul_of_pos_right small (Nat.pow_pos (by decide))
    unfold gridExponent
    rw [Nat.div_one]
    rcases Nat.eq_zero_or_pos (k * 2 ^ j) with none | some
    · rw [none, Nat.log2_zero]
      omega
    · have short := (Nat.log2_lt (Nat.ne_of_gt some)).2 bits
      omega
  obtain ⟨m, rounds⟩ := exists_ofQuotient (a := k * 2 ^ j) (b := 1) (by decide) (by omega)
  have multiple : k * 2 ^ j = k * 2 ^ (j - gridExponent (k * 2 ^ j) 1) *
      2 ^ gridExponent (k * 2 ^ j) 1 := by
    rw [Nat.mul_assoc, ← Nat.pow_add, Nat.sub_add_cancel fine]
  have steps : gridSteps (k * 2 ^ j) 1 = k * 2 ^ (j - gridExponent (k * 2 ^ j) 1) := by
    have held := nearestEven_exact (grid_pos (b := 1) (by decide) (gridExponent (k * 2 ^ j) 1))
      (k * 2 ^ (j - gridExponent (k * 2 ^ j) 1))
    rwa [← Nat.mul_assoc, Nat.mul_one, ← multiple] at held
  exact ⟨m, by rw [units_of_ofQuotient rounds, steps, ← multiple]⟩

/-- A quotient of less than a half is nearest to zero. -/
theorem ofQuotient_small (small : 2 * a < b) : ofQuotient a b = .finite .zero := by
  have none : a / b = 0 := Nat.div_eq_of_lt (by omega)
  have exponent : gridExponent a b = 0 := by rw [gridExponent, none, Nat.log2_zero]
  have steps : gridSteps a b = 0 := by
    rw [gridSteps, exponent, Nat.pow_zero, Nat.mul_one]
    exact nearestEven_of_even (by omega) rfl (by omega) (by omega)
  rw [ofQuotient_eq, steps, exponent, if_neg (by decide)]
  rfl

theorem ofQuotient_large {n : Nat} (positive : 0 < b) (past : 2098 ≤ n) (large : 2 ^ n * b ≤ a) :
    ofQuotient a b = .overflow := by
  have bits : 2 ^ n ≤ a / b := (Nat.le_div_iff_mul_le positive).2 large
  have some : a / b ≠ 0 := Nat.ne_of_gt (Nat.lt_of_lt_of_le (Nat.pow_pos (by decide)) bits)
  have long : n ≤ (a / b).log2 := (Nat.le_log2 some).2 bits
  have exponent : 2046 ≤ gridExponent a b := by
    unfold gridExponent
    omega
  rw [ofQuotient_eq]
  split
  · exact dif_neg fun canonical => absurd canonical.2.2 (by omega)
  · exact dif_neg fun canonical => absurd canonical.2.2 (by omega)

end Rounded

/-! ## Decimals -/

/-- The units in one are a power of two, with a variable for its exponent, as the power is too large
to be evaluated. -/
theorem Magnitude.exists_scale : ∃ k, k = 1074 ∧ Magnitude.unitsPerOne = 2 ^ k :=
  ⟨1074, rfl, Magnitude.unitsPerOne_eq⟩

namespace Decimal

variable {d : Decimal} {m : Magnitude}

theorem denominator_pos (d : Decimal) : 0 < d.denominator :=
  Nat.pow_pos (by decide)

theorem lt_pow_length (n : Nat) : n < 10 ^ (natDigits n).length :=
  (Nat.length_toDigits_le_iff (by decide) Nat.length_toDigits_pos).1 (Nat.le_refl _)

theorem pow_length_le {n : Nat} (positive : 0 < n) : 10 ^ ((natDigits n).length - 1) ≤ n := by
  have fits {j : Nat} (some : 0 < j) : (natDigits n).length ≤ j ↔ n < 10 ^ j :=
    Nat.length_toDigits_le_iff (by decide) some
  rcases Nat.eq_zero_or_pos ((natDigits n).length - 1) with single | more
  · rw [single]
    exact positive
  · exact Nat.le_of_not_lt fun short => absurd ((fits more).2 short) (by omega)

/-- A decimal below the limit is less than half of the smallest magnitude. -/
theorem lt_denominator (low : d.top < -330) : 2 * d.numerator < d.denominator := by
  obtain ⟨n, limit, units⟩ : ∃ n, n = 331 ∧ 2 * Magnitude.unitsPerOne ≤ 10 ^ n :=
    ⟨331, rfl, by set_option maxRecDepth 2000 in decide⟩
  have digits := lt_pow_length d.coefficient
  unfold top at low
  have negative : d.exponent.toNat = 0 := by omega
  have deep : (natDigits d.coefficient).length + n ≤ (-d.exponent).toNat := by omega
  rw [numerator, denominator, negative, Nat.pow_zero, Nat.mul_one]
  calc 2 * (d.coefficient * Magnitude.unitsPerOne)
      = d.coefficient * (2 * Magnitude.unitsPerOne) := Nat.mul_left_comm _ _ _
    _ ≤ d.coefficient * 10 ^ n := Nat.mul_le_mul_left _ units
    _ < 10 ^ (natDigits d.coefficient).length * 10 ^ n :=
        Nat.mul_lt_mul_of_pos_right digits (Nat.pow_pos (by decide))
    _ = 10 ^ ((natDigits d.coefficient).length + n) := (Nat.pow_add _ _ _).symm
    _ ≤ 10 ^ (-d.exponent).toNat := Nat.pow_le_pow_right (by decide) deep

/-- A decimal above the limit is past the largest magnitude. -/
theorem le_numerator (some : d.coefficient ≠ 0) (high : 310 < d.top) :
    ∃ n, 2098 ≤ n ∧ 2 ^ n * d.denominator ≤ d.numerator := by
  obtain ⟨k, scale, units⟩ := Magnitude.exists_scale
  obtain ⟨i, j, most, limit, powers⟩ : ∃ i j, i = 1024 ∧ j = 310 ∧ 2 ^ i ≤ 10 ^ j :=
    ⟨1024, 310, rfl, rfl, by set_option maxRecDepth 2000 in decide⟩
  have digits := pow_length_le (Nat.pos_of_ne_zero some)
  have filled : 0 < (natDigits d.coefficient).length := Nat.length_toDigits_pos
  unfold top at high
  have wide : j + (-d.exponent).toNat ≤
      (natDigits d.coefficient).length - 1 + d.exponent.toNat := by omega
  refine ⟨i + k, by omega, ?_⟩
  rw [numerator, denominator, units]
  calc 2 ^ (i + k) * 10 ^ (-d.exponent).toNat
      = 2 ^ i * 10 ^ (-d.exponent).toNat * 2 ^ k := by rw [Nat.pow_add, Nat.mul_right_comm]
    _ ≤ 10 ^ j * 10 ^ (-d.exponent).toNat * 2 ^ k :=
        Nat.mul_le_mul_right _ (Nat.mul_le_mul_right _ powers)
    _ = 10 ^ (j + (-d.exponent).toNat) * 2 ^ k := by rw [Nat.pow_add 10]
    _ ≤ 10 ^ ((natDigits d.coefficient).length - 1 + d.exponent.toNat) * 2 ^ k :=
        Nat.mul_le_mul_right _ (Nat.pow_le_pow_right (by decide) wide)
    _ = 10 ^ ((natDigits d.coefficient).length - 1) * 10 ^ d.exponent.toNat * 2 ^ k := by
        rw [Nat.pow_add 10]
    _ ≤ d.coefficient * 10 ^ d.exponent.toNat * 2 ^ k :=
        Nat.mul_le_mul_right _ (Nat.mul_le_mul_right _ digits)

/-- The limits past which no power of ten is formed do not change what a decimal is rounded to. -/
theorem round_eq_ofQuotient (d : Decimal) : d.round = .ofQuotient d.numerator d.denominator := by
  by_cases zero : d.coefficient = 0
  · have none : d.numerator = 0 := by rw [numerator, zero, Nat.zero_mul, Nat.zero_mul]
    rw [none, Rounded.ofQuotient_small (by simpa using d.denominator_pos), round, if_pos zero]
  · by_cases high : 310 < d.top
    · obtain ⟨n, past, large⟩ := le_numerator zero high
      rw [Rounded.ofQuotient_large d.denominator_pos past large, round, if_neg zero, if_pos high]
    · by_cases low : d.top < -330
      · rw [Rounded.ofQuotient_small (lt_denominator low), round, if_neg zero, if_neg high,
          if_pos low]
      · exact round_eq zero (by omega) (by omega)

/-- What a decimal stands for. -/
def value (d : Decimal) : ℚ :=
  d.coefficient * 10 ^ d.exponent

end Decimal

/-- What a magnitude stands for. -/
def Magnitude.value (m : Magnitude) : ℚ :=
  m.units / (Magnitude.unitsPerOne : ℚ)

theorem Magnitude.unitsPerOne_pos : (0 : ℚ) < Magnitude.unitsPerOne := by
  obtain ⟨k, _, units⟩ := Magnitude.exists_scale
  rw [units]
  positivity

namespace Decimal

variable {d : Decimal} {m : Magnitude} {n : Nat}

theorem quotient_eq (d : Decimal) :
    (d.numerator : ℚ) / d.denominator = d.value * Magnitude.unitsPerOne := by
  have powers : (10 : ℚ) ^ d.exponent.toNat / 10 ^ (-d.exponent).toNat = 10 ^ d.exponent := by
    rw [← zpow_natCast, ← zpow_natCast, ← zpow_sub₀ (by decide)]
    congr 1
    omega
  rw [value, ← powers, numerator, denominator]
  push_cast
  ring

theorem abs_quotient_sub (d : Decimal) (m : Magnitude) :
    |(d.numerator : ℚ) / d.denominator - m.units| =
      |d.value - m.value| * Magnitude.unitsPerOne := by
  have one := Magnitude.unitsPerOne_pos
  rw [quotient_eq, ← abs_of_pos one, ← abs_mul, abs_of_pos one, sub_mul, Magnitude.value,
    div_mul_cancel₀ _ one.ne']

/-- No magnitude is nearer to a decimal than the one that it is rounded to. -/
theorem round_nearest (rounds : d.round = .finite m) (other : Magnitude) :
    |d.value - m.value| ≤ |d.value - other.value| := by
  rw [round_eq_ofQuotient] at rounds
  have near := Rounded.ofQuotient_nearest d.denominator_pos rounds other
  rw [abs_quotient_sub, abs_quotient_sub] at near
  exact le_of_mul_le_mul_right near Magnitude.unitsPerOne_pos

theorem value_of_units (units : m.units = n * Magnitude.unitsPerOne) : m.value = n := by
  rw [Magnitude.value, units]
  push_cast
  exact mul_div_cancel_right₀ _ Magnitude.unitsPerOne_pos.ne'

/-- The next whole number is no nearer. -/
theorem value_le_of_nearest (small : n < 2 ^ 52)
    (nearest : ∀ other : Magnitude, |d.value - n| ≤ |d.value - other.value|) :
    d.value ≤ n + 1 / 2 := by
  have next := nearest (.ofNat (n + 1))
  rw [value_of_units (Magnitude.units_ofNat (n := n + 1) (by omega))] at next
  push_cast at next
  by_contra far
  have apart : |d.value - (n + 1)| < d.value - n := by
    rw [abs_lt]
    constructor <;> linarith
  have here := le_abs_self (d.value - n)
  linarith

theorem numerator_lt (small : n < 2 ^ 52)
    (nearest : ∀ other : Magnitude, |d.value - n| ≤ |d.value - other.value|) :
    d.numerator < 2 ^ 52 * Magnitude.unitsPerOne * d.denominator := by
  have below : d.value < 2 ^ 52 := by
    have whole : (n : ℚ) + 1 ≤ 2 ^ 52 := by exact_mod_cast small
    have high := value_le_of_nearest small nearest
    linarith
  have scaled := mul_lt_mul_of_pos_right below Magnitude.unitsPerOne_pos
  rw [← quotient_eq, div_lt_iff₀ (by exact_mod_cast d.denominator_pos)] at scaled
  exact_mod_cast scaled

/-- A whole number of 52 bits that no magnitude is nearer than is what a decimal is rounded to. -/
theorem round_of_nearest (small : n < 2 ^ 52)
    (nearest : ∀ other : Magnitude, |d.value - n| ≤ |d.value - other.value|) :
    ∃ m, d.round = .finite m ∧ m.units = n * Magnitude.unitsPerOne := by
  obtain ⟨k, scale, units⟩ := Magnitude.exists_scale
  have positive := d.denominator_pos
  have held := Magnitude.units_ofNat (n := n) (by omega)
  have short : Rounded.gridExponent d.numerator d.denominator < k := by
    have bound := numerator_lt small nearest
    rw [units, ← Nat.pow_add] at bound
    have quotient := (Nat.div_lt_iff_lt_mul positive).2 bound
    unfold Rounded.gridExponent
    rcases Nat.eq_zero_or_pos (d.numerator / d.denominator) with none | some
    · rw [none, Nat.log2_zero]
      omega
    · have bits := (Nat.log2_lt (Nat.ne_of_gt some)).2 quotient
      omega
  obtain ⟨m, rounds⟩ := Rounded.exists_ofQuotient positive
    (a := d.numerator) (b := d.denominator) (by omega)
  refine ⟨m, by rw [round_eq_ofQuotient, rounds], ?_⟩
  have whole : n * Magnitude.unitsPerOne =
      n * 2 ^ (k - Rounded.gridExponent d.numerator d.denominator) *
        2 ^ Rounded.gridExponent d.numerator d.denominator := by
    rw [units, Nat.mul_assoc, ← Nat.pow_add, Nat.sub_add_cancel (Nat.le_of_lt short)]
  rw [whole]
  refine Rounded.units_eq_of_nearest positive rounds ?_ ?_
  · obtain ⟨j, gap⟩ := Nat.exists_eq_add_of_lt short
    rw [gap, show Rounded.gridExponent d.numerator d.denominator + j + 1 -
      Rounded.gridExponent d.numerator d.denominator = j + 1 by omega, Nat.pow_succ,
      ← Nat.mul_assoc, Nat.mul_mod_left]
  · have multiple : ((n * 2 ^ (k - Rounded.gridExponent d.numerator d.denominator) : Nat) : ℚ) *
        2 ^ Rounded.gridExponent d.numerator d.denominator = (Magnitude.ofNat n).units := by
      rw [held, whole]
      push_cast
      rfl
    rw [multiple, abs_quotient_sub, abs_quotient_sub, value_of_units held]
    exact mul_le_mul_of_nonneg_right (nearest m) Magnitude.unitsPerOne_pos.le

end Decimal

end Knitout
