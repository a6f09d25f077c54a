import Knitout.Length
import Mathlib.Tactic.Ring
import Mathlib.Tactic.Positivity

/-!
Rounding to binary64 depends on the value alone (`Decimal.round_scale`), and a magnitude rounds to
itself (`Rounded.ofQuotient_units`). Hence the decimal that is written for a magnitude rounds back
to it (`Magnitude.round_shortest`), and a whole number below `2 ^ 53` is held exactly
(`Magnitude.units_ofNat`).
-/

namespace Knitout

/-! ## Quotients -/

theorem nearestEven_mul {factor : Nat} (positive : 0 < factor) (numerator denominator : Nat) :
    nearestEven (numerator * factor) (denominator * factor) =
      nearestEven numerator denominator := by
  have below : ∀ a b : Nat, 2 * (a * factor) < b * factor ↔ 2 * a < b := fun a b => by
    rw [← Nat.mul_assoc]; exact Nat.mul_lt_mul_right positive
  have above : ∀ a b : Nat, b * factor < 2 * (a * factor) ↔ b < 2 * a := fun a b => by
    rw [← Nat.mul_assoc]; exact Nat.mul_lt_mul_right positive
  simp only [nearestEven, Nat.mul_div_mul_right _ _ positive, Nat.mul_mod_mul_right, below, above]

/-- A quotient without remainder is nearest to itself. -/
theorem nearestEven_exact {denominator : Nat} (positive : 0 < denominator) (quotient : Nat) :
    nearestEven (quotient * denominator) denominator = quotient := by
  simp [nearestEven, Nat.mul_div_cancel _ positive, positive]

namespace Rounded

theorem ofQuotient_mul {factor : Nat} (positive : 0 < factor) (numerator denominator : Nat) :
    ofQuotient (numerator * factor) (denominator * factor) = ofQuotient numerator denominator := by
  have scaled : ∀ exponent : Nat,
      nearestEven (numerator * factor) (denominator * factor * 2 ^ exponent) =
        nearestEven numerator (denominator * 2 ^ exponent) := fun exponent => by
    rw [Nat.mul_right_comm]; exact nearestEven_mul positive _ _
  simp only [ofQuotient, Nat.pow_eq, Nat.mul_div_mul_right _ _ positive, scaled]

/-- Equal quotients are rounded alike. -/
theorem ofQuotient_congr {a b a' b' : Nat} (hb : 0 < b) (hb' : 0 < b') (same : a * b' = a' * b) :
    ofQuotient a b = ofQuotient a' b' := by
  rw [← ofQuotient_mul hb' a b, same, Nat.mul_comm b b', ofQuotient_mul hb]

/-- A magnitude is nearest to itself. -/
theorem ofQuotient_units (m : Magnitude) : ofQuotient m.units 1 = .finite m := by
  obtain ⟨significand, exponent, canonical⟩ := m
  obtain ⟨small, normal, _⟩ := canonical
  have leading : (significand * 2 ^ exponent / 1).log2 + 1 - 53 = exponent := by
    rw [Nat.div_one]
    rcases normal with rfl | normal
    · rcases Nat.eq_zero_or_pos significand with rfl | positive
      · simp
      · have : significand.log2 < 53 := (Nat.log2_lt (by omega)).2 (by omega)
        rw [Nat.pow_zero, Nat.mul_one]
        omega
    · have bits : (significand * 2 ^ exponent).log2 = 52 + exponent := by
        refine (Nat.log2_eq_iff (by positivity)).2 ⟨?_, ?_⟩
        · rw [Nat.pow_add]
          exact Nat.mul_le_mul_right _ (by omega)
        · rw [show 52 + exponent + 1 = 53 + exponent by omega, Nat.pow_add]
          exact Nat.mul_lt_mul_of_pos_right (by omega) (by positivity)
      omega
  have exact_ : nearestEven (significand * 2 ^ exponent) (1 * 2 ^ exponent) = significand := by
    rw [Nat.one_mul]; exact nearestEven_exact (by positivity) significand
  simp only [ofQuotient, Magnitude.units, Nat.pow_eq, leading, exact_, ofParts]
  rw [if_neg (by omega), dif_pos ⟨small, normal, by assumption⟩]

end Rounded

/-! ## Decimals -/

/-- A number times a power of ten has as many more digits. -/
theorem length_natDigits_mul_pow {n : Nat} (positive : 0 < n) (k : Nat) :
    (natDigits (n * 10 ^ k)).length = (natDigits n).length + k := by
  have fits : ∀ {m j : Nat}, 0 < j → ((natDigits m).length ≤ j ↔ m < 10 ^ j) :=
    Nat.length_toDigits_le_iff (by decide)
  have some_digit : 0 < (natDigits n).length := Nat.length_toDigits_pos
  apply Nat.le_antisymm
  · rw [fits (by omega), Nat.pow_add]
    exact Nat.mul_lt_mul_of_pos_right ((fits some_digit).1 (Nat.le_refl _)) (by positivity)
  · by_contra short
    have short : (natDigits (n * 10 ^ k)).length ≤ (natDigits n).length + k - 1 := by omega
    rcases Nat.eq_zero_or_pos ((natDigits n).length + k - 1) with none | some
    · have : 0 < (natDigits (n * 10 ^ k)).length := Nat.length_toDigits_pos
      omega
    rw [fits some] at short
    rcases Nat.eq_or_lt_of_le (Nat.succ_le_of_lt some_digit) with one | more
    · have : 10 ^ k ≤ n * 10 ^ k := Nat.le_mul_of_pos_left _ positive
      rw [show (natDigits n).length + k - 1 = k by omega] at short
      omega
    · rw [show (natDigits n).length + k - 1 = (natDigits n).length - 1 + k by omega,
        Nat.pow_add] at short
      have less := (fits (by omega)).2 (Nat.lt_of_mul_lt_mul_right short)
      omega

namespace Decimal

/-- The value in units, as a fraction: what stands above the line. -/
def numerator (d : Decimal) : Nat :=
  d.coefficient * 10 ^ d.exponent.toNat * Magnitude.unitsPerOne

/-- The value in units, as a fraction: what stands below the line. -/
def denominator (d : Decimal) : Nat :=
  10 ^ (-d.exponent).toNat

/-- Between the limits past which no power of ten is formed, the exact quotient is rounded. -/
theorem round_eq {d : Decimal} (nonzero : d.coefficient ≠ 0) (high : d.top ≤ 310)
    (low : -330 ≤ d.top) : d.round = .ofQuotient d.numerator d.denominator := by
  obtain ⟨coefficient, exponent⟩ := d
  unfold round
  rw [if_neg nonzero, if_neg (by omega), if_neg (by omega)]
  cases exponent with
  | ofNat e => simp [numerator, denominator]
  | negSucc e =>
    simp only [numerator, denominator, Int.neg_negSucc]
    simp

/-- Zeros behind the coefficient that the exponent takes back do not matter. -/
theorem round_scale (coefficient : Nat) (k : Nat) (exponent : Int) :
    round ⟨coefficient * 10 ^ k, exponent⟩ = round ⟨coefficient, exponent + k⟩ := by
  rcases Nat.eq_zero_or_pos coefficient with rfl | positive
  · simp [round]
  have shifted : (coefficient * 10 ^ k) ≠ 0 := by positivity
  have same_top : top ⟨coefficient * 10 ^ k, exponent⟩ = top ⟨coefficient, exponent + k⟩ := by
    simp only [top, length_natDigits_mul_pow positive]
    omega
  by_cases high : top ⟨coefficient, exponent + k⟩ ≤ 310
  · by_cases low : -330 ≤ top ⟨coefficient, exponent + k⟩
    · rw [round_eq shifted (same_top ▸ high) (same_top ▸ low),
        round_eq (by exact positive.ne') high low]
      apply Rounded.ofQuotient_congr (by unfold denominator; positivity)
        (by unfold denominator; positivity)
      simp only [numerator, denominator]
      have powers : (10 : Nat) ^ k * 10 ^ exponent.toNat * 10 ^ (-(exponent + k)).toNat =
          10 ^ (exponent + k).toNat * 10 ^ (-exponent).toNat := by
        rw [← Nat.pow_add, ← Nat.pow_add, ← Nat.pow_add]
        congr 1
        omega
      calc coefficient * 10 ^ k * 10 ^ exponent.toNat * Magnitude.unitsPerOne *
            10 ^ (-(exponent + k)).toNat
          = coefficient * Magnitude.unitsPerOne *
              (10 ^ k * 10 ^ exponent.toNat * 10 ^ (-(exponent + k)).toNat) := by ring
        _ = coefficient * 10 ^ (exponent + k).toNat * Magnitude.unitsPerOne *
              10 ^ (-exponent).toNat := by rw [powers]; ring
    · unfold round
      simp only [shifted, positive.ne', same_top, if_false]
      rw [if_neg (by omega), if_pos (by omega), if_neg (by omega), if_pos (by omega)]
  · unfold round
    simp only [shifted, positive.ne', same_top, if_false]
    rw [if_pos (by omega), if_pos (by omega)]

end Decimal

/-! ## Magnitudes -/

namespace Magnitude

theorem units_lt (m : Magnitude) {limit : Nat} (bounded : m.exponent ≤ limit) :
    m.units < 2 ^ 53 * 2 ^ limit := by
  have small : m.significand < 2 ^ 53 := m.canonical.1
  calc m.significand * 2 ^ m.exponent
      < 2 ^ 53 * 2 ^ m.exponent := Nat.mul_lt_mul_of_pos_right small (by positivity)
    _ ≤ 2 ^ 53 * 2 ^ limit := Nat.mul_le_mul_left _ (Nat.pow_le_pow_right (by decide) bounded)

/-- Only zero has no units. -/
theorem eq_zero_of_units {m : Magnitude} (none : m.units = 0) : m = .zero := by
  obtain ⟨significand, exponent, canonical⟩ := m
  have nothing : significand = 0 := by
    rcases Nat.mul_eq_zero.1 none with h | h
    · exact h
    · exact absurd h (Nat.ne_of_gt (Nat.pow_pos (by decide)))
  obtain ⟨_, normal, _⟩ := canonical
  have : exponent = 0 := by omega
  subst nothing this
  rfl

theorem unitsPerOne_eq : unitsPerOne = 2 ^ 1074 := by
  rw [unitsPerOne, Nat.pow_eq]

theorem coefficient_exact (m : Magnitude) : m.exact.coefficient = m.units * 5 ^ 1074 := by
  rw [exact, Nat.pow_eq]

/-- The digits of a magnitude in full round back to it. -/
theorem round_exact {m : Magnitude} (some : m.units ≠ 0) : m.exact.round = .finite m := by
  have fits : ∀ {n k : Nat}, 0 < k → ((natDigits n).length ≤ k ↔ n < 10 ^ k) :=
    Nat.length_toDigits_le_iff (by decide)
  have nonzero : m.exact.coefficient ≠ 0 := by
    rw [coefficient_exact]
    exact Nat.mul_ne_zero some fun zero => absurd (Nat.pow_eq_zero.1 zero).1 (by decide)
  have high : (natDigits m.exact.coefficient).length ≤ 1384 := by
    rw [coefficient_exact, fits (by decide)]
    calc m.units * 5 ^ 1074
        < 2 ^ 53 * 2 ^ 2045 * 5 ^ 1074 :=
          Nat.mul_lt_mul_of_pos_right (m.units_lt m.canonical.2.2) (Nat.pow_pos (by decide))
      _ < 10 ^ 1384 := by set_option maxRecDepth 4000 in decide
  have low : ¬ (natDigits m.exact.coefficient).length ≤ 743 := by
    rw [coefficient_exact, fits (by decide), Nat.not_lt]
    calc 10 ^ 743 ≤ 5 ^ 1074 := by set_option maxRecDepth 2000 in decide
      _ ≤ m.units * 5 ^ 1074 := Nat.le_mul_of_pos_left _ (Nat.pos_of_ne_zero some)
  have exponent : m.exact.exponent = -1074 := rfl
  rw [Decimal.round_eq nonzero (by simp only [Decimal.top, exponent]; omega)
    (by simp only [Decimal.top, exponent]; omega), ← Rounded.ofQuotient_units m]
  refine Rounded.ofQuotient_congr (by unfold Decimal.denominator; positivity) (by decide) ?_
  rw [Decimal.numerator, Decimal.denominator, exponent, Int.neg_neg,
    show (-1074 : Int).toNat = 0 from rfl, show (1074 : Int).toNat = 1074 from rfl,
    coefficient_exact, unitsPerOne_eq, Nat.pow_zero, Nat.mul_one, Nat.mul_one, show (10 : Nat) = 5 * 2 from rfl,
    Nat.mul_pow, Nat.mul_assoc]

/-- The decimal that is written for a magnitude rounds back to it. -/
theorem round_shortest (m : Magnitude) : m.shortest.round = .finite m := by
  unfold shortest
  split
  · next none => rw [eq_zero_of_units none]; rfl
  · next some =>
    dsimp only
    cases found : (List.range 17).findSome? fun n =>
        (m.neighbours (n + 1)).find? fun d => d.round = .finite m with
    | none => exact round_exact some
    | some d =>
      obtain ⟨n, _, hit⟩ := List.exists_of_findSome?_eq_some found
      simpa using List.find?_some hit

/-- A whole number of 53 bits is held exactly. -/
theorem units_ofNat {n : Nat} (small : n < 9007199254740992) :
    (ofNat n).units = n * unitsPerOne := by
  suffices held : ∃ m : Magnitude, m.units = n * unitsPerOne by
    obtain ⟨m, same⟩ := held
    have nearest : Rounded.ofQuotient (n * unitsPerOne) 1 = .finite m :=
      (congrArg (Rounded.ofQuotient · 1) same.symm).trans (Rounded.ofQuotient_units m)
    have result : ofNat n = m := congrArg Rounded.clamp nearest
    rw [result, same]
  rcases Nat.eq_zero_or_pos n with rfl | positive
  · exact ⟨.zero, by rw [Nat.zero_mul]; rfl⟩
  have low := Nat.log2_self_le (n := n) (by omega)
  have high := Nat.lt_log2_self (n := n)
  have short : n.log2 < 53 := (Nat.log2_lt (by omega)).2 (by omega)
  have lead : 2 ^ n.log2 * 2 ^ (52 - n.log2) = 4503599627370496 := by
    rw [← Nat.pow_add, show n.log2 + (52 - n.log2) = 52 by omega]
  have total : 52 - n.log2 + (1022 + n.log2) = 1074 := by clear low high lead; omega
  have bounded : 1022 + n.log2 ≤ 2045 := by clear low high lead; omega
  refine ⟨⟨n * 2 ^ (52 - n.log2), 1022 + n.log2, ?_, .inr ?_, bounded⟩, ?_⟩
  · calc n * 2 ^ (52 - n.log2) < 2 ^ (n.log2 + 1) * 2 ^ (52 - n.log2) :=
        Nat.mul_lt_mul_of_pos_right high (by positivity)
      _ = 9007199254740992 := by rw [Nat.pow_succ, Nat.mul_right_comm, lead]
  · rw [← lead]
    exact Nat.mul_le_mul_right _ low
  · rw [units, Nat.pow_eq, Nat.mul_assoc, ← Nat.pow_add, total, unitsPerOne_eq]

end Magnitude

end Knitout
