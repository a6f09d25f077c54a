import Knitout.Instruction.Parser
import Knitout.Proofs.Words
import Mathlib.Data.List.Basic
import Mathlib.Data.List.Induction
import Mathlib.Tactic.IntervalCases

/-!
How whole numbers and integers are spelled, told without reading them. A text is read as a number
exactly if it spells that number (`canonicalNumeral_iff`, `signed_iff`, `intValue?_eq_some_iff`), and
what is written for a number spells it.
-/

namespace Knitout

/-! ## Digits -/

theorem isDigit_of_mem_natDigits {n : Nat} {c : Char} (member : c ∈ natDigits n) :
    c.isDigit = true :=
  Nat.isDigit_of_mem_toDigits (by decide) (by decide) member

theorem ne_of_isDigit {c other : Char} (digit : c.isDigit = true)
    (strange : other.isDigit = false) : c ≠ other := by
  rintro rfl
  rw [digit] at strange
  cases strange

theorem not_isBlank_of_isDigit {c : Char} (digit : c.isDigit = true) : isBlank c = false := by
  have low : 48 ≤ c.toNat ∧ c.toNat ≤ 57 := by
    simpa [Char.isDigit, UInt32.le_iff_toNat_le] using digit
  simp only [isBlank, Bool.or_eq_false_iff, Bool.and_eq_false_iff, decide_eq_false_iff_not,
    beq_eq_false_iff_ne]
  omega

/-- Only zero is written with a leading zero. -/
theorem isCanonical_natDigits (n : Nat) : isCanonical (natDigits n) = true := by
  have lead : n < 10 ∨ (natDigits n).head? ≠ some '0' := by
    induction n using Nat.strongRecOn with
    | ind n ih =>
      rcases Nat.lt_or_ge n 10 with small | large
      · exact .inl small
      · right
        rw [natDigits, Nat.toDigits_of_base_le (by decide) large,
          List.head?_append_of_ne_nil _ Nat.toDigits_ne_nil]
        rcases ih (n / 10) (by omega) with small | lead
        · rw [Nat.toDigits_of_lt_base small]
          have positive : n / 10 ≠ 0 := by omega
          generalize n / 10 = digit at small positive
          interval_cases digit <;> simp_all [Nat.digitChar]
        · exact lead
  rw [isCanonical, isDigits_natDigits, Bool.true_and, Bool.or_eq_true]
  rcases lead with small | lead
  · left
    simp [natDigits, Nat.toDigits_of_lt_base small]
  · right
    simpa using lead

/-! ## Whole numbers -/

/-- At least one ASCII digit, and nothing else; leading zeros do not matter. -/
def Numeral (n : Nat) (text : Text) : Prop :=
  text ≠ [] ∧ (∀ c ∈ text, c.isDigit = true) ∧ natValue text = n

/-- The one numeral of a number without superfluous leading zeros. -/
def CanonicalNumeral (n : Nat) (text : Text) : Prop :=
  text = natDigits n

theorem isDigits_iff {text : Text} :
    isDigits text = true ↔ text ≠ [] ∧ ∀ c ∈ text, c.isDigit = true := by
  simp [isDigits]

theorem numeral_iff {n : Nat} {text : Text} :
    Numeral n text ↔ isDigits text = true ∧ natValue text = n := by
  rw [isDigits_iff, and_assoc]
  rfl

private theorem eq_digitChar {c : Char} (digit : c.isDigit = true) :
    ∃ n, n < 10 ∧ c = Nat.digitChar n := by
  obtain ⟨low, high⟩ := Char.isDigit_iff_toNat.1 digit
  change 48 ≤ c.toNat at low
  change c.toNat ≤ 57 at high
  have small : c.toNat - 48 < 10 := by omega
  refine ⟨c.toNat - 48, small, Char.toNat_inj.1 ?_⟩
  rw [Nat.toNat_digitChar_of_lt_ten small]
  omega

private theorem natValue_concat (front : Text) {n : Nat} (small : n < 10) :
    natValue (front ++ [n.digitChar]) = 10 * natValue front + n := by
  rw [natValue, Nat.ofDigitChars_append, Nat.ofDigitChars_cons_digitChar_of_lt_ten small]
  rfl

private theorem natDigits_concat {m n : Nat} (positive : 0 < m) (small : n < 10) :
    natDigits (10 * m + n) = natDigits m ++ [n.digitChar] := by
  rw [natDigits, Nat.toDigits_of_base_le (by decide) (by omega)]
  rw [show (10 * m + n) / 10 = m by omega, show (10 * m + n) % 10 = n by omega]
  rfl

/-- Digits that do not start with a zero are those of their value, and this is not zero. -/
private theorem natDigits_natValue_of_head {text : Text} (filled : text ≠ [])
    (digits : ∀ c ∈ text, c.isDigit = true) (lead : text.head? ≠ some '0') :
    natDigits (natValue text) = text ∧ 0 < natValue text := by
  induction text using List.reverseRecOn with
  | nil => exact absurd rfl filled
  | append_singleton front c ih =>
    obtain ⟨n, small, rfl⟩ := eq_digitChar (digits c (by simp))
    rw [natValue_concat front small]
    by_cases first : front = []
    · subst first
      have positive : 0 < n := by
        refine Nat.pos_of_ne_zero ?_
        rintro rfl
        exact lead rfl
      rw [show 10 * natValue [] + n = n from Nat.zero_add n]
      exact ⟨Nat.toDigits_of_lt_base small, positive⟩
    · rw [List.head?_append_of_ne_nil _ first] at lead
      obtain ⟨same, positive⟩ := ih first (fun d member => digits d (by simp [member])) lead
      rw [natDigits_concat positive small, same]
      exact ⟨rfl, by omega⟩

theorem canonicalNumeral_iff {n : Nat} {text : Text} :
    CanonicalNumeral n text ↔ isCanonical text = true ∧ natValue text = n := by
  constructor
  · rintro rfl
    exact ⟨isCanonical_natDigits n, natValue_natDigits n⟩
  · rintro ⟨canonical, rfl⟩
    rw [isCanonical, Bool.and_eq_true, Bool.or_eq_true] at canonical
    obtain ⟨digits, lead⟩ := canonical
    obtain ⟨filled, digits⟩ := isDigits_iff.1 digits
    by_cases zero : text.head? = some '0'
    · -- the one numeral that may start with a zero is that of zero
      have single : text.length = 1 := by simpa [zero] using lead
      obtain ⟨c, rfl⟩ := List.length_eq_one_iff.1 single
      cases zero
      rfl
    · exact (natDigits_natValue_of_head filled digits zero).1.symm

theorem isDigits_of_isCanonical {text : Text} (canonical : isCanonical text = true) :
    isDigits text = true :=
  (Bool.and_eq_true_iff.1 canonical).1

/-! ## Signs -/

/-- A number of one spelling, perhaps with a sign in front. -/
inductive Signed (spelling : Nat → Text → Prop) : Int → Text → Prop
  | plain {n : Nat} {text : Text} (spelled : spelling n text) : Signed spelling n text
  | plus {n : Nat} {text : Text} (spelled : spelling n text) : Signed spelling n ('+' :: text)
  | minus {n : Nat} {text : Text} (spelled : spelling n text) :
    Signed spelling (-n) ('-' :: text)

/-- A text that starts with no sign. -/
def Unsigned (text : Text) : Prop :=
  text.head? ≠ some '-' ∧ text.head? ≠ some '+'

theorem Literal.cutSign_unsigned {text : Text} (bare : Unsigned text) :
    cutSign text = (false, text) := by
  unfold cutSign
  split
  · exact absurd rfl bare.1
  · exact absurd rfl bare.2
  · rfl

theorem unsigned_cons {c : Char} {rest : Text} (first : c.isDigit = true ∨ c = '.') :
    Unsigned (c :: rest) := by
  simp only [Unsigned, List.head?_cons, ne_eq, Option.some.injEq]
  rcases first with digit | rfl
  · exact ⟨ne_of_isDigit digit (by decide), ne_of_isDigit digit (by decide)⟩
  · decide

theorem unsigned_of_isDigits {text : Text} (digits : isDigits text = true) : Unsigned text := by
  obtain ⟨filled, digits⟩ := isDigits_iff.1 digits
  obtain ⟨c, rest, rfl⟩ := List.exists_cons_of_ne_nil filled
  exact unsigned_cons (.inl (digits c (by simp)))

/-- Cutting the sign off reads a signed number, whatever check tells the spelling of its digits. -/
theorem signed_iff {spelling : Nat → Text → Prop} {check : Text → Bool}
    (spells : ∀ n text, spelling n text ↔ check text = true ∧ natValue text = n)
    (digits : ∀ text, check text = true → isDigits text = true) {value : Int} {text : Text} :
    Signed spelling value text ↔ check (Literal.cutSign text).2 = true ∧
      (if (Literal.cutSign text).1 then -(natValue (Literal.cutSign text).2 : Int)
        else natValue (Literal.cutSign text).2) = value := by
  constructor
  · intro signed
    cases signed with
    | plain spelled =>
      obtain ⟨good, rfl⟩ := (spells _ _).1 spelled
      rw [Literal.cutSign_unsigned (unsigned_of_isDigits (digits _ good))]
      exact ⟨good, rfl⟩
    | plus spelled | minus spelled =>
      obtain ⟨good, rfl⟩ := (spells _ _).1 spelled
      exact ⟨good, rfl⟩
  · rintro ⟨good, rfl⟩
    unfold Literal.cutSign at *
    split at good
    · exact .minus ((spells _ _).2 ⟨good, rfl⟩)
    · exact .plus ((spells _ _).2 ⟨good, rfl⟩)
    · exact .plain ((spells _ _).2 ⟨good, rfl⟩)

/-- An integer as the index of a needle is written: digits, perhaps with a minus sign in front. -/
inductive IndexSpelled : Int → Text → Prop
  | plain {n : Nat} {text : Text} (spelled : Numeral n text) : IndexSpelled n text
  | minus {n : Nat} {text : Text} (spelled : Numeral n text) : IndexSpelled (-n) ('-' :: text)

theorem intValue?_eq_some_iff {value : Int} {text : Text} :
    intValue? text = some value ↔ IndexSpelled value text := by
  constructor
  · intro read
    unfold intValue? at read
    split at read
    · split at read
      · next digits =>
        cases read
        exact .minus (numeral_iff.2 ⟨digits, rfl⟩)
      · cases read
    · split at read
      · next digits =>
        cases read
        exact .plain (numeral_iff.2 ⟨digits, rfl⟩)
      · cases read
  · intro spelled
    cases spelled with
    | minus spelled =>
      obtain ⟨digits, rfl⟩ := numeral_iff.1 spelled
      simp [intValue?, digits]
    | plain spelled =>
      obtain ⟨digits, rfl⟩ := numeral_iff.1 spelled
      unfold intValue?
      split
      · exact absurd rfl (unsigned_of_isDigits digits).1
      · rw [if_pos digits]

theorem signed_intDigits (i : Int) : Signed CanonicalNumeral i (intDigits i) := by
  cases i with
  | ofNat n => exact .plain rfl
  | negSucc n => exact .minus (n := n + 1) rfl

theorem indexSpelled_intDigits (i : Int) : IndexSpelled i (intDigits i) := by
  cases i with
  | ofNat n => exact .plain (numeral_iff.2 ⟨isDigits_natDigits n, natValue_natDigits n⟩)
  | negSucc n =>
    exact .minus (n := n + 1) (numeral_iff.2 ⟨isDigits_natDigits _, natValue_natDigits _⟩)

end Knitout
