import Knitout.Text

/-!
# Whole numbers in decimal

Numbers are read from and written as runs of the ASCII digits. Main statement: what is written is
read back (`natValue_natDigits`).
-/

namespace Knitout

/-- At least one character, and only ASCII digits. -/
def isDigits (text : Text) : Bool :=
  !text.isEmpty && text.all Char.isDigit

/-- Digits without a superfluous leading zero; `0` itself is one. -/
def isCanonical (text : Text) : Bool :=
  isDigits text && (text.length == 1 || text.head? != some '0')

/-- The number that a run of digits stands for. -/
def natValue (digits : Text) : Nat :=
  Nat.ofDigitChars 10 digits 0

/-- The digits of a number, without leading zeros. -/
def natDigits (n : Nat) : Text :=
  Nat.toDigits 10 n

/-- The digits of an integer, with a minus sign in front if it is negative. -/
def intDigits : Int → Text
  | .ofNat n => natDigits n
  | .negSucc n => '-' :: natDigits (n + 1)

/-- An optional minus sign and at least one digit. -/
def intValue? (text : Text) : Option Int :=
  match text with
  | '-' :: digits => if isDigits digits then some (-(natValue digits : Int)) else none
  | digits => if isDigits digits then some (natValue digits) else none

/-- The integers that a signed 64-bit word holds. -/
def isWord (x : Int) : Bool :=
  decide (-9223372036854775808 ≤ x ∧ x ≤ 9223372036854775807)

/-- The largest number in 32 bits. -/
def maxHalfWord : Nat := 4294967295

/-- What is written is read back. -/
theorem natValue_natDigits (n : Nat) : natValue (natDigits n) = n :=
  Nat.ofDigitChars_toDigits (by decide) (by decide)

/-- A written number is a run of digits. -/
theorem isDigits_natDigits (n : Nat) : isDigits (natDigits n) = true := by
  simp only [isDigits, natDigits, Bool.and_eq_true, List.all_eq_true]
  refine ⟨?_, fun c hc => Nat.isDigit_of_mem_toDigits (by decide) (by decide) hc⟩
  have := Nat.length_toDigits_pos (b := 10) (n := n)
  cases h : Nat.toDigits 10 n with
  | nil => simp [h] at this
  | cons => rfl

end Knitout
