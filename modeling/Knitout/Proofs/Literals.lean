import Knitout.Proofs.Numerals
import Knitout.Proofs.Rounding
import Mathlib.Data.List.TakeWhile

/-!
How decimal literals and lengths are spelled. A text is read as a literal exactly if it is spelled
like one (`Literal.ofText?_eq_some_iff`), and what is written for a length spells a decimal that
rounds to it (`Length.spelled_render`).
-/

namespace Knitout

/-! ## Decimal literals -/

namespace Literal

/-- Digits with at most one point among them; the digits in front of it and behind it. -/
inductive Mantissa : Text → Text → Text → Prop
  | whole (whole : Text) : Mantissa whole [] whole
  | point (whole fraction : Text) : Mantissa whole fraction (whole ++ '.' :: fraction)

/-- Nothing, or an `e` of either case and a signed integer. -/
inductive ExponentSpelled : Int → Text → Prop
  | none : ExponentSpelled 0 []
  | some {c : Char} {value : Int} {text : Text} (letter : c = 'e' ∨ c = 'E')
      (signed : Signed Numeral value text) : ExponentSpelled value (c :: text)

/-- Digits with at most one point, at least one digit, perhaps an exponent. -/
inductive MagnitudeSpelled : Decimal → Text → Prop
  | mk {whole fraction mantissa tail : Text} {exponent : Int}
      (parts : Mantissa whole fraction mantissa) (filled : whole ++ fraction ≠ [])
      (digits : ∀ c ∈ whole ++ fraction, c.isDigit = true)
      (behind : ExponentSpelled exponent tail) :
    MagnitudeSpelled ⟨natValue (whole ++ fraction), exponent - fraction.length⟩ (mantissa ++ tail)

/-- A magnitude, perhaps with a sign in front. -/
inductive Spelled : Literal → Text → Prop
  | plain {d : Decimal} {text : Text} (spelled : MagnitudeSpelled d text) : Spelled ⟨false, d⟩ text
  | plus {d : Decimal} {text : Text} (spelled : MagnitudeSpelled d text) :
    Spelled ⟨false, d⟩ ('+' :: text)
  | minus {d : Decimal} {text : Text} (spelled : MagnitudeSpelled d text) :
    Spelled ⟨true, d⟩ ('-' :: text)

theorem exponent?_eq_some_iff {value : Int} {text : Text} :
    exponent? text = some value ↔ ExponentSpelled value text := by
  have signed {value : Int} {text : Text} : Signed Numeral value text ↔ _ :=
    signed_iff (fun _ _ => numeral_iff) fun _ digits => digits
  cases text with
  | nil =>
    constructor
    · rintro ⟨⟩
      exact .none
    · intro spelled
      cases spelled
      rfl
  | cons c rest =>
    simp only [exponent?]
    constructor
    · intro read
      split at read
      · next letter =>
        split at read
        · next digits =>
          exact .some letter (signed.2 ⟨digits, Option.some.inj read⟩)
        · cases read
      · cases read
    · intro spelled
      cases spelled with
      | some letter spelled =>
        obtain ⟨digits, value⟩ := signed.1 spelled
        rw [if_pos letter, if_pos digits, value]

/-- Reads a literal behind its sign. -/
def readMagnitude? (text : Text) : Option Decimal :=
  let whole := text.takeWhile Char.isDigit
  let behind := cutFraction (text.dropWhile Char.isDigit)
  if (whole ++ behind.1).isEmpty then none
  else (exponent? behind.2).map fun exponent =>
    ⟨natValue (whole ++ behind.1), exponent - behind.1.length⟩

theorem ofText?_eq (text : Text) : ofText? text =
    (readMagnitude? (cutSign text).2).map fun d => ⟨(cutSign text).1, d⟩ := by
  simp only [ofText?, readMagnitude?]
  split
  · rfl
  · rw [Option.map_map]
    rfl

private theorem span_digits {front rest : Text} (digits : ∀ c ∈ front, c.isDigit = true)
    (stop : ∀ c ∈ rest.head?, c.isDigit = false) :
    (front ++ rest).takeWhile Char.isDigit = front ∧
      (front ++ rest).dropWhile Char.isDigit = rest := by
  rw [List.takeWhile_append_of_pos digits, List.dropWhile_append_of_pos digits]
  cases rest with
  | nil => simp
  | cons c rest => simp [stop c rfl]

/-- No digit and no point starts an exponent. -/
private theorem ExponentSpelled.head {value : Int} {text : Text}
    (spelled : ExponentSpelled value text) : ∀ c ∈ text.head?, c.isDigit = false ∧ c ≠ '.' := by
  intro c first
  cases spelled with
  | none => cases first
  | some letter =>
    cases first
    rcases letter with rfl | rfl <;> decide

private theorem mantissa_cutFraction (whole rest : Text) :
    ∃ mantissa, Mantissa whole (cutFraction rest).1 mantissa ∧
      whole ++ rest = mantissa ++ (cutFraction rest).2 ∧
      ∀ c ∈ (cutFraction rest).1, c.isDigit = true := by
  unfold cutFraction
  split
  · next rest =>
    refine ⟨_, .point whole _, ?_, fun c => List.mem_takeWhile_imp⟩
    rw [List.append_assoc, List.cons_append, List.takeWhile_append_dropWhile]
  · exact ⟨whole, .whole whole, rfl, by simp⟩

private theorem cutFraction_mantissa {whole fraction mantissa tail : Text}
    (parts : Mantissa whole fraction mantissa)
    (digits : ∀ c ∈ whole ++ fraction, c.isDigit = true)
    (stop : ∀ c ∈ tail.head?, c.isDigit = false ∧ c ≠ '.') :
    (mantissa ++ tail).takeWhile Char.isDigit = whole ∧
      cutFraction ((mantissa ++ tail).dropWhile Char.isDigit) = (fraction, tail) := by
  have stop' : ∀ c ∈ tail.head?, c.isDigit = false := fun c first => (stop c first).1
  cases parts with
  | whole =>
    obtain ⟨taken, dropped⟩ := span_digits (by simpa using digits) stop'
    refine ⟨taken, ?_⟩
    rw [dropped]
    unfold cutFraction
    split
    · exact absurd rfl (stop '.' rfl).2
    · rfl
  | point =>
    have point : ∀ c ∈ ('.' :: fraction ++ tail).head?, c.isDigit = false := by simp
    obtain ⟨taken, dropped⟩ := span_digits
      (fun c member => digits c (List.mem_append_left _ member)) point
    obtain ⟨taken', dropped'⟩ := span_digits
      (fun c member => digits c (List.mem_append_right _ member)) stop'
    rw [List.append_assoc]
    refine ⟨taken, ?_⟩
    rw [dropped]
    simp only [List.cons_append, cutFraction, taken', dropped']

theorem readMagnitude?_eq_some_iff {d : Decimal} {text : Text} :
    readMagnitude? text = some d ↔ MagnitudeSpelled d text := by
  constructor
  · intro read
    simp only [readMagnitude?] at read
    split at read
    · cases read
    · next filled =>
      obtain ⟨exponent, behind, rfl⟩ := Option.map_eq_some_iff.1 read
      obtain ⟨mantissa, parts, whole, digits⟩ := mantissa_cutFraction
        (text.takeWhile Char.isDigit) (text.dropWhile Char.isDigit)
      have spelled := MagnitudeSpelled.mk parts (by simpa using filled)
        (fun c member => (List.mem_append.1 member).elim List.mem_takeWhile_imp (digits c))
        (exponent?_eq_some_iff.1 behind)
      rwa [← whole, List.takeWhile_append_dropWhile] at spelled
  · rintro ⟨parts, filled, digits, behind⟩
    obtain ⟨taken, cut⟩ := cutFraction_mantissa parts digits behind.head
    simp only [readMagnitude?, taken, cut, exponent?_eq_some_iff.2 behind]
    rw [if_neg (by simpa using filled)]
    rfl

private theorem MagnitudeSpelled.unsigned {d : Decimal} {text : Text}
    (spelled : MagnitudeSpelled d text) : Unsigned text := by
  cases spelled with
  | @mk whole fraction _ _ _ parts filled digits _ =>
    cases whole with
    | cons c rest =>
      cases parts <;> exact unsigned_cons (.inl (digits c (by simp)))
    | nil =>
      cases parts with
      | whole => exact absurd rfl filled
      | point => exact unsigned_cons (.inr rfl)

/-- A word is a literal exactly if it is spelled like one. -/
theorem ofText?_eq_some_iff {l : Literal} {text : Text} :
    ofText? text = some l ↔ l.Spelled text := by
  rw [ofText?_eq, Option.map_eq_some_iff]
  constructor
  · rintro ⟨d, read, rfl⟩
    have spelled := readMagnitude?_eq_some_iff.1 read
    unfold cutSign at *
    split at spelled
    · exact .minus spelled
    · exact .plus spelled
    · exact .plain spelled
  · intro spelled
    cases spelled with
    | plain spelled =>
      rw [cutSign_unsigned spelled.unsigned]
      exact ⟨_, readMagnitude?_eq_some_iff.2 spelled, rfl⟩
    | plus spelled | minus spelled => exact ⟨_, readMagnitude?_eq_some_iff.2 spelled, rfl⟩

end Literal

/-! ## Values of runs of digits -/

theorem natValue_append (left right : Text) :
    natValue (left ++ right) = 10 ^ right.length * natValue left + natValue right := by
  rw [natValue, Nat.ofDigitChars_append, Nat.ofDigitChars_eq_ofDigitChars_zero]
  rfl

theorem natValue_replicate_zero (n : Nat) : natValue (List.replicate n '0') = 0 := by
  simp [natValue]

/-- Whatever zeros stand at the end of a text, they are all that cutting them off takes away. -/
theorem append_trailing_zeros (text : Text) :
    ∃ n, text = (text.reverse.dropWhile (· == '0')).reverse ++ List.replicate n '0' := by
  refine ⟨(text.reverse.takeWhile (· == '0')).length, ?_⟩
  have zeros : text.reverse.takeWhile (· == '0') =
      List.replicate (text.reverse.takeWhile (· == '0')).length '0' :=
    List.eq_replicate_iff.2 ⟨rfl, fun c hc => by simpa using List.mem_takeWhile_imp hc⟩
  have parts := congrArg List.reverse
    (List.takeWhile_append_dropWhile (p := (· == '0')) (l := text.reverse))
  rw [List.reverse_append, List.reverse_reverse, zeros, List.reverse_replicate] at parts
  exact parts.symm

/-! ## Decimals -/

namespace Decimal

/-- The digits behind the point, with the zeros in front that make them as many as the exponent
says. -/
def fraction (coefficient e : Nat) : Text :=
  let digits := natDigits (coefficient % 10 ^ (e + 1))
  List.replicate (e + 1 - digits.length) '0' ++ digits

private theorem fraction_digits (coefficient e : Nat) :
    (fraction coefficient e).length = e + 1 ∧
      natValue (fraction coefficient e) = coefficient % 10 ^ (e + 1) ∧
      ∀ c ∈ fraction coefficient e, c.isDigit = true := by
  have short : (natDigits (coefficient % 10 ^ (e + 1))).length ≤ e + 1 :=
    (Nat.length_toDigits_le_iff (by decide) (by omega)).2 (Nat.mod_lt _ (by positivity))
  refine ⟨?_, ?_, ?_⟩
  · rw [fraction, List.length_append, List.length_replicate]
    omega
  · rw [fraction, natValue_append, natValue_replicate_zero, natValue_natDigits]
    simp
  · intro c member
    rcases List.mem_append.1 member with zero | digit
    · rw [List.eq_of_mem_replicate zero]
      decide
    · exact isDigit_of_mem_natDigits digit

/-- A decimal is written as digits alone, or as digits with a point between them; read as a literal
it has the value that it had. -/
theorem render_cases (d : Decimal) :
    (∃ whole, d.render = whole ∧ whole ≠ [] ∧ (∀ c ∈ whole, c.isDigit = true) ∧
      round ⟨natValue whole, 0⟩ = d.round) ∨
    (∃ whole fraction, d.render = whole ++ '.' :: fraction ∧ whole ≠ [] ∧
      (∀ c ∈ whole, c.isDigit = true) ∧ (∀ c ∈ fraction, c.isDigit = true) ∧
      round ⟨natValue (whole ++ fraction), -(fraction.length : Int)⟩ = d.round) := by
  obtain ⟨coefficient, exponent⟩ := d
  cases exponent with
  | ofNat e =>
    left
    refine ⟨natDigits (coefficient * 10 ^ e), rfl, Nat.toDigits_ne_nil,
      fun c => isDigit_of_mem_natDigits, ?_⟩
    rw [natValue_natDigits, round_scale]
    simp
  | negSucc e =>
    obtain ⟨size, value, digits⟩ := fraction_digits coefficient e
    have written : render ⟨coefficient, .negSucc e⟩ =
        let whole := natDigits (coefficient / 10 ^ (e + 1))
        let kept := ((fraction coefficient e).reverse.dropWhile (· == '0')).reverse
        if kept.isEmpty then whole else whole ++ '.' :: kept := rfl
    rw [written]
    obtain ⟨zeros, cut⟩ := append_trailing_zeros (fraction coefficient e)
    -- from here on only the zeros that are cut off and the digits that are kept matter
    generalize fraction coefficient e = fraction at size value digits cut ⊢
    generalize (fraction.reverse.dropWhile (· == '0')).reverse = kept at cut ⊢
    have whole_digits := fun c => isDigit_of_mem_natDigits (n := coefficient / 10 ^ (e + 1)) (c := c)
    cases kept with
    | nil =>
      left
      refine ⟨natDigits (coefficient / 10 ^ (e + 1)), by simp, Nat.toDigits_ne_nil,
        whole_digits, ?_⟩
      have nothing : coefficient % 10 ^ (e + 1) = 0 := by
        rw [← value, cut, List.nil_append, natValue_replicate_zero]
      have exact_ : coefficient = coefficient / 10 ^ (e + 1) * 10 ^ (e + 1) := by
        have := Nat.div_add_mod' coefficient (10 ^ (e + 1))
        omega
      rw [natValue_natDigits]
      conv_rhs => rw [exact_, round_scale]
      congr 2
      omega
    | cons c rest =>
      right
      refine ⟨natDigits (coefficient / 10 ^ (e + 1)), c :: rest, by simp, Nat.toDigits_ne_nil,
        whole_digits, fun c member => digits c (cut ▸ List.mem_append_left _ member), ?_⟩
      have shifted : coefficient =
          natValue (natDigits (coefficient / 10 ^ (e + 1)) ++ c :: rest) * 10 ^ zeros := by
        have all := natValue_append
          (natDigits (coefficient / 10 ^ (e + 1)) ++ c :: rest) (List.replicate zeros '0')
        rw [List.append_assoc, ← cut, natValue_append, size, value, natValue_natDigits,
          natValue_replicate_zero, List.length_replicate] at all
        have := Nat.div_add_mod coefficient (10 ^ (e + 1))
        rw [Nat.mul_comm _ (10 ^ zeros)]
        omega
      have length : (c :: rest).length + zeros = e + 1 := by
        rw [← size, cut, List.length_append, List.length_replicate]
      conv_rhs => rw [shifted, round_scale]
      congr 2
      omega

theorem spelled_render (d : Decimal) :
    ∃ read, Literal.MagnitudeSpelled read d.render ∧ read.round = d.round := by
  rcases d.render_cases with ⟨whole, same, filled, digits, value⟩ |
    ⟨whole, fraction, same, filled, digits, more, value⟩
  · have spelled := Literal.MagnitudeSpelled.mk (.whole whole) (by simpa using filled)
      (by simpa using digits) .none
    rw [List.append_nil] at spelled
    exact ⟨_, same ▸ spelled, value⟩
  · have spelled := Literal.MagnitudeSpelled.mk (.point whole fraction) (by simp [filled])
      (fun c member => (List.mem_append.1 member).elim (digits c) (more c)) .none
    rw [List.append_nil, Int.zero_sub] at spelled
    exact ⟨_, same ▸ spelled, value⟩

theorem render_chars (d : Decimal) :
    (∃ c rest, d.render = c :: rest ∧ c.isDigit = true) ∧
      ∀ c ∈ d.render, c.isDigit = true ∨ c = '.' := by
  rcases d.render_cases with ⟨whole, same, filled, digits, _⟩ |
    ⟨whole, fraction, same, filled, digits, more, _⟩
  · rw [same]
    obtain ⟨c, rest, rfl⟩ := List.exists_cons_of_ne_nil filled
    exact ⟨⟨c, rest, rfl, digits c (by simp)⟩, fun d member => .inl (digits d member)⟩
  · rw [same]
    obtain ⟨c, rest, rfl⟩ := List.exists_cons_of_ne_nil filled
    refine ⟨⟨c, rest ++ '.' :: fraction, rfl, digits c (by simp)⟩, ?_⟩
    intro d member
    rcases List.mem_append.1 member with member | member
    · exact .inl (digits d member)
    · rcases List.mem_cons.1 member with point | member
      · exact .inr point
      · exact .inl (more d member)

end Decimal

/-! ## Lengths -/

namespace Length

/-- A length is a decimal literal that rounds to it. -/
def Spelled (length : Length) (token : Text) : Prop :=
  ∃ decimal, decimal.round = .finite length.magnitude ∧
    Literal.Spelled ⟨length.negative, decimal⟩ token

theorem ofText?_eq_some_iff {length : Length} {token : Text} :
    ofText? token = some length ↔ length.Spelled token := by
  unfold ofText? Spelled
  constructor
  · intro read
    obtain ⟨literal, spelled, rounds⟩ := Option.bind_eq_some_iff.1 read
    split at rounds
    · next m finite =>
      cases rounds
      exact ⟨literal.decimal, finite, Literal.ofText?_eq_some_iff.1 spelled⟩
    · cases rounds
  · rintro ⟨decimal, finite, spelled⟩
    simp [Literal.ofText?_eq_some_iff.2 spelled, finite]

theorem spelled_render (l : Length) : l.Spelled l.render := by
  obtain ⟨negative, m⟩ := l
  obtain ⟨read, spelled, value⟩ := m.shortest.spelled_render
  refine ⟨read, by rw [value, m.round_shortest], ?_⟩
  cases negative with
  | true => exact .minus spelled
  | false => exact .plain spelled

theorem render_chars (l : Length) :
    l.render ≠ [] ∧ ∀ c ∈ l.render, c.isDigit = true ∨ c = '.' ∨ c = '-' := by
  obtain ⟨negative, m⟩ := l
  obtain ⟨⟨first, rest, split, _⟩, chars⟩ := m.shortest.render_chars
  have filled : m.shortest.render ≠ [] := by simp [split]
  cases negative with
  | true =>
    refine ⟨List.cons_ne_nil _ _, ?_⟩
    intro c member
    rcases List.mem_cons.1 member with minus | member
    · exact .inr (.inr minus)
    · exact (chars c member).imp_right .inl
  | false => exact ⟨filled, fun c member => (chars c member).imp_right .inl⟩

/-- The length is exactly this whole number. -/
def IsNat (l : Length) (n : Nat) : Prop :=
  l.negative = false ∧ l.magnitude.units = n * Magnitude.unitsPerOne

theorem isNat_ofNat {n : Nat} (small : n < 9007199254740992) : (ofNat n).IsNat n :=
  ⟨rfl, Magnitude.units_ofNat small⟩

end Length

end Knitout
