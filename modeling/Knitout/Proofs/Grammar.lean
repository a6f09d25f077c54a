import Knitout.Proofs.Literals
import Mathlib.Data.List.Forall2

/-!
The grammar of formal knitout, told by its productions (`Operation.Spelled`), and that a line is read
as an instruction exactly if its words are one of them (`Instruction.ofLine?_grammar`).
-/

namespace Knitout

/-! ## Fields -/

/-- A direction is its sign. -/
def Direction.Spelled (direction : Direction) (token : Text) : Prop :=
  token = [direction.sign]

/-- A needle is a bed letter, a point, and an index that fits a signed 64-bit word. -/
def Needle.Spelled (needle : Needle) (token : Text) : Prop :=
  isWord needle.index = true ∧
    ∃ index, IndexSpelled needle.index index ∧ token = needle.bed.letter :: '.' :: index

/-- A yarn is its number, which fits 32 bits. -/
def YarnSpelled (yarn : Yarn) (token : Text) : Prop :=
  yarn ≤ maxHalfWord ∧ CanonicalNumeral yarn token

/-- A racking is a number, perhaps with a sign, that fits a signed 64-bit word. -/
def RackSpelled (racking : Int) (token : Text) : Prop :=
  isWord racking = true ∧ Signed CanonicalNumeral racking token

/-- A strand is a yarn and a length in parentheses. Its length holds none of the letters but those of
an exponent. -/
def Strand.Spelled (strand : Strand) (token : Text) : Prop :=
  ∃ yarn length, YarnSpelled strand.yarn yarn ∧ strand.length.Spelled length ∧ length ≠ [] ∧
    (∀ c ∈ length, c.isDigit = true ∨ c ∈ ['-', '+', '.', 'e', 'E']) ∧
    token = '(' :: yarn ++ ',' :: length ++ [')']

/-- The words behind the first one of an operation. -/
inductive Operation.FieldsSpelled : Operation → List Text → Prop
  | knit {direction : Direction} {needle : Needle} {length : Length} {strands : List Strand}
      {d n l : Text} {tuples : List Text} (hd : direction.Spelled d) (hn : needle.Spelled n)
      (hl : length.Spelled l) (hs : List.Forall₂ Strand.Spelled strands tuples)
      (filled : strands ≠ []) (distinct : (strands.map (·.yarn)).Nodup) :
    FieldsSpelled (.knit direction needle length strands) (d :: n :: l :: tuples)
  | tuck {direction : Direction} {needle : Needle} {length : Length} {strand : Strand}
      {d n l tuple : Text} (hd : direction.Spelled d) (hn : needle.Spelled n)
      (hl : length.Spelled l) (hs : strand.Spelled tuple) :
    FieldsSpelled (.tuck direction needle length [strand]) [d, n, l, tuple]
  | split {direction : Direction} {needle target : Needle} {length : Length}
      {strands : List Strand} {d n t l : Text} {tuples : List Text} (hd : direction.Spelled d)
      (hn : needle.Spelled n) (ht : target.Spelled t) (hl : length.Spelled l)
      (hs : List.Forall₂ Strand.Spelled strands tuples)
      (filled : strands ≠ []) (distinct : (strands.map (·.yarn)).Nodup) :
    FieldsSpelled (.split direction needle target length strands) (d :: n :: t :: l :: tuples)
  | miss {direction : Direction} {needle : Needle} {yarn : Yarn} {d n y : Text}
      (hd : direction.Spelled d) (hn : needle.Spelled n) (hy : YarnSpelled yarn y) :
    FieldsSpelled (.miss direction needle yarn) [d, n, y]
  | bringIn {direction : Direction} {needle : Needle} {yarn : Yarn} {d n y : Text}
      (hd : direction.Spelled d) (hn : needle.Spelled n) (hy : YarnSpelled yarn y) :
    FieldsSpelled (.bringIn direction needle yarn) [d, n, y]
  | bringOut {direction : Direction} {needle : Needle} {yarn : Yarn} {d n y : Text}
      (hd : direction.Spelled d) (hn : needle.Spelled n) (hy : YarnSpelled yarn y) :
    FieldsSpelled (.bringOut direction needle yarn) [d, n, y]
  | drop {needle : Needle} {n : Text} (hn : needle.Spelled n) :
    FieldsSpelled (.drop needle) [n]
  | transfer {needle target : Needle} {n t : Text} (hn : needle.Spelled n)
      (ht : target.Spelled t) : FieldsSpelled (.transfer needle target) [n, t]
  | rack {racking : Int} {r : Text} (hr : RackSpelled racking r) :
    FieldsSpelled (.rack racking) [r]

/-- An operation is its mnemonic and its fields. -/
def Operation.Spelled (op : Operation) (words : List Text) : Prop :=
  ∃ fields, op.FieldsSpelled fields ∧ words = op.mnemonic.word :: fields

/-! ## Words as values -/

theorem Direction.ofText?_eq_some_iff {direction : Direction} {token : Text} :
    ofText? token = some direction ↔ direction.Spelled token := by
  unfold ofText? Spelled
  split <;> cases direction <;> simp_all [Direction.sign]

theorem Bed.ofLetter?_eq_some_iff {letter : Char} {bed : Bed} :
    ofLetter? letter = some bed ↔ letter = bed.letter := by
  unfold ofLetter?
  split <;> cases bed <;> simp_all [Bed.letter]

theorem Needle.ofText?_eq_some_iff {needle : Needle} {token : Text} :
    ofText? token = some needle ↔ needle.Spelled token := by
  unfold ofText? Spelled
  constructor
  · intro read
    split at read
    · next letter index cut =>
      obtain ⟨_, rfl⟩ := cutAt?_eq_some_iff.1 cut
      obtain ⟨bed, known, read⟩ := Option.bind_eq_some_iff.1 read
      obtain ⟨value, digits, read⟩ := Option.bind_eq_some_iff.1 read
      split at read
      · next fits =>
        cases read
        rw [Bed.ofLetter?_eq_some_iff.1 known]
        exact ⟨fits, index, intValue?_eq_some_iff.1 digits, rfl⟩
      · cases read
    · cases read
  · rintro ⟨fits, index, spelled, rfl⟩
    have noPoint : '.' ∉ [needle.bed.letter] := by cases needle.bed <;> decide
    have cut := cutAt?_append noPoint index
    rw [List.singleton_append] at cut
    have bed : Bed.ofLetter? needle.bed.letter = some needle.bed := Bed.ofLetter?_eq_some_iff.2 rfl
    simp [cut, bed, intValue?_eq_some_iff.2 spelled, fits]

theorem readYarn?_eq_some_iff {yarn : Yarn} {token : Text} :
    readYarn? token = some yarn ↔ YarnSpelled yarn token := by
  rw [YarnSpelled, canonicalNumeral_iff, readYarn?]
  constructor
  · intro read
    split at read
    · next canonical =>
      simp only at read
      split at read
      · next fits =>
        cases read
        exact ⟨fits, canonical, rfl⟩
      · cases read
    · cases read
  · rintro ⟨fits, canonical, rfl⟩
    simp [canonical, fits]

theorem readRack?_eq_some_iff {racking : Int} {token : Text} :
    readRack? token = some racking ↔ RackSpelled racking token := by
  rw [RackSpelled, signed_iff (fun _ _ => canonicalNumeral_iff) fun _ => isDigits_of_isCanonical,
    show readRack? token = (
      let value : Int := if (Literal.cutSign token).1 then -(natValue (Literal.cutSign token).2 : Int)
        else natValue (Literal.cutSign token).2
      if isCanonical (Literal.cutSign token).2 then if isWord value then some value else none
      else none) from rfl]
  generalize (if (Literal.cutSign token).1 = true then -(natValue (Literal.cutSign token).2 : Int)
    else natValue (Literal.cutSign token).2) = value
  constructor
  · intro read
    simp only at read
    split at read
    · next canonical =>
      split at read
      · next fits =>
        cases read
        exact ⟨fits, canonical, rfl⟩
      · cases read
    · cases read
  · rintro ⟨fits, canonical, rfl⟩
    simp only [canonical, fits, if_true]

private theorem isLengthChar_iff {c : Char} :
    isLengthChar c = true ↔ c.isDigit = true ∨ c ∈ ['-', '+', '.', 'e', 'E'] := by
  simp [isLengthChar, or_assoc]

theorem cutStrand?_eq_some_iff {yarn : Yarn} {token length : Text} :
    cutStrand? token = some (yarn, length) ↔ ∃ digits, YarnSpelled yarn digits ∧ length ≠ [] ∧
      (∀ c ∈ length, c.isDigit = true ∨ c ∈ ['-', '+', '.', 'e', 'E']) ∧
      token = '(' :: digits ++ ',' :: length ++ [')'] := by
  simp only [← isLengthChar_iff]
  constructor
  · intro cut
    unfold cutStrand? at cut
    split at cut
    · next inner =>
      split at cut
      · next last =>
        split at cut
        · next digits text comma =>
          split at cut
          · next good =>
            obtain ⟨yarn', read, same⟩ := Option.map_eq_some_iff.1 cut
            cases same
            obtain ⟨_, inside⟩ := cutAt?_eq_some_iff.1 comma
            obtain ⟨front, rfl⟩ := List.getLast?_eq_some_iff.1 last
            rw [List.dropLast_concat] at inside
            subst inside
            simp only [Bool.and_eq_true, Bool.not_eq_true', List.isEmpty_eq_false_iff,
              List.all_eq_true] at good
            exact ⟨digits, readYarn?_eq_some_iff.1 read, good.1, good.2, rfl⟩
          · cases cut
        · cases cut
      · cases cut
    · cases cut
  · rintro ⟨digits, spelled, filled, chars, rfl⟩
    have noComma : ',' ∉ digits := by
      rw [spelled.2]
      exact fun member => ne_of_isDigit (isDigit_of_mem_natDigits member) (by decide) rfl
    have last : (digits ++ ',' :: length ++ [')']).getLast? = some ')' := List.getLast?_concat
    have inner : (digits ++ ',' :: length ++ [')']).dropLast = digits ++ ',' :: length :=
      List.dropLast_concat
    simp only [List.cons_append, cutStrand?]
    rw [if_pos last, inner, cutAt?_append noComma]
    simp [filled, List.all_eq_true.2 chars, readYarn?_eq_some_iff.2 spelled]

/-! ## Fields from left to right -/

section
variable {α β : Type} {tokens : List Text} {result : β}

/-- Reading goes on behind a field if the first word spells it. -/
private theorem readField_bind {field : Field} {read? : Text → Option α}
    {bad : Text → SyntaxError} {spelled : α → Text → Prop}
    (reads : ∀ {value token}, read? token = some value ↔ spelled value token)
    {next : α × List Text → Except SyntaxError β} :
    (readField field read? bad tokens >>= next) = .ok result ↔
      ∃ value token rest, spelled value token ∧ tokens = token :: rest ∧
        next (value, rest) = .ok result := by
  cases tokens with
  | nil => simp [readField, bind, Except.bind]
  | cons token rest =>
    cases read : read? token with
    | none =>
      have unspelled (value : α) : ¬ spelled value token := by
        rw [← reads, read]
        simp
      simp [readField, read, bind, Except.bind, unspelled]
    | some value =>
      have only (other : α) : spelled other token ↔ other = value := by
        rw [← reads, read, Option.some.injEq, eq_comm]
      simp [readField, read, bind, Except.bind, only]

/-- Strands are read exactly if each word spells one and no yarn comes twice. -/
theorem readStrands_eq_ok_iff {used : List Yarn} {strands : List Strand} :
    readStrands used tokens = .ok strands ↔ List.Forall₂ Strand.Spelled strands tokens ∧
      (strands.map (·.yarn)).Nodup ∧ ∀ yarn ∈ strands.map (·.yarn), yarn ∉ used := by
  induction tokens generalizing used strands with
  | nil =>
    constructor
    · rintro ⟨⟩
      exact ⟨.nil, .nil, by simp⟩
    · rintro ⟨spelled, _⟩
      cases spelled
      rfl
  | cons token rest ih =>
    constructor
    · intro read
      unfold readStrands at read
      split at read
      · cases read
      · next yarn text cut =>
        split at read
        · cases read
        · next fresh =>
          split at read
          · cases read
          · next length value =>
            split at read
            · cases read
            · next others tail =>
              cases read
              obtain ⟨spelled, distinct, unused⟩ := ih.1 tail
              obtain ⟨digits, yarn', filled, chars, whole⟩ := cutStrand?_eq_some_iff.1 cut
              refine ⟨.cons ⟨digits, text, yarn', Length.ofText?_eq_some_iff.1 value, filled, chars,
                whole⟩ spelled, ?_, ?_⟩
              · refine List.nodup_cons.2 ⟨fun member => ?_, distinct⟩
                exact unused yarn member (List.mem_cons_self)
              · intro other member
                rcases List.mem_cons.1 member with rfl | member
                · simpa using fresh
                · exact fun there => unused other member (List.mem_cons_of_mem yarn there)
    · rintro ⟨spelled, distinct, unused⟩
      cases spelled with
      | @cons strand _ others _ first spelled =>
        obtain ⟨digits, text, yarn, length, filled, chars, whole⟩ := first
        have cut := cutStrand?_eq_some_iff.2 ⟨digits, yarn, filled, chars, whole⟩
        rw [List.map_cons, List.nodup_cons] at distinct
        have fresh : strand.yarn ∉ used := unused _ (by simp)
        have tail : readStrands (strand.yarn :: used) rest = .ok others := by
          refine ih.2 ⟨spelled, distinct.2, ?_⟩
          intro other member there
          rcases List.mem_cons.1 there with rfl | there
          · exact distinct.1 member
          · exact unused other (by simp [member]) there
        simp [readStrands, cut, fresh, Length.ofText?_eq_some_iff.2 length, tail]

private theorem readStrands_bind {next : List Strand → Except SyntaxError β} :
    (readStrands [] tokens >>= next) = .ok result ↔ ∃ strands,
      List.Forall₂ Strand.Spelled strands tokens ∧ (strands.map (·.yarn)).Nodup ∧
        next strands = .ok result := by
  have spelled (strands : List Strand) : readStrands [] tokens = .ok strands ↔
      List.Forall₂ Strand.Spelled strands tokens ∧ (strands.map (·.yarn)).Nodup := by
    simp [readStrands_eq_ok_iff]
  simp only [← and_assoc, ← spelled]
  cases readStrands [] tokens <;> simp [bind, Except.bind]

private theorem readDirection_bind {next : Direction × List Text → Except SyntaxError β} :
    (readDirection tokens >>= next) = .ok result ↔ ∃ direction token rest,
      direction.Spelled token ∧ tokens = token :: rest ∧ next (direction, rest) = .ok result :=
  readField_bind Direction.ofText?_eq_some_iff

private theorem readNeedle_bind {next : Needle × List Text → Except SyntaxError β} :
    (readNeedle tokens >>= next) = .ok result ↔ ∃ needle token rest,
      needle.Spelled token ∧ tokens = token :: rest ∧ next (needle, rest) = .ok result :=
  readField_bind Needle.ofText?_eq_some_iff

private theorem readLength_bind {next : Length × List Text → Except SyntaxError β} :
    (readLength tokens >>= next) = .ok result ↔ ∃ length token rest,
      length.Spelled token ∧ tokens = token :: rest ∧ next (length, rest) = .ok result :=
  readField_bind Length.ofText?_eq_some_iff

private theorem readYarn_bind {next : Yarn × List Text → Except SyntaxError β} :
    (readYarn tokens >>= next) = .ok result ↔ ∃ yarn token rest,
      YarnSpelled yarn token ∧ tokens = token :: rest ∧ next (yarn, rest) = .ok result :=
  readField_bind readYarn?_eq_some_iff

private theorem readRack_bind {next : Int × List Text → Except SyntaxError β} :
    (readRack tokens >>= next) = .ok result ↔ ∃ racking token rest,
      RackSpelled racking token ∧ tokens = token :: rest ∧ next (racking, rest) = .ok result :=
  readField_bind readRack?_eq_some_iff

end

/-! ## Operations -/

theorem Mnemonic.ofText?_eq_some_iff {word : Text} {mnemonic : Mnemonic} :
    ofText? word = some mnemonic ↔ word = mnemonic.word := by
  constructor
  · intro found
    have same : mnemonic.word = word := by simpa using List.find?_some found
    exact same.symm
  · rintro rfl
    exact ofText?_word mnemonic

/-- The fields of an operation are read, and nothing is left over, exactly if they are spelled like
those of an operation with this mnemonic. -/
theorem readOperation_eq_ok_iff {mnemonic : Mnemonic} {tokens : List Text} {op : Operation} :
    readOperation mnemonic tokens = .ok (op, []) ↔
      op.mnemonic = mnemonic ∧ op.FieldsSpelled tokens := by
  -- the readers become the fields that they read, one token each; strands take all that is left
  cases mnemonic with
  | knit =>
    simp only [readOperation, readDirection_bind, readNeedle_bind, readLength_bind,
      readStrands_bind]
    constructor
    · rintro ⟨d, _, _, hd, rfl, n, _, _, hn, rfl, l, _, _, hl, rfl, strands, hs, distinct, done⟩
      split at done
      · cases done
      · next filled =>
        cases done
        exact ⟨rfl, .knit hd hn hl hs (by simpa using filled) distinct⟩
    · rintro ⟨same, spelled⟩
      cases spelled with
      | knit hd hn hl hs filled distinct =>
        refine ⟨_, _, _, hd, rfl, _, _, _, hn, rfl, _, _, _, hl, rfl, _, hs, distinct, ?_⟩
        rw [if_neg (by simpa using filled)]
      | _ => cases same
  | tuck =>
    simp only [readOperation, readDirection_bind, readNeedle_bind, readLength_bind,
      readStrands_bind]
    constructor
    · rintro ⟨d, _, _, hd, rfl, n, _, _, hn, rfl, l, _, _, hl, rfl, strands, hs, distinct, done⟩
      split at done
      · next single =>
        cases done
        obtain ⟨strand, rfl⟩ := List.length_eq_one_iff.1 single
        obtain ⟨tuple, _, first, none, rfl⟩ := List.forall₂_cons_left_iff.1 hs
        cases none
        exact ⟨rfl, .tuck hd hn hl first⟩
      · cases done
    · rintro ⟨same, spelled⟩
      cases spelled with
      | tuck hd hn hl hs =>
        exact ⟨_, _, _, hd, rfl, _, _, _, hn, rfl, _, _, _, hl, rfl, _, .cons hs .nil,
          List.nodup_singleton _, rfl⟩
      | _ => cases same
  | split =>
    simp only [readOperation, readDirection_bind, readNeedle_bind, readLength_bind,
      readStrands_bind]
    constructor
    · rintro ⟨d, _, _, hd, rfl, n, _, _, hn, rfl, t, _, _, ht, rfl, l, _, _, hl, rfl, strands, hs,
        distinct, done⟩
      split at done
      · cases done
      · next filled =>
        cases done
        exact ⟨rfl, .split hd hn ht hl hs (by simpa using filled) distinct⟩
    · rintro ⟨same, spelled⟩
      cases spelled with
      | split hd hn ht hl hs filled distinct =>
        refine ⟨_, _, _, hd, rfl, _, _, _, hn, rfl, _, _, _, ht, rfl, _, _, _, hl, rfl, _, hs,
          distinct, ?_⟩
        rw [if_neg (by simpa using filled)]
      | _ => cases same
  | miss | bringIn | bringOut =>
    simp only [readOperation, readDirection_bind, readNeedle_bind, readYarn_bind]
    constructor
    · rintro ⟨d, _, _, hd, rfl, n, _, _, hn, rfl, y, _, _, hy, rfl, done⟩
      cases done
      exact ⟨rfl, by constructor <;> assumption⟩
    · rintro ⟨same, spelled⟩
      cases spelled with
      | miss hd hn hy | bringIn hd hn hy | bringOut hd hn hy =>
        cases same <;> exact ⟨_, _, _, hd, rfl, _, _, _, hn, rfl, _, _, _, hy, rfl, rfl⟩
      | _ => cases same
  | drop =>
    simp only [readOperation, readNeedle_bind]
    constructor
    · rintro ⟨n, _, _, hn, rfl, done⟩
      cases done
      exact ⟨rfl, .drop hn⟩
    · rintro ⟨same, spelled⟩
      cases spelled with
      | drop hn => exact ⟨_, _, _, hn, rfl, rfl⟩
      | _ => cases same
  | transfer =>
    simp only [readOperation, readNeedle_bind]
    constructor
    · rintro ⟨n, _, _, hn, rfl, t, _, _, ht, rfl, done⟩
      cases done
      exact ⟨rfl, .transfer hn ht⟩
    · rintro ⟨same, spelled⟩
      cases spelled with
      | transfer hn ht => exact ⟨_, _, _, hn, rfl, _, _, _, ht, rfl, rfl⟩
      | _ => cases same
  | rack =>
    simp only [readOperation, readRack_bind]
    constructor
    · rintro ⟨r, _, _, hr, rfl, done⟩
      cases done
      exact ⟨rfl, .rack hr⟩
    · rintro ⟨same, spelled⟩
      cases spelled with
      | rack hr => exact ⟨_, _, _, hr, rfl, rfl⟩
      | _ => cases same

theorem Operation.ofWords?_eq_some_iff {words : List Text} {op : Operation} :
    ofWords? words = .ok (some op) ↔ op.Spelled words := by
  cases words with
  | nil => simp [ofWords?, Spelled]
  | cons word tokens =>
    have spelled : op.Spelled (word :: tokens) ↔
        word = op.mnemonic.word ∧ op.FieldsSpelled tokens := by
      simp [Spelled, and_comm]
    rw [spelled, ← Mnemonic.ofText?_eq_some_iff, ofWords?]
    cases known : Mnemonic.ofText? word with
    | none => simp
    | some mnemonic =>
      have same : some mnemonic = some op.mnemonic ↔ op.mnemonic = mnemonic := by
        rw [Option.some.injEq, eq_comm]
      rw [same, ← readOperation_eq_ok_iff]
      cases read : readOperation mnemonic tokens with
      | error e => simp [read]
      | ok result =>
        obtain ⟨operation, rest⟩ := result
        cases rest <;> simp [read]

theorem Operation.ofWords?_eq_none_iff {words : List Text} :
    ofWords? words = .ok none ↔ words = [] := by
  cases words with
  | nil => simp [ofWords?]
  | cons word tokens =>
    simp only [ofWords?, reduceCtorEq, iff_false]
    split
    · simp
    · split <;> simp

/-! ## Lines -/

theorem cutComment_eq (line : Text) :
    cutComment line = (line.takeWhile (· != ';'), (line.dropWhile (· != ';')).tail?) := by
  unfold cutComment cutAt?
  have whole := List.takeWhile_append_dropWhile (p := (· != ';')) (l := line)
  cases behind : line.dropWhile (· != ';') with
  | nil =>
    rw [behind, List.append_nil] at whole
    rw [whole]
    rfl
  | cons c comment => rfl

/-- A line is an instruction exactly if the words before its first semicolon are spelled like its
operation and the text behind it is its comment. -/
theorem Instruction.ofLine?_eq_some_iff {line : Text} {number : Nat} {i : Instruction} :
    ofLine? line number = .ok (some i) ↔
      i.operation.Spelled (words (line.takeWhile (· != ';'))) ∧ i.line = number ∧
        i.comment = (line.dropWhile (· != ';')).tail? := by
  obtain ⟨op, at_, comment⟩ := i
  simp only [ofLine?, cutComment_eq, ← Operation.ofWords?_eq_some_iff]
  cases Operation.ofWords? (words (line.takeWhile (· != ';'))) with
  | error e => simp
  | ok operation? => cases operation? <;> simp [eq_comm]

/-- A line is read by the words before its first semicolon, which are the nonempty pieces between
blanks. There is nothing to read exactly if there are no words; the line is an instruction exactly
if the words are spelled like its operation, with what stands behind the semicolon as its comment;
and it is an error exactly if there are words and they spell no operation. -/
theorem Instruction.ofLine?_grammar (line : Text) (number : Nat) :
    let tokens := ((line.takeWhile (· != ';')).splitOnP isBlank).filter fun piece => !piece.isEmpty
    (ofLine? line number = .ok none ↔ tokens = []) ∧
      (∀ i, ofLine? line number = .ok (some i) ↔ i.operation.Spelled tokens ∧ i.line = number ∧
        i.comment = (line.dropWhile (· != ';')).tail?) ∧
      ((∃ error, ofLine? line number = .error error) ↔
        tokens ≠ [] ∧ ∀ op : Operation, ¬ op.Spelled tokens) := by
  rw [← words_eq_filter_splitOnP]
  refine ⟨?_, fun i => ofLine?_eq_some_iff, ?_⟩
  · rw [← Operation.ofWords?_eq_none_iff]
    simp only [ofLine?, cutComment_eq]
    split <;> simp [*]
  · simp only [ofLine?, cutComment_eq, ← Operation.ofWords?_eq_some_iff]
    rw [ne_eq, ← Operation.ofWords?_eq_none_iff]
    split <;> simp [*]

end Knitout
