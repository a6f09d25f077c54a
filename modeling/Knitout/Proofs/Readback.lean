import Knitout.Instruction.Printer
import Knitout.Proofs.Grammar

/-!
An instruction is read back as it was written (`Instruction.ofLine?_render`), whatever spaces and
comment follow it, as long as its operation is well formed: needles and rackings are 64-bit words,
yarns are 32-bit numbers and pairwise distinct, and there are as many of them as the operation
takes. No other instruction is ever read (`Instruction.reads_what_it_writes`).
-/

namespace Knitout

/-! ## Plain words -/

theorem plainChar_of_isDigit {c : Char} (digit : c.isDigit = true) :
    isBlank c = false ∧ c ≠ ';' :=
  ⟨not_isBlank_of_isDigit digit, ne_of_isDigit digit (by decide)⟩

theorem plain_natDigits (n : Nat) : Plain (natDigits n) :=
  ⟨Nat.toDigits_ne_nil, fun _ member => plainChar_of_isDigit (isDigit_of_mem_natDigits member)⟩

/-- A character that is not blank and no semicolon may stand in front of plain characters. -/
theorem plain_cons {c : Char} (first : isBlank c = false ∧ c ≠ ';') {rest : Text}
    (others : ∀ d ∈ rest, isBlank d = false ∧ d ≠ ';') : Plain (c :: rest) := by
  refine ⟨List.cons_ne_nil c rest, ?_⟩
  intro d member
  rcases List.mem_cons.1 member with rfl | member
  · exact first
  · exact others d member

theorem plain_intDigits (i : Int) : Plain (intDigits i) := by
  cases i with
  | ofNat n => exact plain_natDigits n
  | negSucc n => exact plain_cons (by decide) (plain_natDigits (n + 1)).2

theorem plain_sign (d : Direction) : Plain [d.sign] := by
  cases d <;> exact plain_cons (by decide) (by simp)

theorem plain_needle (n : Needle) : Plain n.render := by
  have letter : isBlank n.bed.letter = false ∧ n.bed.letter ≠ ';' := by
    cases n.bed <;> decide
  exact plain_cons letter (plain_cons (by decide) (plain_intDigits n.index).2).2

theorem plain_length (l : Length) : Plain l.render := by
  obtain ⟨filled, chars⟩ := l.render_chars
  refine ⟨filled, ?_⟩
  intro c member
  rcases chars c member with digit | rfl | rfl
  · exact plainChar_of_isDigit digit
  · decide
  · decide

theorem plain_strand (s : Strand) : Plain s.render := by
  refine plain_cons (by decide) ?_
  intro c member
  simp only [List.append_eq, List.mem_append, List.mem_cons, List.not_mem_nil, or_false] at member
  rcases member with (digit | rfl | length) | rfl
  · exact (plain_natDigits s.yarn).2 c digit
  · decide
  · exact (plain_length s.length).2 c length
  · decide

theorem plain_mnemonic (m : Mnemonic) : Plain m.word := by
  have chars : (m.word.all fun c => !isBlank c && c != ';') = true := by
    cases m <;> decide
  refine ⟨by cases m <;> decide, ?_⟩
  intro c member
  simpa using List.all_eq_true.1 chars c member

theorem plain_words (op : Operation) : ∀ word ∈ op.mnemonic.word :: op.fields, Plain word := by
  have strands : ∀ (s : List Strand) (word : Text), word ∈ s.map Strand.render → Plain word := by
    intro s word member
    obtain ⟨strand, _, rfl⟩ := List.mem_map.1 member
    exact plain_strand strand
  intro word member
  rcases List.mem_cons.1 member with rfl | member
  · exact plain_mnemonic _
  · cases op <;>
      simp only [Operation.fields, List.mem_cons, List.not_mem_nil, or_false] at member <;>
      rcases member with rfl | member <;>
      grind [plain_sign, plain_needle, plain_length, plain_natDigits, plain_intDigits]

/-! ## Well-formed operations -/

/-- Strands of pairwise distinct yarns that are 32-bit numbers. -/
def WellNamed (strands : List Strand) : Prop :=
  (strands.map (·.yarn)).Nodup ∧ ∀ s ∈ strands, s.yarn ≤ maxHalfWord

/-- Needles and rackings are 64-bit words, yarns are well named, and a knit or split has at least
one of them, a tuck exactly one. -/
def Operation.WellFormed : Operation → Prop
  | .knit _ needle _ strands =>
    isWord needle.index = true ∧ strands ≠ [] ∧ WellNamed strands
  | .tuck _ needle _ strands =>
    isWord needle.index = true ∧ strands.length = 1 ∧ WellNamed strands
  | .split _ needle target _ strands =>
    isWord needle.index = true ∧ isWord target.index = true ∧ strands ≠ [] ∧ WellNamed strands
  | .miss _ needle yarn | .bringIn _ needle yarn | .bringOut _ needle yarn =>
    isWord needle.index = true ∧ yarn ≤ maxHalfWord
  | .drop needle => isWord needle.index = true
  | .transfer needle target => isWord needle.index = true ∧ isWord target.index = true
  | .rack racking => isWord racking = true

theorem Needle.spelled_render {n : Needle} (fits : isWord n.index = true) : n.Spelled n.render :=
  ⟨fits, _, indexSpelled_intDigits n.index, rfl⟩

theorem Strand.spelled_render {s : Strand} (fits : s.yarn ≤ maxHalfWord) : s.Spelled s.render := by
  obtain ⟨filled, chars⟩ := s.length.render_chars
  refine ⟨_, _, ⟨fits, rfl⟩, s.length.spelled_render, filled, ?_, rfl⟩
  intro c member
  rcases chars c member with digit | rfl | rfl
  · exact .inl digit
  · decide
  · decide

theorem WellNamed.spelled_render {strands : List Strand} (named : WellNamed strands) :
    List.Forall₂ Strand.Spelled strands (strands.map Strand.render) :=
  List.forall₂_map_right_iff.2
    (List.forall₂_same.2 fun s member => Strand.spelled_render (named.2 s member))

theorem wellNamed_of_spelled {strands : List Strand} {tuples : List Text}
    (spelled : List.Forall₂ Strand.Spelled strands tuples)
    (distinct : (strands.map (·.yarn)).Nodup) : WellNamed strands := by
  have named : List.Forall₂ (fun s t => s.yarn ≤ maxHalfWord ∧ Strand.Spelled s t) strands tuples :=
    spelled.imp fun s t ⟨digits, length, yarn, more⟩ => ⟨yarn.1, digits, length, yarn, more⟩
  exact ⟨distinct, ((List.forall₂_and_left strands tuples).1 named).1⟩

/-- A well-formed operation has its fields spelled in its text. -/
theorem Operation.fieldsSpelled_fields {op : Operation} (formed : op.WellFormed) :
    op.FieldsSpelled op.fields := by
  cases op with
  | knit d n l strands =>
    obtain ⟨fits, filled, named⟩ := formed
    exact .knit rfl (Needle.spelled_render fits) l.spelled_render named.spelled_render filled
      named.1
  | tuck d n l strands =>
    obtain ⟨fits, single, named⟩ := formed
    obtain ⟨strand, rfl⟩ := List.length_eq_one_iff.1 single
    exact .tuck rfl (Needle.spelled_render fits) l.spelled_render
      (Strand.spelled_render (named.2 strand (by simp)))
  | split d n t l strands =>
    obtain ⟨fits, fits', filled, named⟩ := formed
    exact .split rfl (Needle.spelled_render fits) (Needle.spelled_render fits') l.spelled_render
      named.spelled_render filled named.1
  | miss d n yarn => exact .miss rfl (Needle.spelled_render formed.1) ⟨formed.2, rfl⟩
  | bringIn d n yarn => exact .bringIn rfl (Needle.spelled_render formed.1) ⟨formed.2, rfl⟩
  | bringOut d n yarn => exact .bringOut rfl (Needle.spelled_render formed.1) ⟨formed.2, rfl⟩
  | drop n => exact .drop (Needle.spelled_render formed)
  | transfer n t =>
    exact .transfer (Needle.spelled_render formed.1) (Needle.spelled_render formed.2)
  | rack r => exact .rack ⟨formed, signed_intDigits r⟩

theorem Operation.FieldsSpelled.wellFormed {op : Operation} {tokens : List Text}
    (spelled : op.FieldsSpelled tokens) : op.WellFormed := by
  cases spelled with
  | knit _ hn _ hs filled distinct => exact ⟨hn.1, filled, wellNamed_of_spelled hs distinct⟩
  | tuck _ hn _ hs =>
    exact ⟨hn.1, rfl, wellNamed_of_spelled (.cons hs .nil) (List.nodup_singleton _)⟩
  | split _ hn ht _ hs filled distinct =>
    exact ⟨hn.1, ht.1, filled, wellNamed_of_spelled hs distinct⟩
  | miss _ hn hy | bringIn _ hn hy | bringOut _ hn hy => exact ⟨hn.1, hy.1⟩
  | drop hn => exact hn.1
  | transfer hn ht => exact ⟨hn.1, ht.1⟩
  | rack hr => exact hr.1

theorem Operation.ofWords?_words {op : Operation} (formed : op.WellFormed) :
    Operation.ofWords? (op.mnemonic.word :: op.fields) = .ok (some op) :=
  Operation.ofWords?_eq_some_iff.2 ⟨_, Operation.fieldsSpelled_fields formed, rfl⟩

/-! ## Lines -/

/-- The words of an operation's text, with spaces behind it or not. -/
theorem words_render (op : Operation) (n : Nat) :
    words (op.render ++ List.replicate n ' ') = op.mnemonic.word :: op.fields :=
  words_joined (plain_words op) n

/-- A character that is blank or a semicolon, but no space, does not stand in an operation's text. -/
theorem not_mem_render {c : Char} (other : c ≠ ' ') (strange : isBlank c = true ∨ c = ';')
    (op : Operation) (n : Nat) : c ∉ op.render ++ List.replicate n ' ' := by
  refine not_mem_joined other ?_ n
  intro word member inside
  obtain ⟨solid, noMark⟩ := (plain_words op word member).2 c inside
  rcases strange with blank | mark
  · rw [blank] at solid
    cases solid
  · exact noMark mark

/-- A line that an operation starts, with spaces and a comment behind it, is that operation with
that comment. -/
theorem Instruction.ofLine?_commented {op : Operation} (formed : op.WellFormed) (n : Nat)
    (comment : Text) (number : Nat) :
    Instruction.ofLine? (op.render ++ List.replicate n ' ' ++ ';' :: comment) number =
      .ok (some ⟨op, number, some comment⟩) := by
  have cut := cutAt?_append (not_mem_render (by decide) (.inr rfl) op n) comment
  simp only [Instruction.ofLine?, cutComment, cut]
  rw [words_render, Operation.ofWords?_words formed]

theorem Instruction.ofLine?_bare {op : Operation} (formed : op.WellFormed) (number : Nat) :
    Instruction.ofLine? op.render number = .ok (some ⟨op, number, none⟩) := by
  have alone := not_mem_render (c := ';') (by decide) (.inr rfl) op 0
  have read := words_render op 0
  rw [List.replicate_zero, List.append_nil] at alone read
  have uncut : cutAt? ';' op.render = none := cutAt?_eq_none alone
  simp only [Instruction.ofLine?, cutComment, uncut, read, Operation.ofWords?_words formed]

/-- An instruction whose operation is well formed is read back from its text. -/
theorem Instruction.ofLine?_render {instruction : Instruction}
    (formed : instruction.operation.WellFormed) :
    Instruction.ofLine? instruction.render instruction.line = .ok (some instruction) := by
  obtain ⟨op, line, comment⟩ := instruction
  cases comment with
  | none => exact ofLine?_bare formed line
  | some comment =>
    have read := ofLine?_commented formed 1 comment line
    simpa [Instruction.render] using read

theorem Instruction.wellFormed_of_ofLine? {line : Text} {number : Nat} {instruction : Instruction}
    (read : ofLine? line number = .ok (some instruction)) : instruction.operation.WellFormed := by
  obtain ⟨⟨_, spelled, _⟩, _⟩ := ofLine?_eq_some_iff.1 read
  exact spelled.wellFormed

/-- The well-formed instructions are those that are read back as they were written, and every line
that is accepted holds one of them. -/
theorem Instruction.reads_what_it_writes :
    (∀ instruction : Instruction, instruction.operation.WellFormed →
      ofLine? instruction.render instruction.line = .ok (some instruction)) ∧
    ∀ (line : Text) (number : Nat) (instruction : Instruction),
      ofLine? line number = .ok (some instruction) → instruction.operation.WellFormed ∧
        ofLine? instruction.render instruction.line = .ok (some instruction) := by
  refine ⟨fun _ => ofLine?_render, ?_⟩
  intro line number instruction read
  have formed := wellFormed_of_ofLine? read
  exact ⟨formed, ofLine?_render formed⟩

/-- A knit on the lowest needle there is, with a comment that holds a semicolon and a line end; and
a line with superfluous blanks and zeros. -/
theorem Instruction.reads_what_it_writes_extremes :
    let knit : Instruction :=
      ⟨.knit .decreasing ⟨.back, -9223372036854775808⟩ (.ofNat 0)
        [⟨4294967295, .ofNat 3⟩, ⟨0, ⟨true, .zero⟩⟩], 7, some "; a\n;".toList⟩
    let out : Instruction := ⟨.bringOut .increasing ⟨.front, -7⟩ 12, 3, some " x".toList⟩
    (knit.operation.WellFormed ∧
      knit.render = "knit - b.-9223372036854775808 0 (4294967295,3) (0,-0) ;; a\n;".toList ∧
      ofLine? knit.render 7 = .ok (some knit)) ∧
    (ofLine? "\tout +  f.-007 12; x".toList 3 = .ok (some out) ∧
      out.operation.WellFormed ∧ ofLine? out.render 3 = .ok (some out)) := by
  have formed : Operation.WellFormed (.knit .decreasing ⟨.back, -9223372036854775808⟩ (.ofNat 0)
      [⟨4294967295, .ofNat 3⟩, ⟨0, ⟨true, .zero⟩⟩]) := by
    refine ⟨by decide, by decide, by decide, by decide⟩
  have read : ofLine? "\tout +  f.-007 12; x".toList 3 =
      .ok (some ⟨.bringOut .increasing ⟨.front, -7⟩ 12, 3, some " x".toList⟩) := by
    decide
  exact ⟨⟨formed, by set_option maxRecDepth 2000 in decide,
      reads_what_it_writes.1 ⟨_, 7, _⟩ formed⟩,
    read, reads_what_it_writes.2 _ _ _ read⟩

end Knitout
