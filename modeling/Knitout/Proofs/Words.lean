import Knitout.Instruction.Parser

/-!
Words joined by spaces, and lines joined by line feeds, come apart again as they were
(`words_joined`, `lines_joinLines`). A plain word holds neither a blank nor a semicolon, so a line
that starts with plain words has them as its words whatever comment follows them.
-/

namespace Knitout

/-- A word of an instruction: some characters, none of them a blank or a semicolon. -/
def Plain (word : Text) : Prop :=
  word ≠ [] ∧ ∀ c ∈ word, isBlank c = false ∧ c ≠ ';'

/-! ## Words -/

private theorem foldr_extendWords (word : Text) (solid : ∀ c ∈ word, isBlank c = false)
    (state : Text × List Text) :
    word.foldr extendWords state = (word ++ state.1, state.2) := by
  induction word with
  | nil => rfl
  | cons c rest ih =>
    have first : isBlank c = false := solid c (by simp)
    rw [List.foldr_cons, ih fun d hd => solid d (List.mem_cons_of_mem c hd)]
    simp [extendWords, first]

private theorem words_blank_cons {c : Char} (blank : isBlank c = true) (rest : Text) :
    words (c :: rest) = words rest := by
  simp [words, extendWords, blank, consWord]

/-- A word ends at the blank behind it. -/
theorem words_append_blank {word : Text} (plain : Plain word) {c : Char}
    (blank : isBlank c = true) (rest : Text) :
    words (word ++ c :: rest) = word :: words rest := by
  have solid := foldr_extendWords word fun d hd => (plain.2 d hd).1
  have filled : word.isEmpty = false := by simpa using plain.1
  have opened := words_blank_cons blank rest
  simp only [words, List.foldr_append, solid]
  simp [extendWords, blank, consWord, filled]

theorem words_replicate_space (n : Nat) : words (List.replicate n ' ') = [] := by
  induction n with
  | zero => rfl
  | succ n ih => rw [List.replicate_succ, words_blank_cons (by decide), ih]

/-- A plain word alone, with spaces behind it or not, is one word. -/
theorem words_plain {word : Text} (plain : Plain word) (n : Nat) :
    words (word ++ List.replicate n ' ') = [word] := by
  cases n with
  | zero =>
    have solid := foldr_extendWords word fun d hd => (plain.2 d hd).1
    have filled : word.isEmpty = false := by simpa using plain.1
    simp [words, solid, consWord, filled]
  | succ n =>
    rw [List.replicate_succ, words_append_blank plain (by decide), words_replicate_space]

/-- Plain words with one space between any two, and spaces behind the last, come apart again. -/
theorem words_joined {parts : List Text} (plain : ∀ word ∈ parts, Plain word) (n : Nat) :
    words ([' '].intercalate parts ++ List.replicate n ' ') = parts := by
  induction parts with
  | nil => exact words_replicate_space n
  | cons word rest ih =>
    have first : Plain word := plain word (by simp)
    have others := ih fun w hw => plain w (List.mem_cons_of_mem word hw)
    cases rest with
    | nil => simpa using words_plain first n
    | cons next rest =>
      rw [List.intercalate_cons_cons]
      simp only [List.append_assoc, List.cons_append, List.nil_append] at others ⊢
      rw [words_append_blank first (by decide), others]

/-- The words of a text are its nonempty pieces between blanks. -/
theorem words_eq_filter_splitOnP (text : Text) :
    words text = (text.splitOnP isBlank).filter fun piece => !piece.isEmpty := by
  have pieces : ∃ rest, text.splitOnP isBlank = (text.foldr extendWords ([], [])).1 :: rest ∧
      (text.foldr extendWords ([], [])).2 = rest.filter fun piece => !piece.isEmpty := by
    induction text with
    | nil => exact ⟨[], rfl, rfl⟩
    | cons c text ih =>
      obtain ⟨rest, split, words⟩ := ih
      rw [List.splitOnP_cons_eq_if_modifyHead, split, List.foldr_cons, extendWords]
      cases blank : isBlank c with
      | true =>
        refine ⟨_, rfl, ?_⟩
        rw [List.filter_cons, ← words]
        cases filled : (text.foldr extendWords ([], [])).1.isEmpty <;> simp [consWord, filled]
      | false => exact ⟨rest, rfl, words⟩
  obtain ⟨rest, split, filtered⟩ := pieces
  rw [split, List.filter_cons, ← filtered, words]
  cases filled : (text.foldr extendWords ([], [])).1.isEmpty <;> simp [consWord, filled]

/-- A text without words is blank. -/
theorem words_eq_nil_iff {text : Text} : words text = [] ↔ ∀ c ∈ text, isBlank c = true := by
  have unfilled (word : Text) (rest : List Text) :
      consWord word rest = [] ↔ word = [] ∧ rest = [] := by
    cases word <;> simp [consWord]
  have scanned : ((text.foldr extendWords ([], [])).1 = [] ∧
      (text.foldr extendWords ([], [])).2 = []) ↔ ∀ c ∈ text, isBlank c = true := by
    induction text with
    | nil => simp
    | cons c rest ih =>
      rw [List.forall_mem_cons, ← ih, List.foldr_cons, extendWords]
      cases blank : isBlank c with
      | true => simp [unfilled]
      | false => simp
  exact (unfilled _ _).trans scanned

/-- The words of a text hold only its characters. -/
theorem mem_of_mem_words {c : Char} {text word : Text} (member : word ∈ words text)
    (inside : c ∈ word) : c ∈ text := by
  have either {word other : Text} {rest : List Text} (member : word ∈ consWord other rest) :
      word = other ∨ word ∈ rest := by
    unfold consWord at member
    split at member
    · exact .inr member
    · exact List.mem_cons.1 member
  have keeps : (∀ c ∈ (text.foldr extendWords ([], [])).1, c ∈ text) ∧
      ∀ word ∈ (text.foldr extendWords ([], [])).2, ∀ c ∈ word, c ∈ text := by
    clear member inside
    induction text with
    | nil => simp
    | cons first rest ih =>
      obtain ⟨opened, closed⟩ := ih
      rw [List.foldr_cons, extendWords]
      split
      · refine ⟨by simp, fun word member c inside => List.mem_cons_of_mem first ?_⟩
        rcases either member with rfl | member
        · exact opened c inside
        · exact closed word member c inside
      · refine ⟨fun c member => ?_, fun word member c inside =>
          List.mem_cons_of_mem first (closed word member c inside)⟩
        rcases List.mem_cons.1 member with rfl | member
        · exact List.mem_cons_self
        · exact List.mem_cons_of_mem first (opened c member)
  rcases either member with rfl | member
  · exact keeps.1 c inside
  · exact keeps.2 word member c inside

/-! ## Cutting at a character -/

/-- A text is cut at a character that stands nowhere further left. -/
theorem cutAt?_append {mark : Char} {before : Text} (absent : mark ∉ before) (rest : Text) :
    cutAt? mark (before ++ mark :: rest) = some (before, rest) := by
  have other : ∀ c ∈ before, (c != mark) = true := fun c hc =>
    bne_iff_ne.2 fun same => absent (same ▸ hc)
  simp [cutAt?, List.dropWhile_append_of_pos other, List.takeWhile_append_of_pos other]

/-- A text without the character is not cut. -/
theorem cutAt?_eq_none {mark : Char} {text : Text} (absent : mark ∉ text) :
    cutAt? mark text = none := by
  have other : ∀ c ∈ text, (c != mark) = true := fun c hc =>
    bne_iff_ne.2 fun same => absent (same ▸ hc)
  have all : (text ++ []).dropWhile (· != mark) = [] := List.dropWhile_append_of_pos other
  rw [List.append_nil] at all
  simp [cutAt?, all]

/-- Exactly these are the two parts that a text is cut into. -/
theorem cutAt?_eq_some_iff {mark : Char} {text before rest : Text} :
    cutAt? mark text = some (before, rest) ↔ mark ∉ before ∧ text = before ++ mark :: rest := by
  constructor
  · intro cut
    unfold cutAt? at cut
    have whole := List.takeWhile_append_dropWhile (p := (· != mark)) (l := text)
    have first := List.head?_dropWhile_not (· != mark) text
    split at cut
    · cases cut
    · next c tail found =>
      cases cut
      rw [found] at whole first
      have same : c = mark := by simpa using first
      subst same
      refine ⟨fun member => ?_, whole.symm⟩
      simpa using List.all_eq_true.1 List.all_takeWhile _ member
  · rintro ⟨absent, rfl⟩
    exact cutAt?_append absent rest

/-- Words joined by spaces, with spaces behind them, hold no character but a space that no word
holds. -/
theorem not_mem_joined {c : Char} (other : c ≠ ' ') {parts : List Text}
    (absent : ∀ word ∈ parts, c ∉ word) (n : Nat) :
    c ∉ [' '].intercalate parts ++ List.replicate n ' ' := by
  induction parts with
  | nil => simpa using fun _ => other
  | cons word rest ih =>
    have first : c ∉ word := absent word (by simp)
    have others := ih fun w hw => absent w (List.mem_cons_of_mem word hw)
    cases rest with
    | nil => simpa [first] using fun _ => other
    | cons next rest =>
      rw [List.intercalate_cons_cons]
      simp only [List.append_assoc, List.mem_append] at others ⊢
      simp_all

/-! ## Lines -/

private theorem not_mem_of_mem_splitOn {mark : Char} {text piece : Text}
    (member : piece ∈ text.splitOn mark) : mark ∉ piece := by
  induction text generalizing piece with
  | nil => simp_all
  | cons c rest ih =>
    rw [List.splitOn_cons_eq_if_modifyHead] at member
    split at member
    · rcases List.mem_cons.1 member with rfl | member
      · simp
      · exact ih member
    · next other =>
      obtain ⟨first, others, split⟩ := List.exists_cons_of_ne_nil (List.splitOn_ne_nil mark rest)
      rw [split] at member ih
      rcases List.mem_cons.1 member with rfl | member
      · have tail : mark ∉ first := ih (by simp)
        simpa [tail] using fun same => other (beq_iff_eq.2 same.symm)
      · exact ih (List.mem_cons_of_mem first member)

/-- The pieces of a text hold only its characters. -/
theorem mem_of_mem_splitOn {mark c : Char} {text piece : Text}
    (member : piece ∈ text.splitOn mark) (inside : c ∈ piece) : c ∈ text := by
  have joined : ∀ pieces : List Text, piece ∈ pieces → c ∈ [mark].intercalate pieces := by
    intro pieces member
    induction pieces with
    | nil => cases member
    | cons first rest ih =>
      cases rest with
      | nil => simpa [← List.mem_singleton.1 member] using inside
      | cons next rest =>
        rw [List.intercalate_cons_cons]
        rcases List.mem_cons.1 member with rfl | later
        · simp [inside]
        · simp [ih later]
  simpa using joined _ member

private theorem mem_dropReturn {c : Char} {line : Text} (member : c ∈ dropReturn line) :
    c ∈ line := by
  unfold dropReturn at member
  split at member
  · exact List.dropLast_subset line member
  · exact member

/-- No line holds a line feed. -/
theorem newline_not_mem_lines {text line : Text} (member : line ∈ lines text) : '\n' ∉ line := by
  unfold lines at member
  rcases List.mem_append.1 member with member | member
  · obtain ⟨piece, here, rfl⟩ := List.mem_map.1 member
    intro newline
    exact not_mem_of_mem_splitOn (List.dropLast_subset _ here) (mem_dropReturn newline)
  · split at member
    · simp at member
    · simp at member
    · next rest last =>
      rw [List.mem_singleton.1 member]
      exact not_mem_of_mem_splitOn (List.mem_of_getLast? last)

/-- Only a carriage return behind everything else is dropped. -/
theorem dropReturn_append {c : Char} (other : c ≠ '\r') (before rest : Text) :
    dropReturn (before ++ c :: rest) = before ++ c :: dropReturn rest := by
  unfold dropReturn
  have last : (before ++ c :: rest).getLast? = (c :: rest).getLast? := by
    rw [List.getLast?_append, List.getLast?_cons]
    rfl
  rw [last]
  cases rest with
  | nil => simp [other]
  | cons d rest =>
    rw [List.getLast?_cons_cons, List.dropLast_append_cons, List.dropLast_cons_cons]
    split <;> rfl

/-- Lines that hold no line feed and have one behind each of them come apart again, less the
carriage returns at their ends. -/
theorem lines_joinLines {parts : List Text} (filled : parts ≠ [])
    (whole : ∀ line ∈ parts, '\n' ∉ line) :
    lines (joinLines parts ++ ['\n']) = parts.map dropReturn := by
  have joined : joinLines parts ++ ['\n'] = ['\n'].intercalate (parts ++ [[]]) := by
    unfold joinLines
    clear whole
    induction parts with
    | nil => exact absurd rfl filled
    | cons line rest ih =>
      cases rest with
      | nil => simp
      | cons next rest =>
        have tail := ih (by simp)
        simp only [List.cons_append] at tail ⊢
        rw [List.intercalate_cons_cons, List.intercalate_cons_cons]
        simp only [List.append_assoc, tail]
  have split : (joinLines parts ++ ['\n']).splitOn '\n' = parts ++ [[]] := by
    rw [joined]
    refine List.splitOn_intercalate '\n' ?_ (by simp)
    intro line member
    rcases List.mem_append.1 member with member | member
    · exact whole line member
    · simp [List.mem_singleton.1 member]
  simp [lines, split]

end Knitout
