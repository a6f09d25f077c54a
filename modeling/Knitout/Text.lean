/-!
# Lines and words of plain text

A document is a list of characters. It is cut into lines at line feeds and a line is cut into
words at blanks; a blank is any character with the Unicode property `White_Space`. Main
statements: no word is empty and no word holds a blank (`ne_nil_of_mem_words`,
`not_isBlank_of_mem_words`).
-/

namespace Knitout

/-- A run of characters: a word, a line or a whole document. -/
abbrev Text := List Char

/-! ## Blanks and words -/

/-- Exactly the 25 code points with the Unicode property `White_Space`. -/
def isBlank (c : Char) : Bool :=
  let n := c.toNat
  (0x09 ≤ n && n ≤ 0x0D) || n == 0x20 || n == 0x85 || n == 0xA0 || n == 0x1680 ||
    (0x2000 ≤ n && n ≤ 0x200A) || n == 0x2028 || n == 0x2029 || n == 0x202F || n == 0x205F ||
    n == 0x3000

/-- Put a word in front of a list of words, unless the word is empty. -/
def consWord (word : Text) (rest : List Text) : List Text :=
  if word.isEmpty then rest else word :: rest

/-- One character further to the left: a blank closes the open word, any other character extends it. -/
def extendWords (c : Char) (state : Text × List Text) : Text × List Text :=
  if isBlank c then ([], consWord state.1 state.2) else (c :: state.1, state.2)

/-- The maximal runs of characters that are not blank, in order. -/
def words (text : Text) : List Text :=
  let state := text.foldr extendWords ([], [])
  consWord state.1 state.2

/-- The text without the blanks at its two ends. -/
def trim (text : Text) : Text :=
  ((text.dropWhile isBlank).reverse.dropWhile isBlank).reverse

/-! ## Lines -/

/-- A line without the carriage return directly before its line feed. -/
def dropReturn (line : Text) : Text :=
  if line.getLast? = some '\r' then line.dropLast else line

/-- The lines of a document: every line feed ends a line, and the characters after the last line
feed are a line of their own if there are any. A carriage return counts as part of the line's end
only directly before a line feed. -/
def lines (text : Text) : List Text :=
  let pieces := text.splitOn '\n'
  pieces.dropLast.map dropReturn ++
    (match pieces.getLast? with
     | none | some [] => []
     | some rest => [rest])

/-- The lines one after the other with a line feed between any two. -/
def joinLines (parts : List Text) : Text :=
  ['\n'].intercalate parts

/-! ## Cutting -/

/-- Cut at the first occurrence of a character, which belongs to neither part. -/
def cutAt? (mark : Char) (text : Text) : Option (Text × Text) :=
  match text.dropWhile (· != mark) with
  | [] => none
  | _ :: rest => some (text.takeWhile (· != mark), rest)

/-- Cut at the first colon that a space follows; neither belongs to the parts. -/
def cutAtColon? : Text → Option (Text × Text)
  | [] => none
  | c :: rest =>
    match c, rest with
    | ':', ' ' :: value => some ([], value)
    | _, _ => (cutAtColon? rest).map fun (key, value) => (c :: key, value)

/-- What follows `lead` in a text that starts with it. -/
def after? (lead text : Text) : Option Text :=
  List.isPrefixOf? lead text

/-- Spaces behind the text until it has at least `width` characters. -/
def padTo (width : Nat) (text : Text) : Text :=
  text ++ List.replicate (width - text.length) ' '

/-! ## Small lemmas -/

private theorem mem_consWord {word w : Text} {rest : List Text} (h : w ∈ consWord word rest) :
    (w = word ∧ word ≠ []) ∨ w ∈ rest := by
  unfold consWord at h
  split at h
  · exact .inr h
  · next hne =>
    rcases List.mem_cons.1 h with rfl | h
    · exact .inl ⟨rfl, by simpa using hne⟩
    · exact .inr h

private theorem extendWords_keeps (text : Text) :
    (∀ c ∈ (text.foldr extendWords ([], [])).1, isBlank c = false) ∧
      ∀ w ∈ (text.foldr extendWords ([], [])).2, w ≠ [] ∧ ∀ c ∈ w, isBlank c = false := by
  induction text with
  | nil => simp
  | cons c rest ih =>
    simp only [List.foldr_cons, extendWords]
    split
    · refine ⟨by simp, fun w hw => ?_⟩
      rcases mem_consWord hw with ⟨rfl, hne⟩ | hw
      · exact ⟨hne, ih.1⟩
      · exact ih.2 w hw
    · next hc =>
      refine ⟨fun d hd => ?_, ih.2⟩
      rcases List.mem_cons.1 hd with rfl | hd
      · simpa using hc
      · exact ih.1 d hd

/-- No word is empty. -/
theorem ne_nil_of_mem_words {text w : Text} (h : w ∈ words text) : w ≠ [] := by
  rcases mem_consWord h with ⟨rfl, hne⟩ | h
  · exact hne
  · exact ((extendWords_keeps text).2 w h).1

/-- No word holds a blank. -/
theorem not_isBlank_of_mem_words {text w : Text} {c : Char} (h : w ∈ words text) (hc : c ∈ w) :
    isBlank c = false := by
  rcases mem_consWord h with ⟨rfl, _⟩ | h
  · exact (extendWords_keeps text).1 c hc
  · exact ((extendWords_keeps text).2 w h).2 c hc

end Knitout
