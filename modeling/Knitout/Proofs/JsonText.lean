import Knitout.Json
import Knitout.Proofs.Numerals

/-!
Reading JSON. `Json.ofText?` reads every JSON text whose numbers are whole: blanks may stand between
its tokens, a string may hold any escape, also a pair of them for one character, but no control
character, and nothing may follow the value. What `Json.render` writes is read back
(`ofText?_render`) and holds no control character (`le_toNat_render`), so it is on one line.
-/

namespace Knitout

namespace Json

/-! ## Reading -/

/-- The blanks that may stand between tokens. -/
def isSpace (c : Char) : Bool :=
  c == ' ' || c == '\t' || c == '\n' || c == '\r'

/-- A text without the blanks at its front. -/
def skipSpace (text : Text) : Text :=
  text.dropWhile isSpace

/-- What a hexadecimal digit stands for. -/
def hexValue? (c : Char) : Option Nat :=
  if '0' ≤ c ∧ c ≤ '9' then some (c.toNat - '0'.toNat)
  else if 'a' ≤ c ∧ c ≤ 'f' then some (c.toNat - 'a'.toNat + 10)
  else if 'A' ≤ c ∧ c ≤ 'F' then some (c.toNat - 'A'.toNat + 10)
  else none

/-- What four hexadecimal digits stand for, and what follows them. -/
def takeHex? : Text → Option (Nat × Text)
  | a :: b :: c :: d :: rest => do
    let a ← hexValue? a
    let b ← hexValue? b
    let c ← hexValue? c
    let d ← hexValue? d
    some (((a * 16 + b) * 16 + c) * 16 + d, rest)
  | _ => none

/-- The character that a `\u` in front of the text introduces. A character outside the basic plane
takes two escapes, one for each of its surrogates; no surrogate stands alone. -/
def takeCode? (text : Text) : Option (Char × Text) := do
  let (code, rest) ← takeHex? text
  if code < 0xD800 ∨ 0xDFFF < code then some (Char.ofNat code, rest)
  else if 0xDC00 ≤ code then none
  else
    match rest with
    | '\\' :: 'u' :: rest => do
      let (low, rest) ← takeHex? rest
      if 0xDC00 ≤ low ∧ low ≤ 0xDFFF then
        some (Char.ofNat (0x10000 + (code - 0xD800) * 0x400 + (low - 0xDC00)), rest)
      else none
    | _ => none

/-- The letters that stand for a character behind a backslash. -/
def escapeLetters : List (Char × Char) :=
  [('"', '"'), ('\\', '\\'), ('/', '/'), ('b', '\x08'), ('f', '\x0c'), ('n', '\n'), ('r', '\r'),
    ('t', '\t')]

/-- One character of a string. -/
def takeCharacter? : Text → Option (Char × Text)
  | '\\' :: letter :: rest =>
    if letter = 'u' then takeCode? rest
    else (escapeLetters.lookup letter).map fun c => (c, rest)
  | c :: rest => if c = '\\' ∨ c.toNat < 32 then none else some (c, rest)
  | [] => none

/-- The characters of a string up to its closing quotation mark. Each step reads at least one
character, so the length of the text is fuel enough. -/
def takeCharacters? : Nat → Text → Option (Text × Text)
  | 0, _ => none
  | _ + 1, '"' :: rest => some ([], rest)
  | fuel + 1, text => do
    let (c, rest) ← takeCharacter? text
    let (value, rest) ← takeCharacters? fuel rest
    some (c :: value, rest)

/-- A string whose opening quotation mark has been read. -/
def takeString? (text : Text) : Option (Text × Text) :=
  takeCharacters? text.length text

/-- Digits without superfluous leading zeros. -/
def takeNat? (text : Text) : Option (Nat × Text) :=
  let digits := text.takeWhile Char.isDigit
  if isCanonical digits then some (natValue digits, text.dropWhile Char.isDigit) else none

/-- A whole number. -/
def takeNumber? : Text → Option (Int × Text)
  | '-' :: rest => (takeNat? rest).map fun (n, rest) => (-n, rest)
  | text => (takeNat? text).map fun (n, rest) => (n, rest)

/-- One of the three names. -/
def takeName? (text : Text) : Option (Json × Text) :=
  [("null".toList, null), ("true".toList, bool true), ("false".toList, bool false)].findSome?
    fun (name, value) => (after? name text).map fun rest => (value, rest)

mutual

/-- A value. -/
def takeValue? : Nat → Text → Option (Json × Text)
  | 0, _ => none
  | fuel + 1, text =>
    match skipSpace text with
    | '"' :: rest => (takeString? rest).map fun (value, rest) => (string value, rest)
    | '[' :: rest =>
      match skipSpace rest with
      | ']' :: rest => some (array [], rest)
      | rest => (takeItems? fuel rest).map fun (items, rest) => (array items, rest)
    | '\x7b' :: rest =>
      match skipSpace rest with
      | '\x7d' :: rest => some (object [], rest)
      | rest => (takeFields? fuel rest).map fun (fields, rest) => (object fields, rest)
    | text => takeName? text <|> (takeNumber? text).map fun (value, rest) => (number value, rest)

/-- At least one item of an array, up to its closing bracket. -/
def takeItems? : Nat → Text → Option (List Json × Text)
  | 0, _ => none
  | fuel + 1, text => do
    let (item, rest) ← takeValue? fuel text
    match skipSpace rest with
    | ']' :: rest => some ([item], rest)
    | ',' :: rest => (takeItems? fuel rest).map fun (items, rest) => (item :: items, rest)
    | _ => none

/-- At least one field of an object, up to its closing brace. -/
def takeFields? : Nat → Text → Option (List (Text × Json) × Text)
  | 0, _ => none
  | fuel + 1, text =>
    match skipSpace text with
    | '"' :: rest => do
      let (name, rest) ← takeString? rest
      match skipSpace rest with
      | ':' :: rest => do
        let (value, rest) ← takeValue? fuel rest
        match skipSpace rest with
        | '\x7d' :: rest => some ([(name, value)], rest)
        | ',' :: rest =>
          (takeFields? fuel rest).map fun (fields, rest) => ((name, value) :: fields, rest)
        | _ => none
      | _ => none
    | _ => none

end

/-- The value that a text stands for. Readers are never nested deeper than there are characters, so
the length of the text is fuel enough. -/
def ofText? (text : Text) : Option Json := do
  let (value, rest) ← takeValue? text.length text
  if skipSpace rest = [] then some value else none

/-! ## Strings -/

/-- How a character may stand in a string: as a letter behind a backslash, as the number of a control
character, or as it is. -/
inductive Escaped (c : Char) : Text → Prop
  | letter {letter : Char} (known : escapeLetters.lookup letter = some c) :
    Escaped c ['\\', letter]
  | code (control : c.toNat < 32) :
    Escaped c ['\\', 'u', '0', '0', hexDigit (c.toNat / 16), hexDigit (c.toNat % 16)]
  | plain (visible : 32 ≤ c.toNat) (unquoted : c ≠ '"') (single : c ≠ '\\') : Escaped c [c]

theorem escaped_escape (c : Char) : Escaped c (escape c) := by
  unfold escape
  by_cases quote : c = '"'
  · subst quote
    exact .letter rfl
  by_cases single : c = '\\'
  · subst single
    exact .letter rfl
  rw [if_neg quote, if_neg single]
  -- the other letters, one after the other
  iterate 5
    refine iteInduction (fun same => ?_) fun _ => ?_
    · subst same
      exact .letter rfl
  split
  · next control => exact .code control
  · next visible => exact .plain (by omega) quote single

namespace Escaped

variable {c : Char} {text : Text}

private theorem hexValue?_hexDigit : ∀ n < 16, hexValue? (hexDigit n) = some n := by
  decide

private theorem le_toNat_hexDigit : ∀ n < 16, 32 ≤ (hexDigit n).toNat := by
  decide

/-- The number of a control character leads back to it. -/
private theorem takeCode?_control (control : c.toNat < 32) (rest : Text) :
    takeCode? ('0' :: '0' :: hexDigit (c.toNat / 16) :: hexDigit (c.toNat % 16) :: rest) =
      some (c, rest) := by
  have code : takeHex? ('0' :: '0' :: hexDigit (c.toNat / 16) :: hexDigit (c.toNat % 16) :: rest) =
      some (c.toNat, rest) := by
    have zero : hexValue? '0' = some 0 := by decide
    simp only [takeHex?, zero, hexValue?_hexDigit (c.toNat / 16) (by omega),
      hexValue?_hexDigit (c.toNat % 16) (by omega), Option.bind_eq_bind, Option.bind_some]
    rw [show ((0 * 16 + 0) * 16 + c.toNat / 16) * 16 + c.toNat % 16 = c.toNat by omega]
  rw [takeCode?, code]
  simp only [Option.bind_eq_bind, Option.bind_some]
  rw [if_pos (.inl (by omega)), Char.ofNat_toNat]

theorem takeCharacter? (escaped : Escaped c text) (rest : Text) :
    takeCharacter? (text ++ rest) = some (c, rest) := by
  cases escaped with
  | letter known =>
    next letter =>
    have other : letter ≠ 'u' := by
      rintro rfl
      cases known
    simp [Json.takeCharacter?, other, known]
  | code control => exact takeCode?_control control rest
  | plain visible unquoted single =>
    have seen : ¬ c.toNat < 32 := by omega
    simp [Json.takeCharacter?, single, seen]

/-- The quotation mark that ends a string is not part of a character. -/
theorem head_ne_quote (escaped : Escaped c text) : ∃ d tail, text = d :: tail ∧ d ≠ '"' := by
  cases escaped with
  | letter known | code control => exact ⟨_, _, rfl, by decide⟩
  | plain visible unquoted single => exact ⟨_, _, rfl, unquoted⟩

theorem le_toNat (escaped : Escaped c text) : ∀ d ∈ text, 32 ≤ d.toNat := by
  cases escaped with
  | letter known =>
    have table : ∀ entry ∈ escapeLetters, 32 ≤ entry.1.toNat := by decide
    obtain ⟨before, after, whole, _⟩ := List.lookup_eq_some_iff.1 known
    simpa using table (_, c) (by simp [whole])
  | code control =>
    have high := le_toNat_hexDigit (c.toNat / 16) (by omega)
    have low := le_toNat_hexDigit (c.toNat % 16) (by omega)
    simpa using ⟨high, low⟩
  | plain visible unquoted single => simpa using visible

end Escaped

theorem takeCharacters?_flatMap_escape {value : Text} {fuel : Nat} (enough : value.length < fuel)
    (rest : Text) :
    takeCharacters? fuel (value.flatMap escape ++ '"' :: rest) = some (value, rest) := by
  induction value generalizing fuel with
  | nil =>
    obtain ⟨fuel, rfl⟩ := Nat.exists_eq_add_of_lt enough
    simp [takeCharacters?]
  | cons c value ih =>
    obtain ⟨fuel, rfl⟩ := Nat.exists_eq_add_of_lt enough
    obtain ⟨d, tail, head, unquoted⟩ := (escaped_escape c).head_ne_quote
    have first := (escaped_escape c).takeCharacter? (value.flatMap escape ++ '"' :: rest)
    have more : takeCharacters? ((c :: value).length + fuel) (value.flatMap escape ++ '"' :: rest) =
        some (value, rest) := ih (by simp only [List.length_cons]; omega)
    rw [List.flatMap_cons, List.append_assoc]
    rw [head, List.cons_append] at first ⊢
    rw [takeCharacters?, first]
    · rw [Option.bind_eq_bind, Option.bind_some]
      simp only [more, Option.bind_eq_bind, Option.bind_some]
    · rintro _ same
      cases same
      exact unquoted rfl

/-- A string is read back. -/
theorem takeString?_flatMap_escape (value rest : Text) :
    takeString? (value.flatMap escape ++ '"' :: rest) = some (value, rest) := by
  refine takeCharacters?_flatMap_escape ?_ rest
  induction value with
  | nil => simp
  | cons c value ih =>
    obtain ⟨d, tail, head, _⟩ := (escaped_escape c).head_ne_quote
    simp only [List.flatMap_cons, head, List.length_cons, List.length_append] at ih ⊢
    omega

/-! ## Numbers -/

/-- No digit follows, so a number ends here. -/
def Ends (rest : Text) : Prop :=
  ∀ c ∈ rest.head?, c.isDigit = false

theorem takeNat?_natDigits (n : Nat) {rest : Text} (ends : Ends rest) :
    takeNat? (natDigits n ++ rest) = some (n, rest) := by
  have digits := (isDigits_iff.1 (isDigits_natDigits n)).2
  have none : rest.takeWhile Char.isDigit = [] ∧ rest.dropWhile Char.isDigit = rest := by
    cases rest with
    | nil => exact ⟨rfl, rfl⟩
    | cons c rest => simp [ends c (by simp)]
  rw [takeNat?, List.takeWhile_append_of_pos digits, List.dropWhile_append_of_pos digits, none.1,
    none.2, List.append_nil, if_pos (isCanonical_natDigits n), natValue_natDigits]

/-- A number begins with a minus sign or a digit. -/
theorem head_intDigits (value : Int) :
    ∃ c tail, intDigits value = c :: tail ∧ (c = '-' ∨ c.isDigit = true) := by
  cases value with
  | ofNat n =>
    obtain ⟨filled, digits⟩ := isDigits_iff.1 (isDigits_natDigits n)
    obtain ⟨c, tail, head⟩ := List.exists_cons_of_ne_nil filled
    exact ⟨c, tail, head, .inr (digits c (by simp [head]))⟩
  | negSucc n => exact ⟨_, _, rfl, .inl rfl⟩

/-- A number is read back. -/
theorem takeNumber?_intDigits (value : Int) {rest : Text} (ends : Ends rest) :
    takeNumber? (intDigits value ++ rest) = some (value, rest) := by
  cases value with
  | ofNat n =>
    have unsigned : ∀ tail, natDigits n ++ rest ≠ '-' :: tail := by
      intro tail same
      have digits := isDigits_natDigits n
      have lead := (unsigned_of_isDigits digits).1
      rw [← List.head?_append_of_ne_nil _ (isDigits_iff.1 digits).1, same] at lead
      exact lead rfl
    rw [intDigits, takeNumber?, takeNat?_natDigits n ends]
    · rfl
    · exact unsigned
  | negSucc n =>
    rw [intDigits, List.cons_append, takeNumber?, takeNat?_natDigits (n + 1) ends]
    rfl

/-! ## Values -/

theorem not_isSpace_of_isDigit {c : Char} (digit : c.isDigit = true) : isSpace c = false := by
  have other {d : Char} (strange : d.isDigit = false) : (c == d) = false :=
    beq_eq_false_iff_ne.2 (ne_of_isDigit digit strange)
  simp only [isSpace, other (d := ' ') (by decide), other (d := '\t') (by decide),
    other (d := '\n') (by decide), other (d := '\r') (by decide), Bool.or_false]

theorem render_number (value : Int) : (number value).render = intDigits value := rfl

theorem render_string (value : Text) : (string value).render = renderString value := rfl

theorem render_array (item : Json) (items : List Json) :
    (array (item :: items)).render = '[' :: item.render ++ renderItems items := rfl

theorem render_object (name : Text) (value : Json) (fields : List (Text × Json)) :
    (object ((name, value) :: fields)).render =
      '\x7b' :: renderString name ++ ':' :: value.render ++ renderFields fields := rfl

/-- A value begins with no blank and with no closing bracket. -/
theorem head_render (value : Json) :
    ∃ c tail, value.render = c :: tail ∧ isSpace c = false ∧ c ≠ ']' := by
  cases value with
  | null => exact ⟨_, _, rfl, by decide⟩
  | bool value => cases value <;> exact ⟨_, _, rfl, by decide⟩
  | number value =>
    obtain ⟨c, tail, head, rfl | digit⟩ := head_intDigits value
    · exact ⟨_, tail, by rw [render_number, head], by decide⟩
    · exact ⟨c, tail, by rw [render_number, head], not_isSpace_of_isDigit digit,
        ne_of_isDigit digit (by decide)⟩
  | string value => exact ⟨_, _, rfl, by decide⟩
  | array items => cases items <;> exact ⟨_, _, rfl, by decide⟩
  | object fields => cases fields <;> exact ⟨_, _, rfl, by decide⟩

theorem skipSpace_render (value : Json) (rest : Text) :
    skipSpace (value.render ++ rest) = value.render ++ rest := by
  obtain ⟨c, tail, head, visible, _⟩ := head_render value
  simp [skipSpace, head, visible]

/-- What is written for a value is read back, whatever follows it. -/
def ReadsBack (value : Json) : Prop :=
  ∀ fuel rest, value.render.length ≤ fuel → Ends rest →
    takeValue? fuel (value.render ++ rest) = some (value, rest)

/-- It is enough to look at the fuel for one step and what remains of it. -/
theorem readsBack_of_step {value : Json}
    (step : ∀ fuel rest, value.render.length ≤ fuel + 1 → Ends rest →
      takeValue? (fuel + 1) (value.render ++ rest) = some (value, rest)) : ReadsBack value := by
  intro fuel rest enough ends
  cases fuel with
  | zero =>
    obtain ⟨c, tail, head, _⟩ := head_render value
    simp [head] at enough
  | succ fuel => exact step fuel rest enough ends

theorem readsBack_string (value : Text) : ReadsBack (string value) := by
  refine readsBack_of_step fun fuel rest _ _ => ?_
  have read := takeString?_flatMap_escape value rest
  have whole : (string value).render ++ rest = '"' :: (value.flatMap escape ++ '"' :: rest) := by
    simp [render_string, renderString]
  rw [whole]
  show (takeString? _).map _ = _
  rw [read]
  rfl

theorem readsBack_number (value : Int) : ReadsBack (number value) := by
  refine readsBack_of_step fun fuel rest _ ends => ?_
  have read := takeNumber?_intDigits value ends
  have skipped := skipSpace_render (number value) rest
  obtain ⟨c, tail, head, first⟩ := head_intDigits value
  have other {d : Char} (sign : d ≠ '-') (nodigit : d.isDigit = false) : d ≠ c := by
    rcases first with rfl | digit
    · exact sign
    · exact (ne_of_isDigit digit nodigit).symm
  have unnamed : takeName? (c :: (tail ++ rest)) = none := by
    simp [takeName?, after?, List.isPrefixOf?, other (d := 'n') (by decide) (by decide),
      other (d := 't') (by decide) (by decide), other (d := 'f') (by decide) (by decide)]
  rw [render_number, head, List.cons_append] at skipped ⊢
  rw [head, List.cons_append] at read
  rw [takeValue?, skipped]
  -- no number begins like a string, an array or an object
  split
  case h_4 =>
    rw [unnamed, read]
    rfl
  all_goals
    next same =>
    cases same
    exact absurd rfl (other (by decide) (by decide))

theorem ends_renderItems (items : List Json) (rest : Text) : Ends (renderItems items ++ rest) := by
  cases items <;> simp [Ends, renderItems]

theorem ends_renderFields (fields : List (Text × Json)) (rest : Text) :
    Ends (renderFields fields ++ rest) := by
  cases fields with
  | nil => simp [Ends, renderFields]
  | cons field fields => simp [Ends, renderFields]

theorem takeItems?_render {item : Json} {items : List Json}
    (reads : ∀ value ∈ item :: items, ReadsBack value) (fuel : Nat) (rest : Text)
    (enough : (item.render ++ renderItems items).length ≤ fuel) :
    takeItems? fuel (item.render ++ renderItems items ++ rest) = some (item :: items, rest) := by
  induction items generalizing item fuel with
  | nil =>
    cases fuel with
    | zero => simp [renderItems] at enough
    | succ fuel =>
      have first := reads item (by simp) fuel (']' :: rest) (by simpa [renderItems] using enough)
        (ends_renderItems [] rest)
      rw [List.append_assoc, takeItems?]
      simp only [renderItems, List.singleton_append, first, Option.bind_eq_bind, Option.bind_some]
      rfl
  | cons next items ih =>
    cases fuel with
    | zero => simp [renderItems] at enough
    | succ fuel =>
      simp only [renderItems, List.length_append, List.length_cons] at enough
      have first := reads item (by simp) fuel (renderItems (next :: items) ++ rest) (by omega)
        (ends_renderItems (next :: items) rest)
      have more : takeItems? fuel (next.render ++ renderItems items ++ rest) =
          some (next :: items, rest) :=
        ih (fun value member => reads value (.tail _ member)) fuel
          (by simp only [List.length_append]; omega)
      rw [List.append_assoc, takeItems?, first]
      simp only [renderItems, List.cons_append, Option.bind_eq_bind, Option.bind_some]
      show (takeItems? fuel _).map _ = _
      rw [more]
      rfl

theorem readsBack_array {items : List Json} (reads : ∀ value ∈ items, ReadsBack value) :
    ReadsBack (array items) := by
  refine readsBack_of_step fun fuel rest enough _ => ?_
  cases items with
  | nil => rfl
  | cons item items =>
    have more := takeItems?_render reads fuel rest (by simpa [render_array] using enough)
    obtain ⟨c, tail, head, visible, opens⟩ := head_render item
    rw [render_array, List.cons_append, List.cons_append]
    rw [head, List.cons_append, List.cons_append] at more ⊢
    have skipped : skipSpace (c :: (tail ++ renderItems items ++ rest)) =
        c :: (tail ++ renderItems items ++ rest) := by
      simp [skipSpace, visible]
    show (match skipSpace (c :: (tail ++ renderItems items ++ rest)) with
      | ']' :: rest => some (array [], rest)
      | rest => (takeItems? fuel rest).map fun (items, rest) => (array items, rest)) = _
    rw [skipped]
    split
    · next same =>
      cases same
      exact absurd rfl opens
    · rw [more]
      rfl

/-- The name and the value of a field are read, and then what follows them decides. -/
theorem takeFields?_field {value : Json} {fuel : Nat} {more : Text} (name : Text)
    (read : takeValue? fuel (value.render ++ more) = some (value, more)) :
    takeFields? (fuel + 1) (renderString name ++ ':' :: value.render ++ more) =
      match skipSpace more with
      | '\x7d' :: rest => some ([(name, value)], rest)
      | ',' :: rest =>
        (takeFields? fuel rest).map fun (fields, rest) => ((name, value) :: fields, rest)
      | _ => none := by
  have named := takeString?_flatMap_escape name (':' :: (value.render ++ more))
  have whole : renderString name ++ ':' :: value.render ++ more =
      '"' :: (name.flatMap escape ++ '"' :: ':' :: (value.render ++ more)) := by
    simp [renderString]
  rw [whole, takeFields?]
  show ((takeString? _).bind _ : Option _) = _
  rw [named]
  show ((takeValue? _ _).bind _ : Option _) = _
  rw [read]
  rfl

theorem takeFields?_render {name : Text} {value : Json} {fields : List (Text × Json)}
    (reads : ∀ field ∈ (name, value) :: fields, ReadsBack field.2) (fuel : Nat) (rest : Text)
    (enough : (renderString name ++ ':' :: value.render ++ renderFields fields).length ≤ fuel) :
    takeFields? fuel (renderString name ++ ':' :: value.render ++ renderFields fields ++ rest) =
      some ((name, value) :: fields, rest) := by
  induction fields generalizing name value fuel with
  | nil =>
    cases fuel with
    | zero => simp [renderFields] at enough
    | succ fuel =>
      simp only [List.length_append, List.length_cons] at enough
      have short : value.render.length ≤ fuel := by omega
      have first := reads (name, value) (by simp) fuel (renderFields [] ++ rest) short
        (ends_renderFields [] rest)
      rw [List.append_assoc, takeFields?_field name first]
      rfl
  | cons next fields ih =>
    obtain ⟨name', value'⟩ := next
    cases fuel with
    | zero => simp [renderFields] at enough
    | succ fuel =>
      simp only [renderFields, List.length_append, List.length_cons] at enough
      have short : value.render.length ≤ fuel := by omega
      have first := reads (name, value) (by simp) fuel
        (renderFields ((name', value') :: fields) ++ rest) short (ends_renderFields _ rest)
      have more : takeFields? fuel (renderString name' ++ ':' :: value'.render ++
          renderFields fields ++ rest) = some ((name', value') :: fields, rest) :=
        ih (fun field member => reads field (.tail _ member)) fuel
          (by simp only [List.length_append, List.length_cons]; omega)
      rw [List.append_assoc, takeFields?_field name first]
      show (takeFields? fuel (renderString name' ++ ':' :: value'.render ++ renderFields fields ++
        rest)).map _ = _
      rw [more]
      rfl

theorem readsBack_object {fields : List (Text × Json)}
    (reads : ∀ field ∈ fields, ReadsBack field.2) : ReadsBack (object fields) := by
  refine readsBack_of_step fun fuel rest enough _ => ?_
  match fields, reads, enough with
  | [], _, _ => rfl
  | (name, value) :: fields, reads, enough =>
    have more := takeFields?_render reads fuel rest (by simpa [render_object] using enough)
    show (takeFields? fuel (renderString name ++ ':' :: value.render ++ renderFields fields ++
      rest)).map _ = _
    rw [more]
    rfl

theorem readsBack : (value : Json) → ReadsBack value
  | .null => readsBack_of_step fun _ _ _ _ => rfl
  | .bool value => readsBack_of_step fun _ _ _ _ => by cases value <;> rfl
  | .number value => readsBack_number value
  | .string value => readsBack_string value
  | .array items => readsBack_array fun value _ => readsBack value
  | .object fields => readsBack_object fun field member =>
    have smaller : sizeOf field.2 < 1 + sizeOf fields := by
      have inside := List.sizeOf_lt_of_mem member
      obtain ⟨name, value⟩ := field
      show sizeOf value < 1 + sizeOf fields
      simp only [Prod.mk.sizeOf_spec] at inside
      omega
    readsBack field.2

/-- What is written is read back. -/
theorem ofText?_render (value : Json) : ofText? value.render = some value := by
  have read := readsBack value value.render.length [] le_rfl (by simp [Ends])
  rw [List.append_nil] at read
  rw [ofText?, read]
  rfl

example : (ofText? " [ -1, \"\\u0041\\ud83d\\ude00\\/\" ]".toList).map render =
    some "[-1,\"A😀/\"]".toList := by cbv

example : (ofText? "[1,]".toList).isNone ∧ (ofText? ['"', '\n', '"']).isNone := by decide

/-! ## Control characters -/

theorem le_toNat_of_all {text : Text} (all : text.all (fun c => 32 ≤ c.toNat) = true) :
    ∀ c ∈ text, 32 ≤ c.toNat := by
  simpa using all

theorem le_toNat_of_isDigit {c : Char} (digit : c.isDigit = true) : 32 ≤ c.toNat := by
  have low := (Char.isDigit_iff_toNat.1 digit).1
  change 48 ≤ c.toNat at low
  omega

theorem le_toNat_intDigits (value : Int) : ∀ c ∈ intDigits value, 32 ≤ c.toNat := by
  have digits (n : Nat) : ∀ c ∈ natDigits n, 32 ≤ c.toNat := fun c member =>
    le_toNat_of_isDigit (isDigit_of_mem_natDigits member)
  cases value with
  | ofNat n => exact digits n
  | negSucc n => exact List.forall_mem_cons.2 ⟨by decide, digits (n + 1)⟩

theorem le_toNat_renderString (value : Text) : ∀ c ∈ renderString value, 32 ≤ c.toNat := by
  have inside : ∀ c ∈ value.flatMap escape, 32 ≤ c.toNat := by
    intro c member
    obtain ⟨d, _, member⟩ := List.mem_flatMap.1 member
    exact (escaped_escape d).le_toNat c member
  simp only [renderString, List.cons_append, List.forall_mem_cons, List.forall_mem_append]
  exact ⟨by decide, inside, by decide, nofun⟩

mutual

/-- What is written for a value holds no control character. -/
theorem le_toNat_render : (value : Json) → ∀ c ∈ value.render, 32 ≤ c.toNat
  | .null => le_toNat_of_all rfl
  | .bool true => le_toNat_of_all rfl
  | .bool false => le_toNat_of_all rfl
  | .number value => le_toNat_intDigits value
  | .string value => le_toNat_renderString value
  | .array [] => le_toNat_of_all rfl
  | .array (item :: items) => by
    have first := le_toNat_render item
    have more := le_toNat_renderItems items
    simp only [render_array, List.cons_append, List.forall_mem_cons, List.forall_mem_append]
    exact ⟨by decide, first, more⟩
  | .object [] => le_toNat_of_all rfl
  | .object ((name, value) :: fields) => by
    have named := le_toNat_renderString name
    have first := le_toNat_render value
    have more := le_toNat_renderFields fields
    simp only [render_object, List.cons_append, List.forall_mem_cons, List.forall_mem_append]
    exact ⟨by decide, ⟨named, by decide, first⟩, more⟩

theorem le_toNat_renderItems : (items : List Json) → ∀ c ∈ renderItems items, 32 ≤ c.toNat
  | [] => le_toNat_of_all rfl
  | item :: items => by
    have first := le_toNat_render item
    have more := le_toNat_renderItems items
    simp only [renderItems, List.cons_append, List.forall_mem_cons, List.forall_mem_append]
    exact ⟨by decide, first, more⟩

theorem le_toNat_renderFields :
    (fields : List (Text × Json)) → ∀ c ∈ renderFields fields, 32 ≤ c.toNat
  | [] => le_toNat_of_all rfl
  | (name, value) :: fields => by
    have named := le_toNat_renderString name
    have first := le_toNat_render value
    have more := le_toNat_renderFields fields
    simp only [renderFields, List.cons_append, List.forall_mem_cons, List.forall_mem_append]
    exact ⟨by decide, ⟨named, by decide, first⟩, more⟩

end

end Json

end Knitout
