import Knitout.Proofs.Abreast
import Knitout.Proofs.Readback

/-!
Lines and their images under a motion (`Motion.Line`): the words that name needles, directions and
rackings name the moved ones, and all others stay. Main statements: corresponding words are read as
moved things or refused with the same error (`ofWords_moved`), and every line with needles that may
be moved has an image (`Motion.exists_line`).
-/

namespace Knitout

variable {m : Motion}

/-! ## Needles -/

/-- A word in the form of a needle is read by the size of its index. -/
theorem readSourceNeedle_lead (bed : Bed) (slider : Bool) {digits : Text} {i : Int}
    (spelled : IndexSpelled i digits) :
    readSourceNeedle (Motion.needleLead bed slider ++ digits) =
      if isWord i = false then .error (.badNeedle (Motion.needleLead bed slider ++ digits))
      else if slider then .error (.slider (Motion.needleLead bed slider ++ digits))
      else if maxNeedleIndex < i.natAbs then
        .error (.needleOutOfRange (Motion.needleLead bed slider ++ digits))
      else .ok ⟨bed, i⟩ := by
  have value := intValue?_eq_some_iff.2 spelled
  have letter : Bed.ofLetter? bed.letter = some bed := by cases bed <;> rfl
  cases slider with
  | true =>
    show readSourceNeedle (bed.letter :: 's' :: digits) = _
    simp only [readSourceNeedle, letter, value]
    cases isWord i <;> rfl
  | false =>
    show readSourceNeedle (bed.letter :: digits) = _
    unfold readSourceNeedle
    split
    · next empty => cases empty
    · next letter' rest same =>
      cases same
      split
      · next unknown =>
        rw [letter] at unknown
        cases unknown
      · next bed' known =>
        cases letter.symm.trans known
        split
        next slider' digits' cut =>
          have whole : slider' = false ∧ digits' = digits := by
            split at cut
            · cases value
            · cases cut
              exact ⟨rfl, rfl⟩
          obtain ⟨rfl, rfl⟩ := whole
          simp only [value]
          cases isWord i <;> rfl

/-- A word in no such form is no needle. -/
theorem readSourceNeedle_other {word : Text}
    (unread : ∀ bed slider digits i, IndexSpelled i digits →
      word ≠ Motion.needleLead bed slider ++ digits) :
    readSourceNeedle word = .error (.badNeedle word) := by
  unfold readSourceNeedle
  split
  · rfl
  · next letter rest =>
    split
    · rfl
    · next bed known =>
      obtain rfl := Bed.ofLetter?_eq_some_iff.1 known
      split
      next slider digits cut =>
        have whole : bed.letter :: rest = Motion.needleLead bed slider ++ digits := by
          split at cut <;> cases cut <;> rfl
        cases value : intValue? digits with
        | none => rfl
        | some index =>
          exact absurd whole (unread bed slider digits index (intValue?_eq_some_iff.1 value))

/-- Corresponding words are read as corresponding needles. -/
theorem readSourceNeedle_moved {word word' : Text} (moved : m.NeedleWord word word') :
    m.Outcomes (fun needle needle' => needle' = m.needle needle) (readSourceNeedle word)
      (readSourceNeedle word') := by
  cases moved with
  | other unread =>
    rw [readSourceNeedle_other unread]
    exact .error (.same _)
  | @index bed slider digits digits' i old new admitted =>
    have moved : m.NeedleWord (Motion.needleLead bed slider ++ digits)
        (Motion.needleLead bed slider ++ digits') := .index bed slider old new admitted
    have fits : isWord (m.index i) = isWord i := by
      unfold isWord
      rw [decide_eq_decide]
      cases m <;> simp only [Motion.Admits, Motion.index, maxNeedleIndex] at admitted ⊢ <;> omega
    have near : maxNeedleIndex < (m.index i).natAbs ↔ maxNeedleIndex < i.natAbs := by
      cases m <;> simp only [Motion.Admits, Motion.index] at admitted ⊢ <;> omega
    rw [readSourceNeedle_lead bed slider old, readSourceNeedle_lead bed slider new, fits]
    by_cases wide : isWord i = false
    · rw [if_pos wide, if_pos wide]
      exact .error (.badNeedle moved)
    · rw [if_neg wide, if_neg wide]
      cases slider with
      | true => exact .error (.slider moved)
      | false =>
        simp only [Bool.false_eq_true, if_false]
        by_cases far : maxNeedleIndex < i.natAbs
        · rw [if_pos far, if_pos (near.2 far)]
          exact .error (.needleOutOfRange moved)
        · rw [if_neg far, if_neg (mt near.1 far)]
          exact .ok rfl

/-! ## Rackings -/

/-- The digits in front of the point, those behind it, and how many these are. -/
def rackingParts (unsigned : Text) : Text × Text × Nat :=
  match cutAt? '.' unsigned with
  | some (whole, fraction) => (whole, fraction, fraction.length)
  | none => ([], unsigned, 0)

/-- The size of a racking, read from what stands behind its sign, or why there is none. -/
def rackingSize (unsigned : Text) : Except (Text → LoweringError) Nat :=
  let (whole, fraction, places) := rackingParts unsigned
  if isDigits fraction && whole.all Char.isDigit then
    match Decimal.round ⟨natValue (whole ++ fraction), -(places : Int)⟩ with
    | .overflow => .error fun _ => .fractionalRack
    | .finite m =>
      if m.units % Magnitude.unitsPerOne ≠ 0 then .error fun _ => .fractionalRack
      else if maxRacking * Magnitude.unitsPerOne < m.units then .error .rackOutOfRange
      else .ok (m.units / Magnitude.unitsPerOne)
  else .error .rackNotNumber

/-- The sign of a racking is only the sign of what is read. -/
theorem readRacking_eq (word : Text) : readRacking word =
    match rackingSize (Literal.cutSign word).2 with
    | .error e => .error (e word)
    | .ok size => .ok (if (Literal.cutSign word).1 then -(size : Int) else size) := by
  unfold readRacking
  split
  next negative unsigned sign =>
    split
    next whole fraction places parts =>
      have same : rackingParts unsigned = (whole, fraction, places) := parts
      rw [sign, rackingSize, same]
      dsimp only
      by_cases digits : (isDigits fraction && whole.all Char.isDigit) = true
      · rw [if_pos digits, if_pos digits]
        cases Decimal.round ⟨natValue (whole ++ fraction), -(places : Int)⟩ with
        | overflow => rfl
        | finite m =>
          dsimp only
          split
          · rfl
          · split <;> rfl
      · rw [if_neg digits, if_neg digits]

/-- The parts of a number are digits. -/
theorem rackingDigits_iff {unsigned : Text} : Motion.RackingDigits unsigned ↔
    isDigits (rackingParts unsigned).2.1 = true ∧
      ∀ c ∈ (rackingParts unsigned).1, c.isDigit = true := by
  have noPoint {text : Text} (digits : ∀ c ∈ text, c.isDigit = true) : '.' ∉ text :=
    fun member => absurd (digits _ member) (by decide)
  constructor
  · intro number
    cases number with
    | whole filled =>
      rw [rackingParts, cutAt?_eq_none (noPoint (isDigits_iff.1 filled).2)]
      exact ⟨filled, by simp⟩
    | point whole filled =>
      rw [rackingParts, cutAt?_append (noPoint whole)]
      exact ⟨filled, whole⟩
  · unfold rackingParts
    split
    · next parted =>
      rintro ⟨filled, whole⟩
      obtain ⟨_, rfl⟩ := cutAt?_eq_some_iff.1 parted
      exact .point whole filled
    · rintro ⟨filled, _⟩
      exact .whole filled

theorem rackingSize_other {unsigned : Text} (other : ¬ Motion.RackingDigits unsigned) :
    rackingSize unsigned = .error .rackNotNumber := by
  refine if_neg fun digits => other (rackingDigits_iff.2 ?_)
  obtain ⟨filled, whole⟩ := Bool.and_eq_true_iff.1 digits
  exact ⟨filled, List.all_eq_true.1 whole⟩

/-- A number may only be no whole one, or too large. -/
theorem rackingSize_cases {unsigned : Text} (number : Motion.RackingDigits unsigned) :
    (rackingSize unsigned = .error fun _ => .fractionalRack) ∨
      rackingSize unsigned = .error .rackOutOfRange ∨ ∃ size, rackingSize unsigned = .ok size := by
  obtain ⟨filled, whole⟩ := rackingDigits_iff.1 number
  unfold rackingSize
  dsimp only
  rw [if_pos (Bool.and_eq_true_iff.2 ⟨filled, List.all_eq_true.2 whole⟩)]
  split
  · exact .inl rfl
  · split
    · exact .inl rfl
    · split
      · exact .inr (.inl rfl)
      · exact .inr (.inr ⟨_, rfl⟩)

/-- Zeros say zero. -/
theorem rackingSize_zero {unsigned : Text} (number : Motion.RackingDigits unsigned)
    (zeros : ∀ c ∈ unsigned, c = '0' ∨ c = '.') : rackingSize unsigned = .ok 0 := by
  obtain ⟨filled, whole⟩ := rackingDigits_iff.1 number
  have inside : ∀ c ∈ (rackingParts unsigned).1 ++ (rackingParts unsigned).2.1, c ∈ unsigned := by
    unfold rackingParts
    split
    · next parted =>
      obtain ⟨_, rfl⟩ := cutAt?_eq_some_iff.1 parted
      simp only [List.mem_append, List.mem_cons]
      tauto
    · exact fun c member => member
  have all : ∀ c ∈ (rackingParts unsigned).1 ++ (rackingParts unsigned).2.1, c = '0' := by
    intro c member
    have digit : c.isDigit = true := by
      rcases List.mem_append.1 member with member | member
      · exact whole c member
      · exact (isDigits_iff.1 filled).2 c member
    exact (zeros c (inside c member)).resolve_right (ne_of_isDigit digit (by decide))
  have value : natValue ((rackingParts unsigned).1 ++ (rackingParts unsigned).2.1) = 0 := by
    rw [List.eq_replicate_iff.2 ⟨rfl, all⟩, natValue_replicate_zero]
  unfold rackingSize
  dsimp only
  rw [if_pos (Bool.and_eq_true_iff.2 ⟨filled, List.all_eq_true.2 whole⟩), value, Decimal.round,
    if_pos rfl]
  have none : Magnitude.zero.units = 0 := rfl
  simp only [none, Nat.zero_mod, Nat.zero_div, ne_eq, not_true_eq_false, if_false, Nat.not_lt_zero]

/-- Corresponding words are read as corresponding rackings. -/
theorem readRacking_moved {word word' : Text} (moved : m.RackingWord word word') :
    m.Outcomes (fun target target' => target' = m.racking target) (readRacking word)
      (readRacking word') := by
  have image := moved
  rw [readRacking_eq, readRacking_eq]
  cases moved with
  | same still =>
    cases m with
    | shift offset =>
      cases rackingSize (Literal.cutSign word).2 with
      | error e => exact .error (.same _)
      | ok size => exact .ok rfl
    | mirror =>
      rw [rackingSize_other (still rfl)]
      exact .error (.same _)
  | opposite mirrored number digits sign =>
    subst mirrored
    rw [digits]
    rcases rackingSize_cases number with fraction | large | ⟨size, read⟩
    · rw [fraction]
      exact .error (.same _)
    · rw [large]
      exact .error (.rackOutOfRange image)
    · rw [read]
      refine .ok ?_
      rcases sign with flipped | zeros
      · rw [flipped]
        cases (Literal.cutSign word).1 <;> simp [Motion.racking]
      · have none : size = 0 := Except.ok.inj (read.symm.trans (rackingSize_zero number zeros))
        subst none
        simp [Motion.racking]

/-! ## Requests -/

/-- What a word says about the machine. -/
inductive Role where
  | direction
  | needle
  | racking
  deriving DecidableEq

/-- What the words of a loop operation say that stand in front of its carriers. -/
def LoopVerb.roles : LoopVerb → List Role
  | .split => [.needle, .needle]
  | _ => [.needle]

/-- What the words behind an operation say; those without a role name carriers, or do not matter. -/
def Keyword.roles : Keyword → List Role
  | .rack => [.racking]
  | .verb asked => .direction :: asked.roles
  | .synonym asked => asked.roles
  | .bringIn | .bringOut | .idle | .stitch | .stitchNumber | .setting => []

namespace Motion

/-- The second word says the moved thing. -/
def RoleWord (m : Motion) : Role → Text → Text → Prop
  | .direction => m.DirectionWord
  | .needle => m.NeedleWord
  | .racking => m.RackingWord

/-- Words are moved by their roles; those without one stay as they are. -/
inductive Words (m : Motion) : List Role → List Text → List Text → Prop
  | rest (tokens : List Text) : Words m [] tokens tokens
  | ended (roles : List Role) : Words m roles [] []
  | cons {role : Role} {roles : List Role} {word word' : Text} {tokens tokens' : List Text}
      (first : m.RoleWord role word word') (others : Words m roles tokens tokens') :
    Words m (role :: roles) (word :: tokens) (word' :: tokens')

theorem Words.eq {tokens tokens' : List Text} (moved : m.Words [] tokens tokens') :
    tokens' = tokens := by
  cases moved <;> rfl

end Motion

/-- Corresponding needles are read, with corresponding words behind them. -/
theorem readNeedleArgument_moved {verb : LoopVerb} {argument : Argument} {roles : List Role}
    {tokens tokens' : List Text} (moved : m.Words (.needle :: roles) tokens tokens') :
    m.Outcomes (fun read read' => read'.1 = m.needle read.1 ∧ m.Words roles read.2 read'.2)
      (readNeedleArgument verb argument tokens) (readNeedleArgument verb argument tokens') := by
  cases moved with
  | ended => exact .error (.same _)
  | cons first others =>
    refine (readSourceNeedle_moved first).map ?_
    rintro needle _ rfl
    exact ⟨rfl, others⟩

theorem readDirectionArgument_moved {verb : LoopVerb} {roles : List Role}
    {tokens tokens' : List Text} (moved : m.Words (.direction :: roles) tokens tokens') :
    m.Outcomes (fun read read' => read'.1 = m.direction read.1 ∧ m.Words roles read.2 read'.2)
      (readDirectionArgument verb tokens) (readDirectionArgument verb tokens') := by
  cases moved with
  | ended => exact .error (.same _)
  | @cons _ _ word word' _ _ first others =>
    have sign (direction : Direction) : Direction.ofText? [direction.sign] = some direction := by
      cases direction <;> rfl
    unfold readDirectionArgument
    change m.DirectionWord word word' at first
    unfold Motion.DirectionWord at first
    cases read : Direction.ofText? word with
    | some direction =>
      rw [read] at first
      subst first
      simp only [read, sign]
      exact .ok ⟨rfl, others⟩
    | none =>
      rw [read] at first
      subst first
      simp only [read]
      exact .error (.same _)

/-- Once the directions are known, the rest of a request is read from corresponding words. -/
private theorem readNeedles_moved {verb : LoopVerb} {synonym : Option Text}
    {direction direction' : Direction} {tokens tokens' : List Text}
    (directions : synonym = none → direction' = m.direction direction)
    (moved : m.Words verb.roles tokens tokens') :
    m.Outcomes m.Requests
      (do
        let (needle, tokens) ← readNeedleArgument verb .needle tokens
        match verb with
        | .miss => .ok ⟨.miss, direction, needle, tokens, synonym⟩
        | .tuck => .ok ⟨.tuck, direction, needle, tokens, synonym⟩
        | .knit => .ok ⟨.knit, direction, needle, tokens, synonym⟩
        | .split =>
          let (target, tokens) ← readNeedleArgument verb .target tokens
          .ok ⟨.split target, direction, needle, tokens, synonym⟩)
      (do
        let (needle, tokens) ← readNeedleArgument verb .needle tokens'
        match verb with
        | .miss => .ok ⟨.miss, direction', needle, tokens, synonym⟩
        | .tuck => .ok ⟨.tuck, direction', needle, tokens, synonym⟩
        | .knit => .ok ⟨.knit, direction', needle, tokens, synonym⟩
        | .split =>
          let (target, tokens) ← readNeedleArgument verb .target tokens
          .ok ⟨.split target, direction', needle, tokens, synonym⟩) := by
  cases verb with
  | miss | tuck | knit =>
    refine (readNeedleArgument_moved moved).bind ?_
    rintro ⟨needle, rest⟩ ⟨needle', rest'⟩ ⟨same, others⟩
    refine .ok ?_
    exact ⟨rfl, same, others.eq, rfl, directions⟩
  | split =>
    refine (readNeedleArgument_moved moved).bind ?_
    rintro ⟨needle, rest⟩ ⟨needle', rest'⟩ ⟨same, others⟩
    refine (readNeedleArgument_moved others).bind ?_
    rintro ⟨target, rest⟩ ⟨target', rest'⟩ ⟨aimed, carriers⟩
    refine .ok ?_
    exact ⟨congrArg LoopWork.split aimed, same, carriers.eq, rfl, directions⟩

/-- Corresponding words are read as corresponding requests. -/
theorem readRequest_moved {verb : LoopVerb} {tokens tokens' : List Text}
    (moved : m.Words (.direction :: verb.roles) tokens tokens') :
    m.Outcomes m.Requests (readRequest verb none tokens) (readRequest verb none tokens') := by
  refine (readDirectionArgument_moved moved).bind ?_
  rintro ⟨direction, rest⟩ ⟨direction', rest'⟩ ⟨same, others⟩
  exact readNeedles_moved (fun _ => same) others

theorem readRequest_synonym_moved {verb : LoopVerb} {synonym : Text} {tokens tokens' : List Text}
    (moved : m.Words verb.roles tokens tokens') :
    m.Outcomes m.Requests (readRequest verb (some synonym) tokens)
      (readRequest verb (some synonym) tokens') :=
  readNeedles_moved nofun moved

/-! ## Lines -/

/-- What the words behind a first word say. -/
def rolesOf (word : Text) : List Role :=
  ((Keyword.ofText? word).map Keyword.roles).getD []

/-- A command about nothing that is moved is its own counterpart. -/
theorem Motion.Outcomes.quiet {x : Except LoweringError Command}
    (still : ∀ target, x ≠ .ok (.rack target)) (quiet : ∀ request, x ≠ .ok (.loops request)) :
    m.Outcomes m.Commands x x := by
  cases x with
  | error e => exact .error (.same e)
  | ok command =>
    refine .ok (.other (fun target same => still target ?_) fun request same => quiet request ?_)
    · rw [same]
    · rw [same]

/-- Corresponding words are read as corresponding commands. -/
theorem ofWords_moved {word : Text} {tokens tokens' : List Text}
    (moved : m.Words (rolesOf word) tokens tokens') :
    m.Outcomes m.Commands (Command.ofWords word tokens) (Command.ofWords word tokens') := by
  unfold rolesOf at moved
  unfold Command.ofWords
  cases known : Keyword.ofText? word with
  | none =>
    rw [known] at moved
    obtain rfl : tokens' = tokens := moved.eq
    refine .quiet (fun _ => ?_) fun _ => ?_ <;> (dsimp only; split <;> simp)
  | some keyword =>
    rw [known] at moved
    cases keyword with
    | rack =>
      cases moved with
      | ended => exact .error (.same _)
      | @cons _ _ word word' tokens tokens' first others =>
        obtain rfl : tokens' = tokens := others.eq
        cases tokens' with
        | cons => exact .error (.same _)
        | nil =>
          refine (readRacking_moved first).map ?_
          rintro target _ rfl
          exact .rack target
    | verb verb =>
      exact (readRequest_moved moved).map fun _ _ requests => .loops requests
    | synonym verb =>
      exact (readRequest_synonym_moved moved).map fun _ _ requests => .loops requests
    | idle | setting => exact .quiet (by simp) (by simp)
    | bringIn | bringOut =>
      obtain rfl : tokens' = tokens := moved.eq
      refine .quiet (fun _ => ?_) fun _ => ?_ <;> (dsimp only; split <;> simp)
    | stitch | stitchNumber =>
      obtain rfl : tokens' = tokens := moved.eq
      refine .quiet (fun _ => ?_) fun _ => ?_ <;> (dsimp only; split <;> (try split) <;> simp)

/-- A line and its image. Comments stay, and so do lines with nothing else. -/
inductive Motion.Line (m : Motion) : Text → Text → Prop
  | quiet {line : Text} (blank : words (cutComment line).1 = []) : Line m line line
  | operation {line line' word : Text} {tokens tokens' : List Text}
      (old : words (cutComment line).1 = word :: tokens)
      (new : words (cutComment line').1 = word :: tokens')
      (comment : (cutComment line').2 = (cutComment line).2)
      (moved : m.Words (rolesOf word) tokens tokens') : Line m line line'

/-- A line and its image ask for corresponding things. -/
theorem Motion.Line.lines {line line' : Text} (moved : m.Line line line') :
    m.Lines m.Line line line' := by
  have image := moved
  cases moved with
  | quiet blank =>
    refine ⟨?_, rfl, image, rfl⟩
    rw [Command.ofLine, blank]
    exact .ok .none
  | operation old new comment moved =>
    have filled {text word : Text} {tokens : List Text}
        (read : words (cutComment text).1 = word :: tokens) : text.isEmpty = false := by
      cases text with
      | nil => cases read
      | cons => rfl
    refine ⟨?_, by rw [comment], image, by rw [filled old, filled new]⟩
    rw [Command.ofLine, Command.ofLine, old, new]
    exact (ofWords_moved moved).map fun _ _ commands => .some commands

/-! ## Existence -/

/-- The words in front of a comment are plain. -/
theorem plain_of_mem_words {line word : Text} (member : word ∈ words (cutComment line).1) :
    Plain word := by
  refine ⟨ne_nil_of_mem_words member, fun c inside => ⟨not_isBlank_of_mem_words member inside, ?_⟩⟩
  rintro rfl
  have code := mem_of_mem_words member inside
  rw [cutComment_eq] at code
  simpa using List.mem_takeWhile_imp code

/-- Any plain words and any comment make a line. -/
theorem exists_line_of_words {parts : List Text} (plain : ∀ word ∈ parts, Plain word)
    (comment : Option Text) :
    ∃ line, words (cutComment line).1 = parts ∧ (cutComment line).2 = comment := by
  have absent : ';' ∉ [' '].intercalate parts ++ List.replicate 0 ' ' :=
    not_mem_joined (by decide) (fun word member inside => ((plain word member).2 _ inside).2 rfl) 0
  have joined := words_joined plain 0
  cases comment with
  | none =>
    refine ⟨[' '].intercalate parts ++ List.replicate 0 ' ', ?_⟩
    rw [cutComment, cutAt?_eq_none absent]
    exact ⟨joined, rfl⟩
  | some comment =>
    refine ⟨[' '].intercalate parts ++ List.replicate 0 ' ' ++ ';' :: comment, ?_⟩
    rw [cutComment, cutAt?_append absent]
    exact ⟨joined, rfl⟩

namespace Motion

/-- All indices on a line may be moved. -/
def Takes (m : Motion) (line : Text) : Prop :=
  ∀ bed slider digits i, needleLead bed slider ++ digits ∈ words (cutComment line).1 →
    IndexSpelled i digits → m.Admits i

theorem exists_needleWord {word : Text} (plain : Plain word) (taken : ∀ bed slider digits i,
    word = needleLead bed slider ++ digits → IndexSpelled i digits → m.Admits i) :
    ∃ word', m.NeedleWord word word' ∧ Plain word' := by
  by_cases read : ∃ bed slider digits i, IndexSpelled i digits ∧
      word = needleLead bed slider ++ digits
  · obtain ⟨bed, slider, digits, i, spelled, rfl⟩ := read
    refine ⟨_, .index bed slider spelled (indexSpelled_intDigits (m.index i))
      (taken bed slider digits i rfl spelled), by simp [needleLead], ?_⟩
    intro c member
    rcases List.mem_append.1 member with lead | index
    · exact plain.2 c (List.mem_append_left _ lead)
    · exact (plain_intDigits _).2 c index
  · refine ⟨word, .other fun bed slider digits i spelled same => ?_, plain⟩
    exact read ⟨bed, slider, digits, i, spelled, same⟩

theorem exists_directionWord {word : Text} (plain : Plain word) :
    ∃ word', m.DirectionWord word word' ∧ Plain word' := by
  unfold DirectionWord
  cases Direction.ofText? word with
  | none => exact ⟨word, rfl, plain⟩
  | some direction => exact ⟨_, rfl, plain_sign _⟩

theorem RackingDigits.unsigned {digits : Text} (number : RackingDigits digits) :
    Unsigned digits := by
  cases number with
  | whole filled => exact unsigned_of_isDigits filled
  | @point front digits whole filled =>
    cases front with
    | nil => exact unsigned_cons (.inr rfl)
    | cons c rest => exact unsigned_cons (.inl (whole c (by simp)))

theorem RackingDigits.ne_nil {digits : Text} (number : RackingDigits digits) : digits ≠ [] := by
  cases number with
  | whole filled => exact (isDigits_iff.1 filled).1
  | point => simp

theorem mem_of_mem_cutSign {c : Char} {word : Text} (member : c ∈ (Literal.cutSign word).2) :
    c ∈ word := by
  unfold Literal.cutSign at member
  split at member
  · exact List.mem_cons_of_mem _ member
  · exact List.mem_cons_of_mem _ member
  · exact member

theorem exists_rackingWord {word : Text} (plain : Plain word) :
    ∃ word', m.RackingWord word word' ∧ Plain word' := by
  by_cases mirrored : m = .mirror ∧ RackingDigits (Literal.cutSign word).2
  · obtain ⟨mirrored, number⟩ := mirrored
    have bare := Literal.cutSign_unsigned number.unsigned
    have unsigned : Plain (Literal.cutSign word).2 :=
      ⟨number.ne_nil, fun c member => plain.2 c (mem_of_mem_cutSign member)⟩
    cases sign : (Literal.cutSign word).1 with
    | true =>
      refine ⟨_, .opposite mirrored number ?_ (.inl ?_), unsigned⟩
      · rw [bare]
      · rw [bare, sign]
        rfl
    | false =>
      refine ⟨'-' :: (Literal.cutSign word).2, .opposite mirrored number rfl (.inl ?_), by simp, ?_⟩
      · rw [sign]
        rfl
      · intro c member
        rcases List.mem_cons.1 member with rfl | member
        · decide
        · exact unsigned.2 c member
  · exact ⟨word, .same fun mirror number => mirrored ⟨mirror, number⟩, plain⟩

theorem exists_words {tokens : List Text} (plain : ∀ word ∈ tokens, Plain word)
    (taken : ∀ bed slider digits i, needleLead bed slider ++ digits ∈ tokens →
      IndexSpelled i digits → m.Admits i) (roles : List Role) :
    ∃ tokens', m.Words roles tokens tokens' ∧ ∀ word ∈ tokens', Plain word := by
  induction tokens generalizing roles with
  | nil => exact ⟨[], .ended roles, plain⟩
  | cons word rest ih =>
    cases roles with
    | nil => exact ⟨_, .rest _, plain⟩
    | cons role roles =>
      obtain ⟨tokens', others, plain'⟩ := ih
        (fun other member => plain other (List.mem_cons_of_mem word member))
        (fun bed slider digits i member => taken bed slider digits i
          (List.mem_cons_of_mem word member)) roles
      have first : Plain word := plain word (by simp)
      have image : ∃ word', m.RoleWord role word word' ∧ Plain word' := by
        cases role with
        | direction => exact exists_directionWord first
        | racking => exact exists_rackingWord first
        | needle =>
          refine exists_needleWord first fun bed slider digits i same => ?_
          exact taken bed slider digits i (same ▸ List.mem_cons_self)
      obtain ⟨word', moved, filled⟩ := image
      refine ⟨word' :: tokens', .cons moved others, ?_⟩
      intro other member
      rcases List.mem_cons.1 member with rfl | member
      · exact filled
      · exact plain' other member

/-- A line with needles that may be moved has an image. -/
theorem exists_line {line : Text} (taken : m.Takes line) : ∃ line', m.Line line line' := by
  cases read : words (cutComment line).1 with
  | nil => exact ⟨line, .quiet read⟩
  | cons word tokens =>
    have plain : ∀ other ∈ word :: tokens, Plain other := by
      intro other member
      rw [← read] at member
      exact plain_of_mem_words member
    obtain ⟨tokens', moved, filled⟩ := exists_words
      (fun other member => plain other (List.mem_cons_of_mem word member))
      (fun bed slider digits i member => taken bed slider digits i
        (read ▸ List.mem_cons_of_mem word member)) (rolesOf word)
    have plain' : ∀ other ∈ word :: tokens', Plain other := by
      intro other member
      rcases List.mem_cons.1 member with rfl | member
      · exact plain other (by simp)
      · exact filled other member
    obtain ⟨line', new, comment⟩ := exists_line_of_words plain' (cutComment line).2
    exact ⟨line', .operation read new comment moved⟩

end Motion

end Knitout
