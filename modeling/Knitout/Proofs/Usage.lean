import Knitout.Proofs.Sessions
import Knitout.Proofs.Source

/-!
What source lines do with a carrier, told from their words alone (`timeline`). A command that was
read from a line does the same (`Command.lineEvents_ofLine`).
-/

namespace Knitout

/-! ## Events of lines -/

/-- What an operation with these words does with a carrier of this name: one event for each time
that it is named behind the needles. -/
def wordEvents (name word : Text) (arguments : List Text) : List CarrierEvent :=
  if word = "in".toList ∨ word = "inhook".toList then
    List.replicate (arguments.count name) .enter
  else if word = "out".toList ∨ word = "outhook".toList then
    List.replicate (arguments.count name) .leave
  else if word = "miss".toList ∨ word = "tuck".toList ∨ word = "knit".toList then
    List.replicate ((arguments.drop 2).count name) .work
  else if word = "split".toList then
    List.replicate ((arguments.drop 3).count name) .work
  else []

/-- What a line does with a carrier of this name. -/
def lineEvents (name line : Text) : List CarrierEvent :=
  match words (cutComment line).1 with
  | [] => []
  | word :: arguments => wordEvents name word arguments

/-- What lines do with a carrier of this name, and which line does it, counted from zero. -/
def timeline (name : Text) (lines : List Text) : Timeline :=
  lines.zipIdx.flatMap fun (line, index) => (lineEvents name line).map (index, ·)

theorem timeline_concat (name : Text) (lines : List Text) (line : Text) :
    timeline name (lines ++ [line]) =
      timeline name lines ++ (lineEvents name line).map (lines.length, ·) := by
  simp [timeline, List.zipIdx_append]

/-! ## Events of commands -/

namespace Command

/-- What a command does with a carrier of this name. A synonym has none. -/
def events (name : Text) : Command → List CarrierEvent
  | .bringIn names => List.replicate (names.count name) .enter
  | .bringOut names => List.replicate (names.count name) .leave
  | .loops request =>
    if request.synonym.isSome then [] else List.replicate (request.carriers.count name) .work
  | _ => []

variable {name word line : Text} {tokens : List Text} {request : Request}

private theorem wordEvents_verb {verb : LoopVerb}
    (read : readRequest verb none tokens = .ok request) :
    wordEvents name verb.name.toList tokens = events name (.loops request) := by
  obtain ⟨bare, _, _, rfl, _, _, _, rfl, _, work⟩ := readRequest_none read
  rw [events, bare]
  cases verb with
  | miss | tuck | knit =>
    obtain ⟨_, rfl⟩ := work
    rfl
  | split =>
    obtain ⟨_, _, rfl, _⟩ := work
    rfl

private theorem wordEvents_synonym {verb : LoopVerb} (synonym : (word, verb) ∈ synonyms)
    (read : readRequest verb (some word) tokens = .ok request) :
    wordEvents name word tokens = events name (.loops request) := by
  rw [events, (readRequest_some read).1]
  simp only [synonyms, List.mem_cons, Prod.mk.injEq, List.not_mem_nil, or_false] at synonym
  rcases synonym with ⟨rfl, _⟩ | ⟨rfl, _⟩ | ⟨rfl, _⟩ <;> rfl

private theorem wordEvents_harmless {command : Command} (verbs : ∀ verb : LoopVerb,
    word ≠ verb.name.toList) (harmless : Harmless word tokens command) :
    wordEvents name word tokens = events name command := by
  have nothing (other : word ∉ carrierWords) : wordEvents name word tokens = [] := by
    have miss : word ≠ "miss".toList := verbs .miss
    have tuck : word ≠ "tuck".toList := verbs .tuck
    have knit : word ≠ "knit".toList := verbs .knit
    have split : word ≠ "split".toList := verbs .split
    simp only [carrierWords, List.mem_cons, List.not_mem_nil, or_false, not_or] at other
    simp only [wordEvents, other, miss, tuck, knit, split, or_false, if_false]
  cases command with
  | bringIn names =>
    obtain ⟨rfl | rfl, rfl⟩ := harmless <;> rfl
  | bringOut names =>
    obtain ⟨rfl | rfl, rfl⟩ := harmless <;> rfl
  | rack => exact nothing harmless.2
  | idle | stitch | stitchNumber | setting | vendor => exact nothing harmless
  | loops => exact harmless.elim

/-- A line does with a carrier what its command does. -/
theorem lineEvents_ofLine {command : Option Command} (read : ofLine line = .ok command)
    (name : Text) : lineEvents name line = (command.map (events name)).getD [] := by
  cases command with
  | none =>
    unfold ofLine at read
    split at read
    · next blank =>
      unfold lineEvents
      rw [blank]
      rfl
    · obtain ⟨_, _, same⟩ := Except.map_ok read
      cases same
  | some command =>
    obtain ⟨word, tokens, split, read⟩ := ofLine_some read
    unfold lineEvents
    rw [split]
    rcases ofWords_cases read with ⟨verb, request, rfl, asked, rfl⟩ |
      ⟨verb, request, synonym, asked, rfl⟩ | ⟨verbs, _, harmless⟩
    · exact wordEvents_verb asked
    · exact wordEvents_synonym synonym asked
    · exact wordEvents_harmless verbs harmless

end Command

end Knitout
