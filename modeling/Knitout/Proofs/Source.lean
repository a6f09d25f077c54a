import Knitout.Lowering.Command
import Knitout.Proofs.Carriers
import Knitout.Proofs.Stitch

/-!
What a source line asks for, told from its words alone: the stitch that it makes on needles with or
without loops (`sourceStitch?`), and the carriers that it brings in or forms loops with. A command
that was read from a line asks for the same (`Command.stitch_ofLine`).
-/

namespace Knitout

/-! ## Stitches that a line asks for -/

/-- A needle of a source: a bed letter and an index. -/
def sourceNeedle? : Text → Option Needle
  | [] => none
  | letter :: digits => do
    let bed ← Bed.ofLetter? letter
    let index ← intValue? digits
    some ⟨bed, index⟩

/-- The yarns of the carriers with these names, all of which have to be known. -/
def CarrierTable.yarns? (t : CarrierTable) (names : List Text) : Option (List Yarn) :=
  names.mapM fun name => (t.find? name).map (·.yarn)

section
variable (holds : Needle → Bool) (direction : Direction) (needle target : Needle)
  (yarns : List Yarn)

/-- Loops are dropped where there are any. -/
def dropStitch? : Option Stitch :=
  if holds needle then some (.drop needle) else none

/-- A tuck without carriers does nothing. -/
def tuckStitch? : Option Stitch :=
  if yarns = [] then none else some (.tuck direction needle yarns)

/-- A knit without carriers is a drop, and one on an empty needle a tuck. -/
def knitStitch? : Option Stitch :=
  if yarns = [] then dropStitch? holds needle
  else if holds needle then some (.knit direction needle yarns)
  else some (.tuck direction needle yarns)

/-- A split without carriers is a transfer, and one on an empty needle a tuck. -/
def splitStitch? : Option Stitch :=
  if yarns = [] then some (.transfer needle target)
  else if holds needle then some (.split direction needle target yarns)
  else some (.tuck direction needle yarns)

end

/-- The stitch that an operation with these words makes, on needles that hold loops or not. -/
def stitchOfWords? (t : CarrierTable) (holds : Needle → Bool) (word : Text)
    (arguments : List Text) : Option Stitch :=
  if word = "knit".toList then
    match arguments with
    | direction :: needle :: names => do
      knitStitch? holds (← Direction.ofText? direction) (← sourceNeedle? needle)
        (← t.yarns? names)
    | _ => none
  else if word = "tuck".toList then
    match arguments with
    | direction :: needle :: names => do
      tuckStitch? (← Direction.ofText? direction) (← sourceNeedle? needle) (← t.yarns? names)
    | _ => none
  else if word = "split".toList then
    match arguments with
    | direction :: needle :: target :: names => do
      splitStitch? holds (← Direction.ofText? direction) (← sourceNeedle? needle)
        (← sourceNeedle? target) (← t.yarns? names)
    | _ => none
  else if word = "xfer".toList then
    match arguments with
    | [needle, target] => do some (.transfer (← sourceNeedle? needle) (← sourceNeedle? target))
    | _ => none
  else if word = "drop".toList then
    match arguments with
    | [needle] => do dropStitch? holds (← sourceNeedle? needle)
    | _ => none
  else none

/-- The stitch that a source line makes, on needles that hold loops or not. -/
def sourceStitch? (t : CarrierTable) (holds : Needle → Bool) (line : Text) : Option Stitch :=
  match words (cutComment line).1 with
  | [] => none
  | word :: arguments => stitchOfWords? t holds word arguments

/-! ## Carriers that a line names -/

/-- The line brings a carrier of this name in. -/
def bringsIn (name line : Text) : Bool :=
  match words (cutComment line).1 with
  | [] => false
  | word :: names => (word == "in".toList || word == "inhook".toList) && names.contains name

/-- The carriers that an operation with these words forms loops with: those behind its needles, if
it tucks, knits or splits. -/
def formingNames (word : Text) (arguments : List Text) : List Text :=
  if word = "tuck".toList ∨ word = "knit".toList then arguments.drop 2
  else if word = "split".toList then arguments.drop 3
  else []

/-- The line forms loops with a carrier of this name. -/
def formsWith (name line : Text) : Bool :=
  match words (cutComment line).1 with
  | [] => false
  | word :: arguments => (formingNames word arguments).contains name

/-- Some line brings the carrier in, and since the last one that does, no line has formed loops with
it. -/
def OnlyMissed (name : Text) (lines : List Text) : Prop :=
  ∃ earlier line later, lines = earlier ++ line :: later ∧ bringsIn name line = true ∧
    ∀ other ∈ later, bringsIn name other = false ∧ formsWith name other = false

/-- A carrier has only missed after one more line, unless the line forms loops with it, if the line
brings it in or if it has only missed before. -/
theorem OnlyMissed.concat {name line : Text} {lines : List Text}
    (before : bringsIn name line = true ∨ OnlyMissed name lines)
    (idle : formsWith name line = false) : OnlyMissed name (lines ++ [line]) := by
  cases now : bringsIn name line with
  | true => exact ⟨lines, line, [], rfl, now, by simp⟩
  | false =>
    rw [now] at before
    obtain ⟨earlier, last, later, rfl, brought, quiet⟩ := before.resolve_left (by simp)
    refine ⟨earlier, last, later ++ [line], by simp, brought, ?_⟩
    intro other member
    rcases List.mem_append.1 member with member | member
    · exact quiet other member
    · rw [List.mem_singleton.1 member]
      exact ⟨now, idle⟩

/-! ## Arguments -/

theorem readSourceNeedle_ok {token : Text} {needle : Needle}
    (read : readSourceNeedle token = .ok needle) :
    needle.index.natAbs ≤ maxNeedleIndex ∧ sourceNeedle? token = some needle := by
  unfold readSourceNeedle at read
  split at read
  · cases read
  · next letter rest =>
    split at read
    · cases read
    · next bed known =>
      split at read
      next slider digits cut =>
        split at read
        · cases read
        · next index value =>
          split at read
          · cases read
          · split at read
            · cases read
            · next plain =>
              split at read
              · cases read
              · next near =>
                cases read
                -- the token is no slider, so the digits stand right behind the letter
                have whole : digits = rest := by
                  split at cut
                  · cases cut
                    exact absurd rfl plain
                  · cases cut
                    rfl
                subst whole
                exact ⟨Nat.le_of_not_lt near, by simp [sourceNeedle?, known, value]⟩

theorem readRacking_ok {token : Text} {racking : Int} (read : readRacking token = .ok racking) :
    racking.natAbs ≤ maxRacking := by
  unfold readRacking at read
  split at read
  next negative unsigned _ =>
    split at read
    next whole fraction places _ =>
      split at read
      · split at read
        · cases read
        · next m _ =>
          split at read
          · cases read
          · split at read
            · cases read
            · next small =>
              cases read
              have quotient : m.units / Magnitude.unitsPerOne ≤ maxRacking :=
                Nat.div_le_of_le_mul (Nat.mul_comm _ _ ▸ Nat.le_of_not_lt small)
              rw [← Int.natCast_ediv]
              generalize m.units / Magnitude.unitsPerOne = units at quotient
              cases negative <;> simpa using quotient
      · cases read

private theorem readDirectionArgument_ok {verb : LoopVerb} {tokens rest : List Text}
    {direction : Direction} (read : readDirectionArgument verb tokens = .ok (direction, rest)) :
    ∃ token, tokens = token :: rest ∧ Direction.ofText? token = some direction := by
  cases tokens with
  | nil => cases read
  | cons token tail =>
    simp only [readDirectionArgument] at read
    split at read
    · next known =>
      cases read
      exact ⟨token, rfl, known⟩
    · cases read

private theorem readNeedleArgument_ok {verb : LoopVerb} {argument : Argument}
    {tokens rest : List Text} {needle : Needle}
    (read : readNeedleArgument verb argument tokens = .ok (needle, rest)) :
    ∃ token, tokens = token :: rest ∧ readSourceNeedle token = .ok needle := by
  cases tokens with
  | nil => cases read
  | cons token tail =>
    simp only [readNeedleArgument] at read
    cases known : readSourceNeedle token with
    | error e => simp [known, Except.map] at read
    | ok needle' =>
      simp only [known, Except.map, Except.ok.injEq, Prod.mk.injEq] at read
      obtain ⟨rfl, rfl⟩ := read
      exact ⟨token, rfl, known⟩

/-- What a request says about the words that it was read from: those behind the direction. -/
def Request.ReadFrom (request : Request) (verb : LoopVerb) (tokens : List Text) : Prop :=
  ∃ token rest, tokens = token :: rest ∧ readSourceNeedle token = .ok request.needle ∧
    match verb with
    | .miss => request.work = .miss ∧ rest = request.carriers
    | .tuck => request.work = .tuck ∧ rest = request.carriers
    | .knit => request.work = .knit ∧ rest = request.carriers
    | .split => ∃ token' target, rest = token' :: request.carriers ∧
        readSourceNeedle token' = .ok target ∧ request.work = .split target

private theorem readFrom_of_needle {verb : LoopVerb} {synonym : Option Text}
    {direction : Direction} {tokens : List Text} {request : Request}
    (read : (do
      let (needle, tokens) ← readNeedleArgument verb .needle tokens
      match verb with
      | .miss => Except.ok ⟨.miss, direction, needle, tokens, synonym⟩
      | .tuck => .ok ⟨.tuck, direction, needle, tokens, synonym⟩
      | .knit => .ok ⟨.knit, direction, needle, tokens, synonym⟩
      | .split =>
        let (target, tokens) ← readNeedleArgument verb .target tokens
        .ok ⟨.split target, direction, needle, tokens, synonym⟩) = Except.ok request) :
    request.direction = direction ∧ request.synonym = synonym ∧ request.ReadFrom verb tokens := by
  obtain ⟨⟨needle, rest⟩, first, done⟩ := Except.bind_ok read
  obtain ⟨token, rfl, known⟩ := readNeedleArgument_ok first
  clear read first
  cases verb with
  | miss | tuck | knit =>
    cases done
    exact ⟨rfl, rfl, token, rest, rfl, known, rfl, rfl⟩
  | split =>
    obtain ⟨⟨target, others⟩, second, last⟩ := Except.bind_ok done
    obtain ⟨token', rfl, known'⟩ := readNeedleArgument_ok second
    cases last
    exact ⟨rfl, rfl, token, _, rfl, known, token', target, rfl, known', rfl⟩

/-- A request without a synonym is read from a direction and the words behind it. -/
theorem readRequest_none {verb : LoopVerb} {tokens : List Text} {request : Request}
    (read : readRequest verb none tokens = .ok request) :
    request.synonym = none ∧ ∃ token rest, tokens = token :: rest ∧
      Direction.ofText? token = some request.direction ∧ request.ReadFrom verb rest := by
  obtain ⟨⟨direction, rest⟩, first, done⟩ := Except.bind_ok read
  obtain ⟨token, rfl, known⟩ := readDirectionArgument_ok first
  obtain ⟨rfl, synonym, tail⟩ := readFrom_of_needle done
  exact ⟨synonym, token, rest, rfl, known, tail⟩

theorem readRequest_some {verb : LoopVerb} {synonym : Text} {tokens : List Text}
    {request : Request} (read : readRequest verb (some synonym) tokens = .ok request) :
    request.synonym = some synonym ∧ request.ReadFrom verb tokens := by
  obtain ⟨_, synonym', words⟩ := readFrom_of_needle read
  exact ⟨synonym', words⟩

/-! ## Commands -/

namespace Command

private theorem mem_table {word : Text} {keyword : Keyword}
    (known : Keyword.ofText? word = some keyword) : (word, keyword) ∈ Keyword.table := by
  obtain ⟨before, after, split, _⟩ := List.lookup_eq_some_iff.1 known
  rw [split]
  simp

/-- The synonyms, with what each stands for. -/
def synonyms : List (Text × LoopVerb) :=
  [("amiss".toList, .tuck), ("drop".toList, .knit), ("xfer".toList, .split)]

private theorem word_bringIn {word : Text} (known : Keyword.ofText? word = some .bringIn) :
    word = "in".toList ∨ word = "inhook".toList := by
  have member := mem_table known
  simpa only [Keyword.table, List.mem_cons, Prod.mk.injEq, reduceCtorEq, and_false, and_true,
    List.not_mem_nil, or_false] using member

private theorem word_bringOut {word : Text} (known : Keyword.ofText? word = some .bringOut) :
    word = "out".toList ∨ word = "outhook".toList := by
  have member := mem_table known
  simpa only [Keyword.table, List.mem_cons, Prod.mk.injEq, reduceCtorEq, and_false, and_true,
    false_or, List.not_mem_nil, or_false] using member

private theorem word_verb {word : Text} {verb : LoopVerb}
    (known : Keyword.ofText? word = some (.verb verb)) : word = verb.name.toList := by
  have member := mem_table known
  simp only [Keyword.table, List.mem_cons, Prod.mk.injEq, reduceCtorEq, and_false, false_or,
    Keyword.verb.injEq, List.not_mem_nil, or_false] at member
  rcases member with ⟨rfl, rfl⟩ | ⟨rfl, rfl⟩ | ⟨rfl, rfl⟩ | ⟨rfl, rfl⟩ <;> rfl

private theorem word_synonym {word : Text} {verb : LoopVerb}
    (known : Keyword.ofText? word = some (.synonym verb)) : (word, verb) ∈ synonyms := by
  have member := mem_table known
  simp only [Keyword.table, List.mem_cons, Prod.mk.injEq, reduceCtorEq, and_false, false_or,
    Keyword.synonym.injEq, List.not_mem_nil, or_false] at member
  simpa [synonyms] using member

private theorem ofWords_verb (verb : LoopVerb) (tokens : List Text) :
    ofWords verb.name.toList tokens = (readRequest verb none tokens).map .loops := by
  cases verb <;> rfl

private theorem ofWords_synonym {word : Text} {verb : LoopVerb} (synonym : (word, verb) ∈ synonyms)
    (tokens : List Text) : ofWords word tokens = (readRequest verb (some word) tokens).map .loops := by
  simp only [synonyms, List.mem_cons, Prod.mk.injEq, List.not_mem_nil, or_false] at synonym
  rcases synonym with ⟨rfl, rfl⟩ | ⟨rfl, rfl⟩ | ⟨rfl, rfl⟩ <;> rfl

/-- The words that bring carriers in or out. -/
def carrierWords : List Text :=
  ["in".toList, "inhook".toList, "out".toList, "outhook".toList]

private theorem not_carrierWord {word : Text} (noIn : Keyword.ofText? word ≠ some .bringIn)
    (noOut : Keyword.ofText? word ≠ some .bringOut) : word ∉ carrierWords := by
  intro member
  simp only [carrierWords, List.mem_cons, List.not_mem_nil, or_false] at member
  rcases member with rfl | rfl | rfl | rfl
  · exact noIn rfl
  · exact noIn rfl
  · exact noOut rfl
  · exact noOut rfl

/-- What is known of a command that is no request, behind this word. -/
def Harmless (word : Text) (tokens : List Text) : Command → Prop
  | .loops _ => False
  | .bringIn names => (word = "in".toList ∨ word = "inhook".toList) ∧ tokens = names
  | .bringOut names => (word = "out".toList ∨ word = "outhook".toList) ∧ tokens = names
  | .rack target => target.natAbs ≤ maxRacking ∧ word ∉ carrierWords
  | _ => word ∉ carrierWords

/-- A command that is read is a request behind its verb or behind a synonym, or the first word is
neither. -/
theorem ofWords_cases {word : Text} {tokens : List Text} {command : Command}
    (read : ofWords word tokens = .ok command) :
    (∃ verb request, word = verb.name.toList ∧ readRequest verb none tokens = .ok request ∧
        command = .loops request) ∨
      (∃ verb request, (word, verb) ∈ synonyms ∧
        readRequest verb (some word) tokens = .ok request ∧ command = .loops request) ∨
      ((∀ verb : LoopVerb, word ≠ verb.name.toList) ∧ (∀ verb, (word, verb) ∉ synonyms) ∧
        Harmless word tokens command) := by
  by_cases verbal : ∃ verb : LoopVerb, word = verb.name.toList
  · obtain ⟨verb, rfl⟩ := verbal
    rw [ofWords_verb] at read
    obtain ⟨request, done, rfl⟩ := Except.map_ok read
    exact .inl ⟨verb, request, rfl, done, rfl⟩
  by_cases synonymous : ∃ verb, (word, verb) ∈ synonyms
  · obtain ⟨verb, synonym⟩ := synonymous
    rw [ofWords_synonym synonym] at read
    obtain ⟨request, done, rfl⟩ := Except.map_ok read
    exact .inr (.inl ⟨verb, request, synonym, done, rfl⟩)
  -- what is left are the words that no request begins with
  refine .inr (.inr ⟨not_exists.1 verbal, not_exists.1 synonymous, ?_⟩)
  have other {keyword? : Option Keyword} (known : Keyword.ofText? word = keyword?)
      (noIn : keyword? ≠ some .bringIn) (noOut : keyword? ≠ some .bringOut) :
      word ∉ carrierWords :=
    not_carrierWord (known ▸ noIn) (known ▸ noOut)
  unfold ofWords at read
  split at read
  · next known =>
    split at read
    · cases read
    · cases read
      exact ⟨word_bringIn known, rfl⟩
  · next known =>
    split at read
    · cases read
    · cases read
      exact ⟨word_bringOut known, rfl⟩
  · next known =>
    cases read
    exact other known (by decide) (by decide)
  · next known =>
    split at read
    · obtain ⟨target, done, rfl⟩ := Except.map_ok read
      exact ⟨readRacking_ok done, other known (by decide) (by decide)⟩
    · cases read
  · next known =>
    split at read
    · split at read
      · cases read
        exact other known (by decide) (by decide)
      · cases read
    · cases read
  · next known =>
    split at read
    · split at read
      · cases read
        exact other known (by decide) (by decide)
      · cases read
    · cases read
  · next known =>
    cases read
    exact other known (by decide) (by decide)
  · next verb known => exact absurd ⟨verb, word_verb known⟩ verbal
  · next verb known => exact absurd ⟨verb, word_synonym known⟩ synonymous
  · next known =>
    split at read
    · cases read
      exact other known (by decide) (by decide)
    · cases read

/-- A command comes from the first word of its line and the words behind it. -/
theorem ofLine_some {line : Text} {command : Command}
    (read : ofLine line = .ok (some command)) :
    ∃ word tokens, words (cutComment line).1 = word :: tokens ∧
      ofWords word tokens = .ok command := by
  unfold ofLine at read
  split at read
  · cases read
  · next word tokens split =>
    obtain ⟨command', done, same⟩ := Except.map_ok read
    cases same
    exact ⟨word, tokens, split, done⟩

end Command

/-- The stitch that a request makes with these yarns. -/
def Request.stitch? (request : Request) (holds : Needle → Bool) (yarns : List Yarn) :
    Option Stitch :=
  match request.work with
  | .miss => none
  | .tuck => tuckStitch? request.direction request.needle yarns
  | .knit => knitStitch? holds request.direction request.needle yarns
  | .split target => splitStitch? holds request.direction request.needle target yarns

theorem CarrierTable.yarns?_resolve {t : CarrierTable} {names : List Text}
    {carriers : List Carrier} (resolved : t.resolve names = .ok carriers) :
    t.yarns? names = some (carriers.map (·.yarn)) := by
  have known := resolve_ok resolved
  unfold yarns?
  clear resolved
  induction names generalizing carriers with
  | nil =>
    rw [List.map_nil, eq_comm, List.map_eq_nil_iff] at known
    subst known
    rfl
  | cons name rest ih =>
    cases carriers with
    | nil => cases known
    | cons carrier others =>
      rw [List.map_cons, List.map_cons, List.cons.injEq] at known
      simp [known.1, ih known.2]

namespace Command

section
variable {line : Text} {request : Request}

/-- The needles of a request are among those that a source can name. -/
theorem near_ofLine (read : ofLine line = .ok (some (.loops request))) :
    request.needle.index.natAbs ≤ maxNeedleIndex ∧
      ∀ target, request.work = .split target → target.index.natAbs ≤ maxNeedleIndex := by
  obtain ⟨word, tokens, _, read⟩ := ofLine_some read
  have near {verb : LoopVerb} {tokens : List Text} (words : request.ReadFrom verb tokens) :
      request.needle.index.natAbs ≤ maxNeedleIndex ∧
        ∀ target, request.work = .split target → target.index.natAbs ≤ maxNeedleIndex := by
    obtain ⟨token, rest, rfl, needle, work⟩ := words
    refine ⟨(readSourceNeedle_ok needle).1, ?_⟩
    intro target split
    cases verb with
    | miss | tuck | knit =>
      rw [work.1] at split
      cases split
    | split =>
      obtain ⟨_, target', _, known, same⟩ := work
      rw [same] at split
      cases split
      exact (readSourceNeedle_ok known).1
  rcases ofWords_cases read with ⟨verb, request', _, read, same⟩ |
    ⟨verb, request', _, read, same⟩ | ⟨_, _, harmless⟩
  · cases same
    obtain ⟨_, _, _, _, _, words⟩ := readRequest_none read
    exact near words
  · cases same
    exact near (readRequest_some read).2
  · exact harmless.elim

/-- Behind a verb stand the carriers of the request, and it forms loops with these unless it is a
miss. -/
private theorem stitch_verb {verb : LoopVerb} {tokens : List Text}
    (read : readRequest verb none tokens = .ok request) {t : CarrierTable} {yarns : List Yarn}
    (known : t.yarns? request.carriers = some yarns) (holds : Needle → Bool) :
    stitchOfWords? t holds verb.name.toList tokens = request.stitch? holds yarns ∧
      ∀ name ∈ formingNames verb.name.toList tokens,
        name ∈ request.carriers ∧ request.work ≠ .miss := by
  obtain ⟨_, token, _, rfl, direction, token', _, rfl, needle, work⟩ := readRequest_none read
  have needle' := (readSourceNeedle_ok needle).2
  cases verb with
  | miss =>
    obtain ⟨work, rfl⟩ := work
    refine ⟨by rw [Request.stitch?, work]; rfl, ?_⟩
    intro name forms
    cases forms
  | tuck =>
    obtain ⟨work, rfl⟩ := work
    have asked : stitchOfWords? t holds LoopVerb.tuck.name.toList
        (token :: token' :: request.carriers) = (do
          tuckStitch? (← Direction.ofText? token) (← sourceNeedle? token')
            (← t.yarns? request.carriers)) := rfl
    refine ⟨asked.trans (by rw [direction, needle', known, Request.stitch?, work]; rfl),
      fun name forms => ⟨forms, by rw [work]; simp⟩⟩
  | knit =>
    obtain ⟨work, rfl⟩ := work
    have asked : stitchOfWords? t holds LoopVerb.knit.name.toList
        (token :: token' :: request.carriers) = (do
          knitStitch? holds (← Direction.ofText? token) (← sourceNeedle? token')
            (← t.yarns? request.carriers)) := rfl
    refine ⟨asked.trans (by rw [direction, needle', known, Request.stitch?, work]; rfl),
      fun name forms => ⟨forms, by rw [work]; simp⟩⟩
  | split =>
    obtain ⟨token'', target, rfl, target', work⟩ := work
    have asked : stitchOfWords? t holds LoopVerb.split.name.toList
        (token :: token' :: token'' :: request.carriers) = (do
          splitStitch? holds (← Direction.ofText? token) (← sourceNeedle? token')
            (← sourceNeedle? token'') (← t.yarns? request.carriers)) := rfl
    refine ⟨asked.trans (by rw [direction, needle', (readSourceNeedle_ok target').2, known,
      Request.stitch?, work]; rfl), fun name forms => ⟨forms, by rw [work]; simp⟩⟩

/-- A synonym has no carriers behind it. -/
private theorem stitch_synonym {word : Text} {verb : LoopVerb} (synonym : (word, verb) ∈ synonyms)
    {tokens : List Text} (read : readRequest verb (some word) tokens = .ok request)
    (bare : request.carriers = []) (t : CarrierTable) (holds : Needle → Bool) :
    stitchOfWords? t holds word tokens = request.stitch? holds [] ∧
      formingNames word tokens = [] := by
  obtain ⟨_, token, _, rfl, needle, work⟩ := readRequest_some read
  have needle' := (readSourceNeedle_ok needle).2
  simp only [synonyms, List.mem_cons, Prod.mk.injEq, List.not_mem_nil, or_false] at synonym
  rcases synonym with ⟨rfl, rfl⟩ | ⟨rfl, rfl⟩ | ⟨rfl, rfl⟩
  · exact ⟨by rw [Request.stitch?, work.1]; rfl, rfl⟩
  · obtain ⟨work, rfl⟩ := work
    have asked : stitchOfWords? t holds "drop".toList [token] = (do
        dropStitch? holds (← sourceNeedle? token)) := rfl
    rw [bare]
    exact ⟨asked.trans (by rw [needle', Request.stitch?, work]; rfl), rfl⟩
  · obtain ⟨token', target, rfl, target', work⟩ := work
    have asked : stitchOfWords? t holds "xfer".toList [token, token'] = (do
        some (.transfer (← sourceNeedle? token) (← sourceNeedle? token'))) := rfl
    rw [bare]
    refine ⟨asked.trans ?_, rfl⟩
    rw [needle', (readSourceNeedle_ok target').2, Request.stitch?, work]
    rfl

/-- A request makes the stitch that its line asks for, and forms loops with the carriers that the
line does. -/
theorem stitch_ofLine (read : ofLine line = .ok (some (.loops request)))
    (bare : request.synonym.isSome = true → request.carriers = []) {t : CarrierTable}
    {carriers : List Carrier} (resolved : t.resolve request.carriers = .ok carriers)
    (holds : Needle → Bool) :
    sourceStitch? t holds line = request.stitch? holds (carriers.map (·.yarn)) ∧
      ∀ name, formsWith name line = true → name ∈ request.carriers ∧ request.work ≠ .miss := by
  obtain ⟨word, tokens, split, read⟩ := ofLine_some read
  have known := CarrierTable.yarns?_resolve resolved
  unfold sourceStitch? formsWith
  rw [split]
  rcases ofWords_cases read with ⟨verb, request', rfl, read, same⟩ |
    ⟨verb, request', synonym, read, same⟩ | ⟨_, _, harmless⟩
  · cases same
    obtain ⟨stitch, forms⟩ := stitch_verb read known holds
    exact ⟨stitch, fun name formed => forms name (List.contains_iff_mem.1 formed)⟩
  · cases same
    have written : request.synonym = some word := (readRequest_some read).1
    have none : request.carriers = [] := bare (by rw [written]; rfl)
    obtain ⟨stitch, forms⟩ := stitch_synonym synonym read none t holds
    have unnamed : carriers.map (·.yarn) = [] := by
      rw [none] at known
      exact (Option.some.inj known).symm
    rw [unnamed]
    refine ⟨stitch, ?_⟩
    intro name formed
    have listed : name ∈ formingNames word tokens := List.contains_iff_mem.1 formed
    rw [forms] at listed
    cases listed
  · exact harmless.elim

/-- A line that is no request makes no stitch. -/
theorem quiet_ofLine {command : Option Command} (read : ofLine line = .ok command)
    (other : ∀ request, command ≠ some (.loops request)) (t : CarrierTable)
    (holds : Needle → Bool) :
    sourceStitch? t holds line = none ∧ ∀ name, formsWith name line = false := by
  cases command with
  | none =>
    have blank : words (cutComment line).1 = [] := by
      unfold ofLine at read
      split at read
      · next blank => exact blank
      · obtain ⟨_, _, same⟩ := Except.map_ok read
        cases same
    unfold sourceStitch? formsWith
    rw [blank]
    exact ⟨rfl, fun _ => rfl⟩
  | some command =>
    obtain ⟨word, tokens, split, read⟩ := ofLine_some read
    unfold sourceStitch? formsWith
    rw [split]
    rcases ofWords_cases read with ⟨_, request, _, _, rfl⟩ | ⟨_, request, _, _, rfl⟩ |
      ⟨verbs, synonyms', _⟩
    · exact absurd rfl (other request)
    · exact absurd rfl (other request)
    · have knit : word ≠ "knit".toList := verbs .knit
      have tuck : word ≠ "tuck".toList := verbs .tuck
      have split : word ≠ "split".toList := verbs .split
      have drop : word ≠ "drop".toList := fun same => synonyms' .knit (by simp [synonyms, same])
      have xfer : word ≠ "xfer".toList := fun same => synonyms' .split (by simp [synonyms, same])
      refine ⟨?_, ?_⟩
      · simp only [stitchOfWords?, if_neg knit, if_neg tuck, if_neg split, if_neg drop, if_neg xfer]
      · intro name
        simp only [formingNames, knit, tuck, split, or_false, if_false, List.contains_nil]

theorem bringsIn_ofLine {names : List Text} (read : ofLine line = .ok (some (.bringIn names))) :
    ∀ name ∈ names, bringsIn name line = true := by
  obtain ⟨word, tokens, split, read⟩ := ofLine_some read
  intro name member
  unfold bringsIn
  rw [split]
  rcases ofWords_cases read with ⟨_, _, _, _, same⟩ | ⟨_, _, _, _, same⟩ | ⟨_, _, spelled, rfl⟩
  · cases same
  · cases same
  · rcases spelled with rfl | rfl <;> simpa using member

theorem near_rack_ofLine {target : Int} (read : ofLine line = .ok (some (.rack target))) :
    target.natAbs ≤ maxRacking := by
  obtain ⟨word, tokens, _, read⟩ := ofLine_some read
  rcases ofWords_cases read with ⟨_, _, _, _, same⟩ | ⟨_, _, _, _, same⟩ | ⟨_, _, near⟩
  · cases same
  · cases same
  · exact near.1

end

end Command

end Knitout
