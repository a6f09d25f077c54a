import Knitout.Proofs.Numerals
import Knitout.Proofs.Settling
import Knitout.Lowering.Loops

/-!
The motions that take the beds onto themselves: to move all needles along, and to look at the machine
in a mirror (`Motion`). A motion moves columns as it moves needles, also when the beds are racked
(`Motion.column_needle`, `Motion.column_location`), so distances stay and aligned needles stay
aligned.
-/

namespace Knitout

/-- A motion of both beds at once. -/
inductive Motion where
  /-- Every needle goes this far along its bed. -/
  | shift (offset : Int)
  /-- Left and right are exchanged. -/
  | mirror
  deriving DecidableEq

namespace Motion

/-! ## What a motion moves -/

def index (m : Motion) (index : Int) : Int :=
  match m with
  | .shift offset => index + offset
  | .mirror => -index

def needle (m : Motion) (needle : Needle) : Needle :=
  { needle with index := m.index needle.index }

/-- In a mirror the back bed is racked the other way. -/
def racking (m : Motion) (racking : Int) : Int :=
  match m with
  | .shift _ => racking
  | .mirror => -racking

def direction (m : Motion) (direction : Direction) : Direction :=
  match m with
  | .shift _ => direction
  | .mirror => direction.opposite

def location (m : Motion) (location : Location) : Location :=
  ⟨m.needle location.needle, m.direction location.direction⟩

/-- The column of a feeder. One that passed a needle upwards stands one column higher than one that
passed it downwards, so a mirror does not take column zero to itself. -/
def column (m : Motion) (column : Int) : Int :=
  match m with
  | .shift offset => column + offset
  | .mirror => 1 - column

def operation (m : Motion) : Operation → Operation
  | .knit direction needle length strands =>
    .knit (m.direction direction) (m.needle needle) length strands
  | .tuck direction needle length strands =>
    .tuck (m.direction direction) (m.needle needle) length strands
  | .split direction needle target length strands =>
    .split (m.direction direction) (m.needle needle) (m.needle target) length strands
  | .miss direction needle yarn => .miss (m.direction direction) (m.needle needle) yarn
  | .bringIn direction needle yarn => .bringIn (m.direction direction) (m.needle needle) yarn
  | .bringOut direction needle yarn => .bringOut (m.direction direction) (m.needle needle) yarn
  | .drop needle => .drop (m.needle needle)
  | .transfer needle target => .transfer (m.needle needle) (m.needle target)
  | .rack racking => .rack (m.racking racking)

def content (m : Motion) : Content → Content
  | .operation op => .operation (m.operation op)
  | .remark note => .remark note
  | .pendingIn carrier => .pendingIn carrier

def work (m : Motion) : LoopWork → LoopWork
  | .split target => .split (m.needle target)
  | .miss => .miss
  | .tuck => .tuck
  | .knit => .knit

def action (m : Motion) : Action → Action
  | .split target => .split (m.needle target)
  | .transfer target => .transfer (m.needle target)
  | .miss => .miss
  | .tuck => .tuck
  | .amiss => .amiss
  | .knit => .knit
  | .drop => .drop
  | .emptyDrop => .emptyDrop

/-! ## What a motion leaves -/

variable (m : Motion)

theorem needle_inj {needle needle' : Needle} :
    m.needle needle = m.needle needle' ↔ needle = needle' := by
  obtain ⟨bed, index⟩ := needle
  obtain ⟨bed', index'⟩ := needle'
  cases m <;> simp [Motion.needle, Motion.index]

theorem index_inj {i j : Int} : m.index i = m.index j ↔ i = j := by
  cases m <;> simp [Motion.index]

theorem natAbs_index_sub (i j : Int) : (m.index i - m.index j).natAbs = (i - j).natAbs := by
  cases m <;> simp only [Motion.index] <;> omega

theorem column_needle (needle : Needle) (racking : Int) :
    (m.needle needle).column (m.racking racking) = m.index (needle.column racking) := by
  obtain ⟨bed, index⟩ := needle
  cases m <;> cases bed <;>
    simp only [Motion.needle, Motion.racking, Motion.index, Needle.column] <;> omega

theorem index_add_step (index : Int) (direction : Direction) :
    m.index (index + direction.step) = m.index index + (m.direction direction).step := by
  cases m <;> cases direction <;>
    simp only [Motion.index, Motion.direction, Direction.opposite, Direction.step] <;> omega

theorem index_sub_step (index : Int) (direction : Direction) :
    m.index (index - direction.step) = m.index index - (m.direction direction).step := by
  cases m <;> cases direction <;>
    simp only [Motion.index, Motion.direction, Direction.opposite, Direction.step] <;> omega

theorem direction_opposite (direction : Direction) :
    m.direction direction.opposite = (m.direction direction).opposite := by
  cases m <;> cases direction <;> rfl

theorem direction_inj {direction direction' : Direction} :
    m.direction direction = m.direction direction' ↔ direction = direction' := by
  cases m <;> cases direction <;> cases direction' <;> simp [Motion.direction, Direction.opposite]

theorem column_location (location : Location) (racking : Int) :
    (m.location location).column (m.racking racking) = m.column (location.column racking) := by
  obtain ⟨needle, direction⟩ := location
  simp only [Location.column, Motion.location, column_needle]
  cases m <;> cases direction <;>
    simp only [Motion.index, Motion.column, Motion.direction, Direction.opposite,
      Direction.feederOffset] <;> omega

theorem natAbs_column_sub (x y : Int) : (m.column x - m.column y).natAbs = (x - y).natAbs := by
  cases m <;> simp only [Motion.column] <;> omega

theorem advance_location (location : Location) (heading : Direction) :
    (m.location location).advance (m.direction heading) = m.location (location.advance heading) := by
  obtain ⟨⟨bed, index⟩, direction⟩ := location
  unfold Location.advance
  simp only [Motion.location, direction_inj]
  by_cases same : direction = heading
  · simp [same, Motion.needle, index_add_step]
  · simp [same]

theorem follow_location (source target : Needle) (location : Location) :
    Location.follow (m.needle source) (m.needle target) (m.location location) =
      m.location (Location.follow source target location) := by
  unfold Location.follow
  simp only [Motion.location, needle_inj]
  by_cases same : location.needle = source <;> simp [same]

theorem onFrontBed_location (racking : Int) (location : Location) :
    Context.onFrontBed (m.racking racking) (m.location location) =
      m.location (Context.onFrontBed racking location) := by
  obtain ⟨needle, direction⟩ := location
  have column := m.column_needle needle racking
  obtain ⟨bed, index⟩ := needle
  cases bed with
  | front => rfl
  | back =>
    show Location.mk (.front ((m.needle ⟨.back, index⟩).column (m.racking racking)))
      (m.direction direction) = _
    rw [column]
    rfl

theorem racking_inj {r s : Int} : m.racking r = m.racking s ↔ r = s := by
  cases m <;> simp [Motion.racking]

theorem racking_add (r s : Int) : m.racking (r + s) = m.racking r + m.racking s := by
  cases m <;> simp only [Motion.racking]
  omega

theorem racking_sub (r s : Int) : m.racking (r - s) = m.racking r - m.racking s := by
  cases m <;> simp only [Motion.racking]
  omega

theorem sign_racking (r : Int) : (m.racking r).sign = m.racking r.sign := by
  cases m <;> simp [Motion.racking]

theorem natAbs_racking (r : Int) : (m.racking r).natAbs = r.natAbs := by
  cases m <;> simp [Motion.racking]

/-- What the work becomes does not depend on where it is. -/
theorem action_work (work : LoopWork) (hasLoops hasCarriers : Bool) :
    (m.work work).action hasLoops hasCarriers = m.action (work.action hasLoops hasCarriers) := by
  cases work <;> cases hasLoops <;> cases hasCarriers <;> rfl

/-! ## Words and errors -/

/-- The letters in front of the index of a needle; an `s` marks a slider. -/
def needleLead (bed : Bed) (slider : Bool) : Text :=
  bed.letter :: if slider then ['s'] else []

/-- The indices that may be moved: along the bed, those that are accepted before and after; into the
mirror, all but the two of which only the lower one fits a signed 64-bit word. -/
def Admits (index : Int) : Prop :=
  match m with
  | .shift offset => index.natAbs ≤ maxNeedleIndex ∧ (index + offset).natAbs ≤ maxNeedleIndex
  | .mirror => index.natAbs ≠ 9223372036854775808

/-- The second word names the moved needle. A word that names none stays as it is. -/
inductive NeedleWord : Text → Text → Prop
  | index (bed : Bed) (slider : Bool) {digits digits' : Text} {i : Int}
      (old : IndexSpelled i digits) (new : IndexSpelled (m.index i) digits') (admitted : m.Admits i) :
    NeedleWord (needleLead bed slider ++ digits) (needleLead bed slider ++ digits')
  | other {word : Text} (unread : ∀ bed slider digits i, IndexSpelled i digits →
      word ≠ needleLead bed slider ++ digits) : NeedleWord word word

/-- Digits, perhaps with a point before the last of them. -/
inductive RackingDigits : Text → Prop
  | whole {digits : Text} (filled : isDigits digits = true) : RackingDigits digits
  | point {front digits : Text} (whole : ∀ c ∈ front, c.isDigit = true)
      (filled : isDigits digits = true) : RackingDigits (front ++ '.' :: digits)

/-- The second word says the moved racking. In the mirror a number has the opposite sign, which a
zero need not have; a word that is no number stays as it is. -/
inductive RackingWord : Text → Text → Prop
  | same {word : Text} (still : m = .mirror → ¬ RackingDigits (Literal.cutSign word).2) :
    RackingWord word word
  | opposite {word word' : Text} (mirrored : m = .mirror)
      (number : RackingDigits (Literal.cutSign word).2)
      (digits : (Literal.cutSign word').2 = (Literal.cutSign word).2)
      (sign : (Literal.cutSign word').1 = (!(Literal.cutSign word).1) ∨
        ∀ c ∈ (Literal.cutSign word).2, c = '0' ∨ c = '.') :
    RackingWord word word'

/-- The second word is the moved direction. A word that is no direction stays as it is. -/
def DirectionWord (word word' : Text) : Prop :=
  match Direction.ofText? word with
  | some direction => word' = [(m.direction direction).sign]
  | none => word' = word

/-- The same error, about what was moved. -/
inductive Errors : LoweringError → LoweringError → Prop
  | same (e : LoweringError) : Errors e e
  | badNeedle {word word' : Text} (moved : m.NeedleWord word word') :
    Errors (.badNeedle word) (.badNeedle word')
  | slider {word word' : Text} (moved : m.NeedleWord word word') :
    Errors (.slider word) (.slider word')
  | needleOutOfRange {word word' : Text} (moved : m.NeedleWord word word') :
    Errors (.needleOutOfRange word) (.needleOutOfRange word')
  | rackOutOfRange {word word' : Text} (moved : m.RackingWord word word') :
    Errors (.rackOutOfRange word) (.rackOutOfRange word')
  | sameBed (source target : Needle) :
    Errors (.transferSameBed source target) (.transferSameBed (m.needle source) (m.needle target))
  | misaligned (source target : Needle) (racking : Int) :
    Errors (.transferMisaligned source target racking)
      (.transferMisaligned (m.needle source) (m.needle target) (m.racking racking))

/-- Two computations that both succeed, with related results, or both fail with the same error. -/
inductive Outcomes {α β : Type} (related : α → β → Prop) :
    Except LoweringError α → Except LoweringError β → Prop
  | ok {a : α} {b : β} (results : related a b) : Outcomes related (.ok a) (.ok b)
  | error {e e' : LoweringError} (errors : m.Errors e e') : Outcomes related (.error e) (.error e')

variable {m}

theorem Outcomes.cases {α β : Type} {related : α → β → Prop} {x : Except LoweringError α}
    {y : Except LoweringError β} (outcomes : m.Outcomes related x y) :
    (∃ a b, x = .ok a ∧ y = .ok b ∧ related a b) ∨
      ∃ e e', x = .error e ∧ y = .error e' ∧ m.Errors e e' := by
  cases outcomes with
  | ok results => exact .inl ⟨_, _, rfl, rfl, results⟩
  | error errors => exact .inr ⟨_, _, rfl, rfl, errors⟩

theorem Outcomes.bind {α β γ δ : Type} {related : α → β → Prop} {related' : γ → δ → Prop}
    {x : Except LoweringError α} {y : Except LoweringError β} {f : α → Except LoweringError γ}
    {g : β → Except LoweringError δ} (first : m.Outcomes related x y)
    (second : ∀ a b, related a b → m.Outcomes related' (f a) (g b)) :
    m.Outcomes related' (x >>= f) (y >>= g) := by
  cases first with
  | ok results => exact second _ _ results
  | error errors => exact .error errors

theorem Outcomes.map {α β γ δ : Type} {related : α → β → Prop} {related' : γ → δ → Prop}
    {x : Except LoweringError α} {y : Except LoweringError β} {f : α → γ} {g : β → δ}
    (first : m.Outcomes related x y) (second : ∀ a b, related a b → related' (f a) (g b)) :
    m.Outcomes related' (x.map f) (y.map g) := by
  cases first with
  | ok results => exact .ok (second _ _ results)
  | error errors => exact .error errors

end Motion

end Knitout
