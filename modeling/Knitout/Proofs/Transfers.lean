import Knitout.Proofs.Objections

/-!
Transfers that cannot be made: between needles on one bed, or in different columns as the beds are
racked. A line that asks for one stops the lowering, except that a split with carriers on an empty
needle comes out as a tuck, which moves no loops and goes nowhere else. Main statement:
`impassable_transfers_stop`.
-/

namespace Knitout

/-- The line asks to move loops from one needle to another one, with these carriers: it is an
`xfer`, or a `split` in the direction that this word stands for. -/
inductive AsksToMove (line : Text) : Option Text → Needle → Needle → List Text → Prop
  | xfer {source goal : Text} {needle target : Needle} {names : List Text}
      (written : words (cutComment line).1 = "xfer".toList :: source :: goal :: names)
      (here : readSourceNeedle source = .ok needle) (there : readSourceNeedle goal = .ok target) :
    AsksToMove line none needle target names
  | split {way source goal : Text} {needle target : Needle} {names : List Text}
      (written : words (cutComment line).1 = "split".toList :: way :: source :: goal :: names)
      (here : readSourceNeedle source = .ok needle) (there : readSourceNeedle goal = .ok target) :
    AsksToMove line (some way) needle target names

section
variable {line : Text} {needle target : Needle} {names : List Text}

/-- A split is read from its direction, unless a synonym implies it, and the words behind. -/
private theorem readRequest_split {source goal : Text} (here : readSourceNeedle source = .ok needle)
    (there : readSourceNeedle goal = .ok target) (names : List Text) :
    (∀ word, readRequest .split (some word) (source :: goal :: names) =
      .ok ⟨.split target, .increasing, needle, names, some word⟩) ∧
    ∀ way, readRequest .split none (way :: source :: goal :: names) =
      match Direction.ofText? way with
      | some direction => .ok ⟨.split target, direction, needle, names, none⟩
      | none => .error (.badDirection way) := by
  constructor
  · intro word
    simp [readRequest, readNeedleArgument, here, there, bind, Except.bind, Except.map]
  · intro way
    cases known : Direction.ofText? way with
    | none => simp [readRequest, readDirectionArgument, known, bind, Except.bind]
    | some direction =>
      simp [readRequest, readDirectionArgument, readNeedleArgument, known, here, there, bind,
        Except.bind, Except.map]

theorem AsksToMove.lowerLine_xfer (asks : AsksToMove line none needle target names) (c : Context)
    (number : Nat) : c.lowerLine number line = (c.atLine line).lowerRequest
      ⟨.split target, .increasing, needle, names, some "xfer".toList⟩ := by
  cases asks with
  | @xfer source goal _ _ _ written here there =>
    have read : Command.ofWords "xfer".toList (source :: goal :: names) =
        (readRequest .split (some "xfer".toList) (source :: goal :: names)).map .loops := rfl
    unfold Context.lowerLine Command.ofLine
    simp only [written, read, (readRequest_split here there names).1]
    rfl

theorem AsksToMove.lowerLine_split {way : Text}
    (asks : AsksToMove line (some way) needle target names) (c : Context) (number : Nat) :
    c.lowerLine number line =
      match Direction.ofText? way with
      | some direction =>
        (c.atLine line).lowerRequest ⟨.split target, direction, needle, names, none⟩
      | none => .error (.badDirection way) := by
  cases asks with
  | @split _ source goal _ _ _ written here there =>
    have read : Command.ofWords "split".toList (way :: source :: goal :: names) =
        (readRequest .split none (way :: source :: goal :: names)).map .loops := rfl
    unfold Context.lowerLine Command.ofLine
    simp only [written, read, (readRequest_split here there names).2]
    cases Direction.ofText? way <;> rfl

end

namespace Context

/-- No loops pass between these needles: they are on one bed, or in different columns. -/
def Impassable (c : Context) (needle target : Needle) : Prop :=
  needle.bed = target.bed ∨ needle.column c.racking ≠ target.column c.racking

variable {c : Context} {request : Request}

/-- Lowering a request that has an objection to it other than to a carrier that is not in fails. -/
theorem lowerRequest_refuses {rank : Nat} {e : LoweringError}
    (objection : c.Objection request rank e) (early : rank < 6) :
    ∃ e', c.lowerRequest request = .error e' := by
  cases done : c.lowerRequest request with
  | error e' => exact ⟨e', rfl⟩
  | ok d =>
    obtain ⟨p, m, planned, checked, _⟩ := lowerRequest_ok done
    have written : c.Sifts request 3 (.ok p) := planned ▸ c.sifts_plan request
    have clear : c.Sifts request 6 (.ok ()) := checked ▸ sifts_checkPlan planned written
    exact absurd objection (clear rank early e)

theorem lowerRequest_impassable {target : Needle} (moves : c.MovesTo request target)
    (impassable : c.Impassable request.needle target) :
    ∃ e, c.lowerRequest request = .error e := by
  rcases impassable with same | apart
  · exact lowerRequest_refuses (.transferSameBed moves same) (by decide)
  · exact lowerRequest_refuses (.transferMisaligned moves apart) (by decide)

/-- A split with carriers on an empty needle is lowered like the tuck there. -/
theorem lowerRequest_decayed {direction : Direction} {needle : Needle} {names : List Text}
    (named : names ≠ []) (empty : c.hasLoops needle = false) (target : Needle) :
    c.lowerRequest ⟨.split target, direction, needle, names, none⟩ =
      c.lowerRequest ⟨.tuck, direction, needle, names, none⟩ := by
  have some : names.isEmpty = false := List.isEmpty_eq_false_iff.2 named
  unfold lowerRequest plan
  simp only [some, empty]
  cases c.carriers.resolve names with
  | error e => rfl
  | ok carriers => rfl

end Context

/-- A line that asks to move loops where none can pass stops the lowering, unless it is a split with
carriers on an empty needle. Such a split is lowered like the tuck there, whatever its target. -/
theorem impassable_transfers_stop (c : Context) (number : Nat) {line : Text} {way : Option Text}
    {needle target : Needle} {names : List Text} (asks : AsksToMove line way needle target names)
    (impassable : c.Impassable needle target) :
    (way = none ∨ names = [] ∨ c.hasLoops needle = true →
      ∃ e, ∀ rest, c.lowerLines number (line :: rest) = .error ⟨⟨number, e⟩, c.warnings⟩) ∧
    ∀ word, way = some word → names ≠ [] → c.hasLoops needle = false →
      c.lowerLine number line =
        match Direction.ofText? word with
        | some direction =>
          (c.atLine line).lowerRequest ⟨.tuck, direction, needle, names, none⟩
        | none => .error (.badDirection word) := by
  constructor
  · intro moves
    have stops : ∃ e, c.lowerLine number line = .error e := by
      cases way with
      | none =>
        rw [asks.lowerLine_xfer]
        by_cases bare : names = []
        · exact Context.lowerRequest_impassable ⟨rfl, .inr bare⟩ impassable
        · exact Context.lowerRequest_refuses (.carriersNotAllowed rfl bare) (by decide)
      | some word =>
        rw [asks.lowerLine_split]
        cases Direction.ofText? word with
        | none => exact ⟨_, rfl⟩
        | some direction =>
          have comes := moves.resolve_left nofun
          exact Context.lowerRequest_impassable ⟨rfl, comes.symm⟩ impassable
    obtain ⟨e, refused⟩ := stops
    exact ⟨e, fun rest => by rw [Context.lowerLines, refused]⟩
  · rintro word rfl named empty
    rw [asks.lowerLine_split]
    cases Direction.ofText? word with
    | none => rfl
    | some direction => exact Context.lowerRequest_decayed (c := c.atLine line) named empty target

/-- It asks for a split between needles of one bed. -/
def sidewaysSplit : Text :=
  "split + f0 f5 A".toList

private theorem asks_sidewaysSplit :
    AsksToMove sidewaysSplit (some ['+']) (.front 0) (.front 5) [['A']] :=
  @AsksToMove.split _ ['+'] "f0".toList "f5".toList _ _ _ (by decide) (by decide) (by decide)

/-- With loops on its needle it is refused, although its carrier is in. -/
theorem impassable_transfers_stop_split :
    ∃ c : Context, c.Arises [['A']] ∧ c.hasLoops (.front 0) = true ∧
      AsksToMove sidewaysSplit (some ['+']) (.front 0) (.front 5) [['A']] ∧
      c.Impassable (.front 0) (.front 5) ∧
      ∃ e, ∀ rest, c.lowerLines 5 (sidewaysSplit :: rest) = .error ⟨⟨5, e⟩, c.warnings⟩ := by
  let body : List Text := ["in A", "tuck + f0 A"].map String.toList
  let t : CarrierTable := ⟨[⟨['A'], 1⟩], true⟩
  have runs : ((Context.start t).lowerLines 3 body).map (fun c => c.hasLoops (.front 0)) =
      .ok true := by
    decide
  obtain ⟨c, done, holds⟩ := Except.map_ok runs
  have named : CarrierTable.ofNames [['A']] = .ok t := by decide
  have impassable : c.Impassable (.front 0) (.front 5) := .inl rfl
  exact ⟨c, ⟨t, 3, body, named, done⟩, holds, asks_sidewaysSplit, impassable,
    (impassable_transfers_stop c 5 asks_sidewaysSplit impassable).1 (.inr (.inr holds))⟩

/-- Without loops there it goes through. -/
theorem impassable_split_goes_through :
    ∃ c d : Context, c.Arises [['A']] ∧
      AsksToMove sidewaysSplit (some ['+']) (.front 0) (.front 5) [['A']] ∧
      c.Impassable (.front 0) (.front 5) ∧ c.lowerLine 4 sidewaysSplit = .ok d := by
  let t : CarrierTable := ⟨[⟨['A'], 1⟩], true⟩
  have runs : ((Context.start t).lowerLines 3 ["in A".toList]).map
      (fun c => (c.lowerLine 4 sidewaysSplit).toBool) = .ok true := by
    decide
  obtain ⟨c, done, accepted⟩ := Except.map_ok runs
  have named : CarrierTable.ofNames [['A']] = .ok t := by decide
  cases lowered : c.lowerLine 4 sidewaysSplit with
  | error e =>
    rw [lowered] at accepted
    cases accepted
  | ok d => exact ⟨c, d, ⟨t, 3, _, named, done⟩, asks_sidewaysSplit, .inl rfl, lowered⟩

end Knitout
