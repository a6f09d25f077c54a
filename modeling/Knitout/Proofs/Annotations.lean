import Knitout.Proofs.Online
import Knitout.Proofs.Reaching

/-!
Which source line an output line quotes. Each source line has a block of output lines of its own
and quotes itself on the first of them. In the middle of a line the output is only written to
(`Context.Writes`), which uses up what is to be quoted with the first slot; and what becomes of a
slot later leaves its quotation as it is. Main statement: `lines_quote_themselves_once`.
-/

namespace Knitout

/-! ## Writing -/

namespace Output

/-- What the slots quote, and behind it what the next one will quote. -/
def quotes (o : Output) : List (Option Text) :=
  o.slots.toList.map Slot.annotation ++ [ o.annotation]

/-- Slots are added, of which only the first one can have something to quote, or written anew. -/
def Writes (o o' : Output) : Prop :=
  ∃ n, o'.quotes = o.quotes ++ List.replicate n none

theorem Writes.refl (o : Output) : o.Writes o :=
  ⟨0, by simp⟩

theorem Writes.trans {a b c : Output} (first : a.Writes b) (second : b.Writes c) : a.Writes c := by
  obtain ⟨m, added⟩ := first
  obtain ⟨n, more⟩ := second
  exact ⟨m + n, by rw [more, added, List.append_assoc, List.replicate_append_replicate]⟩

theorem writes_emit (o : Output) (content : Content) : o.Writes (o.emit content) :=
  ⟨1, by simp [quotes, emit]⟩

theorem writes_fill (o : Output) (place : Nat) (content : Content) :
    o.Writes (o.fill place content) := by
  have same : (o.fill place content).slots.toList.map Slot.annotation =
      o.slots.toList.map Slot.annotation := by
    refine List.ext_getElem? fun index => ?_
    simp only [fill, List.getElem?_map, Array.getElem?_toList, Array.getElem?_modify]
    split <;> cases o.slots[index]? <;> rfl
  exact ⟨0, by rw [quotes, same]; simp [quotes, fill]⟩

theorem writes_foldl_emit (o : Output) (contents : List Content) :
    o.Writes (contents.foldl emit o) := by
  induction contents generalizing o with
  | nil => exact .refl o
  | cons content rest ih => exact (writes_emit o content).trans (ih _)

theorem writes_walk (yarn : Yarn) (heading : Direction) (n : Nat) (location : Location)
    (o : Output) : o.Writes (walk yarn heading n location o).2 := by
  induction n generalizing location o with
  | zero => exact .refl o
  | succ n ih => exact (writes_emit o _).trans (ih _ _)

end Output

namespace Context

/-- In the middle of a line the output is written to, and there are no new warnings. -/
structure Writes (c d : Context) : Prop where
  output : c.output.Writes d.output
  warnings : d.warnings = c.warnings

variable {c d : Context}

theorem Writes.refl (c : Context) : c.Writes c :=
  ⟨.refl _, rfl⟩

theorem Writes.trans {e : Context} (first : c.Writes d) (second : d.Writes e) : c.Writes e :=
  ⟨first.output.trans second.output, second.warnings.trans first.warnings⟩

theorem writes_bringIn {name : Text} (done : c.bringIn name = .ok d) : c.Writes d := by
  obtain ⟨carrier, _, done⟩ := Except.bind_ok done
  split at done
  · cases done
  · cases done
  · cases done
    exact ⟨Output.writes_emit _ _, rfl⟩

theorem writes_bringOut {name : Text} (done : c.bringOut name = .ok d) : c.Writes d := by
  obtain ⟨carrier, _, done⟩ := Except.bind_ok done
  split at done
  · cases done
    exact ⟨Output.writes_emit _ _, rfl⟩
  · cases done
  · cases done

theorem writes_forEach {step : Context → Text → Except LoweringError Context} {names : List Text}
    (each : ∀ c d name, step c name = .ok d → c.Writes d) (done : c.forEach step names = .ok d) :
    c.Writes d := by
  induction names generalizing c with
  | nil =>
    cases done
    exact .refl _
  | cons name rest ih =>
    unfold forEach at done
    split at done
    · cases done
    · next m first => exact (each c m name first).trans (ih done)

theorem writes_rack (c : Context) (target : Int) : c.Writes (c.rack target) := by
  have steps (n : Nat) (step : Int) (c : Context) : c.Writes (c.rackSteps step n) := by
    induction n generalizing c with
    | zero => exact .refl c
    | succ n ih =>
      have one : c.Writes (c.rackStep step) := ⟨Output.writes_emit _ _, rfl⟩
      exact one.trans (ih _)
  unfold rack
  split
  · exact ⟨Output.writes_emit _ _, rfl⟩
  · exact steps _ _ c

theorem writes_position {goal : Location} {carrier : Carrier}
    (done : c.position goal carrier = .ok d) : c.Writes d := by
  unfold position at done
  split at done
  · cases done
  · cases done
    exact ⟨Output.writes_fill _ _ _, rfl⟩
  · cases done
    exact ⟨Output.writes_walk _ _ _ _ _, rfl⟩

theorem writes_positionAll {goal : Location} {carriers : List Carrier}
    (done : c.positionAll goal carriers = .ok d) : c.Writes d := by
  induction carriers generalizing c with
  | nil =>
    cases done
    exact .refl _
  | cons first rest ih =>
    unfold positionAll at done
    split at done
    · cases done
    · next m placed => exact (writes_position placed).trans (ih done)

theorem writes_lowerRequest {request : Request} (done : c.lowerRequest request = .ok d) :
    c.Writes d := by
  obtain ⟨p, m, _, _, placed, rfl⟩ := lowerRequest_ok done
  obtain ⟨stages, same⟩ := m.perform_eq p
  refine (writes_positionAll placed).trans ?_
  rw [same]
  exact ⟨Output.writes_foldl_emit _ _, rfl⟩

/-- Only the operation of a vendor gives a warning, and nothing else. -/
theorem writes_execute {number : Nat} {command : Command}
    (vendor : ∀ word, command ≠ .vendor word) (done : c.execute number command = .ok d) :
    c.Writes d := by
  cases command with
  | bringIn names => exact writes_forEach (fun _ _ _ => writes_bringIn) done
  | bringOut names => exact writes_forEach (fun _ _ _ => writes_bringOut) done
  | idle | stitch | stitchNumber | setting =>
    cases done
    exact .refl c
  | rack target =>
    cases done
    exact writes_rack c target
  | vendor word => exact absurd rfl (vendor word)
  | loops request => exact writes_lowerRequest done

/-- The operation of a vendor gives a warning and does nothing else, and what any other line does is
write to the output. -/
theorem lowerLine_cases {number : Nat} {line : Text} (done : c.lowerLine number line = .ok d) :
    (∃ word, Command.ofLine line = .ok (some (.vendor word)) ∧ d = (c.atLine line).warn number
      .extension s!"unsupported extension operation '{String.ofList word}'.") ∨
    (∀ word, Command.ofLine line ≠ .ok (some (.vendor word))) ∧ (c.atLine line).Writes d := by
  unfold lowerLine at done
  simp only at done
  split at done
  · cases done
  · next command read =>
    by_cases vendor : ∃ word, command = .vendor word
    · obtain ⟨word, rfl⟩ := vendor
      cases done
      exact .inl ⟨word, read, rfl⟩
    · rw [not_exists] at vendor
      refine .inr ⟨fun word same => ?_, writes_execute vendor done⟩
      exact vendor word (Option.some.inj (Except.ok.inj (read.symm.trans same)))
  · next read =>
    cases done
    refine .inr ⟨by simp [read], ?_⟩
    split
    · exact ⟨Output.writes_emit _ _, rfl⟩
    · exact .refl _

theorem writes_lowerLine {number : Nat} {line : Text} (done : c.lowerLine number line = .ok d) :
    (c.output.beginLine line).Writes d.output := by
  rcases lowerLine_cases done with ⟨_, _, rfl⟩ | ⟨_, writes⟩
  · exact .refl _
  · exact writes.output

end Context

/-! ## Blocks -/

/-- The first of some slots quotes the line, and the others quote nothing. -/
def QuotesOnce (line : Text) (block : List Slot) : Prop :=
  block = [] ∨ ∃ n, block.map Slot.annotation = some line :: List.replicate n none

theorem QuotesOnce.congr {line : Text} {block block' : List Slot} (once : QuotesOnce line block)
    (same : block.map Slot.annotation = block'.map Slot.annotation) : QuotesOnce line block' := by
  rcases once with rfl | ⟨n, quotes⟩
  · exact .inl (List.map_eq_nil_iff.1 same.symm)
  · exact .inr ⟨n, same.symm.trans quotes⟩

/-- Output lines, the first of which quotes a source line. -/
def quoteFirst (line : Text) : List Content → List Text
  | [] => []
  | first :: rest =>
    (padTo annotationColumn first.render ++ "; ".toList ++ line) :: rest.map Content.render

theorem QuotesOnce.render {line : Text} {block : List Slot} (once : QuotesOnce line block) :
    block.map Slot.render = quoteFirst line (block.map (·.content)) := by
  rcases once with rfl | ⟨n, quotes⟩
  · rfl
  · cases block with
    | nil => cases quotes
    | cons first rest =>
      obtain ⟨first', bare⟩ : first.annotation = some line ∧
          rest.map Slot.annotation = List.replicate n none := List.cons.inj quotes
      have others : rest.map Slot.render = (rest.map (·.content)).map Content.render := by
        rw [List.map_map]
        refine List.map_congr_left fun slot member => ?_
        have quoted := List.mem_map_of_mem (f := Slot.annotation) member
        rw [bare] at quoted
        rw [Slot.render, List.eq_of_mem_replicate quoted]
        rfl
      rw [List.map_cons, others, Slot.render, first']
      rfl

/-- An output that has grown begins with the same slots, up to what has become of them. -/
theorem Output.Grows.forall₂ {o o' : Output} (grows : o.Grows o') :
    List.Forall₂ (fun slot slot' => slot.annotation = slot'.annotation ∧
      slot.content.Ripens slot'.content) o.slots.toList (o'.slots.toList.take o.slots.size) := by
  rw [List.forall₂_iff_get]
  refine ⟨by simpa using grows.size_le, fun index inside inside' => ?_⟩
  obtain ⟨slot', there, quotes, ripens⟩ :=
    grows index _ (Array.getElem?_eq_getElem (by simpa using inside))
  obtain ⟨_, rfl⟩ := Array.getElem?_eq_some_iff.1 there
  simpa using ⟨quotes.symm, ripens⟩

namespace Context

variable {c d e : Context}

/-- The slots that were added. -/
def added (c d : Context) : List Slot :=
  d.output.slots.toList.drop c.output.slots.size

/-- What was added until the end was added until some point before it, or from there on. -/
theorem added_append (within : c.output.slots.size ≤ d.output.slots.size) (e : Context) :
    c.added e =
      (e.output.slots.toList.take d.output.slots.size).drop c.output.slots.size ++ d.added e := by
  have behind : d.output.slots.size =
      c.output.slots.size + (d.output.slots.size - c.output.slots.size) :=
    (Nat.add_sub_of_le within).symm
  rw [added, added, List.drop_take, behind, ← List.drop_drop, Nat.add_sub_cancel_left,
    List.take_append_drop]

/-- An empty line adds nothing. -/
theorem slots_lowerLine_nil {number : Nat} (done : c.lowerLine number [] = .ok d) :
    d.output.slots = c.output.slots := by
  cases done
  rfl

/-- A line quotes itself once among the slots that it adds. -/
theorem quotesOnce_lowerLine {number : Nat} {line : Text} (done : c.lowerLine number line = .ok d) :
    QuotesOnce line (c.added d) := by
  obtain ⟨n, written⟩ := writes_lowerLine done
  simp only [Output.quotes, Output.beginLine, List.append_assoc, List.singleton_append] at written
  unfold added
  cases n with
  | zero =>
    have same := (List.append_inj' written rfl).1
    have size : d.output.slots.size = c.output.slots.size := by
      simpa using congrArg List.length same
    exact .inl (List.drop_of_length_le (by simp [size]))
  | succ n =>
    rw [List.replicate_succ', ← List.cons_append, ← List.append_assoc] at written
    have same := (List.append_inj' written rfl).1
    cases line with
    | nil =>
      have size := congrArg List.length same
      simp [slots_lowerLine_nil done] at size
    | cons first rest =>
      refine .inr ⟨n, ?_⟩
      rw [List.map_drop, same, List.drop_left' (by simp)]
      rfl

/-- Lines are lowered one after the other, and each adds the contents of its block, up to what
becomes of them later. -/
inductive LowersTo : Context → Nat → List Text → List (List Content) → Prop
  | nil (c : Context) (number : Nat) : LowersTo c number [] []
  | cons {c d : Context} {number : Nat} {line : Text} {rest : List Text} {block : List Content}
      {blocks : List (List Content)} (step : c.lowerLine number line = .ok d)
      (ripens : List.Forall₂ Content.Ripens ((c.added d).map (·.content)) block)
      (others : LowersTo d (number + 1) rest blocks) :
    LowersTo c number (line :: rest) (block :: blocks)

/-- Lines that are lowered have their blocks in the output, and each quotes itself on the first line
of its block. -/
theorem lowersTo_lowerLines {number : Nat} {body : List Text} (linked : c.Linked)
    (done : c.lowerLines number body = .ok e) :
    ∃ blocks, c.LowersTo number body blocks ∧
      (c.added e).map Slot.render = (List.zipWith quoteFirst body blocks).flatten := by
  induction body generalizing c number with
  | nil =>
    cases done
    exact ⟨[], .nil _ _, by simp [added]⟩
  | cons line rest ih =>
    unfold lowerLines at done
    split at done
    · cases done
    · next d step =>
      have led := leads_lowerLine linked step
      have led' := leads_lowerLines led.linked done
      obtain ⟨blocks, others, shown⟩ := ih led.linked done
      -- the slots that the first line adds, as they are in the end
      let block := (e.output.slots.toList.take d.output.slots.size).drop c.output.slots.size
      have kept := List.forall₂_drop c.output.slots.size led'.grows.forall₂
      have once : QuotesOnce line block := by
        refine (quotesOnce_lowerLine step).congr ?_
        rw [← List.forall₂_eq_eq_eq, List.forall₂_map_left_iff, List.forall₂_map_right_iff]
        exact kept.imp fun _ _ both => both.1
      refine ⟨block.map (·.content) :: blocks, .cons step ?_ others, ?_⟩
      · rw [List.forall₂_map_left_iff, List.forall₂_map_right_iff]
        exact kept.imp fun _ _ both => both.2
      · rw [added_append led.grows.size_le, List.map_append, shown, once.render]
        rfl

end Context

/-! ## Whole outputs -/

/-- Whatever lowers gives one block of output lines for each source line, in order. Where a block is
not empty, its first line is the text of its first content, padded to the column of quotations, with
the source line behind a semicolon, and the others are the texts of theirs alone. This holds for an
`in` that a later line has settled and for one that was never used, too. -/
theorem lines_quote_themselves_once :
    (∀ headers body first lowered, lowerBody headers body first = .ok lowered →
      ∃ t blocks, CarrierTable.ofNames headers.carriers = .ok t ∧
        (Context.start t).LowersTo first body blocks ∧
        lowered.lines = (List.zipWith quoteFirst body blocks).flatten) ∧
    ∀ source lowered, lower source = .ok lowered →
      ∃ block t blocks, Headers.ofLines (lines source) = .ok block ∧
        CarrierTable.ofNames block.headers.carriers = .ok t ∧
        (Context.start t).LowersTo (block.bodyStart + 1) (bodyLines source) blocks ∧
        lowered.lines = (List.zipWith quoteFirst (bodyLines source) blocks).flatten := by
  have shown {names : List Text} {t : CarrierTable} {c : Context} {first : Nat} {body : List Text}
      (named : CarrierTable.ofNames names = .ok t)
      (done : (Context.start t).lowerLines first body = .ok c) :
      ∃ blocks, (Context.start t).LowersTo first body blocks ∧
        c.output.lines = (List.zipWith quoteFirst body blocks).flatten :=
    Context.lowersTo_lowerLines (.start (CarrierTable.distinct_ofNames named).2.2) done
  refine ⟨fun headers body first lowered done => ?_, fun source lowered done => ?_⟩
  · obtain ⟨t, c, named, run, rfl⟩ := lowerBody_ok done
    obtain ⟨blocks, lowers, lines'⟩ := shown named run
    exact ⟨t, blocks, named, lowers, lines'⟩
  · obtain ⟨block, t, c, read, _, named, run, same, _⟩ := lower_ok done
    obtain ⟨blocks, lowers, lines'⟩ := shown named run
    exact ⟨block, t, blocks, read, named, lowers, same.trans lines'⟩

/-- Two carriers come in on one line, of which one is walked and the other is never used. -/
def walking : List Text :=
  ["in A B", "miss + f2 A ; ahead", "", "x-foo", "; back", "tuck - f0 A"].map String.toList

example : (lowerBody (.withCarriers [['A'], ['B']]) walking 1).map (·.lines) = .ok ([
    "in + f.1 1                    ; in A B",
    "; (carrier 'B' brought in but never used)",
    "miss + f.2 1                  ; miss + f2 A ; ahead",
    "                              ; ; back",
    "miss - f.2 1                  ; tuck - f0 A",
    "miss - f.1 1",
    "tuck - f.0 30 (1,1)"].map String.toList) := by
  set_option maxRecDepth 2000 in
  decide

theorem lines_quote_themselves_once_walking :
    ∃ lowered t blocks, lowerBody (.withCarriers [['A'], ['B']]) walking 1 = .ok lowered ∧
      CarrierTable.ofNames [['A'], ['B']] = .ok t ∧
      (Context.start t).LowersTo 1 walking blocks ∧ lowered.lines.length = 7 ∧
      lowered.lines = (List.zipWith quoteFirst walking blocks).flatten := by
  have lowers : (lowerBody (.withCarriers [['A'], ['B']]) walking 1).map (·.lines.length) =
      .ok 7 := by
    decide
  obtain ⟨lowered, done, seven⟩ := Except.map_ok lowers
  obtain ⟨t, blocks, named, run, shown⟩ := lines_quote_themselves_once.1 _ _ _ _ done
  exact ⟨lowered, t, blocks, done, named, run, seven, shown⟩

end Knitout
