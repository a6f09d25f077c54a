import Knitout.Proofs.Preamble
import Knitout.Proofs.Waiting

/-!
Lowering goes through a document once. What later lines do to the output of earlier ones is settle
the `in` of carriers that wait, and nothing else; where a lowering stops, and why, is settled by the
lines up to there. Main statement: `lowering_is_online`.
-/

namespace Knitout

/-! ## More lines -/

namespace Context

/-- A carrier of the table waits for its first use in this line of the output. -/
def WaitsIn (c : Context) (carrier : Carrier) (index : Nat) : Prop :=
  carrier ∈ c.carriers.carriers ∧ c.stages.get? carrier.yarn = some (.pending index)

/-- How the output lines of a lowering that ends in a state compare with those of one that goes
on. -/
structure Foretells (c : Context) (part whole : List Text) : Prop where
  shorter : part.length ≤ whole.length
  /-- Where no carrier waits, the lines are the same. -/
  same : ∀ index, index < part.length → (∀ carrier, ¬ c.WaitsIn carrier index) →
    whole[index]? = part[index]?
  /-- Where a carrier waits, the shorter output has the remark that the carrier was never used. The
  longer one has that, or an `in` of the carrier, with the same line quoted. -/
  waiting : ∀ carrier index, c.WaitsIn carrier index → ∃ annotation content,
    part[index]? = some (Slot.render ⟨.pendingIn carrier, annotation⟩) ∧
      whole[index]? = some (Slot.render ⟨content, annotation⟩) ∧
      (content = .pendingIn carrier ∨ ∃ direction needle,
        content = .operation (.bringIn direction needle carrier.yarn))

variable {c c' : Context} {carrier : Carrier} {index : Nat}

theorem waitsIn_iff : c.WaitsIn carrier index ↔
    carrier ∈ c.carriers.carriers ∧ c.stand carrier.yarn = .waiting index := by
  unfold WaitsIn stand
  cases c.stages.get? carrier.yarn with
  | none => simp
  | some stage => cases stage <;> simp [CarrierStage.stand]

theorem foretells_of_leads (linked : c.Linked) (led : Leads c c') :
    c.Foretells c.output.lines c'.output.lines := by
  have line (o : Output) (index : Nat) : o.lines[index]? = o.slots[index]?.map Slot.render := by
    simp [Output.lines]
  refine ⟨?_, ?_, ?_⟩
  · simpa [Output.lines] using led.grows.size_le
  · intro index inside free
    have inside : index < c.output.slots.size := by simpa [Output.lines] using inside
    obtain ⟨slot, there⟩ : ∃ slot, c.output.slots[index]? = some slot :=
      ⟨_, Array.getElem?_eq_getElem inside⟩
    obtain ⟨slot', there', quoted, ripens⟩ := led.grows index slot there
    rw [line, line, there, there']
    obtain ⟨content, annotation⟩ := slot
    obtain ⟨content', annotation'⟩ := slot'
    simp only at quoted ripens
    subst quoted
    cases ripens with
    | same => rfl
    | @brought carrier _ _ =>
      have held : c.output.content? index = some (.pendingIn carrier) := by
        rw [Output.content?, there]
        rfl
      have listed := linked.listed index carrier held
      have waits := (linked.waiting carrier listed index).2 held
      exact absurd (waitsIn_iff.2 ⟨listed, waits⟩) (free carrier)
  · intro carrier index waits
    have held := (linked.waiting carrier waits.1 index).1 (waitsIn_iff.1 waits).2
    obtain ⟨⟨content, annotation⟩, there, rfl⟩ := Option.map_eq_some_iff.1 held
    obtain ⟨⟨content', annotation'⟩, there', quoted, ripens⟩ := led.grows index _ there
    simp only at quoted ripens
    subst quoted
    refine ⟨annotation', content', by rw [line, there]; rfl, by rw [line, there']; rfl, ?_⟩
    cases ripens with
    | same => exact .inl rfl
    | brought => exact .inr ⟨_, _, rfl⟩

end Context

/-! ## Bodies -/

theorem lowerBody_ok {headers : Headers} {body : List Text} {first : Nat} {lowered : Lowered}
    (done : lowerBody headers body first = .ok lowered) :
    ∃ t c, CarrierTable.ofNames headers.carriers = .ok t ∧
      (Context.start t).lowerLines first body = .ok c ∧ lowered = c.finish headers := by
  unfold lowerBody at done
  split at done
  · cases done
  · next t made =>
    split at done
    · cases done
    · next c lines =>
      cases done
      exact ⟨t, c, made, lines, rfl⟩

/-- Fewer lines lower if more do, to the same output lines but for the carriers that wait. -/
theorem lowerBody_append {headers : Headers} {xs ys : List Text} {first : Nat} {whole : Lowered}
    (done : lowerBody headers (xs ++ ys) first = .ok whole) :
    ∃ t c part, CarrierTable.ofNames headers.carriers = .ok t ∧
      (Context.start t).lowerLines first xs = .ok c ∧ lowerBody headers xs first = .ok part ∧
      c.Foretells part.lines whole.lines := by
  obtain ⟨t, d, made, lines, rfl⟩ := lowerBody_ok done
  rw [Context.lowerLines_append] at lines
  obtain ⟨c, before, after⟩ := Except.bind_ok lines
  have distinct := (CarrierTable.distinct_ofNames made).2.2
  have linked := (Context.leads_lowerLines (.start distinct) before).linked
  refine ⟨t, c, c.finish headers, made, before, ?_,
    Context.foretells_of_leads linked (Context.leads_lowerLines linked after)⟩
  unfold lowerBody
  simp only [made, before]

/-! ## Documents -/

/-- The first line of a text that a line feed ends, and the lines behind it. -/
theorem lines_append_newline {piece : Text} (whole : '\n' ∉ piece) (rest : Text) :
    lines (piece ++ '\n' :: rest) = dropReturn piece :: lines rest := by
  obtain ⟨head, tail, split⟩ := List.exists_cons_of_ne_nil (List.splitOn_ne_nil '\n' rest)
  unfold lines
  rw [List.splitOn_append_cons_self_of_not_mem whole, split]
  simp only [List.dropLast_cons_cons, List.map_cons, List.getLast?_cons_cons, List.cons_append]

/-- The first lines of a text are the lines of what it begins with. -/
theorem exists_lines_eq_take (text : Text) (count : Nat) :
    ∃ start, start <+: text ∧ lines start = (lines text).take count := by
  induction count generalizing text with
  | zero => exact ⟨[], List.nil_prefix, rfl⟩
  | succ count ih =>
    by_cases more : '\n' ∈ text
    · obtain ⟨piece, rest, rfl, whole⟩ := List.eq_append_cons_of_mem more
      obtain ⟨start, ⟨others, rfl⟩, same⟩ := ih rest
      refine ⟨piece ++ '\n' :: start, ⟨others, by simp⟩, ?_⟩
      rw [lines_append_newline whole, lines_append_newline whole, List.take_succ_cons, same]
    · refine ⟨text, List.prefix_refl text, ?_⟩
      have single : (lines text).length ≤ 1 := by
        unfold lines
        rw [List.splitOn_eq_singleton more]
        cases text <;> simp
      rw [List.take_of_length_le (by omega)]

/-- Behind a header the lines are lowered with its carriers. -/
theorem lowerLines_of_header {source : List Text} {block : HeaderBlock} {t : CarrierTable}
    (read : Headers.ofLines source = .ok block)
    (made : CarrierTable.ofNames block.headers.carriers = .ok t) :
    lowerLines source =
      match (Context.start t).lowerLines (block.bodyStart + 1) (source.drop block.bodyStart) with
      | .error failure => .error { failure with warnings := block.warnings ++ failure.warnings }
      | .ok c => .ok { c.finish block.headers with
          warnings := block.warnings ++ (c.finish block.headers).warnings } := by
  unfold lowerLines lowerBody
  rw [read]
  simp only [made]
  cases (Context.start t).lowerLines (block.bodyStart + 1) (source.drop block.bodyStart) <;> rfl

/-- A failure behind the header: the lines before it lower, and it is the same whatever lines
follow. -/
theorem lower_error {source : List Text} {block : HeaderBlock} {failure : LowerFailure}
    (read : Headers.ofLines source = .ok block) (stopped : lowerLines source = .error failure) :
    ∃ before line after, source = before ++ line :: after ∧
      failure.error.line = before.length + 1 ∧ block.bodyStart ≤ before.length ∧
      (∃ lowered, lowerLines before = .ok lowered) ∧
      ∀ rest, lowerLines (before ++ line :: rest) = .error failure := by
  obtain ⟨t, made⟩ := Headers.named_ofLines read
  rw [lowerLines_of_header read made] at stopped
  obtain ⟨head, body, rfl, length, same, warnings, short⟩ := Headers.ofLines_ok read
  rw [← length, List.drop_left] at stopped
  split at stopped
  · next inner failed =>
    obtain ⟨before, line, after, d, e, rfl, done, refused, rfl⟩ := Context.lowerLines_error failed
    cases stopped
    refine ⟨head ++ before, line, after, by simp, ?_, ?_, ?_, fun rest => ?_⟩
    · rw [List.length_append]
      simp only
      omega
    · rw [List.length_append]
      omega
    · -- without lines behind the header its block is read without the line that ends it
      obtain ⟨block', read', headers, place⟩ : ∃ block', Headers.ofLines (head ++ before) =
          .ok block' ∧ block'.headers = block.headers ∧ block'.bodyStart = head.length := by
        cases before with
        | nil =>
          rw [List.append_nil]
          exact ⟨{ block with warnings }, short, rfl, length.symm⟩
        | cons first others => exact ⟨block, same _ (by simp), rfl, length.symm⟩
      rw [lowerLines_of_header read' (headers ▸ made), place, List.drop_left, done]
      exact ⟨_, rfl⟩
    · have read' : Headers.ofLines (head ++ (before ++ line :: rest)) = .ok block :=
        same _ (by cases before <;> simp)
      rw [List.append_assoc, lowerLines_of_header read' made, ← length, List.drop_left,
        Context.lowerLines_stops done refused]
  · cases stopped

/-- Lowering is an online pass. If the lines of a body lower, so do the first ones, to the first
lines of the output but for the carriers that still wait. If a document fails at a line behind the
header, the lines before it lower, and every document with the same lines up to there fails in the
same way. -/
theorem lowering_is_online :
    (∀ headers xs ys first whole, lowerBody headers (xs ++ ys) first = .ok whole →
      ∃ t c part, CarrierTable.ofNames headers.carriers = .ok t ∧
        (Context.start t).lowerLines first xs = .ok c ∧ lowerBody headers xs first = .ok part ∧
        c.Foretells part.lines whole.lines) ∧
    (∀ text block failure, Headers.ofLines (lines text) = .ok block →
      lower text = .error failure →
        (block.bodyStart < failure.error.line ∧ failure.error.line ≤ (lines text).length) ∧
        (∃ start, start <+: text ∧ lines start = (lines text).take (failure.error.line - 1)) ∧
        (∀ start, lines start = (lines text).take (failure.error.line - 1) →
          ∃ lowered, lower start = .ok lowered) ∧
        ∀ other, (lines other).take failure.error.line = (lines text).take failure.error.line →
          lower other = .error failure) := by
  refine ⟨fun headers xs ys first whole done => lowerBody_append done, ?_⟩
  intro text block failure read stopped
  obtain ⟨before, line, after, split, place, behind, fine, same⟩ := lower_error read stopped
  rw [split, place]
  have upTo : before ++ line :: after = (before ++ [line]) ++ after := by simp
  refine ⟨⟨Nat.lt_succ_of_le behind, by simp⟩, ?_, ?_, ?_⟩
  · rw [← split]
    exact exists_lines_eq_take text _
  · intro start cut
    rw [Nat.add_sub_cancel, List.take_left] at cut
    rw [lower, cut]
    exact fine
  · intro other cut
    rw [upTo, List.take_left' (by simp)] at cut
    have rest : lines other = before ++ line :: (lines other).drop (before.length + 1) := by
      conv_lhs => rw [← List.take_append_drop (before.length + 1) (lines other), cut]
      simp
    rw [lower, rest]
    exact same _

/-- Two carriers come in on one line, and one of them is to go out before it is used. -/
def unusedOut : Text :=
  joinLines ([
    ";!knitout-2",
    ";;Carriers: A B",
    "in A B",
    "out B",
    "tuck + f0 A"].map String.toList)

/-- The first use of `A` comes after the lines that brought it in, and `B` is never used. -/
theorem lowering_is_online_unused :
    (∃ whole t c part,
      lowerBody (.withCarriers [['A'], ['B']]) (["in A B".toList] ++ ["tuck + f0 A".toList]) 3 =
        .ok whole ∧
      CarrierTable.ofNames [['A'], ['B']] = .ok t ∧
      (Context.start t).lowerLines 3 ["in A B".toList] = .ok c ∧
      lowerBody (.withCarriers [['A'], ['B']]) ["in A B".toList] 3 = .ok part ∧
      c.Foretells part.lines whole.lines) ∧
    ∃ failure, lower unusedOut = .error failure ∧ failure.error.line = 4 ∧
      (∀ start, lines start = (lines unusedOut).take 3 → ∃ lowered, lower start = .ok lowered) ∧
      ∀ other, (lines other).take 4 = (lines unusedOut).take 4 → lower other = .error failure := by
  refine ⟨?_, ?_⟩
  · have lowers : (lowerBody (.withCarriers [['A'], ['B']])
        (["in A B".toList] ++ ["tuck + f0 A".toList]) 3).map (·.lines.length) = .ok 3 := by
      decide
    obtain ⟨whole, done, _⟩ := Except.map_ok lowers
    obtain ⟨t, c, part, made, before, shorter, foretells⟩ := lowering_is_online.1 _ _ _ _ _ done
    exact ⟨whole, t, c, part, done, made, before, shorter, foretells⟩
  · have header : Headers.ofLines (lines unusedOut) =
        .ok ⟨.withCarriers [['A'], ['B']], 2, []⟩ := by decide
    have stops : lower unusedOut = .error ⟨⟨4, .outPending ['B']⟩, []⟩ := by decide
    obtain ⟨_, _, fewer, more⟩ := lowering_is_online.2 _ _ _ header stops
    exact ⟨_, stops, rfl, fewer, more⟩

end Knitout
