import Knitout.Proofs.Images
import Knitout.Proofs.Slots

/-!
Moving all needles along the beds, and exchanging left and right, before the lowering or after it.
Main statement: the lowering of the images of all lines is the image of the lowering
(`lowering_commutes`).
-/

namespace Knitout

variable {m : Motion}

/-! ## Lowering -/

/-- The operation of a slot that can be read. -/
def Content.legible? : Content → Option Operation
  | .operation op => if op.Narrow then some op else none
  | _ => none

theorem Motion.narrow_operation {op : Operation} : (m.operation op).Narrow ↔ op.Narrow := by
  have same : (m.operation op).yarns = op.yarns := by cases op <;> rfl
  rw [Operation.Narrow, same, Operation.Narrow]

theorem Motion.legible?_content (content : Content) :
    (m.content content).legible? = content.legible?.map m.operation := by
  cases content with
  | remark | pendingIn => rfl
  | operation op =>
    show (if (m.operation op).Narrow then _ else _) = _
    by_cases narrow : op.Narrow
    · rw [if_pos (m.narrow_operation.2 narrow)]
      simp [Content.legible?, narrow]
    · rw [if_neg (mt m.narrow_operation.1 narrow)]
      simp [Content.legible?, narrow]

/-- The operations that are read from an output are those of its slots, remarks apart. -/
theorem Output.operations_ofLines {o : Output} (formed : o.Formed) :
    (Program.ofLines o.lines).instructions.map (·.operation) =
      o.essence.filterMap (·.content.legible?) := by
  rw [Program.instructions_ofLines, lines, List.zipIdx_map, List.filterMap_map, List.map_filterMap,
    essence, List.filterMap_filter]
  conv_rhs => rw [← List.zipIdx_map_fst 1 o.slots.toList, List.filterMap_map]
  refine List.filterMap_congr ?_
  rintro ⟨slot, number⟩ member
  have inside : slot ∈ o.slots.toList := (List.mem_zipIdx member).2.2 ▸ List.getElem_mem _
  have read := Slot.onLine?_render (formed slot inside) number
  simp only [Function.comp_apply, Prod.map, id_eq]
  rw [read]
  obtain ⟨content, annotation⟩ := slot
  cases content with
  | remark | pendingIn => rfl
  | operation op =>
    by_cases narrow : op.Narrow <;>
      simp [Slot.instruction?, Content.legible?, Content.isRemark, narrow]

/-- Outputs that are the same up to a motion are read so. -/
theorem Motion.operations_moved {quotes : Text → Text → Prop} {o o' : Output}
    (formed : o.Formed) (formed' : o'.Formed)
    (slots : List.Forall₂ (m.Slots quotes) o.essence o'.essence) :
    (Program.ofLines o'.lines).instructions.map (·.operation) =
      ((Program.ofLines o.lines).instructions.map (·.operation)).map m.operation := by
  rw [Output.operations_ofLines formed, Output.operations_ofLines formed', List.map_filterMap]
  generalize o.essence = slots₁, o'.essence = slots₂ at slots
  induction slots with
  | nil => rfl
  | cons first _ ih =>
    simp only [List.filterMap_cons, first.content, m.legible?_content, ih]

theorem Context.Alike.start (m : Motion) (quotes : Text → Text → Prop) (t : CarrierTable) :
    (Context.start t).Alike m quotes (Context.start t) := by
  refine ⟨rfl, fun _ => .none, fun _ => rfl, ?_, .nil⟩
  cases m <;> rfl

/-- Lowering commutes with moving all needles along the beds, as long as their indices are accepted
before and after, and with exchanging left and right, as long as all indices fit a signed 64-bit word
on either side: the images of the lines give the images of the operations, in the same order and with
the same yarns and lengths, and the image of the loops and of the racking; or both fail, at the same
line and with the same error. -/
theorem lowering_commutes (m : Motion) (headers : Headers) {body body' : List Text}
    (moved : List.Forall₂ m.Line body body') (firstLine : Nat) :
    (∃ lowered lowered', lowerBody headers body firstLine = .ok lowered ∧
        lowerBody headers body' firstLine = .ok lowered' ∧
        (Program.ofLines lowered'.lines).instructions.map (·.operation) =
          ((Program.ofLines lowered.lines).instructions.map (·.operation)).map m.operation ∧
        (∀ needle, lowered'.loops.get? (m.needle needle) = lowered.loops.get? needle) ∧
        lowered'.racking = m.racking lowered.racking) ∨
      ∃ line e e' warnings warnings',
        lowerBody headers body firstLine = .error ⟨⟨line, e⟩, warnings⟩ ∧
        lowerBody headers body' firstLine = .error ⟨⟨line, e'⟩, warnings'⟩ ∧ m.Errors e e' := by
  unfold lowerBody
  cases named : CarrierTable.ofNames headers.carriers with
  | error e => exact .inr ⟨_, e, e, _, _, rfl, rfl, .same e⟩
  | ok t =>
    obtain ⟨_, _, distinct⟩ := CarrierTable.distinct_ofNames named
    have linked : (Context.start t).Linked := .start distinct
    have formed {lines : List Text} {c : Context}
        (run : (Context.start t).lowerLines firstLine lines = .ok c) : c.output.Formed :=
      (Context.ranged_lowerLines (.start t) linked (fun _ _ => trivial) run
        : c.Ranged fun _ => True).output.formed
    have lines : List.Forall₂ (m.Lines m.Line) body body' := moved.imp fun _ _ => Motion.Line.lines
    dsimp only
    rcases Context.lowerLines_moved (.start m m.Line t) linked linked lines firstLine firstLine with
      ⟨c, d, run, run', alike⟩ | ⟨place, e, e', _, _, stopped, stopped', errors⟩
    · rw [run, run']
      exact .inl ⟨_, _, rfl, rfl, Motion.operations_moved (formed run) (formed run') alike.slots,
        alike.loops, alike.racking⟩
    · rw [stopped, stopped']
      exact .inr ⟨_, e, e', _, _, rfl, rfl, errors⟩

/-- A loop that is transferred to the back bed over one column of racking. -/
def slanted : List Text :=
  ["in A", "tuck - f2 A", "rack 1", "xfer f2 b1"].map String.toList

/-- The same in a mirror. -/
def slantedBack : List Text :=
  ["in A", "tuck + f-2 A", "rack -1", "xfer f-2 b-1"].map String.toList

theorem lowering_commutes_slanted :
    List.Forall₂ Motion.mirror.Line slanted slantedBack ∧
      ∃ lowered lowered', lowerBody (.withCarriers ["A".toList]) slanted 3 = .ok lowered ∧
        lowerBody (.withCarriers ["A".toList]) slantedBack 3 = .ok lowered' ∧
        (Program.ofLines lowered'.lines).instructions.map (·.operation) =
          ((Program.ofLines lowered.lines).instructions.map (·.operation)).map
            Motion.mirror.operation ∧
        (∀ needle, lowered'.loops.get? (Motion.mirror.needle needle) = lowered.loops.get? needle) ∧
        lowered'.racking = Motion.mirror.racking lowered.racking := by
  have number {i : Int} {digits : Text} (read : intValue? digits = some i) :
      IndexSpelled i digits := intValue?_eq_some_iff.1 read
  have two : Motion.mirror.NeedleWord "f2".toList "f-2".toList :=
    .index .front false (number (show intValue? ['2'] = some 2 by decide))
      (number (show intValue? ['-', '2'] = some (-2) by decide))
      (show Int.natAbs 2 ≠ 9223372036854775808 by decide)
  have one : Motion.mirror.NeedleWord "b1".toList "b-1".toList :=
    .index .back false (number (show intValue? ['1'] = some 1 by decide))
      (number (show intValue? ['-', '1'] = some (-1) by decide))
      (show Int.natAbs 1 ≠ 9223372036854775808 by decide)
  have racking : Motion.mirror.RackingWord "1".toList "-1".toList :=
    .opposite rfl (.whole (by decide)) (by decide) (.inl (by decide))
  have moved : List.Forall₂ Motion.mirror.Line slanted slantedBack := by
    refine .cons ?_ (.cons ?_ (.cons ?_ (.cons ?_ .nil)))
    · exact .operation (show _ = ["in".toList, "A".toList] by decide) (by decide) (by decide)
        (.rest _)
    · exact .operation (show _ = ["tuck".toList, "-".toList, "f2".toList, "A".toList] by decide)
        (by decide) (by decide) (.cons rfl (.cons two (.rest _)))
    · exact .operation (show _ = ["rack".toList, "1".toList] by decide)
        (by decide) (by decide) (.cons racking (.rest _))
    · exact .operation (show _ = ["xfer".toList, "f2".toList, "b1".toList] by decide)
        (by decide) (by decide) (.cons two (.cons one (.rest _)))
  have lowers : (lowerBody (.withCarriers ["A".toList]) slanted 3).map (·.racking) = .ok 1 := by
    set_option maxRecDepth 2000 in
    decide
  obtain ⟨lowered, done, _⟩ := Except.map_ok lowers
  refine ⟨moved, ?_⟩
  rcases lowering_commutes .mirror (.withCarriers ["A".toList]) moved 3 with
    both | ⟨_, _, _, _, _, failed, _⟩
  · exact both
  · exact absurd (failed.symm.trans done) (by simp)

/-- An index that only its opposite fits a signed 64-bit word is no needle, and the opposite is one
too far away: in the mirror the error is another. -/
theorem mirrored_index_is_no_needle :
    let line := "tuck - b-9223372036854775808 A".toList
    let line' := "tuck + b9223372036854775808 A".toList
    words line = ["tuck".toList, [Direction.decreasing.sign],
        Motion.needleLead .back false ++ intDigits (-9223372036854775808), "A".toList] ∧
      words line' = ["tuck".toList, [(Motion.mirror.direction .decreasing).sign],
        Motion.needleLead .back false ++ intDigits (Motion.mirror.index (-9223372036854775808)),
        "A".toList] ∧
      lowerBody (.withCarriers ["A".toList]) [line] 1 =
        .error ⟨⟨1, .needleOutOfRange "b-9223372036854775808".toList⟩, []⟩ ∧
      lowerBody (.withCarriers ["A".toList]) [line'] 1 =
        .error ⟨⟨1, .badNeedle "b9223372036854775808".toList⟩, []⟩ := by
  intro line line'
  exact ⟨by decide, by decide, by decide, by decide⟩

end Knitout
