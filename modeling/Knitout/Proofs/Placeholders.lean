import Knitout.Proofs.Online
import Knitout.Proofs.Reaching

/-!
The places that are reserved in an output for an `in`. Between two lines they belong one to one to the
carriers that wait for their first use (`Context.Paired`). In the middle of a line
(`Context.Placing`) an `in` is therefore written to the place that was reserved for its carrier and
to no line that is finished, and at the end each carrier that still waits gets one remark and one
warning (`Context.Closes`). Main statement: `reserved_places_belong_to_carriers`.
-/

namespace Knitout

/-! ## Remarks on carriers that were never used -/

/-- What the remark on a carrier that was never used begins with. -/
def unusedLead : Text := "; (carrier '".toList

/-- The warning about a carrier that was never used. -/
def Carrier.unusedWarning (carrier : Carrier) : Diagnostic :=
  { line := 0, severity := .warning, kind := .carrier,
    message := s!"Carrier '{String.ofList carrier.name}' was brought in but never used; its 'in' was dropped." }

namespace Slot

/-- The text of the content stands at the beginning of the line; behind it there is nothing, or
there are spaces up to a column. -/
theorem render_shows (slot : Slot) : ∃ n tail,
    slot.render = slot.content.render ++ List.replicate n ' ' ++ tail ∧
      (tail = [] ∨ unusedLead.length ≤ (slot.content.render ++ List.replicate n ' ').length) := by
  obtain ⟨content, annotation⟩ := slot
  cases annotation with
  | none => exact ⟨0, [], by simp [render], .inl rfl⟩
  | some source =>
    refine ⟨_, _, render_quoting content source, .inr ?_⟩
    have column : unusedLead.length ≤ annotationColumn := by decide
    simp only [List.length_append, List.length_replicate]
    omega

/-- Only the place of an `in` that nothing settled is shown as such a remark. -/
theorem lead_iff (slot : Slot) :
    unusedLead <+: slot.render ↔ ∃ carrier, slot.content = .pendingIn carrier := by
  obtain ⟨n, tail, shows', long⟩ := slot.render_shows
  constructor
  · intro leads
    have leads : unusedLead <+: slot.content.render ++ List.replicate n ' ' := by
      rw [shows'] at leads
      rcases long with rfl | long
      · rwa [List.append_nil] at leads
      · exact List.prefix_of_prefix_length_le leads (List.prefix_append _ _) long
    have mark : ';' ∈ slot.content.render ++ List.replicate n ' ' :=
      leads.subset (by decide)
    cases held : slot.content with
    | operation op =>
      rw [held] at mark
      exact absurd mark (not_mem_render (by decide) (.inr rfl) op n)
    | remark note =>
      rw [held] at leads mark
      have apart (long : unusedLead.length ≤ note.render.length)
          (other : ¬ unusedLead <+: note.render) : False :=
        other (List.prefix_of_prefix_length_le leads (List.prefix_append _ _) long)
      cases note with
      | sourceComment => cases List.eq_of_mem_replicate mark
      | rackNotNeeded | amissIgnored | emptyDropIgnored =>
        exact (apart (by decide) (by decide)).elim
    | pendingIn carrier => exact ⟨carrier, rfl⟩
  · rintro ⟨carrier, held⟩
    have lead : unusedLead <+: (Content.pendingIn carrier).render :=
      (List.prefix_append _ _).trans (List.prefix_append _ _)
    rw [shows', held, List.append_assoc]
    exact lead.trans (List.prefix_append _ _)

end Slot

/-- One warning for each carrier that still waits, in the order of the places. -/
theorem Context.warnings_finish (c : Context) (headers : Headers) :
    (c.finish headers).warnings = c.warnings ++ c.output.unused.map Carrier.unusedWarning := by
  have each (carriers : List Carrier) (c : Context) :
      (carriers.foldl warnUnused c).warnings =
        c.warnings ++ carriers.map Carrier.unusedWarning := by
    induction carriers generalizing c with
    | nil => simp
    | cons carrier rest ih =>
      rw [List.foldl_cons, ih, List.map_cons, warnUnused, warn, List.append_assoc]
      rfl
  exact each _ c

/-! ## Between two lines -/

namespace Output

theorem mem_unused {o : Output} {carrier : Carrier} :
    carrier ∈ o.unused ↔ ∃ slot, o.content? slot = some (.pendingIn carrier) := by
  unfold unused
  rw [List.mem_filterMap]
  constructor
  · rintro ⟨held, member, waits⟩
    obtain ⟨slot, there⟩ := exists_content? member
    refine ⟨slot, there.trans (congrArg some ?_)⟩
    split at waits
    · next content =>
      cases waits
      exact content
    · cases waits
  · rintro ⟨slot, there⟩
    obtain ⟨held, found, content⟩ := Option.map_eq_some_iff.1 there
    exact ⟨held, Array.mem_toList_iff.2 (Array.mem_of_getElem? found), by rw [content]⟩

/-- No carrier is listed twice, if no two places wait for the same one. -/
theorem nodup_unused {o : Output}
    (once : ∀ carrier slot slot', o.content? slot = some (.pendingIn carrier) →
      o.content? slot' = some (.pendingIn carrier) → slot = slot') : o.unused.Nodup := by
  unfold unused
  rw [List.Nodup, List.pairwise_filterMap, List.pairwise_iff_getElem]
  intro slot slot' inside inside' less carrier here carrier' here' same
  subst same
  have there (place : Nat) (within : place < o.slots.toList.length)
      (held : (o.slots.toList[place]).content = .pendingIn carrier) :
      o.content? place = some (.pendingIn carrier) := by
    rw [content?_of_lt (by simpa using within), ← held]
    simp
  split at here
  · next held =>
    cases here
    split at here'
    · next held' =>
      cases here'
      have equal := once carrier slot slot' (there slot inside held) (there slot' inside' held')
      omega
    · cases here'
  · cases here

end Output

namespace Context

/-- Waiting carriers and reserved places belong together, one to one. -/
structure Paired (c : Context) : Prop where
  waiting : ∀ carrier slot,
    c.WaitsIn carrier slot ↔ c.output.content? slot = some (.pendingIn carrier)
  once : ∀ carrier slot slot', c.output.content? slot = some (.pendingIn carrier) →
    c.output.content? slot' = some (.pendingIn carrier) → slot = slot'

variable {c d e : Context} {carrier : Carrier} {slot : Nat}

theorem Linked.paired (linked : c.Linked) : c.Paired := by
  have waiting (carrier : Carrier) (slot : Nat) :
      c.WaitsIn carrier slot ↔ c.output.content? slot = some (.pendingIn carrier) := by
    rw [waitsIn_iff]
    constructor
    · rintro ⟨listed, waits⟩
      exact (linked.waiting carrier listed slot).1 waits
    · intro there
      have listed := linked.listed slot carrier there
      exact ⟨listed, (linked.waiting carrier listed slot).2 there⟩
  refine ⟨waiting, fun carrier slot slot' there there' => ?_⟩
  have first := ((waiting carrier slot).2 there).2
  rw [((waiting carrier slot').2 there').2] at first
  cases first
  rfl

/-! ## At the end -/

/-- What becomes of the places that are still reserved when the lowering ends: each of the carriers
that wait gets one remark, in its place, and one warning. -/
structure Closes (c : Context) (lowered : Lowered) (waiting : List Carrier) : Prop where
  distinct : waiting.Nodup
  each : ∀ carrier, carrier ∈ waiting ↔ ∃ slot, c.WaitsIn carrier slot
  warnings : lowered.warnings = c.warnings ++ waiting.map Carrier.unusedWarning
  length : lowered.lines.length = c.output.slots.size
  remarks : ∀ carrier slot, c.WaitsIn carrier slot →
    ∃ line, lowered.lines[slot]? = some line ∧ (Content.pendingIn carrier).render <+: line
  /-- No other line looks like such a remark. -/
  others : ∀ slot line, lowered.lines[slot]? = some line →
    (unusedLead <+: line ↔ ∃ carrier, c.WaitsIn carrier slot)

theorem Paired.closes (paired : c.Paired) (headers : Headers) :
    c.Closes (c.finish headers) c.output.unused := by
  have line (slot : Nat) :
      (c.finish headers).lines[slot]? = c.output.slots[slot]?.map Slot.render := by
    simp [finish, Output.lines]
  refine {
    distinct := Output.nodup_unused paired.once
    each := fun carrier => ?_
    warnings := c.warnings_finish headers
    length := by simp [finish, Output.lines]
    remarks := fun carrier slot waits => ?_
    others := fun slot shown there => ?_ }
  · rw [Output.mem_unused]
    exact exists_congr fun slot => (paired.waiting carrier slot).symm
  · obtain ⟨held, found, content⟩ :=
      Option.map_eq_some_iff.1 ((paired.waiting carrier slot).1 waits)
    obtain ⟨n, tail, shows', _⟩ := held.render_shows
    refine ⟨held.render, by rw [line, found]; rfl, ?_⟩
    rw [shows', content, List.append_assoc]
    exact List.prefix_append _ _
  · rw [line] at there
    obtain ⟨held, found, rfl⟩ := Option.map_eq_some_iff.1 there
    rw [held.lead_iff]
    refine exists_congr fun carrier => ?_
    rw [paired.waiting, Output.content?, found]
    simp

/-! ## In the middle of a line -/

/-- In the middle of lowering a line, when this carrier is the next to be got to where the carriage
comes from. -/
inductive Placing (c : Context) (line : Text) : Context → Location → Carrier → Prop
  | next {request : Request} {p : Plan} {placed waiting : List Carrier} {carrier : Carrier}
      {d : Context} (asks : Command.ofLine line = .ok (some (.loops request)))
      (planned : (c.atLine line).plan request = .ok p)
      (checked : (c.atLine line).checkPlan p = .ok ())
      (carriers : p.carriers = placed ++ carrier :: waiting)
      (done : (c.atLine line).positionAll (approach request) placed = .ok d) :
    Placing c line d (approach request) carrier

/-- Settling the `in` of a carrier writes it to the place that is reserved for this carrier, and
nowhere else. -/
structure Fills (d : Context) (goal : Location) (carrier : Carrier) (slot : Nat) : Prop where
  inside : slot < d.output.slots.size
  reserved : d.output.content? slot = some (.pendingIn carrier)
  settled : ∃ e, d.position goal carrier = .ok e ∧
    e.output.slots.size = d.output.slots.size ∧
    e.output.content? slot = some (.operation (d.settledIn carrier goal)) ∧
    ∀ other, other ≠ slot → e.output.slots[other]? = d.output.slots[other]?

theorem fills_of_reserved {goal : Location}
    (pending : c.stages.get? carrier.yarn = some (.pending slot))
    (reserved : c.output.content? slot = some (.pendingIn carrier)) :
    c.Fills goal carrier slot := by
  let filled := c.output.fill slot (.operation (c.settledIn carrier goal))
  have settled : c.position goal carrier =
      .ok ({ c with output := filled }.setStage carrier (.active goal goal)) := by
    rw [position, pending]
  refine ⟨Output.content?_lt reserved, reserved, _, settled, Output.size_fill _ _ _, ?_, ?_⟩
  · rw [setStage, Output.content?_fill, if_pos rfl, reserved]
    rfl
  · intro other apart
    rw [setStage]
    exact Array.getElem?_modify.trans (if_neg (Ne.symm apart))

/-- The links hold in the middle of a line, too, and the carrier is one of the table. -/
theorem Linked.placing {line : Text} {goal : Location} (linked : c.Linked)
    (placing : c.Placing line d goal carrier) : d.Linked ∧ carrier ∈ d.carriers.carriers := by
  cases placing with
  | @next request p placed waiting _ _ asks planned checked carriers done =>
    have begun : Leads c (c.atLine line) :=
      linked.leads rfl (fun _ _ => .rfl) (Output.extends_beginLine c.output line)
    have listed : ∀ other ∈ placed ++ carrier :: waiting, other ∈ c.carriers.carriers := by
      intro other member
      rw [← carriers] at member
      exact (CarrierTable.mem_of_resolve (plan_ok planned).2.1 member).1
    have led := (leads_positionAll begun.linked
      (fun other member => listed other (List.mem_append_left _ member)) done).1
    exact ⟨led.linked, led.carriers ▸ listed carrier (by simp)⟩

end Context

/-- Between two lines, the places that are still reserved for an `in` belong one to one to the
carriers that wait for their first use. Whenever an `in` is settled it is written to the place that
was reserved for its carrier, and if no more lines follow, each carrier that waits gets one remark
and one warning. -/
theorem reserved_places_belong_to_carriers {names : List Text} {c : Context}
    (arises : c.Arises names) :
    c.Paired ∧
    (∀ line d goal carrier slot, c.Placing line d goal carrier →
      d.stages.get? carrier.yarn = some (.pending slot) → d.Fills goal carrier slot) ∧
    ∀ headers, ∃ waiting, c.Closes (c.finish headers) waiting := by
  have paired := arises.linked.paired
  refine ⟨paired, ?_, fun headers => ⟨_, paired.closes headers⟩⟩
  intro line d goal carrier slot placing pending
  obtain ⟨linked, listed⟩ := arises.linked.placing placing
  have reserved := (linked.paired.waiting carrier slot).1 ⟨listed, pending⟩
  exact Context.fills_of_reserved pending reserved

/-- A carrier that was used and taken out is brought in anew behind another one. Its second `in`
waits in the last of five places, and that is where its next use settles it. -/
theorem reserved_places_belong_to_carriers_anew :
    ∃ c : Context, c.Arises [['A'], ['B']] ∧ c.output.slots.size = 5 ∧ c.Paired ∧
      (∃ (d : Context) (goal : Location), c.Placing "tuck + f5 A".toList d goal ⟨['A'], 1⟩ ∧
        d.stages.get? 1 = some (.pending 4) ∧ d.Fills goal ⟨['A'], 1⟩ 4) ∧
      ∃ waiting, c.Closes (c.finish (.withCarriers [['A'], ['B']])) waiting := by
  let body : List Text := ["in A", "tuck + f0 A", "out A", "in B A"].map String.toList
  let request : Request := ⟨.tuck, .increasing, .front 5, [['A']], none⟩
  let t : CarrierTable := ⟨[⟨['A'], 1⟩, ⟨['B'], 2⟩], true⟩
  have runs : ((Context.start t).lowerLines 3 body).map (fun c => (c.output.slots.size,
      c.stages.get? 1, (c.atLine "tuck + f5 A".toList).plan request)) =
        .ok (5, some (.pending 4), .ok ⟨request, .tuck, [⟨['A'], 1⟩]⟩) := by
    decide
  obtain ⟨c, done, state⟩ := Except.map_ok runs
  obtain ⟨size, rest⟩ := Prod.mk.inj state
  obtain ⟨pending, planned⟩ := Prod.mk.inj rest
  have named : CarrierTable.ofNames [['A'], ['B']] = .ok t := by decide
  have arises : c.Arises [['A'], ['B']] := ⟨t, 3, body, named, done⟩
  have asks : Command.ofLine "tuck + f5 A".toList = .ok (some (.loops request)) := by
    decide
  have placing : c.Placing "tuck + f5 A".toList (c.atLine "tuck + f5 A".toList)
      (Context.approach request) ⟨['A'], 1⟩ :=
    @Context.Placing.next _ _ request _ [] [] _ _ asks planned rfl rfl rfl
  obtain ⟨paired, fills, closes⟩ := reserved_places_belong_to_carriers arises
  exact ⟨c, arises, size, paired, ⟨_, _, placing, pending, fills _ _ _ _ _ placing pending⟩,
    closes _⟩

end Knitout
