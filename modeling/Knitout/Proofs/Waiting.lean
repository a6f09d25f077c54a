import Knitout.Proofs.Trails

/-!
Which lines of an output can still change. An `in` that waits for its carrier is linked to the stage
of that carrier, both ways (`Context.Linked`), so only the first use of the carrier writes to its
slot. All other lines stay as they are (`Output.Grows`). Main statement: lowering any lines keeps
the links and lets the output grow (`Context.leads_lowerLines`).
-/

namespace Knitout

/-! ## Growing outputs -/

/-- A content stays as it is, or a waiting place becomes an `in` of its carrier. -/
inductive Content.Ripens : Content → Content → Prop
  | same (content : Content) : Ripens content content
  | brought {carrier : Carrier} {direction : Direction} {needle : Needle} :
      Ripens (.pendingIn carrier) (.operation (.bringIn direction needle carrier.yarn))

/-- A content that does not wait. -/
def Content.Plain (content : Content) : Prop :=
  ∀ carrier, content ≠ .pendingIn carrier

theorem Content.plain_operation (op : Operation) : (Content.operation op).Plain :=
  fun _ same => by cases same

theorem Content.plain_remark (note : Remark) : (Content.remark note).Plain :=
  fun _ same => by cases same

theorem Content.Ripens.trans {a b c : Content} (first : a.Ripens b) (second : b.Ripens c) :
    a.Ripens c := by
  cases first with
  | same => exact second
  | brought =>
    cases second
    exact .brought

namespace Output

/-- Every slot is still there, quotes the same line, and holds the same or what has become of it. -/
def Grows (o o' : Output) : Prop :=
  ∀ (index : Nat) (slot : Slot), o.slots[index]? = some slot →
    ∃ slot', o'.slots[index]? = some slot' ∧ slot'.annotation = slot.annotation ∧
      slot.content.Ripens slot'.content

theorem Grows.refl (o : Output) : o.Grows o :=
  fun _ slot there => ⟨slot, there, rfl, .same _⟩

theorem Grows.trans {a b c : Output} (first : a.Grows b) (second : b.Grows c) : a.Grows c := by
  intro index slot there
  obtain ⟨slot', there', quoted, ripens⟩ := first index slot there
  obtain ⟨slot'', there'', quoted', ripens'⟩ := second index slot' there'
  exact ⟨slot'', there'', quoted'.trans quoted, ripens.trans ripens'⟩

theorem Grows.size_le {o o' : Output} (grows : o.Grows o') : o.slots.size ≤ o'.slots.size := by
  by_contra fewer
  have inside : o'.slots.size < o.slots.size := Nat.lt_of_not_le fewer
  obtain ⟨slot, there, _⟩ := grows _ _ (Array.getElem?_eq_getElem inside)
  exact Nat.lt_irrefl _ (Array.getElem?_eq_some_iff.1 there).1

theorem grows_emit (o : Output) (content : Content) : o.Grows (o.emit content) := by
  intro index slot there
  have inside : index < o.slots.size := (Array.getElem?_eq_some_iff.1 there).1
  refine ⟨slot, ?_, rfl, .same _⟩
  rw [emit, Array.getElem?_push, if_neg (Nat.ne_of_lt inside), there]

theorem grows_fill {o : Output} {place : Nat} {carrier : Carrier}
    (waiting : o.content? place = some (.pendingIn carrier)) (direction : Direction)
    (needle : Needle) :
    o.Grows (o.fill place (.operation (.bringIn direction needle carrier.yarn))) := by
  intro index slot there
  unfold fill
  rw [Array.getElem?_modify]
  by_cases same : place = index
  · subst same
    have held : slot.content = .pendingIn carrier := by
      simpa [content?, there] using waiting
    refine ⟨{ slot with content := .operation (.bringIn direction needle carrier.yarn) },
      by rw [if_pos rfl, there]; rfl, rfl, ?_⟩
    rw [held]
    exact .brought
  · exact ⟨slot, by rw [if_neg same, there], rfl, .same _⟩

/-- The output grows, and the same carriers wait in the same slots. -/
structure Extends (o o' : Output) : Prop where
  grows : o.Grows o'
  waiting : ∀ index carrier, o'.content? index = some (.pendingIn carrier) ↔
    o.content? index = some (.pendingIn carrier)

theorem Extends.refl (o : Output) : o.Extends o :=
  ⟨.refl o, fun _ _ => .rfl⟩

theorem Extends.trans {a b c : Output} (first : a.Extends b) (second : b.Extends c) :
    a.Extends c :=
  ⟨first.grows.trans second.grows, fun index carrier =>
    (second.waiting index carrier).trans (first.waiting index carrier)⟩

theorem extends_emit (o : Output) {content : Content} (plain : content.Plain) :
    o.Extends (o.emit content) := by
  refine ⟨grows_emit o content, fun index carrier => ?_⟩
  rw [content?_emit]
  split
  · next last =>
    have none : o.content? index = none := by simp [content?, last]
    simp [none, plain carrier]
  · rfl

theorem extends_foldl_emit (o : Output) {contents : List Content}
    (plain : ∀ content ∈ contents, content.Plain) : o.Extends (contents.foldl emit o) := by
  induction contents generalizing o with
  | nil => exact .refl o
  | cons content rest ih =>
    exact (extends_emit o (plain content (by simp))).trans
      (ih _ fun other member => plain other (List.mem_cons_of_mem content member))

theorem extends_walk (yarn : Yarn) (heading : Direction) (n : Nat) (location : Location)
    (o : Output) : o.Extends (walk yarn heading n location o).2 := by
  induction n generalizing location o with
  | zero => exact .refl o
  | succ n ih => exact (extends_emit o (Content.plain_operation _)).trans (ih _ _)

theorem extends_beginLine (o : Output) (source : Text) : o.Extends (o.beginLine source) :=
  ⟨.refl o, fun _ _ => .rfl⟩

end Output

/-! ## Links -/

namespace Context

/-- A carrier of the table waits for its first use exactly if a slot waits for it, and in that slot;
no slot waits for another carrier. -/
structure Linked (c : Context) : Prop where
  distinct : (c.carriers.carriers.map (·.yarn)).Nodup
  waiting : ∀ carrier ∈ c.carriers.carriers, ∀ index,
    c.stand carrier.yarn = .waiting index ↔ c.output.content? index = some (.pendingIn carrier)
  listed : ∀ index carrier, c.output.content? index = some (.pendingIn carrier) →
    carrier ∈ c.carriers.carriers

/-- What a part of a lowering does to a linked state. -/
structure Leads (c c' : Context) : Prop where
  carriers : c'.carriers = c.carriers
  grows : c.output.Grows c'.output
  linked : c'.Linked

variable {c c' c'' : Context} {carrier : Carrier}

theorem Leads.trans (first : Leads c c') (second : Leads c' c'') : Leads c c'' :=
  ⟨second.carriers.trans first.carriers, first.grows.trans second.grows, second.linked⟩

namespace Linked

theorem start {t : CarrierTable} (distinct : (t.carriers.map (·.yarn)).Nodup) :
    (Context.start t).Linked := by
  refine ⟨distinct, fun carrier _ index => ?_, fun index carrier none => ?_⟩
  · constructor <;> intro none <;> cases none
  · cases none

/-- The same carriers wait in the same slots. -/
theorem leads (linked : c.Linked) (carriers : c'.carriers = c.carriers)
    (stands : ∀ yarn index, c'.stand yarn = .waiting index ↔ c.stand yarn = .waiting index)
    (extends' : c.output.Extends c'.output) : Leads c c' := by
  refine ⟨carriers, extends'.grows, ?_, ?_, ?_⟩
  · rw [carriers]
    exact linked.distinct
  · intro carrier listed index
    rw [carriers] at listed
    rw [stands, linked.waiting carrier listed, extends'.waiting]
  · intro index carrier waits
    rw [carriers]
    exact linked.listed index carrier ((extends'.waiting index carrier).1 waits)

theorem refl (linked : c.Linked) : Leads c c :=
  linked.leads rfl (fun _ _ => .rfl) (.refl _)

theorem emit (linked : c.Linked) {content : Content} (plain : content.Plain) :
    Leads c (c.emit content) :=
  linked.leads rfl (fun _ _ => .rfl) (Output.extends_emit _ plain)

/-- Other carriers of the table have other yarns. -/
theorem yarn_ne (linked : c.Linked) {other : Carrier} (listed : carrier ∈ c.carriers.carriers)
    (listed' : other ∈ c.carriers.carriers) (apart : other ≠ carrier) :
    other.yarn ≠ carrier.yarn :=
  fun same => apart (List.inj_on_of_nodup_map linked.distinct listed' listed same)

end Linked

/-! ## In and out -/

theorem leads_bringIn {name : Text} (linked : c.Linked) (done : c.bringIn name = .ok c') :
    Leads c c' := by
  obtain ⟨carrier, found, done⟩ := Except.bind_ok done
  have listed := (CarrierTable.find?_eq_some (CarrierTable.lookup_ok found)).1
  split at done
  · cases done
  · cases done
  · next absent =>
    cases done
    have away (index : Nat) : c.output.content? index ≠ some (.pendingIn carrier) := by
      refine (linked.waiting carrier listed index).not.1 ?_
      simp [stand, absent]
    have last : c.output.content? c.output.slots.size = none := by simp [Output.content?]
    refine ⟨rfl, Output.grows_emit _ _, linked.distinct, ?_, ?_⟩
    · intro other listed' index
      rw [stand_setStage]
      simp only [setStage, Context.emit, Output.content?_emit]
      by_cases same : other = carrier
      · subst same
        by_cases here : index = c.output.slots.size
        · simp [here, CarrierStage.stand]
        · simp [here, away, CarrierStage.stand, Ne.symm here]
      · rw [if_neg (linked.yarn_ne listed listed' same)]
        have before := linked.waiting other listed' index
        by_cases here : index = c.output.slots.size
        · rw [if_pos here]
          rw [here, last] at before
          rw [here]
          exact before.trans (by simp [Ne.symm same])
        · rw [if_neg here]
          exact before
    · intro index other waits
      simp only [setStage, Context.emit, Output.content?_emit] at waits
      split at waits
      · cases waits
        exact listed
      · exact linked.listed index other waits

theorem leads_bringOut {name : Text} (linked : c.Linked) (done : c.bringOut name = .ok c') :
    Leads c c' := by
  obtain ⟨carrier, found, done⟩ := Except.bind_ok done
  split at done
  · next parked attached active =>
    have left := stand_erase (congrArg Context.stages (Except.ok.inj done)).symm
    cases done
    refine linked.leads rfl (fun yarn index => ?_)
      (Output.extends_emit _ (Content.plain_operation _))
    rw [left]
    split
    · next same => simp [stand, same, active, CarrierStage.stand]
    · rfl
  · cases done
  · cases done

theorem leads_forEach {step : Context → Text → Except LoweringError Context} {names : List Text}
    (each : ∀ d d' name, d.Linked → step d name = .ok d' → Leads d d') (linked : c.Linked)
    (done : c.forEach step names = .ok c') : Leads c c' := by
  induction names generalizing c with
  | nil =>
    cases done
    exact linked.refl
  | cons name rest ih =>
    unfold forEach at done
    split at done
    · cases done
    · next d first =>
      have led := each c d name linked first
      exact led.trans (ih led.linked done)

/-! ## Racking -/

theorem leads_rack (linked : c.Linked) (target : Int) : Leads c (c.rack target) := by
  have step (d : Context) (one : Int) (linked : d.Linked) : Leads d (d.rackStep one) :=
    linked.leads rfl (fun yarn index => by rw [(d.stand_relocate _ _ yarn).symm]; rfl)
      (Output.extends_emit _ (Content.plain_operation _))
  have steps (n : Nat) (one : Int) (d : Context) (linked : d.Linked) :
      Leads d (d.rackSteps one n) := by
    induction n generalizing d with
    | zero => exact linked.refl
    | succ n ih =>
      have led := step d one linked
      exact led.trans (ih _ led.linked)
  unfold rack
  split
  · exact linked.emit (Content.plain_remark _)
  · exact steps _ _ c linked

/-! ## Into place -/

/-- The first use of a carrier settles the slot that waits for it, and no other. -/
private theorem leads_settle {index : Nat} {goal : Location} (linked : c.Linked)
    (listed : carrier ∈ c.carriers.carriers) (waits : c.stand carrier.yarn = .waiting index) :
    Leads c ({ c with
      output := c.output.fill index (.operation (c.settledIn carrier goal)) }.setStage carrier
        (.active goal goal)) := by
  have held := (linked.waiting carrier listed index).1 waits
  refine ⟨rfl, Output.grows_fill held _ _, linked.distinct, ?_, ?_⟩
  · intro other listed' index'
    rw [stand_setStage]
    simp only [setStage, Output.content?_fill]
    have before := linked.waiting other listed' index'
    by_cases same : other = carrier
    · subst same
      rw [waits] at before
      by_cases here : index' = index
      · simp [here, held, CarrierStage.stand]
      · simpa [here, CarrierStage.stand, Ne.symm here] using before
    · rw [if_neg (linked.yarn_ne listed listed' same)]
      refine before.trans ?_
      by_cases here : index' = index
      · simp [here, held, Ne.symm same]
      · simp [here]
  · intro index' other waits'
    simp only [setStage, Output.content?_fill] at waits'
    split at waits'
    · next here => simp [here, held] at waits'
    · exact linked.listed index' other waits'

/-- A carrier that got into place is in action, and so are the ones that were before. -/
theorem leads_position {goal : Location} (linked : c.Linked)
    (listed : carrier ∈ c.carriers.carriers) (done : c.position goal carrier = .ok c') :
    Leads c c' ∧ c'.stand carrier.yarn = .active ∧
      ∀ yarn, c.stand yarn = .active → c'.stand yarn = .active := by
  unfold position at done
  split at done
  · cases done
  · next index pending =>
    cases done
    have waits : c.stand carrier.yarn = .waiting index := by rw [stand, pending]; rfl
    refine ⟨leads_settle linked listed waits, by rw [stand_setStage, if_pos rfl]; rfl, ?_⟩
    intro yarn active
    rw [stand_setStage]
    split
    · rfl
    · exact active
  · next parked attached active =>
    cases done
    have acts : c.stand carrier.yarn = .active := by rw [stand, active]; rfl
    have stands (yarn : Yarn) : (c.walkTo carrier parked attached goal).stand yarn =
        c.stand yarn := by
      rw [walkTo, stand_setStage]
      split
      · next same => rw [same, acts]; rfl
      · rfl
    refine ⟨linked.leads rfl (fun yarn index => by rw [stands]) (Output.extends_walk _ _ _ _ _),
      by rw [stands, acts], fun yarn active => by rw [stands, active]⟩

theorem leads_positionAll {carriers : List Carrier} {goal : Location} (linked : c.Linked)
    (listed : ∀ carrier ∈ carriers, carrier ∈ c.carriers.carriers)
    (done : c.positionAll goal carriers = .ok c') :
    Leads c c' ∧ (∀ carrier ∈ carriers, c'.stand carrier.yarn = .active) ∧
      ∀ yarn, c.stand yarn = .active → c'.stand yarn = .active := by
  induction carriers generalizing c with
  | nil =>
    cases done
    exact ⟨linked.refl, by simp, fun _ active => active⟩
  | cons first rest ih =>
    unfold positionAll at done
    split at done
    · cases done
    · next d placed =>
      obtain ⟨led, active, kept⟩ := leads_position linked (listed first (by simp)) placed
      obtain ⟨led', actives, kept'⟩ := ih led.linked (fun other member => by
        rw [led.carriers]
        exact listed other (List.mem_cons_of_mem first member)) done
      refine ⟨led.trans led', ?_, fun yarn before => kept' yarn (kept yarn before)⟩
      intro other member
      rcases List.mem_cons.1 member with rfl | later
      · exact kept' _ active
      · exact actives other later

/-! ## Lines -/

theorem plain_contents (c : Context) (p : Plan) :
    ∀ content ∈ c.contents p, content.Plain := by
  intro content member
  unfold contents at member
  split at member
  · obtain ⟨carrier, _, rfl⟩ := List.mem_map.1 member
    exact Content.plain_operation _
  all_goals
    rw [List.mem_singleton.1 member]
    first | exact Content.plain_operation _ | exact Content.plain_remark _

theorem leads_perform {p : Plan} (linked : c.Linked)
    (active : ∀ carrier ∈ p.carriers, c.stand carrier.yarn = .active) :
    Leads c (c.perform p) := by
  obtain ⟨stages, same⟩ := c.perform_eq p
  refine linked.leads (by rw [same]) (fun yarn index => ?_) ?_
  · rw [stand_perform]
    split
    · next member =>
      obtain ⟨carrier, listed, rfl⟩ := List.mem_map.1 member
      rw [active carrier listed]
    · rfl
  · rw [output_perform]
    exact Output.extends_foldl_emit _ (plain_contents c p)

theorem leads_lowerRequest {request : Request} (linked : c.Linked)
    (done : c.lowerRequest request = .ok c') : Leads c c' := by
  obtain ⟨p, m, planned, _, placed, rfl⟩ := lowerRequest_ok done
  have listed : ∀ carrier ∈ p.carriers, carrier ∈ c.carriers.carriers := fun carrier member =>
    (CarrierTable.mem_of_resolve (plan_ok planned).2.1 member).1
  obtain ⟨led, active, _⟩ := leads_positionAll linked listed placed
  exact led.trans (leads_perform led.linked active)

theorem leads_execute {number : Nat} {command : Command} (linked : c.Linked)
    (done : c.execute number command = .ok c') : Leads c c' := by
  cases command with
  | bringIn names => exact leads_forEach (fun _ _ _ => leads_bringIn) linked done
  | bringOut names => exact leads_forEach (fun _ _ _ => leads_bringOut) linked done
  | idle | stitch | stitchNumber | setting =>
    cases done
    exact linked.refl
  | rack target =>
    cases done
    exact leads_rack linked target
  | vendor word =>
    cases done
    exact linked.leads rfl (fun _ _ => .rfl) (.refl _)
  | loops request => exact leads_lowerRequest linked done

theorem leads_lowerLine {number : Nat} {source : Text} (linked : c.Linked)
    (done : c.lowerLine number source = .ok c') : Leads c c' := by
  have begun : Leads c { c with output := c.output.beginLine source } :=
    linked.leads rfl (fun _ _ => .rfl) (Output.extends_beginLine _ _)
  refine begun.trans ?_
  unfold lowerLine at done
  simp only at done
  split at done
  · cases done
  · next command read => exact leads_execute begun.linked done
  · cases done
    split
    · exact begun.linked.emit (Content.plain_remark _)
    · exact begun.linked.refl

/-- Lowering lines keeps the links, and lets the output grow. -/
theorem leads_lowerLines {number : Nat} {lines : List Text} (linked : c.Linked)
    (done : c.lowerLines number lines = .ok c') : Leads c c' := by
  induction lines generalizing c number with
  | nil =>
    cases done
    exact linked.refl
  | cons source rest ih =>
    unfold lowerLines at done
    split at done
    · cases done
    · next d step =>
      have led := leads_lowerLine linked step
      exact led.trans (ih led.linked done)

/-- Lines that are lowered with the carriers of these names lead to the state. -/
def Arises (names : List Text) (c : Context) : Prop :=
  ∃ t number lines, CarrierTable.ofNames names = .ok t ∧
    (Context.start t).lowerLines number lines = .ok c

theorem Arises.linked {names : List Text} (arises : c.Arises names) : c.Linked := by
  obtain ⟨t, number, lines, named, done⟩ := arises
  exact (leads_lowerLines (.start (CarrierTable.distinct_ofNames named).2.2) done).linked

end Context

end Knitout
