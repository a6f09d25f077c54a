import Knitout.Proofs.Lines
import Knitout.Proofs.Usage

/-!
The marks that a carrier leaves in the output (`Output.trail`). Lowering a line adds to them what the
line does with the carrier, so they follow the events of the source (`Context.tracks_lowerLine`).
-/

namespace Knitout

/-! ## Marks -/

/-- What an operation does with the yarns that it names. -/
def Operation.event : Operation → CarrierEvent
  | .bringIn .. => .enter
  | .bringOut .. => .leave
  | _ => .work

/-- What an operation does with a yarn, if it names it. -/
def Operation.event? (op : Operation) (yarn : Yarn) : Option CarrierEvent :=
  if yarn ∈ op.yarns then some op.event else none

def Content.mark? (yarn : Yarn) : Content → Option Mark
  | .operation op => (op.event? yarn).map .done
  | .remark _ => none
  | .pendingIn carrier => if carrier.yarn = yarn then some .reserved else none

theorem Content.mark?_operation {op : Operation} {yarn : Yarn} (named : yarn ∈ op.yarns) :
    (Content.operation op).mark? yarn = some (.done op.event) := by
  simp [mark?, Operation.event?, named]

theorem Content.mark?_operation_of_not_mem {op : Operation} {yarn : Yarn}
    (unnamed : yarn ∉ op.yarns) : (Content.operation op).mark? yarn = none := by
  simp [mark?, Operation.event?, unnamed]

namespace Output

def mark? (o : Output) (yarn : Yarn) (slot : Nat) : Option Mark :=
  (o.content? slot).bind (Content.mark? yarn)

/-- The slots that concern a yarn, in order. -/
def trail (o : Output) (yarn : Yarn) : List (Nat × Mark) :=
  (List.range o.slots.size).filterMap fun slot => (o.mark? yarn slot).map (slot, ·)

variable {o : Output} {yarn : Yarn} {content : Content} {place : Nat}

theorem trail_emit (o : Output) (content : Content) (yarn : Yarn) :
    (o.emit content).trail yarn =
      o.trail yarn ++ ((content.mark? yarn).map (o.slots.size, ·)).toList := by
  unfold trail
  rw [size_emit, List.range_succ, List.filterMap_append]
  congr 1
  · refine List.filterMap_congr ?_
    intro slot inside
    rw [mark?, content?_emit, if_neg (Nat.ne_of_lt (List.mem_range.1 inside))]
    rfl
  · have last : (o.emit content).mark? yarn o.slots.size = content.mark? yarn := by
      rw [mark?, content?_emit, if_pos rfl]
      rfl
    cases here : content.mark? yarn <;> simp [last, here]

theorem trail_emit_of_none (none : content.mark? yarn = none) :
    (o.emit content).trail yarn = o.trail yarn := by
  rw [trail_emit, none]
  exact List.append_nil _

theorem mark?_fill (o : Output) (place : Nat) (content : Content) (yarn : Yarn) (slot : Nat) :
    (o.fill place content).mark? yarn slot =
      if slot = place then (o.content? slot).bind fun _ => content.mark? yarn
      else o.mark? yarn slot := by
  rw [mark?, content?_fill]
  split
  · rw [Option.bind_map]
    rfl
  · rfl

/-- Settling the slot of another carrier leaves the marks of this one. -/
theorem trail_fill_of_none (before : o.mark? yarn place = none) (after : content.mark? yarn = none) :
    (o.fill place content).trail yarn = o.trail yarn := by
  unfold trail
  rw [size_fill]
  refine List.filterMap_congr ?_
  intro slot _
  rw [mark?_fill]
  split
  · next same =>
    rw [same, before, after]
    cases o.content? place <;> rfl
  · rfl

theorem trail_increasing (o : Output) (yarn : Yarn) :
    (o.trail yarn).Pairwise fun a b => a.1 < b.1 := by
  refine List.Pairwise.filterMap _ ?_ List.pairwise_lt_range
  intro slot slot' less a there b there'
  obtain ⟨_, _, rfl⟩ := Option.map_eq_some_iff.1 there
  obtain ⟨_, _, rfl⟩ := Option.map_eq_some_iff.1 there'
  exact less

private theorem mark?_of_mem {slot : Nat} {m : Mark} (member : (slot, m) ∈ o.trail yarn) :
    o.mark? yarn slot = some m := by
  obtain ⟨slot', _, there⟩ := List.mem_filterMap.1 member
  obtain ⟨m', held, same⟩ := Option.map_eq_some_iff.1 there
  cases same
  exact held

/-- The last mark of a carrier may be settled. -/
theorem trail_fill {marks : List (Nat × Mark)} {old new : Mark}
    (last : o.trail yarn = marks ++ [(place, old)]) (mark : content.mark? yarn = some new) :
    (o.fill place content).trail yarn = marks ++ [(place, new)] := by
  have held : o.mark? yarn place = some old := mark?_of_mem (by simp [last])
  have there : ∃ c, o.content? place = some c := by
    obtain ⟨c, there, _⟩ := Option.bind_eq_some_iff.1 held
    exact ⟨c, there⟩
  have whole : (o.fill place content).trail yarn =
      (o.trail yarn).map fun x => (x.1, if x.1 = place then new else x.2) := by
    unfold trail
    rw [size_fill, List.map_filterMap]
    refine List.filterMap_congr ?_
    intro slot _
    rw [mark?_fill]
    by_cases same : slot = place
    · obtain ⟨c, there⟩ := there
      subst same
      simp [held, there, mark]
    · simp [same, Function.comp_def]
  have increasing := o.trail_increasing yarn
  rw [last, List.pairwise_append] at increasing
  rw [whole, last, List.map_append]
  congr 1
  · -- the other marks stand further left
    refine (List.map_congr_left ?_).trans (List.map_id _)
    intro x member
    have less := increasing.2.2 x member (place, old) (List.mem_singleton_self _)
    rw [if_neg (Nat.ne_of_lt less)]
    rfl
  · simp

/-- Contents that are work or nothing to a yarn add a mark for each that is work. -/
theorem trail_foldl_emit {contents : List Content}
    (work : ∀ content ∈ contents, content.mark? yarn = none ∨
      content.mark? yarn = some (.done .work)) (o : Output) :
    ∃ slots : List Nat, (contents.foldl emit o).trail yarn =
        o.trail yarn ++ slots.map (·, .done .work) ∧
      (slots = [] ↔ ∀ content ∈ contents, content.mark? yarn = none) := by
  induction contents generalizing o with
  | nil => exact ⟨[], by simp, by simp⟩
  | cons content rest ih =>
    obtain ⟨slots, grown, nothing⟩ :=
      ih (fun other member => work other (List.mem_cons_of_mem _ member)) (o.emit content)
    rw [trail_emit] at grown
    rcases work content (by simp) with none | some
    · refine ⟨slots, ?_, ?_⟩
      · rw [List.foldl_cons, grown, none]
        simp
      · simp [none, nothing]
    · refine ⟨o.slots.size :: slots, ?_, ?_⟩
      · rw [List.foldl_cons, grown, some]
        simp
      · simp [some]

end Output

/-! ## Where carriers stand -/

/-- The actions that carriers take part in. -/
def Action.usesCarriers : Action → Bool
  | .miss | .tuck | .knit | .split _ => true
  | .amiss | .drop | .emptyDrop | .transfer _ => false

theorem LoopWork.usesCarriers_action (work : LoopWork) (hasLoops : Bool) :
    (work.action hasLoops true).usesCarriers = true := by
  cases work <;> cases hasLoops <;> rfl

/-- A stage, with its locations set aside. -/
def CarrierStage.stand : CarrierStage → Stand
  | .pending slot => .waiting slot
  | .active .. => .active

namespace Context

def stand (c : Context) (yarn : Yarn) : Stand :=
  ((c.stages.get? yarn).map CarrierStage.stand).getD .absent

theorem stand_setStage (c : Context) (carrier : Carrier) (stage : CarrierStage) (yarn : Yarn) :
    (c.setStage carrier stage).stand yarn =
      if yarn = carrier.yarn then stage.stand else c.stand yarn := by
  unfold stand
  rw [get?_setStage]
  split <;> rfl

theorem stand_erase {c d : Context} {yarn : Yarn} (stages : d.stages = c.stages.erase yarn)
    (yarn' : Yarn) : d.stand yarn' = if yarn' = yarn then .absent else c.stand yarn' := by
  unfold stand
  rw [stages, Table.get?_erase]
  split <;> rfl

theorem stand_relocate (c : Context) (parked attached : Location → Location) (yarn : Yarn) :
    (c.relocate parked attached).stand yarn = c.stand yarn := by
  unfold stand
  rw [get?_relocate, Option.map_map]
  congr 2
  funext stage
  cases stage <;> rfl

/-- The marks of a yarn and its stand follow what the source did with its carrier. -/
def Tracks (block : Nat → Nat → Prop) (yarn : Yarn) (t : Timeline) (c : Context) : Prop :=
  Follows block (c.stand yarn) t (c.output.trail yarn)

/-- A part of a lowering that does nothing with a yarn. -/
structure Spares (yarn : Yarn) (c c' : Context) : Prop where
  stand : c'.stand yarn = c.stand yarn
  trail : c'.output.trail yarn = c.output.trail yarn

namespace Spares

variable {yarn : Yarn} {c d e : Context}

theorem refl (c : Context) : Spares yarn c c :=
  ⟨rfl, rfl⟩

theorem trans (first : Spares yarn c d) (second : Spares yarn d e) : Spares yarn c e :=
  ⟨second.stand.trans first.stand, second.trail.trans first.trail⟩

theorem tracks {block : Nat → Nat → Prop} {t : Timeline} (spares : Spares yarn c d)
    (tracks : c.Tracks block yarn t) : d.Tracks block yarn t := by
  unfold Tracks
  rw [spares.stand, spares.trail]
  exact tracks

theorem emit {content : Content} (none : content.mark? yarn = none) :
    Spares yarn c (c.emit content) :=
  ⟨rfl, Output.trail_emit_of_none none⟩

end Spares

/-! ## In and out -/

section
variable {block : Nat → Nat → Prop} {line : Nat} {t : Timeline} {c c' : Context} {carrier : Carrier}

/-- The event that a line gives a carrier for one name. -/
def named (carrier : Carrier) (line : Nat) (event : CarrierEvent) (name : Text) : Timeline :=
  if name = carrier.name then [(line, event)] else []

private theorem yarn_ne (numbered : c.carriers.Numbered) {other : Carrier}
    (listed : carrier ∈ c.carriers.carriers) (listed' : other ∈ c.carriers.carriers)
    (apart : other.name ≠ carrier.name) : carrier.yarn ≠ other.yarn := by
  intro same
  rw [numbered.eq_of_yarn listed listed' same] at apart
  exact apart rfl

private theorem tracks_bringIn {name : Text} (done : c.bringIn name = .ok c')
    (numbered : c.carriers.Numbered) (listed : carrier ∈ c.carriers.carriers)
    (inside : block line c.output.slots.size) (tracks : c.Tracks block carrier.yarn t) :
    c'.Tracks block carrier.yarn (t ++ named carrier line .enter name) := by
  obtain ⟨other, found, done⟩ := Except.bind_ok done
  obtain ⟨listed', rfl⟩ := CarrierTable.find?_eq_some (CarrierTable.lookup_ok found)
  split at done
  · cases done
  · cases done
  · next absent =>
    cases done
    unfold named
    split
    · next same =>
      cases List.inj_on_of_nodup_map numbered.names listed' listed same
      have before : c.stand carrier.yarn = .absent := by rw [stand, absent]; rfl
      rw [Tracks, before] at tracks
      have grown : (c.output.emit (.pendingIn carrier)).trail carrier.yarn =
          c.output.trail carrier.yarn ++ [(c.output.slots.size, .reserved)] := by
        rw [Output.trail_emit, Content.mark?, if_pos rfl]
        rfl
      have after := tracks.enter inside
      rw [← grown] at after
      rw [Tracks, stand_setStage, if_pos rfl]
      exact after
    · next apart =>
      have other_yarn := yarn_ne numbered listed listed' apart
      rw [List.append_nil]
      refine Spares.tracks ⟨?_, ?_⟩ tracks
      · rw [stand_setStage, if_neg other_yarn]
        rfl
      · exact Output.trail_emit_of_none (by rw [Content.mark?, if_neg other_yarn.symm])

private theorem tracks_bringOut {name : Text} (done : c.bringOut name = .ok c')
    (numbered : c.carriers.Numbered) (listed : carrier ∈ c.carriers.carriers)
    (tracks : c.Tracks block carrier.yarn t) :
    c'.Tracks block carrier.yarn (t ++ named carrier line .leave name) := by
  obtain ⟨other, found, done⟩ := Except.bind_ok done
  obtain ⟨listed', rfl⟩ := CarrierTable.find?_eq_some (CarrierTable.lookup_ok found)
  split at done
  · next parked attached active =>
    have left := stand_erase (congrArg Context.stages (Except.ok.inj done)).symm carrier.yarn
    obtain ⟨out, named', output⟩ : ∃ op : Operation, (op.yarns = [other.yarn] ∧ op.event = .leave) ∧
        c'.output = c.output.emit (.operation op) := by
      cases done
      exact ⟨_, ⟨rfl, rfl⟩, rfl⟩
    unfold named
    split
    · next same =>
      cases List.inj_on_of_nodup_map numbered.names listed' listed same
      have before : c.stand carrier.yarn = .active := by rw [stand, active]; rfl
      rw [Tracks, before] at tracks
      rw [Tracks, left, if_pos rfl, output, Output.trail_emit,
        Content.mark?_operation (by rw [named'.1]; exact List.mem_singleton_self _), named'.2]
      exact tracks.leave
    · next apart =>
      have other_yarn := yarn_ne numbered listed listed' apart
      rw [if_neg other_yarn] at left
      rw [List.append_nil]
      refine Spares.tracks ⟨left, ?_⟩ tracks
      rw [output]
      exact Output.trail_emit_of_none
        (Content.mark?_operation_of_not_mem (by simpa [named'.1] using other_yarn))
  · cases done
  · cases done

/-- A step that is done for a name adds one line to the output. -/
private def Adds (step : Context → Text → Except LoweringError Context) : Prop :=
  ∀ d d' name, step d name = .ok d' →
    d'.carriers = d.carriers ∧ d'.output.slots.size = d.output.slots.size + 1

private theorem adds_bringIn : Adds bringIn := by
  intro d d' name done
  obtain ⟨_, _, done⟩ := Except.bind_ok done
  split at done
  · cases done
  · cases done
  · cases done
    exact ⟨rfl, Output.size_emit _ _⟩

private theorem adds_bringOut : Adds bringOut := by
  intro d d' name done
  obtain ⟨_, _, done⟩ := Except.bind_ok done
  split at done
  · cases done
    exact ⟨rfl, Output.size_emit _ _⟩
  · cases done
  · cases done

private theorem Adds.size_forEach {step : Context → Text → Except LoweringError Context}
    (adds : Adds step) {names : List Text} (done : c.forEach step names = .ok c') :
    c.output.slots.size ≤ c'.output.slots.size := by
  induction names generalizing c with
  | nil =>
    cases done
    exact Nat.le_refl _
  | cons name rest ih =>
    unfold forEach at done
    split at done
    · cases done
    · next d first =>
      have more := (adds c d name first).2
      have rest' := ih done
      omega

private theorem tracks_forEach {step : Context → Text → Except LoweringError Context}
    {event : CarrierEvent} {names : List Text} (adds : Adds step)
    (each : ∀ d d' name t, step d name = .ok d' → d.carriers.Numbered →
      carrier ∈ d.carriers.carriers → block line d.output.slots.size →
      d.Tracks block carrier.yarn t →
        d'.Tracks block carrier.yarn (t ++ named carrier line event name))
    (done : c.forEach step names = .ok c') (numbered : c.carriers.Numbered)
    (listed : carrier ∈ c.carriers.carriers)
    (inside : ∀ slot, c.output.slots.size ≤ slot → slot < c'.output.slots.size → block line slot)
    (tracks : c.Tracks block carrier.yarn t) :
    c'.Tracks block carrier.yarn
      (t ++ (List.replicate (names.count carrier.name) event).map (line, ·)) := by
  induction names generalizing c t with
  | nil =>
    cases done
    simpa using tracks
  | cons name rest ih =>
    unfold forEach at done
    split at done
    · cases done
    · next d first =>
      obtain ⟨same, more⟩ := adds c d name first
      have less := adds.size_forEach done
      have tracks' := each c d name t first numbered listed
        (inside _ (Nat.le_refl _) (by omega)) tracks
      have rest' := ih done (same ▸ numbered) (same ▸ listed)
        (fun slot low high => inside slot (by omega) high) tracks'
      have events : named carrier line event name ++
          (List.replicate (rest.count carrier.name) event).map (line, ·) =
            (List.replicate ((name :: rest).count carrier.name) event).map (line, ·) := by
        unfold named
        by_cases here : name = carrier.name
        · rw [if_pos here, here, List.count_cons_self, List.replicate_succ]
          rfl
        · rw [if_neg here, List.count_cons_of_ne here]
          rfl
      rwa [List.append_assoc, events] at rest'

/-! ## Racking -/

theorem spares_rack (yarn : Yarn) (target : Int) : Spares yarn c (c.rack target) := by
  have step (d : Context) (one : Int) : Spares yarn d (d.rackStep one) := by
    let parked : Context :=
      { d.relocate (onFrontBed d.racking) id with racking := d.racking + one }
    have placed : Spares yarn d parked := ⟨d.stand_relocate _ _ yarn, rfl⟩
    exact placed.trans (.emit (Content.mark?_operation_of_not_mem List.not_mem_nil))
  have steps (n : Nat) (one : Int) (d : Context) : Spares yarn d (d.rackSteps one n) := by
    induction n generalizing d with
    | zero => exact .refl d
    | succ n ih => exact (step d one).trans (ih _)
  unfold rack
  split
  · exact .emit rfl
  · exact steps _ _ c

/-! ## Into place -/

/-- The carrier can be used: any work that is added now is the use that a line asks for. -/
def InPlace (block : Nat → Nat → Prop) (yarn : Yarn) (t : Timeline) (c : Context) : Prop :=
  c.stand yarn = .active ∧ ∀ line slots, slots ≠ [] →
    Follows block .active (t ++ [(line, .work)])
      (c.output.trail yarn ++ slots.map (·, .done .work))

theorem Spares.inPlace {yarn : Yarn} (spares : Spares yarn c c') (place : c.InPlace block yarn t) :
    c'.InPlace block yarn t := by
  unfold InPlace
  rw [spares.stand, spares.trail]
  exact place

/-- A walk gives work to the carrier that walks, and to no other. -/
private theorem trail_walk (yarn mover : Yarn) (heading : Direction) (n : Nat) (location : Location)
    (o : Output) : ∃ slots : List Nat, (walk mover heading n location o).2.trail yarn =
      o.trail yarn ++ slots.map (·, .done .work) ∧ (yarn ≠ mover → slots = []) := by
  induction n generalizing location o with
  | zero => exact ⟨[], by simp [walk], fun _ => rfl⟩
  | succ n ih =>
    let next := location.advance heading
    obtain ⟨slots, grown, others⟩ :=
      ih next (o.emit (.operation (.miss heading next.needle mover)))
    by_cases same : yarn = mover
    · refine ⟨o.slots.size :: slots, ?_, fun apart => absurd same apart⟩
      rw [Output.trail_emit, Content.mark?_operation (by simp [Operation.yarns, same])] at grown
      rw [walk, grown]
      simp [Operation.event]
    · refine ⟨slots, ?_, others⟩
      rw [Output.trail_emit_of_none (Content.mark?_operation_of_not_mem
        (by simpa [Operation.yarns] using same))] at grown
      rw [walk, grown]

private theorem trail_walkTo (c : Context) (yarn : Yarn) (parked attached goal : Location) :
    ∃ slots : List Nat, (c.walkTo carrier parked attached goal).output.trail yarn =
      c.output.trail yarn ++ slots.map (·, .done .work) ∧ (yarn ≠ carrier.yarn → slots = []) := by
  obtain ⟨heading, n, walked⟩ : ∃ heading n, (c.walkTo carrier parked attached goal).output =
      (walk carrier.yarn heading n parked c.output).2 := ⟨_, _, rfl⟩
  rw [walked]
  exact trail_walk yarn carrier.yarn heading n parked c.output

private theorem inPlace_position {goal : Location} (done : c.position goal carrier = .ok c')
    (tracks : c.Tracks block carrier.yarn t) : c'.InPlace block carrier.yarn t := by
  unfold position at done
  split at done
  · cases done
  · next slot pending =>
    cases done
    have waits : c.stand carrier.yarn = .waiting slot := by rw [stand, pending]; rfl
    rw [Tracks, waits] at tracks
    obtain ⟨before, earlier, entry, rfl, last, follows, inside⟩ := tracks.of_waiting
    refine ⟨by rw [stand_setStage, if_pos rfl]; rfl, ?_⟩
    intro line slots some
    have settled : (c.output.fill slot (.operation (c.settledIn carrier goal))).trail carrier.yarn =
        earlier ++ [(slot, .done .enter)] :=
      Output.trail_fill last (Content.mark?_operation (List.mem_singleton_self _))
    rw [setStage, settled]
    exact follows.first inside some
  · next parked attached active =>
    cases done
    have acts : c.stand carrier.yarn = .active := by rw [stand, active]; rfl
    rw [Tracks, acts] at tracks
    refine ⟨by rw [walkTo, stand_setStage, if_pos rfl]; rfl, ?_⟩
    intro line slots some
    obtain ⟨walked, grown, _⟩ := c.trail_walkTo carrier.yarn parked attached goal
    rw [grown, List.append_assoc, ← List.map_append]
    exact tracks.use (List.append_ne_nil_of_right_ne_nil walked some)

private theorem spares_position {goal : Location} {yarn : Yarn} (sound : c.Sound)
    (done : c.position goal carrier = .ok c') (apart : yarn ≠ carrier.yarn) :
    Spares yarn c c' := by
  unfold position at done
  split at done
  · cases done
  · next slot pending =>
    cases done
    obtain ⟨owner, there, own⟩ := sound.waiting _ slot pending
    refine ⟨by rw [stand_setStage, if_neg apart]; rfl, Output.trail_fill_of_none ?_ ?_⟩
    · rw [Output.mark?, there, Option.bind_some, Content.mark?, if_neg (own ▸ apart.symm)]
    · exact Content.mark?_operation_of_not_mem (by simpa [settledIn, Operation.yarns] using apart)
  · next parked attached active =>
    cases done
    obtain ⟨walked, grown, others⟩ := c.trail_walkTo yarn parked attached goal
    refine ⟨by rw [walkTo, stand_setStage, if_neg apart]; rfl, ?_⟩
    rw [grown, others apart]
    exact List.append_nil _

private theorem spares_positionAll {goal : Location} {yarn : Yarn} {carriers : List Carrier}
    (sound : c.Sound) (listed : ∀ carrier ∈ carriers, carrier ∈ c.carriers.carriers)
    (near : goal.Nearby) (done : c.positionAll goal carriers = .ok c')
    (apart : yarn ∉ carriers.map (·.yarn)) : Spares yarn c c' := by
  induction carriers generalizing c with
  | nil =>
    cases done
    exact .refl _
  | cons first rest ih =>
    unfold positionAll at done
    split at done
    · cases done
    · next d placed =>
      rw [List.map_cons, List.mem_cons, not_or] at apart
      have moves : Moves (fun _ => True) (fun _ _ => True) c d :=
        (moves_position sound (listed first (by simp)) near trivial placed).1
      refine (spares_position sound placed apart.1).trans (ih (moves.sound sound) ?_ done apart.2)
      intro other member
      rw [moves.keeps.1]
      exact listed other (List.mem_cons_of_mem first member)

private theorem inPlace_positionAll {goal : Location} {carriers : List Carrier} (sound : c.Sound)
    (listed : ∀ carrier ∈ carriers, carrier ∈ c.carriers.carriers)
    (distinct : (carriers.map (·.yarn)).Nodup) (near : goal.Nearby)
    (done : c.positionAll goal carriers = .ok c') (mine : carrier ∈ carriers)
    (tracks : c.Tracks block carrier.yarn t) : c'.InPlace block carrier.yarn t := by
  induction carriers generalizing c with
  | nil => cases mine
  | cons first rest ih =>
    unfold positionAll at done
    split at done
    · cases done
    · next d placed =>
      rw [List.map_cons, List.nodup_cons] at distinct
      have moves : Moves (fun _ => True) (fun _ _ => True) c d :=
        (moves_position sound (listed first (by simp)) near trivial placed).1
      have listed' : ∀ other ∈ rest, other ∈ d.carriers.carriers := by
        intro other member
        rw [moves.keeps.1]
        exact listed other (List.mem_cons_of_mem first member)
      rcases List.mem_cons.1 mine with rfl | later
      · exact (spares_positionAll (moves.sound sound) listed' near done distinct.1).inPlace
          (inPlace_position placed tracks)
      · have apart : carrier.yarn ≠ first.yarn := fun same =>
          distinct.1 (same ▸ List.mem_map_of_mem later)
        exact ih (moves.sound sound) listed' distinct.2 done later
          ((spares_position sound placed apart).tracks tracks)

/-! ## Requests -/

private theorem stand_retarget (c : Context) (p : Plan) (yarn : Yarn) :
    (c.retarget p).stand yarn = c.stand yarn := by
  unfold retarget
  split
  · exact c.stand_relocate _ _ yarn
  · exact c.stand_relocate _ _ yarn
  · rfl

private theorem stand_foldl_usedCarrier (p : Plan) (carriers : List Carrier) (c : Context)
    (yarn : Yarn) : (carriers.foldl (usedCarrier p) c).stand yarn =
      if yarn ∈ carriers.map (·.yarn) then .active else c.stand yarn := by
  have used (d : Context) (carrier : Carrier) : (usedCarrier p d carrier).stand yarn =
      if yarn = carrier.yarn then .active else d.stand yarn := by
    unfold usedCarrier
    split <;> rw [stand_setStage] <;> rfl
  induction carriers generalizing c with
  | nil => rfl
  | cons carrier rest ih =>
    rw [List.foldl_cons, ih, used, List.map_cons]
    by_cases later : yarn ∈ rest.map (·.yarn)
    · simp [later]
    · by_cases same : yarn = carrier.yarn <;> simp [later, same]

theorem stand_perform (c : Context) (p : Plan) (yarn : Yarn) :
    (c.perform p).stand yarn = if yarn ∈ p.yarns then .active else c.stand yarn := by
  have emitted (contents : List Content) (d : Context) :
      (contents.foldl emit d).stand yarn = d.stand yarn := by
    induction contents generalizing d with
    | nil => rfl
    | cons content rest ih => exact ih _
  rw [perform, stand_foldl_usedCarrier, stand_retarget, ← emitted (c.contents p) c]
  rfl

/-- Contents that are work to some yarns, and nothing to all others. -/
private structure AreWork (contents : List Content) (yarns : List Yarn) (yarn : Yarn) : Prop where
  work : ∀ content ∈ contents, content.mark? yarn = none ∨ content.mark? yarn = some (.done .work)
  idle : (∀ content ∈ contents, content.mark? yarn = none) ↔ yarn ∉ yarns

private theorem mark?_work {op : Operation} (work : op.event = .work) (yarn : Yarn) :
    (Content.operation op).mark? yarn = if yarn ∈ op.yarns then some (.done .work) else none := by
  split
  · next mine => rw [Content.mark?_operation mine, work]
  · next other => exact Content.mark?_operation_of_not_mem other

private theorem areWork_single {op : Operation} (work : op.event = .work) (yarn : Yarn) :
    AreWork [.operation op] op.yarns yarn := by
  have mark := mark?_work work yarn
  by_cases mine : yarn ∈ op.yarns <;> constructor <;> simp [mark, mine]

/-- The output lines of an action are work to its carriers. -/
private theorem areWork_contents {p : Plan}
    (uses : p.carriers ≠ [] → p.action.usesCarriers = true) (yarn : Yarn) :
    AreWork (c.contents p) p.yarns yarn := by
  have bare (idle : p.action.usesCarriers = false) : p.yarns = [] := by
    rw [Plan.yarns, List.map_eq_nil_iff]
    by_contra named
    rw [uses named] at idle
    cases idle
  have strands := c.yarnsOf_strands p.request.needle p.carriers
  cases action : p.action with
  | miss =>
    have misses : c.contents p = p.carriers.map fun carrier => .operation
        (.miss p.request.direction p.request.needle carrier.yarn) := by rw [contents, action]
    have miss (carrier : Carrier) : (Content.operation (.miss p.request.direction
        p.request.needle carrier.yarn)).mark? yarn =
          if yarn = carrier.yarn then some (.done .work) else none := by
      rw [mark?_work rfl]
      simp [Operation.yarns]
    refine ⟨?_, ?_⟩ <;> rw [misses, List.forall_mem_map] <;> simp only [miss]
    · intro carrier _
      split <;> simp
    · simp [Plan.yarns, eq_comm]
  | tuck | knit | split =>
    rw [contents, action, Plan.yarns, ← strands]
    exact areWork_single rfl yarn
  | drop | transfer =>
    rw [contents, action, bare (by rw [action]; rfl)]
    exact areWork_single rfl yarn
  | amiss | emptyDrop =>
    rw [contents, action, bare (by rw [action]; rfl)]
    constructor <;> simp [Content.mark?]

/-- A request uses the carriers that it names, each once, and spares all others. -/
theorem tracks_lowerRequest {request : Request} (sound : c.Sound)
    (listed : carrier ∈ c.carriers.carriers)
    (near : request.needle.index.natAbs ≤ maxNeedleIndex)
    (done : c.lowerRequest request = .ok c') (tracks : c.Tracks block carrier.yarn t) :
    c'.Tracks block carrier.yarn
      (t ++ (Command.events carrier.name (.loops request)).map (line, ·)) := by
  obtain ⟨p, m, planned, _, placed, rfl⟩ := lowerRequest_ok done
  obtain ⟨rfl, resolved, action, bare⟩ := plan_ok planned
  have names := CarrierTable.resolve_eq_nil resolved
  have distinct := CarrierTable.nodup_resolve sound.table resolved
  have known : ∀ other ∈ p.carriers, other ∈ c.carriers.carriers :=
    fun other member => (CarrierTable.mem_of_resolve resolved member).1
  have uses : p.carriers ≠ [] → p.action.usesCarriers = true := by
    intro named
    have some : p.request.carriers.isEmpty = false := by
      rw [List.isEmpty_eq_false_iff]
      exact mt names.2 named
    rw [action, some]
    exact LoopWork.usesCarriers_action _ _
  have works : AreWork (m.contents p) p.yarns carrier.yarn := areWork_contents uses carrier.yarn
  obtain ⟨slots, grown, idle⟩ := Output.trail_foldl_emit works.work m.output
  rw [← output_perform] at grown
  rw [works.idle] at idle
  by_cases mine : carrier ∈ p.carriers
  · have yarn : carrier.yarn ∈ p.yarns := List.mem_map_of_mem mine
    have named := (CarrierTable.mem_of_resolve resolved mine).2
    have events : Command.events carrier.name (.loops p.request) = [.work] := by
      have once : p.request.carriers.count carrier.name = 1 :=
        List.count_eq_one_of_mem (CarrierTable.nodup_of_resolve resolved) named
      rw [Command.events, if_neg, once]
      · rfl
      · intro synonym
        rw [bare synonym] at named
        cases named
    obtain ⟨_, place⟩ := inPlace_positionAll sound known distinct (approach_nearby near) placed mine
      tracks
    rw [Tracks, stand_perform, if_pos yarn, grown, events]
    exact place line slots (mt idle.1 (not_not.2 yarn))
  · have yarn : carrier.yarn ∉ p.yarns := by
      intro member
      obtain ⟨other, there, same⟩ := List.mem_map.1 member
      exact mine (sound.table.eq_of_yarn (known other there) listed same ▸ there)
    have events : Command.events carrier.name (.loops p.request) = [] := by
      have never : p.request.carriers.count carrier.name = 0 :=
        List.count_eq_zero_of_not_mem
          fun named => mine (CarrierTable.mem_resolve sound.table resolved listed named)
      rw [Command.events, never]
      split <;> rfl
    have walked := spares_positionAll sound known (approach_nearby near) placed yarn
    have performed : Spares carrier.yarn m (m.perform p) := by
      refine ⟨by rw [stand_perform, if_neg yarn], ?_⟩
      rw [grown, idle.2 yarn]
      exact List.append_nil _
    rw [events, List.map_nil, List.append_nil]
    exact (walked.trans performed).tracks tracks

/-! ## Lines -/

/-- Lowering a line marks what the line does with the carrier; an `in` is marked among the slots that
the line adds. -/
theorem tracks_lowerLine {number : Nat} {source : Text} (sound : c.Sound)
    (listed : carrier ∈ c.carriers.carriers) (whole : '\n' ∉ source)
    (done : c.lowerLine number source = .ok c')
    (inside : ∀ slot, c.output.slots.size ≤ slot → slot < c'.output.slots.size → block line slot)
    (tracks : c.Tracks block carrier.yarn t) :
    c'.Tracks block carrier.yarn (t ++ (lineEvents carrier.name source).map (line, ·)) := by
  let begun : Context := { c with output := c.output.beginLine source }
  have sound' : begun.Sound :=
    { sound with tidy := sound.tidy.beginLine whole, waiting := sound.waiting }
  have tracks' : begun.Tracks block carrier.yarn t := tracks
  unfold lowerLine at done
  simp only at done
  split at done
  · cases done
  · next command read =>
    rw [Command.lineEvents_ofLine read]
    have still (nothing : command.events carrier.name = [])
        (spares : Spares carrier.yarn begun c') :
        c'.Tracks block carrier.yarn
          (t ++ (((some command).map (Command.events carrier.name)).getD []).map (line, ·)) := by
      rw [Option.map_some, Option.getD_some, nothing, List.map_nil, List.append_nil]
      exact spares.tracks tracks'
    cases command with
    | bringIn names =>
      refine tracks_forEach adds_bringIn ?_ done sound.table listed inside tracks'
      intro _ _ _ _ step numbered listed inside tracks
      exact tracks_bringIn step numbered listed inside tracks
    | bringOut names =>
      refine tracks_forEach adds_bringOut ?_ done sound.table listed inside tracks'
      intro _ _ _ _ step numbered listed _ tracks
      exact tracks_bringOut step numbered listed tracks
    | idle | stitch | stitchNumber | setting | vendor =>
      cases done
      exact still rfl ⟨rfl, rfl⟩
    | rack target =>
      cases done
      exact still rfl (spares_rack _ target)
    | loops request =>
      exact tracks_lowerRequest sound' listed (Command.near_ofLine read).1 done tracks'
  · next read =>
    rw [Command.lineEvents_ofLine read]
    cases done
    refine (List.append_nil t).symm ▸ Spares.tracks ?_ tracks'
    split
    · exact .emit rfl
    · exact .refl _

end

end Context

end Knitout
