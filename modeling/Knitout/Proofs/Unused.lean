import Knitout.Proofs.Placeholders

/-!
Which carriers still wait for their first use when a lowering ends, told from the words of the lines
alone: those that a line brought in and no later line uses or brings in again (`unusedIns`). Main
statement: `Context.waiting_lowerLines`.
-/

namespace Knitout

/-! ## Words -/

/-- The names that a line brings in, in their order. -/
def broughtIn (line : Text) : List Text :=
  match words (cutComment line).1 with
  | [] => []
  | word :: names => if word = "in".toList ∨ word = "inhook".toList then names else []

/-- The line neither brings in a carrier of this name nor uses it. -/
def Idle (name line : Text) : Prop :=
  .enter ∉ lineEvents name line ∧ .work ∉ lineEvents name line

instance (name line : Text) : Decidable (Idle name line) :=
  inferInstanceAs (Decidable (_ ∧ _))

/-- The names that are brought in for nothing: no later line uses them or brings them in again. They
come in the order in which they are brought in. -/
def unusedIns : List Text → List Text
  | [] => []
  | line :: rest =>
    ((broughtIn line).filter fun name => ∀ later ∈ rest, Idle name later) ++ unusedIns rest

namespace Command

variable {name line : Text} {command : Command}

/-- The names that a command brings in. -/
def entering : Command → List Text
  | .bringIn names => names
  | _ => []

/-- The names that a command brings in or uses. A synonym has none. -/
def touched : Command → List Text
  | .bringIn names => names
  | .loops request => if request.synonym.isSome then [] else request.carriers
  | _ => []

theorem broughtIn_ofLine (read : ofLine line = .ok (some command)) :
    broughtIn line = command.entering := by
  obtain ⟨word, tokens, split, read⟩ := ofLine_some read
  unfold broughtIn
  rw [split]
  have other (strange : word ∉ carrierWords) :
      (if word = "in".toList ∨ word = "inhook".toList then tokens else []) = [] := by
    refine if_neg fun brings => strange ?_
    rcases brings with rfl | rfl <;> simp [carrierWords]
  rcases ofWords_cases read with ⟨verb, _, rfl, _, rfl⟩ | ⟨_, _, synonym, _, rfl⟩ |
    ⟨_, _, harmless⟩
  · cases verb <;> rfl
  · simp only [synonyms, List.mem_cons, Prod.mk.injEq, List.not_mem_nil, or_false] at synonym
    rcases synonym with ⟨rfl, _⟩ | ⟨rfl, _⟩ | ⟨rfl, _⟩ <;> rfl
  · cases command with
    | bringIn names =>
      obtain ⟨rfl | rfl, rfl⟩ := harmless <;> rfl
    | bringOut names =>
      obtain ⟨rfl | rfl, rfl⟩ := harmless <;> rfl
    | rack => exact other harmless.2
    | idle | stitch | stitchNumber | setting | vendor => exact other harmless
    | loops => exact harmless.elim

theorem idle_ofLine (read : ofLine line = .ok (some command)) :
    Idle name line ↔ name ∉ command.touched := by
  unfold Idle
  rw [lineEvents_ofLine read]
  cases command with
  | bringIn names => simp [events, touched, List.mem_replicate, List.count_eq_zero]
  | bringOut names => simp [events, touched, List.mem_replicate]
  | loops request =>
    cases bare : request.synonym <;>
      simp [events, touched, bare, List.mem_replicate, List.count_eq_zero]
  | _ => simp [events, touched]

end Command

/-- A line that asks for nothing leaves all carriers alone. -/
theorem silent_ofLine {line : Text} (read : Command.ofLine line = .ok none) (name : Text) :
    broughtIn line = [] ∧ Idle name line := by
  have nothing := Command.lineEvents_ofLine read name
  refine ⟨?_, by rw [Idle, nothing]; simp⟩
  unfold Command.ofLine at read
  split at read
  · next blank =>
    rw [broughtIn, blank]
  · obtain ⟨_, _, same⟩ := Except.map_ok read
    cases same

/-! ## Places that are left -/

namespace Output

/-- The carrier that a slot waits for. -/
def waits? (slot : Slot) : Option Carrier :=
  match slot.content with
  | .pendingIn carrier => some carrier
  | _ => none

theorem waits?_of_plain {content : Content} (plain : content.Plain) (quoted : Option Text) :
    waits? ⟨content, quoted⟩ = none := by
  cases content with
  | operation | remark => rfl
  | pendingIn carrier => exact absurd rfl (plain carrier)

theorem unused_emit {o : Output} {content : Content} (plain : content.Plain) :
    (o.emit content).unused = o.unused := by
  show (o.slots.push _).toList.filterMap waits? = _
  rw [Array.toList_push, List.filterMap_append,
    List.filterMap_cons_none (waits?_of_plain plain _), List.filterMap_nil, List.append_nil]
  rfl

theorem unused_emit_pendingIn (o : Output) (carrier : Carrier) :
    (o.emit (.pendingIn carrier)).unused = o.unused ++ [carrier] := by
  show (o.slots.push _).toList.filterMap waits? = _
  rw [Array.toList_push, List.filterMap_append]
  rfl

theorem unused_foldl_emit {o : Output} {contents : List Content}
    (plain : ∀ content ∈ contents, content.Plain) : (contents.foldl emit o).unused = o.unused := by
  induction contents generalizing o with
  | nil => rfl
  | cons content rest ih =>
    rw [List.foldl_cons, ih fun other member => plain other (List.mem_cons_of_mem content member),
      unused_emit (plain content (by simp))]

theorem unused_walk (yarn : Yarn) (heading : Direction) (n : Nat) (location : Location)
    (o : Output) : (walk yarn heading n location o).2.unused = o.unused := by
  induction n generalizing location o with
  | zero => rfl
  | succ n ih => exact (ih _ _).trans (unused_emit (Content.plain_operation _))

/-- A carrier waits no longer once its place is filled. -/
theorem unused_fill {o : Output} {place : Nat} {carrier : Carrier}
    (reserved : o.content? place = some (.pendingIn carrier)) (once : o.unused.Nodup)
    (op : Operation) :
    (o.fill place (.operation op)).unused = o.unused.filter (· ≠ carrier) := by
  obtain ⟨slot, there, held⟩ := Option.map_eq_some_iff.1 reserved
  obtain ⟨inside, rfl⟩ := Array.getElem?_eq_some_iff.1 there
  have inside' : place < o.slots.toList.length := by simpa using inside
  let before := (o.slots.toList.take place).filterMap waits?
  let behind := (o.slots.toList.drop (place + 1)).filterMap waits?
  have here : waits? (o.slots.toList[place]) = some carrier := by
    rw [Array.getElem_toList, waits?, held]
  have whole : o.unused = before ++ carrier :: behind := by
    show o.slots.toList.filterMap waits? = _
    conv_lhs => rw [← List.take_append_drop place o.slots.toList,
      List.drop_eq_getElem_cons inside', List.filterMap_append, List.filterMap_cons_some here]
  have left : (o.fill place (.operation op)).unused = before ++ behind := by
    show (o.slots.modify place _).toList.filterMap waits? = _
    rw [Array.toList_modify, List.modify_eq_take_cons_drop inside', List.filterMap_append]
    rfl
  rw [whole] at once ⊢
  obtain ⟨apart, apart'⟩ : carrier ∉ before ∧ carrier ∉ behind := by
    simpa [not_or] using (List.nodup_middle.1 once).notMem
  rw [left, List.filter_append, List.filter_cons_of_neg (by simp),
    List.filter_eq_self.2, List.filter_eq_self.2]
  · intro other member
    exact decide_eq_true fun same => apart' (same ▸ member)
  · intro other member
    exact decide_eq_true fun same => apart (same ▸ member)

end Output

/-! ## Carriers that wait -/

namespace Context

/-- The names of the carriers that wait for their first use, in the order of their places. -/
def waiting (c : Context) : List Text :=
  c.output.unused.map (·.name)

theorem waiting_eq {c d : Context} (same : d.output.unused = c.output.unused) :
    d.waiting = c.waiting :=
  congrArg (List.map Carrier.name) same

/-- The links hold, and carriers have different names. -/
structure Named (c : Context) : Prop extends c.Linked where
  names : (c.carriers.carriers.map (·.name)).Nodup

variable {c d : Context} {name : Text}

theorem Named.next (named : c.Named) (led : Leads c d) : d.Named :=
  ⟨led.linked, led.carriers ▸ named.names⟩

/-- A carrier of the table is listed exactly if it waits. -/
theorem Named.mem_waiting (named : c.Named) {carrier : Carrier}
    (listed : carrier ∈ c.carriers.carriers) :
    carrier.name ∈ c.waiting ↔ ∃ slot, c.stand carrier.yarn = .waiting slot := by
  unfold waiting
  rw [List.mem_map]
  constructor
  · rintro ⟨other, member, same⟩
    obtain ⟨slot, there⟩ := Output.mem_unused.1 member
    have listed' := named.listed slot other there
    obtain rfl := List.inj_on_of_nodup_map named.names listed' listed same
    exact ⟨slot, (named.waiting other listed slot).2 there⟩
  · rintro ⟨slot, waits⟩
    exact ⟨carrier, Output.mem_unused.2 ⟨slot, (named.waiting carrier listed slot).1 waits⟩, rfl⟩

/-- What comes in has not waited before. -/
theorem waiting_bringIn (named : c.Named) (done : c.bringIn name = .ok d) :
    d.waiting = c.waiting ++ [name] ∧ name ∉ c.waiting := by
  obtain ⟨carrier, found, done⟩ := Except.bind_ok done
  obtain ⟨listed, rfl⟩ := CarrierTable.find?_eq_some (CarrierTable.lookup_ok found)
  split at done
  · cases done
  · cases done
  · next absent =>
    cases done
    refine ⟨?_, ?_⟩
    · show (c.output.emit _).unused.map _ = _
      rw [Output.unused_emit_pendingIn, List.map_append]
      rfl
    · rw [named.mem_waiting listed, stand, absent]
      rintro ⟨_, ⟨⟩⟩

theorem waiting_bringIns {names : List Text} (named : c.Named)
    (done : c.forEach bringIn names = .ok d) :
    d.waiting = c.waiting ++ names ∧ ∀ name ∈ names, name ∉ c.waiting := by
  induction names generalizing c with
  | nil =>
    cases done
    simp
  | cons name rest ih =>
    unfold forEach at done
    split at done
    · cases done
    · next m first =>
      obtain ⟨one, fresh⟩ := waiting_bringIn named first
      obtain ⟨others, fresh'⟩ := ih (named.next (leads_bringIn named.toLinked first)) done
      rw [one] at others fresh'
      refine ⟨by simpa using others, ?_⟩
      intro other member
      rcases List.mem_cons.1 member with rfl | later
      · exact fresh
      · exact fun before => fresh' other later (List.mem_append_left _ before)

theorem waiting_bringOut (done : c.bringOut name = .ok d) : d.waiting = c.waiting := by
  obtain ⟨carrier, _, done⟩ := Except.bind_ok done
  split at done
  · cases done
    exact waiting_eq (Output.unused_emit (Content.plain_operation _))
  · cases done
  · cases done

theorem waiting_bringOuts {names : List Text} (done : c.forEach bringOut names = .ok d) :
    d.waiting = c.waiting := by
  induction names generalizing c with
  | nil =>
    cases done
    rfl
  | cons name rest ih =>
    unfold forEach at done
    split at done
    · cases done
    · next m first => exact (ih done).trans (waiting_bringOut first)

theorem waiting_rack (c : Context) (target : Int) : (c.rack target).waiting = c.waiting := by
  have steps (n : Nat) (step : Int) (c : Context) : (c.rackSteps step n).waiting = c.waiting := by
    induction n generalizing c with
    | zero => rfl
    | succ n ih =>
      have one : (c.rackStep step).waiting = c.waiting :=
        waiting_eq (Output.unused_emit (Content.plain_operation _))
      exact (ih _).trans one
  unfold rack
  split
  · exact waiting_eq (Output.unused_emit (Content.plain_remark _))
  · exact steps _ _ c

/-- A carrier that gets into place waits no longer. -/
theorem waiting_position {goal : Location} {carrier : Carrier} (named : c.Named)
    (listed : carrier ∈ c.carriers.carriers) (done : c.position goal carrier = .ok d) :
    d.waiting = c.waiting.filter (· ≠ carrier.name) := by
  unfold position at done
  split at done
  · cases done
  · next slot pending =>
    cases done
    have waits : c.stand carrier.yarn = .waiting slot := by rw [stand, pending]; rfl
    have reserved := (named.waiting carrier listed slot).1 waits
    have left := Output.unused_fill reserved (Output.nodup_unused named.toLinked.paired.once)
      (c.settledIn carrier goal)
    show (c.output.fill _ _).unused.map _ = _
    rw [left, waiting, List.filter_map]
    congr 1
    refine List.filter_congr fun other member => ?_
    obtain ⟨slot', there⟩ := Output.mem_unused.1 member
    have listed' := named.listed slot' other there
    have same : other = carrier ↔ other.name = carrier.name :=
      ⟨congrArg _, List.inj_on_of_nodup_map named.names listed' listed⟩
    simp [same]
  · next parked attached active =>
    cases done
    have same : (c.walkTo carrier parked attached goal).waiting = c.waiting :=
      waiting_eq (Output.unused_walk _ _ _ _ _)
    rw [same, eq_comm, List.filter_eq_self]
    intro other member
    have acts : carrier.name ∉ c.waiting := by
      rw [named.mem_waiting listed, stand, active]
      rintro ⟨_, ⟨⟩⟩
    exact decide_eq_true fun same => acts (same ▸ member)

theorem waiting_positionAll {goal : Location} {carriers : List Carrier} (named : c.Named)
    (listed : ∀ carrier ∈ carriers, carrier ∈ c.carriers.carriers)
    (done : c.positionAll goal carriers = .ok d) :
    d.waiting = c.waiting.filter (· ∉ carriers.map (·.name)) := by
  induction carriers generalizing c with
  | nil =>
    cases done
    simp
  | cons first rest ih =>
    unfold positionAll at done
    split at done
    · cases done
    · next m placed =>
      have here := listed first (by simp)
      have led := (leads_position named.toLinked here placed).1
      have others := ih (named.next led) (fun other member => by
        rw [led.carriers]
        exact listed other (List.mem_cons_of_mem first member)) done
      rw [others, waiting_position named here placed, List.filter_filter]
      refine List.filter_congr fun name _ => ?_
      simp [not_or, Bool.and_comm]

/-- The carriers of a request wait no longer. -/
theorem waiting_lowerRequest {request : Request} (named : c.Named)
    (done : c.lowerRequest request = .ok d) :
    d.waiting = c.waiting.filter (· ∉ request.carriers) := by
  obtain ⟨p, m, planned, _, placed, rfl⟩ := lowerRequest_ok done
  have resolved := (plan_ok planned).2.1
  have left := waiting_positionAll named
    (fun carrier member => (CarrierTable.mem_of_resolve resolved member).1) placed
  rw [← CarrierTable.names_resolve resolved] at left
  rw [← left]
  refine waiting_eq ?_
  rw [output_perform]
  exact Output.unused_foldl_emit (plain_contents m p)

/-! ## Lines -/

theorem waiting_execute {number : Nat} {command : Command} (named : c.Named)
    (done : c.execute number command = .ok d) :
    d.waiting = c.waiting.filter (· ∉ command.touched) ++ command.entering := by
  have still (same : d.waiting = c.waiting) :
      d.waiting = c.waiting.filter (· ∉ ([] : List Text)) ++ [] := by
    simpa using same
  cases command with
  | bringIn names =>
    obtain ⟨added, fresh⟩ := waiting_bringIns named done
    rw [added, Command.touched, Command.entering, List.filter_eq_self.2]
    intro name member
    exact decide_eq_true fun again => fresh name again member
  | bringOut names => exact still (waiting_bringOuts done)
  | idle | stitch | stitchNumber | setting | vendor =>
    cases done
    exact still rfl
  | rack target =>
    cases done
    exact still (waiting_rack c target)
  | loops request =>
    have left := waiting_lowerRequest named done
    show d.waiting = _ ++ []
    rw [List.append_nil, left]
    cases bare : request.synonym with
    | none => simp [Command.touched, bare]
    | some synonym =>
      obtain ⟨p, _, planned, _⟩ := lowerRequest_ok done
      have empty := (plan_ok planned).2.2.2 (by simp [bare])
      simp [Command.touched, bare, empty]

/-- After a line those wait that did so before and that it leaves alone, and behind them those that
it brings in. -/
theorem waiting_lowerLine {number : Nat} {line : Text} (named : c.Named)
    (done : c.lowerLine number line = .ok d) :
    d.waiting = c.waiting.filter (Idle · line) ++ broughtIn line := by
  unfold lowerLine at done
  simp only at done
  split at done
  · cases done
  · next command read =>
    have begun : (c.atLine line).Named := named.next
      (named.toLinked.leads rfl (fun _ _ => .rfl) (Output.extends_beginLine c.output line))
    rw [waiting_execute begun done, Command.broughtIn_ofLine read]
    congr 1
    exact List.filter_congr fun name _ => decide_eq_decide.2 (Command.idle_ofLine read).symm
  · next read =>
    have same : d.waiting = c.waiting := by
      cases done
      split
      · exact waiting_eq (Output.unused_emit (Content.plain_remark _))
      · rfl
    rw [same, (silent_ofLine read []).1, List.append_nil, eq_comm, List.filter_eq_self]
    exact fun name _ => decide_eq_true (silent_ofLine read name).2

/-- After lines those wait that did so before and that all of them leave alone, and behind them
those that they bring in for nothing. -/
theorem waiting_lowerLines {number : Nat} {lines : List Text} (named : c.Named)
    (done : c.lowerLines number lines = .ok d) :
    d.waiting = (c.waiting.filter fun name => ∀ line ∈ lines, Idle name line) ++
      unusedIns lines := by
  induction lines generalizing c number with
  | nil =>
    cases done
    simp [unusedIns]
  | cons line rest ih =>
    unfold lowerLines at done
    split at done
    · cases done
    · next m step =>
      rw [ih (named.next (leads_lowerLine named.toLinked step)) done,
        waiting_lowerLine named step, List.filter_append, List.filter_filter, unusedIns,
        List.append_assoc]
      congr 1
      refine List.filter_congr fun name _ => ?_
      simp [Bool.and_comm]

end Context

end Knitout
