import Knitout.Proofs.Reaching
import Knitout.Proofs.Waiting

/-!
What there is to object to a request (`Context.Objection`). The objections have ranks: first those to
the way in which the request is written, then those to what it comes out as on the loops that are
there, and last the one to a carrier that is not in. Each stage of lowering a request fails with the
first objection of all, or there is none up to its rank (`Context.Sifts`). Main statement:
`refused_for_first_objection`.
-/

namespace Knitout

/-- Whatever a fine list begins with is fine. Then a list is spoilt by one of its elements at most:
the one behind the longest fine beginning. -/
theorem spoiler_unique {α : Type} {fine : List α → Prop} {before before' after after' : List α}
    {a a' : α} (initial : ∀ xs ys, fine (xs ++ ys) → fine xs)
    (same : before ++ a :: after = before' ++ a' :: after') (left : fine before)
    (spoilt : ¬ fine (before ++ [a])) (left' : fine before') (spoilt' : ¬ fine (before' ++ [a'])) :
    a = a' := by
  obtain ⟨between, rfl, rest⟩ | ⟨between, rfl, rest⟩ := List.append_eq_append_iff.1 same
  · cases between with
    | nil => exact List.head_eq_of_cons_eq rest
    | cons b more =>
      cases rest
      exact absurd (initial (before ++ [a]) more (by simpa using left')) spoilt
  · cases between with
    | nil => exact (List.head_eq_of_cons_eq rest).symm
    | cons b more =>
      cases rest
      exact absurd (initial (before' ++ [a']) more (by simpa using left)) spoilt'

/-! ## The names of a request -/

namespace CarrierTable

/-- The table has a carrier with this name. -/
def Knows (t : CarrierTable) (name : Text) : Prop :=
  ∃ carrier ∈ t.carriers, carrier.name = name

/-- The table has carriers with these names, and none of them is named twice. -/
def Accepts (t : CarrierTable) (names : List Text) : Prop :=
  names.Nodup ∧ ∀ name ∈ names, t.Knows name

/-- What is wrong with the leftmost name that the table does not accept behind the ones before. -/
inductive Offence (t : CarrierTable) (names : List Text) : LoweringError → Prop
  | unknown {before after : List Text} {name : Text} (split : names = before ++ name :: after)
      (accepts : t.Accepts before) (unknown : ¬ t.Knows name) :
    Offence t names (.unknownCarrier name)
  | repeated {before after : List Text} {name : Text} (split : names = before ++ name :: after)
      (accepts : t.Accepts before) (again : name ∈ before) :
    Offence t names (.repeatedCarrier name)

section
variable {t : CarrierTable} {names : List Text} {e e' : LoweringError}

theorem Accepts.initial (xs ys : List Text) (accepts : t.Accepts (xs ++ ys)) : t.Accepts xs :=
  ⟨accepts.1.of_append_left, fun name member => accepts.2 name (List.mem_append_left ys member)⟩

theorem Accepts.concat {name : Text} (accepts : t.Accepts names) (fresh : name ∉ names)
    (known : t.Knows name) : t.Accepts (names ++ [name]) := by
  constructor
  · simpa using accepts.1.concat fresh
  · intro other member
    rcases List.mem_append.1 member with earlier | last
    · exact accepts.2 other earlier
    · exact List.mem_singleton.1 last ▸ known

/-- The name that is wrong spoils the names, and what is wrong depends on whether it is known. -/
private theorem Offence.spoiler (offence : t.Offence names e) :
    ∃ before name after, names = before ++ name :: after ∧ t.Accepts before ∧
      ¬ t.Accepts (before ++ [name]) ∧
      (t.Knows name → e = .repeatedCarrier name) ∧ (¬ t.Knows name → e = .unknownCarrier name) := by
  cases offence with
  | @unknown before after name split accepts unknown =>
    refine ⟨before, name, after, split, accepts, ?_, fun known => absurd known unknown,
      fun _ => rfl⟩
    exact fun all => unknown (all.2 name (by simp))
  | @repeated before after name split accepts again =>
    refine ⟨before, name, after, split, accepts, ?_, fun _ => rfl,
      fun unknown => absurd (accepts.2 name again) unknown⟩
    exact fun all => (List.nodup_append.1 all.1).2.2 name again name (by simp) rfl

theorem Offence.unique (first : t.Offence names e) (second : t.Offence names e') : e = e' := by
  obtain ⟨before, name, after, split, accepts, spoilt, again, unknown⟩ := first.spoiler
  obtain ⟨before', name', after', split', accepts', spoilt', again', unknown'⟩ := second.spoiler
  obtain rfl :=
    spoiler_unique Accepts.initial (split.symm.trans split') accepts spoilt accepts' spoilt'
  by_cases known : t.Knows name
  · rw [again known, again' known]
  · rw [unknown known, unknown' known]

theorem lookup_error {name : Text} (refused : t.lookup name = .error e) :
    ¬ t.Knows name ∧ e = .unknownCarrier name := by
  unfold lookup at refused
  split at refused
  · cases refused
  · next none =>
    cases refused
    refine ⟨?_, rfl⟩
    rintro ⟨carrier, listed, named⟩
    simpa [named] using List.find?_eq_none.1 none carrier listed

/-- The names behind some others are refused for the leftmost one that is unknown or repeated. -/
private theorem resolveAfter_error {seen earlier : List Text}
    (same : ∀ name, name ∈ seen ↔ name ∈ earlier) (accepts : t.Accepts earlier)
    (refused : t.resolveAfter seen names = .error e) :
    t.Offence (earlier ++ names) e := by
  induction names generalizing seen earlier with
  | nil => cases refused
  | cons name rest ih =>
    rcases Except.bind_error refused with missing | ⟨carrier, found, refused⟩
    · obtain ⟨unknown, rfl⟩ := lookup_error missing
      exact .unknown rfl accepts unknown
    · obtain ⟨listed, rfl⟩ := find?_eq_some (lookup_ok found)
      split at refused
      · next again =>
        cases refused
        exact .repeated rfl accepts ((same _).1 (by simpa using again))
      · next fresh =>
        rcases Except.bind_error refused with refused | ⟨others, _, refused⟩
        · have unused : carrier.name ∉ earlier :=
            fun there => fresh (by simpa using (same _).2 there)
          have accepts' := accepts.concat unused ⟨carrier, listed, rfl⟩
          have offence := ih (fun other => by simp [same, or_comm]) accepts' refused
          rwa [List.append_assoc] at offence
        · cases refused

theorem resolve_error (refused : t.resolve names = .error e) : t.Offence names e :=
  resolveAfter_error (fun _ => .rfl) ⟨.nil, nofun⟩ refused

theorem accepts_of_resolve {carriers : List Carrier} (resolved : t.resolve names = .ok carriers) :
    t.Accepts names := by
  refine ⟨nodup_of_resolve resolved, fun name member => ?_⟩
  have here : t.find? name ∈ carriers.map some := resolve_ok resolved ▸ List.mem_map_of_mem member
  obtain ⟨carrier, _, found⟩ := List.mem_map.1 here
  exact ⟨carrier, find?_eq_some found.symm⟩

theorem Accepts.no_offence (accepts : t.Accepts names) : ¬ t.Offence names e := by
  intro offence
  obtain ⟨before, name, after, rfl, _, spoilt, _⟩ := offence.spoiler
  exact spoilt (Accepts.initial _ after (by simpa using accepts))

end

end CarrierTable

/-! ## Objections -/

namespace LoopWork

/-- With carriers, a tuck and work on an empty needle come out as a tuck. -/
theorem action_eq_tuck {work : LoopWork} {holds named : Bool} :
    work.action holds named = .tuck ↔
      named = true ∧ (work = .tuck ∨ work ≠ .miss ∧ holds = false) := by
  cases work <;> cases holds <;> cases named <;> simp [action]

/-- A split comes out as a split or a transfer on loops, or without carriers. -/
theorem action_moves {work : LoopWork} {holds named : Bool} {target : Needle} :
    (work.action holds named = .split target ∨ work.action holds named = .transfer target) ↔
      work = .split target ∧ (holds = true ∨ named = false) := by
  cases work <;> cases holds <;> cases named <;> simp [action]

end LoopWork

namespace Context

/-- There is a carrier with this name, and it is not in. -/
def Out (c : Context) (name : Text) : Prop :=
  ∃ carrier ∈ c.carriers.carriers, carrier.name = name ∧ c.stages.get? carrier.yarn = none

/-- With carriers, the request comes out as a tuck: it asks for one, or for a knit or a split on a
needle without loops. -/
def Tucks (c : Context) (request : Request) : Prop :=
  request.work = .tuck ∨ request.work ≠ .miss ∧ c.hasLoops request.needle = false

/-- The request comes out as a split or a transfer to this needle: its own needle holds loops, or it
names no carriers. -/
def MovesTo (c : Context) (request : Request) (target : Needle) : Prop :=
  request.work = .split target ∧ (c.hasLoops request.needle = true ∨ request.carriers = [])

/-- What there is to object to a request, by rank. -/
inductive Objection (c : Context) (request : Request) : Nat → LoweringError → Prop
  | carriersNotAllowed {synonym : Text} (written : request.synonym = some synonym)
      (named : request.carriers ≠ []) : Objection c request 0 (.carriersNotAllowed synonym)
  | missWithoutCarriers (misses : request.work = .miss) (bare : request.carriers = []) :
    Objection c request 1 .missWithoutCarriers
  | carriers {e : LoweringError} (offence : c.carriers.Offence request.carriers e) :
    Objection c request 2 e
  | multiCarrierTuck (tucks : c.Tucks request) (many : 1 < request.carriers.length) :
    Objection c request 3 (.multiCarrierTuck request.carriers.length)
  | transferSameBed {target : Needle} (moves : c.MovesTo request target)
      (same : request.needle.bed = target.bed) :
    Objection c request 4 (.transferSameBed request.needle target)
  | transferMisaligned {target : Needle} (moves : c.MovesTo request target)
      (apart : request.needle.column c.racking ≠ target.column c.racking) :
    Objection c request 5 (.transferMisaligned request.needle target c.racking)
  | carrierNotIn {before after : List Text} {name : Text}
      (split : request.carriers = before ++ name :: after)
      (within : ∀ other ∈ before, ¬ c.Out other) (out : c.Out name) :
    Objection c request 6 (.carrierNotIn name)

/-- There is no objection of a lower rank. -/
def Clear (c : Context) (request : Request) (rank : Nat) : Prop :=
  ∀ lower < rank, ∀ e, ¬ c.Objection request lower e

/-- The objection that comes before all others. -/
def FirstObjection (c : Context) (request : Request) (e : LoweringError) : Prop :=
  ∃ rank, c.Objection request rank e ∧ c.Clear request rank

section
variable {c : Context} {request : Request} {e e' : LoweringError} {rank : Nat}

/-- There is one objection of a rank at most. -/
theorem Objection.unique (first : c.Objection request rank e)
    (second : c.Objection request rank e') : e = e' := by
  cases first with
  | carriersNotAllowed written named =>
    cases second with
    | carriersNotAllowed written' named' => rw [Option.some.inj (written.symm.trans written')]
  | missWithoutCarriers misses bare =>
    cases second with
    | missWithoutCarriers misses' bare' => rfl
  | carriers offence =>
    cases second with
    | carriers offence' => exact offence.unique offence'
  | multiCarrierTuck tucks many =>
    cases second with
    | multiCarrierTuck tucks' many' => rfl
  | transferSameBed moves same =>
    cases second with
    | transferSameBed moves' same' =>
      cases moves.1.symm.trans moves'.1
      rfl
  | transferMisaligned moves apart =>
    cases second with
    | transferMisaligned moves' apart' =>
      cases moves.1.symm.trans moves'.1
      rfl
  | carrierNotIn split within out =>
    cases second with
    | carrierNotIn split' within' out' =>
      let fine (names : List Text) : Prop := ∀ other ∈ names, ¬ c.Out other
      have initial (xs ys : List Text) (all : fine (xs ++ ys)) : fine xs :=
        fun other member => all other (List.mem_append_left ys member)
      rw [spoiler_unique initial (split.symm.trans split') within (fun all => all _ (by simp) out)
        within' (fun all => all _ (by simp) out')]

theorem FirstObjection.unique (first : c.FirstObjection request e)
    (second : c.FirstObjection request e') : e = e' := by
  obtain ⟨rank, objection, clear⟩ := first
  obtain ⟨rank', objection', clear'⟩ := second
  rcases Nat.lt_trichotomy rank rank' with lower | rfl | lower
  · exact absurd objection (clear' rank lower e)
  · exact objection.unique objection'
  · exact absurd objection' (clear rank' lower e')

theorem clear_zero : c.Clear request 0 :=
  fun _ low => absurd low (Nat.not_lt_zero _)

/-- There are seven ranks. -/
theorem Clear.none (clear : c.Clear request 7) : ¬ c.Objection request rank e := by
  intro objection
  exact clear rank (by cases objection <;> decide) e objection

theorem Clear.succ (clear : c.Clear request rank) (none : ∀ e, ¬ c.Objection request rank e) :
    c.Clear request (rank + 1) := by
  intro lower low e
  rcases Nat.lt_succ_iff_lt_or_eq.1 low with lower | rfl
  · exact clear _ lower e
  · exact none e

end

/-! ## Stages -/

/-- A stage that is to catch the objections below a rank: it fails with the first of all, or there
are none of these. -/
def Sifts {α : Type} (c : Context) (request : Request) (rank : Nat) :
    Except LoweringError α → Prop
  | .error e => c.FirstObjection request e
  | .ok _ => c.Clear request rank

/-- A stage that catches more may follow one that catches less. -/
theorem Sifts.bind {α β : Type} {c : Context} {request : Request} {rank rank' : Nat}
    {x : Except LoweringError α} {f : α → Except LoweringError β} (first : c.Sifts request rank x)
    (second : ∀ a, x = .ok a → c.Clear request rank → c.Sifts request rank' (f a)) :
    c.Sifts request rank' (x >>= f) := by
  cases x with
  | error e => exact first
  | ok a => exact second a rfl first

section
variable {c d : Context} {request : Request} {p : Plan}

theorem sifts_plan (c : Context) (request : Request) : c.Sifts request 3 (c.plan request) := by
  unfold plan
  simp only
  split
  · next synonym written named =>
    exact ⟨0, .carriersNotAllowed written (by simpa using named), clear_zero⟩
  · next allowed =>
    have spelled : c.Clear request 1 := by
      refine clear_zero.succ fun e objection => ?_
      cases objection with
      | carriersNotAllowed written named => exact allowed _ written (by simpa using named)
    split
    · next misses =>
      simp only [Bool.and_eq_true, decide_eq_true_eq, Bool.not_not, List.isEmpty_iff] at misses
      exact ⟨1, .missWithoutCarriers misses.1 misses.2, spelled⟩
    · next misses =>
      have used : c.Clear request 2 := by
        refine spelled.succ fun e objection => ?_
        cases objection with
        | missWithoutCarriers work bare => exact misses (by simp [work, bare])
      split
      · next e refused =>
        exact ⟨2, .carriers (CarrierTable.resolve_error refused), used⟩
      · next carriers resolved =>
        refine used.succ fun e objection => ?_
        cases objection with
        | carriers offence => exact (CarrierTable.accepts_of_resolve resolved).no_offence offence

/-- What a plan that is made says about what the request comes out as. -/
private theorem plan_emerges (planned : c.plan request = .ok p) :
    p.request = request ∧ p.carriers.length = request.carriers.length ∧
      (p.action = .tuck ↔ request.carriers ≠ [] ∧ c.Tucks request) ∧
      ∀ target, p.action = .split target ∨ p.action = .transfer target ↔
        c.MovesTo request target := by
  obtain ⟨same, resolved, action, _⟩ := plan_ok planned
  have length := congrArg List.length (CarrierTable.resolve_ok resolved)
  rw [List.length_map, List.length_map] at length
  refine ⟨same, length.symm, ?_, fun target => ?_⟩
  · rw [action, LoopWork.action_eq_tuck]
    simp [Tucks]
  · rw [action, LoopWork.action_moves]
    simp [MovesTo]

/-- Once nothing of a lower rank stands against it, a move of loops is checked for its beds and its
columns. -/
theorem sifts_checkAligned {target : Needle} (clear : c.Clear request 4)
    (moves : c.MovesTo request target) :
    c.Sifts request 6 (c.checkAligned request.needle target) := by
  unfold checkAligned
  split
  · next same => exact ⟨4, .transferSameBed moves same, clear⟩
  · next opposite =>
    have facing : c.Clear request 5 := by
      refine clear.succ fun e objection => ?_
      cases objection with
      | transferSameBed moves' same =>
        cases moves.1.symm.trans moves'.1
        exact opposite same
    split
    · next apart => exact ⟨5, .transferMisaligned moves apart, facing⟩
    · next level =>
      refine facing.succ fun e objection => ?_
      cases objection with
      | transferMisaligned moves' apart =>
        cases moves.1.symm.trans moves'.1
        exact level apart

theorem sifts_checkPlan (planned : c.plan request = .ok p) (clear : c.Clear request 3) :
    c.Sifts request 6 (c.checkPlan p) := by
  obtain ⟨same, length, tucks, moves⟩ := plan_emerges planned
  -- only a tuck can have too many carriers, and only what moves loops can miss its target
  have untucked (few : ¬ (p.action = .tuck ∧ 1 < p.carriers.length)) : c.Clear request 4 := by
    refine clear.succ fun e objection => ?_
    cases objection with
    | multiCarrierTuck comes many =>
      exact few ⟨tucks.2 ⟨List.ne_nil_of_length_pos (by omega), comes⟩, length ▸ many⟩
  have unmoved (still : ∀ target, ¬ c.MovesTo request target) (clear : c.Clear request 4) :
      c.Clear request 6 := by
    have facing : c.Clear request 5 := by
      refine clear.succ fun e objection => ?_
      cases objection with
      | transferSameBed moves => exact still _ moves
    refine facing.succ fun e objection => ?_
    cases objection with
    | transferMisaligned moves => exact still _ moves
  unfold checkPlan
  split
  · next action =>
    split
    · next many =>
      rw [length] at many ⊢
      exact ⟨3, .multiCarrierTuck (tucks.1 action).2 many, clear⟩
    · next few =>
      refine unmoved (fun target comes => ?_) (untucked fun both => few both.2)
      simpa [action] using (moves target).2 comes
  · next target action =>
    rw [same]
    exact sifts_checkAligned (untucked (by simp [action])) ((moves target).1 (.inl action))
  · next target action =>
    rw [same]
    exact sifts_checkAligned (untucked (by simp [action])) ((moves target).1 (.inr action))
  · next other split transfer =>
    refine unmoved (fun target comes => ?_) (untucked fun both => other both.1)
    exact ((moves target).2 comes).elim (split target) (transfer target)

/-! ## Carriers that are not in -/

/-- Getting a carrier into place changes its own stage alone. -/
theorem get?_position {goal : Location} {carrier : Carrier} {yarn : Yarn}
    (done : c.position goal carrier = .ok d) (other : yarn ≠ carrier.yarn) :
    d.stages.get? yarn = c.stages.get? yarn := by
  unfold position at done
  split at done
  · cases done
  · cases done
    rw [get?_setStage, if_neg other]
  · cases done
    rw [walkTo, get?_setStage, if_neg other]

theorem position_error {goal : Location} {carrier : Carrier} {e : LoweringError}
    (refused : c.position goal carrier = .error e) :
    c.stages.get? carrier.yarn = none ∧ e = .carrierNotIn carrier.name := by
  unfold position at refused
  split at refused
  · next out =>
    cases refused
    exact ⟨out, rfl⟩
  · cases refused
  · cases refused

/-- Carriers get into place up to the first one that is not in. -/
theorem positionAll_outcome (goal : Location) {carriers : List Carrier}
    (distinct : (carriers.map (·.yarn)).Nodup) :
    match c.positionAll goal carriers with
    | .error e => ∃ before carrier after, carriers = before ++ carrier :: after ∧
        (∀ other ∈ before, c.stages.get? other.yarn ≠ none) ∧
        c.stages.get? carrier.yarn = none ∧ e = .carrierNotIn carrier.name
    | .ok _ => ∀ carrier ∈ carriers, c.stages.get? carrier.yarn ≠ none := by
  induction carriers generalizing c with
  | nil => exact nofun
  | cons first rest ih =>
    obtain ⟨apart, distinct⟩ := List.nodup_cons.1 distinct
    unfold positionAll
    cases step : c.position goal first with
    | error e =>
      obtain ⟨out, rfl⟩ := position_error step
      exact ⟨[], first, rest, rfl, nofun, out, rfl⟩
    | ok d =>
      have within : c.stages.get? first.yarn ≠ none := by
        intro out
        simp [position, out] at step
      have kept : ∀ other ∈ rest, d.stages.get? other.yarn = c.stages.get? other.yarn :=
        fun other member => get?_position step fun same =>
          apart (List.mem_map.2 ⟨other, member, same⟩)
      have later := ih (c := d) distinct
      simp only
      split at later
      · obtain ⟨before, last, after, rfl, before', out, rfl⟩ := later
        refine ⟨first :: before, last, after, rfl, List.forall_mem_cons.2 ⟨within, ?_⟩, ?_, rfl⟩
        · intro other member
          rw [← kept other (List.mem_append_left _ member)]
          exact before' other member
        · rw [← kept last (by simp), out]
      · refine List.forall_mem_cons.2 ⟨within, fun other member => ?_⟩
        rw [← kept other member]
        exact later other member

theorem out_iff (names : (c.carriers.carriers.map (·.name)).Nodup) {carrier : Carrier}
    (listed : carrier ∈ c.carriers.carriers) :
    c.Out carrier.name ↔ c.stages.get? carrier.yarn = none := by
  constructor
  · rintro ⟨other, listed', same, out⟩
    rwa [← List.inj_on_of_nodup_map names listed' listed same]
  · exact fun out => ⟨carrier, listed, rfl, out⟩

theorem sifts_positionAll {goal : Location} (names : (c.carriers.carriers.map (·.name)).Nodup)
    (yarns : (c.carriers.carriers.map (·.yarn)).Nodup) (planned : c.plan request = .ok p)
    (clear : c.Clear request 6) : c.Sifts request 7 (c.positionAll goal p.carriers) := by
  have resolved := (plan_ok planned).2.1
  have listed : ∀ carrier ∈ p.carriers, carrier ∈ c.carriers.carriers :=
    fun carrier member => (CarrierTable.mem_of_resolve resolved member).1
  have outcome := positionAll_outcome (c := c) goal (CarrierTable.distinct_resolve yarns resolved)
  have named := CarrierTable.names_resolve resolved
  cases place : c.positionAll goal p.carriers with
  | error e =>
    rw [place] at outcome
    obtain ⟨before, carrier, after, split, within, out, rfl⟩ := outcome
    rw [split] at listed
    rw [split, List.map_append] at named
    refine ⟨6, .carrierNotIn named ?_ ((out_iff names (listed carrier (by simp))).2 out), clear⟩
    intro other member
    obtain ⟨carrier', here, rfl⟩ := List.mem_map.1 member
    rw [out_iff names (listed carrier' (List.mem_append_left _ here))]
    exact within carrier' here
  | ok d =>
    rw [place] at outcome
    refine clear.succ fun e objection => ?_
    cases objection with
    | @carrierNotIn before after name split _ out =>
      have member : name ∈ p.carriers.map (·.name) := by
        rw [← named, split]
        simp
      obtain ⟨carrier, here, rfl⟩ := List.mem_map.1 member
      exact outcome carrier here ((out_iff names (listed carrier here)).1 out)

/-- Lowering a request fails with the first objection, or there is none. -/
theorem sifts_lowerRequest (names : (c.carriers.carriers.map (·.name)).Nodup)
    (yarns : (c.carriers.carriers.map (·.yarn)).Nodup) :
    c.Sifts request 7 (c.lowerRequest request) := by
  refine (c.sifts_plan request).bind fun p planned written => ?_
  refine (sifts_checkPlan planned written).bind fun _ _ comesOut => ?_
  exact (sifts_positionAll names yarns planned comesOut).bind fun d _ within => within

end

/-- The carriers of a lowering have distinct names and distinct yarns. -/
theorem Arises.distinct {names : List Text} {c : Context} (arises : c.Arises names) :
    (c.carriers.carriers.map (·.name)).Nodup ∧ (c.carriers.carriers.map (·.yarn)).Nodup := by
  obtain ⟨t, number, lines, made, done⟩ := arises
  obtain ⟨named, distinct, yarns⟩ := CarrierTable.distinct_ofNames made
  rw [(leads_lowerLines (.start yarns) done).carriers]
  exact ⟨named.symm ▸ distinct, yarns⟩

end Context

/-- A split that was read has its target. -/
theorem target_of_readRequest {synonym : Option Text} {tokens : List Text} {request : Request}
    (read : readRequest .split synonym tokens = .ok request) :
    ∃ target, request.work = .split target := by
  have target {words : List Text} (spelled : request.ReadFrom .split words) :
      ∃ target, request.work = .split target := by
    obtain ⟨_, _, _, _, _, target, _, _, work⟩ := spelled
    exact ⟨target, work⟩
  cases synonym with
  | none =>
    obtain ⟨_, _, _, _, _, tail⟩ := readRequest_none read
    exact target tail
  | some word => exact target (readRequest_some read).2

/-- Lowering refuses a request that was read exactly if there is something to object to it, and
reports the first objection. It never misses the target of a split any more. -/
theorem refused_for_first_objection {names : List Text} {c : Context} (arises : c.Arises names)
    (line : Text) {verb : LoopVerb} {synonym : Option Text} {tokens : List Text} {request : Request}
    (read : readRequest verb synonym tokens = .ok request) :
    (∀ e, (c.atLine line).lowerRequest request = .error e ↔
      (c.atLine line).FirstObjection request e) ∧
    ((∃ d, (c.atLine line).lowerRequest request = .ok d) ↔
      ∀ rank e, ¬ (c.atLine line).Objection request rank e) ∧
    (verb = .split → ∃ target, request.work = .split target) ∧
    ∀ lacking argument,
      (c.atLine line).lowerRequest request ≠ .error (.missingArgument lacking argument) := by
  obtain ⟨distinct, yarns⟩ := arises.distinct
  have sifts : (c.atLine line).Sifts request 7 ((c.atLine line).lowerRequest request) :=
    Context.sifts_lowerRequest distinct yarns
  have split : verb = .split → ∃ target, request.work = .split target := by
    rintro rfl
    exact target_of_readRequest read
  cases result : (c.atLine line).lowerRequest request with
  | error e =>
    rw [result] at sifts
    have first : (c.atLine line).FirstObjection request e := sifts
    refine ⟨fun e' => ⟨?_, fun other => congrArg _ (first.unique other)⟩, ⟨nofun, fun none => ?_⟩,
      split, ?_⟩
    · intro same
      cases same
      exact first
    · obtain ⟨rank, objection, _⟩ := first
      exact absurd objection (none rank e)
    · intro lacking argument same
      cases same
      obtain ⟨rank, objection, _⟩ := first
      cases objection with
      | carriers offence => cases offence
  | ok d =>
    rw [result] at sifts
    have clear : (c.atLine line).Clear request 7 := sifts
    refine ⟨fun e => ⟨nofun, ?_⟩, ⟨fun _ rank e => clear.none, fun _ => ⟨d, rfl⟩⟩, split, nofun⟩
    rintro ⟨rank, objection, _⟩
    exact absurd objection clear.none

/-- A split on loops is refused for its target, although its carrier is not in either. -/
theorem refused_for_first_objection_split :
    let request : Request := ⟨.split (.front 5), .increasing, .front 0, [['B']], none⟩
    let line : Text := "split + f0 f5 B".toList
    readRequest .split none (["+", "f0", "f5", "B"].map String.toList) = .ok request ∧
    ∃ c : Context, c.Arises [['A'], ['B']] ∧
      (c.atLine line).FirstObjection request (.transferSameBed (.front 0) (.front 5)) ∧
      (c.atLine line).Objection request 6 (.carrierNotIn ['B']) := by
  intro request line
  let body : List Text := ["in A", "tuck + f0 A"].map String.toList
  let t : CarrierTable := ⟨[⟨['A'], 1⟩, ⟨['B'], 2⟩], true⟩
  have read : readRequest .split none (["+", "f0", "f5", "B"].map String.toList) = .ok request := by
    decide
  have runs : ((Context.start t).lowerLines 3 body).map (fun c => (c.carriers, c.stages.get? 2,
      (c.atLine line).lowerRequest request)) =
        .ok (t, none, .error (.transferSameBed (.front 0) (.front 5))) := by
    decide
  obtain ⟨c, done, state⟩ := Except.map_ok runs
  obtain ⟨carriers, rest⟩ := Prod.mk.inj state
  obtain ⟨out, refused⟩ := Prod.mk.inj rest
  have named : CarrierTable.ofNames [['A'], ['B']] = .ok t := by decide
  have arises : c.Arises [['A'], ['B']] := ⟨t, 3, body, named, done⟩
  have listed : ⟨['B'], 2⟩ ∈ (c.atLine line).carriers.carriers := by
    rw [Context.atLine, carriers]
    exact List.mem_cons_of_mem _ (List.mem_singleton_self _)
  exact ⟨read, c, arises, ((refused_for_first_objection arises line read).1 _).1 refused,
    @Context.Objection.carrierNotIn _ _ [] [] _ rfl nofun ⟨_, listed, rfl, out⟩⟩

end Knitout
