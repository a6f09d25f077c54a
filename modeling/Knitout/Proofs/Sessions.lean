import Mathlib.Computability.RegularExpressions
import Mathlib.Data.List.Induction

/-!
The life of a carrier. It comes in, is used, and goes out, any number of times; each time is a
session. The forms that a life may have are regular (`CarrierEvent.used`, `CarrierEvent.worked`) and
are kept by a machine of three phases (`Phase.mem_used`, `Phase.mem_worked`).
-/

namespace Knitout

/-- What can happen to a carrier: an `in`, a use, an `out`. -/
inductive CarrierEvent where
  | enter
  | work
  | leave
  deriving DecidableEq

namespace CarrierEvent

open RegularExpression

def works : RegularExpression CarrierEvent :=
  char work * star (char work)

def session : RegularExpression CarrierEvent :=
  char enter * works * char leave

/-- Sessions, and perhaps one that is still open; in that one there may be no use yet. -/
def used : RegularExpression CarrierEvent :=
  star session * (1 + char enter * star (char work))

/-- Sessions, and perhaps one that is still open, with a use. -/
def worked : RegularExpression CarrierEvent :=
  star session * (1 + char enter * works)

example : used.rmatch [enter, work, leave, enter] = true := by decide
example : worked.rmatch [enter, work, leave, enter] = false := by decide

end CarrierEvent

/-! ## Phases -/

/-- Where a carrier is in its life. -/
inductive Phase where
  | absent
  /-- In, but not used yet. -/
  | waiting
  | active
  deriving DecidableEq

namespace Phase

/-- The phase after an event that may happen in this one. -/
def next? : Phase → CarrierEvent → Option Phase
  | .absent, .enter => some .waiting
  | .waiting, .work | .active, .work => some .active
  | .active, .leave => some .absent
  | _, _ => none

/-- The phase after several events, which all may happen. -/
def run? (p : Phase) (events : List CarrierEvent) : Option Phase :=
  events.foldlM next? p

theorem run?_append (p : Phase) (first second : List CarrierEvent) :
    p.run? (first ++ second) = (p.run? first).bind fun q => q.run? second :=
  List.foldlM_append

theorem run?_singleton (p : Phase) (event : CarrierEvent) :
    p.run? [event] = p.next? event := by
  cases step : p.next? event <;> simp [run?, step]

open CarrierEvent Computability

/-- The lives that end in a phase. -/
def lives : Phase → Language CarrierEvent
  | .absent => session.matches'∗
  | .waiting => session.matches'∗ * {[enter]}
  | .active => session.matches'∗ * ({[enter]} * works.matches')

private theorem works_eq : works.matches' = {[work]} * ({[work]} : Language CarrierEvent)∗ :=
  rfl

private theorem session_eq : session.matches' = {[enter]} * works.matches' * {[leave]} :=
  rfl

theorem mem_lives {events : List CarrierEvent} {p : Phase}
    (run : absent.run? events = some p) : events ∈ p.lives := by
  induction events using List.reverseRecOn generalizing p with
  | nil =>
    cases run
    exact Language.nil_mem_kstar _
  | append_singleton events event ih =>
    rw [run?_append, Option.bind_eq_some_iff] at run
    obtain ⟨q, before, step⟩ := run
    rw [run?_singleton] at step
    have longer : events ++ [event] ∈ q.lives * {[event]} :=
      Language.append_mem_mul (ih before) (Set.mem_singleton _)
    suffices covered : q.lives * {[event]} ≤ p.lives from covered longer
    -- four events may happen: an `in`, a first use, a later use, and an `out`
    cases q <;> cases event <;> cases step <;> simp only [lives]
    · exact le_rfl
    · rw [mul_assoc, works_eq]
      gcongr
      exact le_mul_of_one_le_right' one_le_kstar
    · rw [mul_assoc, mul_assoc, works_eq, mul_assoc]
      gcongr
      exact kstar_mul_le_kstar
    · rw [mul_assoc, ← session_eq]
      exact kstar_mul_le_kstar

/-- What keeps to the phases is a life of a carrier. -/
theorem mem_used {events : List CarrierEvent} {p : Phase}
    (run : absent.run? events = some p) : events ∈ used.matches' := by
  have form : used.matches' =
      session.matches'∗ * (1 + {[enter]} * ({[work]} : Language CarrierEvent)∗) := rfl
  suffices covered : p.lives ≤ used.matches' from covered (mem_lives run)
  rw [form]
  cases p
  · exact le_mul_of_one_le_right' le_self_add
  · have first : {[enter]} ≤ {[enter]} * ({[work]} : Language CarrierEvent)∗ :=
      le_mul_of_one_le_right' one_le_kstar
    exact mul_le_mul_right (first.trans le_add_self) _
  · have more : works.matches' ≤ ({[work]} : Language CarrierEvent)∗ := mul_kstar_le_kstar
    exact mul_le_mul_right ((mul_le_mul_right more _).trans le_add_self) _

/-- Unless it waits at the end, the carrier is used whenever it is in. -/
theorem mem_worked {events : List CarrierEvent} {p : Phase}
    (run : absent.run? events = some p) (done : p ≠ waiting) : events ∈ worked.matches' := by
  have form : worked.matches' =
      session.matches'∗ * (1 + {[enter]} * works.matches') := rfl
  suffices covered : p.lives ≤ worked.matches' from covered (mem_lives run)
  rw [form]
  cases p
  · exact le_mul_of_one_le_right' le_self_add
  · exact absurd rfl done
  · exact mul_le_mul_right le_add_self _

end Phase

/-! ## Timelines -/

/-- Events, and where each of them happens. -/
abbrev Timeline := List (Nat × CarrierEvent)

namespace Timeline

/-- Where the carrier comes in. -/
def entries (t : Timeline) : List Nat :=
  t.filterMap fun (place, event) => if event = .enter then some place else none

/-- Where it comes in and is used next. -/
def usedEntries (t : Timeline) : List Nat :=
  (t.zip t.tail).filterMap fun (this, next) =>
    if this.2 = .enter ∧ next.2 = .work then some this.1 else none

private theorem zip_tail_concat (t : Timeline) (x : Nat × CarrierEvent) :
    (t ++ [x]).zip (t ++ [x]).tail = t.zip t.tail ++ (t.getLast?.map (·, x)).toList := by
  induction t with
  | nil => rfl
  | cons first rest ih =>
    cases rest with
    | nil => rfl
    | cons second rest =>
      simp only [List.cons_append, List.tail_cons, List.zip_cons_cons, List.getLast?_cons_cons]
        at ih ⊢
      rw [ih]

/-- Whether an entry is used is told by the next event alone. -/
theorem usedEntries_concat (t : Timeline) (x : Nat × CarrierEvent) :
    usedEntries (t ++ [x]) = usedEntries t ++ t.getLast?.toList.filterMap fun last =>
      if last.2 = .enter ∧ x.2 = .work then some last.1 else none := by
  unfold usedEntries
  rw [zip_tail_concat, List.filterMap_append]
  cases t.getLast? <;> rfl

theorem usedEntries_concat_of_ne (t : Timeline) {place : Nat} {event : CarrierEvent}
    (other : event ≠ .work) : usedEntries (t ++ [(place, event)]) = usedEntries t := by
  simp [usedEntries_concat, other]

theorem entries_append (first second : Timeline) :
    entries (first ++ second) = entries first ++ entries second :=
  List.filterMap_append

theorem entries_works (slots : List Nat) : entries (slots.map (·, .work)) = [] := by
  simp [entries]

end Timeline

/-! ## What the output holds of a carrier -/

/-- A slot that is reserved for an `in`, or an instruction. -/
inductive Mark where
  | reserved
  | done (event : CarrierEvent)
  deriving DecidableEq

/-- The instructions among the marks of a carrier. -/
def finished (marks : List (Nat × Mark)) : Timeline :=
  marks.filterMap fun
    | (slot, .done event) => some (slot, event)
    | (_, .reserved) => none

theorem finished_append (first second : List (Nat × Mark)) :
    finished (first ++ second) = finished first ++ finished second :=
  List.filterMap_append

theorem finished_works (slots : List Nat) :
    finished (slots.map (·, .done .work)) = slots.map (·, .work) := by
  simp [finished]

/-- A phase of a carrier, with the slot that it waits in. -/
inductive Stand where
  | absent
  | waiting (slot : Nat)
  | active
  deriving DecidableEq

namespace Stand

def phase : Stand → Phase
  | .absent => .absent
  | .waiting _ => .waiting
  | .active => .active

/-- The phase that the instructions tell of: those of a waiting carrier say nothing of its `in`. -/
def told : Stand → Phase
  | .absent | .waiting _ => .absent
  | .active => .active

end Stand

/-- The marks of a carrier in the output follow its events in the source: an `in` reserves a slot of
the block of its line, the first use settles that slot, each use gives some work, and an `out` an
`out`. -/
inductive Follows (block : Nat → Nat → Prop) : Stand → Timeline → List (Nat × Mark) → Prop
  | start : Follows block .absent [] []
  | enter {t : Timeline} {marks : List (Nat × Mark)} {line slot : Nat}
      (before : Follows block .absent t marks) (inside : block line slot) :
    Follows block (.waiting slot) (t ++ [(line, .enter)]) (marks ++ [(slot, .reserved)])
  | first {t : Timeline} {marks : List (Nat × Mark)} {entry line slot : Nat} {slots : List Nat}
      (before : Follows block .absent t marks) (inside : block entry slot) (some : slots ≠ []) :
    Follows block .active (t ++ [(entry, .enter)] ++ [(line, .work)])
      (marks ++ [(slot, .done .enter)] ++ slots.map (·, .done .work))
  | use {t : Timeline} {marks : List (Nat × Mark)} {line : Nat} {slots : List Nat}
      (before : Follows block .active t marks) (some : slots ≠ []) :
    Follows block .active (t ++ [(line, .work)]) (marks ++ slots.map (·, .done .work))
  | leave {t : Timeline} {marks : List (Nat × Mark)} {line slot : Nat}
      (before : Follows block .active t marks) :
    Follows block .absent (t ++ [(line, .leave)]) (marks ++ [(slot, .done .leave)])

namespace Follows

variable {block : Nat → Nat → Prop} {stand : Stand} {t : Timeline} {marks : List (Nat × Mark)}

private theorem run?_works {p : Phase} (busy : p = .waiting ∨ p = .active) {slots : List Nat}
    (some : slots ≠ []) :
    p.run? ((slots.map fun slot => (slot, CarrierEvent.work)).map (·.2)) = .some .active := by
  have again (rest : List Nat) :
      Phase.active.run? ((rest.map fun slot => (slot, CarrierEvent.work)).map (·.2)) =
        .some .active := by
    induction rest with
    | nil => rfl
    | cons _ rest ih => exact ih
  obtain ⟨slot, rest, rfl⟩ := List.exists_cons_of_ne_nil some
  rcases busy with rfl | rfl <;> exact again rest

theorem source (follows : Follows block stand t marks) :
    Phase.absent.run? (t.map (·.2)) = some stand.phase := by
  induction follows with
  | start => rfl
  | enter _ _ ih | use _ _ ih | leave _ ih =>
    rw [List.map_append, Phase.run?_append, ih]
    rfl
  | first _ _ _ ih =>
    rw [List.append_assoc, List.map_append, Phase.run?_append, ih]
    rfl

/-- So do the instructions, except that they say nothing of an `in` that waits for its use. -/
theorem output (follows : Follows block stand t marks) :
    Phase.absent.run? ((finished marks).map (·.2)) = some stand.told := by
  induction follows with
  | start => rfl
  | enter _ _ ih => rwa [finished_append, show finished [_] = [] from rfl, List.append_nil]
  | first _ _ some ih =>
    rw [finished_append, finished_append, finished_works, List.map_append, List.map_append,
      Phase.run?_append, Phase.run?_append, ih]
    exact run?_works (.inl rfl) some
  | use _ some ih =>
    rw [finished_append, finished_works, List.map_append, Phase.run?_append, ih]
    exact run?_works (.inr rfl) some
  | leave _ ih =>
    rw [finished_append, List.map_append, Phase.run?_append, ih]
    rfl

theorem of_waiting {slot : Nat} (follows : Follows block (.waiting slot) t marks) :
    ∃ before earlier line, t = before ++ [(line, .enter)] ∧
      marks = earlier ++ [(slot, .reserved)] ∧ Follows block .absent before earlier ∧
        block line slot := by
  cases follows with
  | enter before inside => exact ⟨_, _, _, rfl, rfl, before, inside⟩

private theorem last_of_active (follows : Follows block .active t marks) :
    ∃ line, t.getLast? = some (line, .work) := by
  cases follows <;> exact ⟨_, List.getLast?_concat⟩

/-- Each `in` that is used stands in the block of the line that asks for it. -/
theorem entries (follows : Follows block stand t marks) :
    List.Forall₂ block t.usedEntries (finished marks).entries := by
  induction follows with
  | start => exact .nil
  | enter _ _ ih =>
    rw [Timeline.usedEntries_concat_of_ne _ (by decide), finished_append]
    simpa [finished] using ih
  | @first t _ entry line _ _ _ inside _ ih =>
    have used : Timeline.usedEntries (t ++ [(entry, .enter)] ++ [(line, .work)]) =
        Timeline.usedEntries t ++ [entry] := by
      rw [Timeline.usedEntries_concat, Timeline.usedEntries_concat_of_ne _ (by decide)]
      simp
    rw [used, finished_append, finished_append, finished_works, Timeline.entries_append,
      Timeline.entries_append, Timeline.entries_works, List.append_nil]
    exact List.rel_append ih (.cons inside .nil)
  | @use t _ line _ before _ ih =>
    obtain ⟨last, here⟩ := before.last_of_active
    have used : Timeline.usedEntries (t ++ [(line, .work)]) = Timeline.usedEntries t := by
      simp [Timeline.usedEntries_concat, here]
    rw [used, finished_append, finished_works, Timeline.entries_append, Timeline.entries_works,
      List.append_nil]
    exact ih
  | leave _ ih =>
    rw [Timeline.usedEntries_concat_of_ne _ (by decide), finished_append, Timeline.entries_append]
    simpa [finished, Timeline.entries] using ih

end Follows

end Knitout
