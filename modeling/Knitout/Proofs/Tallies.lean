import Knitout.Proofs.Effects
import Knitout.Proofs.Rejecting
import Mathlib.Algebra.BigOperators.Group.List.Basic

/-!
Where the loops on the machine come from and where they go (`loops_are_accounted_for`). An operation
forms and drops loops on its own needle only, and moves all those of a needle at once; so on a region
of the beds that no loops are moved into or out of, only the work inside it changes their number.
-/

namespace Knitout

/-! ## Sums over tables -/

namespace Table

variable {κ ν : Type} [Ord κ] [Std.TransOrd κ] [Std.LawfulEqOrd κ]

/-- The sum of the weights of the entries. -/
def weight (t : Table κ ν) (weigh : κ → ν → Nat) : Nat :=
  (t.entries.map fun e => weigh e.1 e.2).sum

private theorem weight_setEntry (weigh : κ → ν → Nat) (key : κ) (value : ν)
    {entries : List (κ × ν)} (sorted : entries.Pairwise fun a b => compare a.1 b.1 = .lt) :
    ((setEntry key value entries).map fun e => weigh e.1 e.2).sum +
        ((findEntry key entries).map (weigh key)).getD 0 =
      (entries.map fun e => weigh e.1 e.2).sum + weigh key value := by
  induction entries with
  | nil => simp [setEntry, findEntry]
  | cons e rest ih =>
    obtain ⟨first, others⟩ := List.pairwise_cons.1 sorted
    unfold setEntry
    split
    · next lower =>
      -- the key comes before all the others, so it has no entry yet
      have absent : findEntry key (e :: rest) = none := by
        refine findEntry_of_lt fun d member => ?_
        rcases List.mem_cons.1 member with rfl | member
        · exact lower
        · exact Std.TransCmp.lt_trans lower (first d member)
      rw [absent]
      simp only [List.map_cons, List.sum_cons, Option.map_none, Option.getD_none]
      omega
    · next same =>
      rw [findEntry, if_pos same, Std.LawfulEqCmp.eq_of_compare same]
      simp only [List.map_cons, List.sum_cons, Option.map_some, Option.getD_some]
      omega
    · next higher =>
      have other : ¬ compare key e.1 = .eq := by rw [higher]; simp
      have rest_eq := ih others
      simp only [findEntry, if_neg other, List.map_cons, List.sum_cons] at rest_eq ⊢
      omega

theorem weight_insert (t : Table κ ν) (weigh : κ → ν → Nat) (key : κ) (value : ν) :
    (t.insert key value).weight weigh + ((t.get? key).map (weigh key)).getD 0 =
      t.weight weigh + weigh key value :=
  weight_setEntry weigh key value t.sorted

theorem weight_erase [DecidableEq κ] (t : Table κ ν) (weigh : κ → ν → Nat) (key : κ) :
    (t.erase key).weight weigh + ((t.get? key).map (weigh key)).getD 0 = t.weight weigh := by
  cases there : t.get? key with
  | none =>
    have same : t.erase key = t := by
      refine ext_get? fun k => ?_
      rw [get?_erase]
      split
      · next mine => rw [mine, there]
      · rfl
    rw [same]
    rfl
  | some value =>
    have again : (t.erase key).insert key value = t := by
      refine ext_get? fun k => ?_
      rw [get?_insert, get?_erase]
      split
      · next mine => rw [mine, there]
      · rfl
    have put := (t.erase key).weight_insert weigh key value
    rw [again, get?_erase, if_pos rfl] at put
    exact put.symm

end Table

/-! ## Loops of a region -/

namespace Loops

/-- How many loops there are on the machine. -/
def total (loops : Loops) : Nat :=
  (loops.entries.map (·.2)).sum

/-- How many loops there are on the needles of a region. -/
def totalOn (region : Needle → Bool) (loops : Loops) : Nat :=
  loops.weight fun needle count => if region needle then count else 0

theorem totalOn_true (loops : Loops) : loops.totalOn (fun _ => true) = loops.total := rfl

variable (region : Needle → Bool) (loops : Loops)

private theorem getD_weight (needle : Needle) :
    ((loops.get? needle).map fun count => if region needle then count else 0).getD 0 =
      if region needle then loops.count needle else 0 := by
  unfold count
  cases loops.get? needle <;> simp

theorem totalOn_insert (needle : Needle) (count : Nat) :
    totalOn region (loops.insert needle count) +
        (if region needle then loops.count needle else 0) =
      loops.totalOn region + if region needle then count else 0 := by
  rw [← getD_weight]
  exact Table.weight_insert _ _ _ _

theorem totalOn_erase (needle : Needle) :
    totalOn region (loops.erase needle) + (if region needle then loops.count needle else 0) =
      loops.totalOn region := by
  rw [← getD_weight]
  exact Table.weight_erase _ _ _

/-- A move inside the region or outside it leaves as many loops in it. -/
theorem totalOn_move {source target : Needle} (inside : region source = region target) :
    totalOn region (loops.move source target) = loops.totalOn region := by
  unfold move
  split
  · rfl
  · next moved there =>
    have taken := totalOn_erase region loops source
    have put := totalOn_insert region (loops.erase source) target
      (count (loops.erase source) target + moved)
    have held : loops.count source = moved := by rw [count, there]; rfl
    rw [held, inside] at taken
    dsimp only
    cases within : region target with
    | true =>
      simp only [within, if_true] at taken put
      omega
    | false =>
      simp only [within, Bool.false_eq_true, if_false] at taken put
      omega

end Loops

/-! ## What operations do to them -/

namespace Operation

/-- A tuck has one yarn, as every one that was read has. -/
def TucksOnce : Operation → Prop
  | .tuck _ _ _ strands => strands.length = 1
  | _ => True

/-- The needle on which an operation forms or drops loops. -/
def workNeedle? : Operation → Option Needle
  | .knit _ needle _ _ | .tuck _ needle _ _ | .split _ needle _ _ _ | .drop needle => some needle
  | .miss .. | .bringIn .. | .bringOut .. | .transfer .. | .rack _ => none

/-- By how many an operation changes the number of the loops. -/
def gain (loops : Loops) : Operation → Int
  | .knit _ needle _ strands => strands.length - loops.count needle
  | .tuck .. => 1
  | .split _ _ _ _ strands => strands.length
  | .drop needle => -loops.count needle
  | .miss .. | .bringIn .. | .bringOut .. | .transfer .. | .rack _ => 0

/-- By how many it changes the number of those in a region. -/
def gainOn (region : Needle → Bool) (loops : Loops) (op : Operation) : Int :=
  if op.workNeedle?.any region then op.gain loops else 0

/-- No loops are moved over the border of a region. -/
def Spares (region : Needle → Bool) (op : Operation) : Prop :=
  ∀ needle target, op.carries? = some (needle, target) → region needle = region target

theorem gainOn_all (loops : Loops) (op : Operation) :
    op.gainOn (fun _ => true) loops = op.gain loops := by
  cases op <;> rfl

theorem gainOn_of_workNeedle? {op : Operation} {needle : Needle} (region : Needle → Bool)
    (loops : Loops) (works : op.workNeedle? = some needle) :
    op.gainOn region loops = if region needle then op.gain loops else 0 := by
  rw [gainOn, works, Option.any_some]

theorem gainOn_of_none {op : Operation} (region : Needle → Bool) (loops : Loops)
    (idle : op.workNeedle? = none) : op.gainOn region loops = 0 := by
  rw [gainOn, idle, Option.any_none]
  rfl

section
variable {s : State} {region : Needle → Bool}

/-- Setting the loops of one needle changes the number in the region by the difference there. -/
private theorem totalOn_insert_sub (loops : Loops) (needle : Needle) (count : Nat) :
    (Loops.totalOn region (loops.insert needle count) : Int) = loops.totalOn region +
      if region needle then (count : Int) - loops.count needle else 0 := by
  have sum := Loops.totalOn_insert region loops needle count
  split at sum
  · next inside =>
    rw [if_pos inside]
    omega
  · next outside =>
    rw [if_neg outside]
    omega

private theorem totalOn_erase_sub (loops : Loops) (needle : Needle) :
    (Loops.totalOn region (loops.erase needle) : Int) = loops.totalOn region +
      if region needle then -(loops.count needle : Int) else 0 := by
  have sum := Loops.totalOn_erase region loops needle
  split at sum
  · next inside =>
    rw [if_pos inside]
    omega
  · next outside =>
    rw [if_neg outside]
    omega

/-- An operation that breaks no rule forms and drops loops on its own needle, and moves none over the
border of a region that it spares. -/
theorem totalOn_reload {op : Operation} (allowed : s.demands op = .ok ()) (once : op.TucksOnce)
    (spared : op.Spares region) :
    ((op.reload s.loops).totalOn region : Int) =
      s.loops.totalOn region + op.gainOn region s.loops := by
  cases op with
  | knit direction needle length strands =>
    rw [gainOn_of_workNeedle? region s.loops rfl]
    simp only [reload, gain, yarnsOf, List.length_map]
    split
    · next none => rw [totalOn_erase_sub, none, Int.natCast_zero, Int.zero_sub]
    · exact totalOn_insert_sub s.loops needle strands.length
  | tuck direction needle length strands =>
    have one : ((s.loops.count needle + 1 : Nat) : Int) - s.loops.count needle = 1 := by omega
    rw [gainOn_of_workNeedle? region s.loops rfl, reload_tuck _ _ _ _ once, totalOn_insert_sub, one]
    rfl
  | split direction needle target length strands =>
    have apart : needle ≠ target := State.apart_of_demands allowed rfl
    have moved := Loops.totalOn_move region s.loops (spared needle target rfl)
    have bare : (s.loops.move needle target).count needle = 0 := by
      rw [s.loops.count_move apart, if_neg apart, if_pos rfl]
    rw [gainOn_of_workNeedle? region s.loops rfl]
    simp only [reload, gain]
    split
    · next none =>
      have none : strands.length = 0 := by simpa [yarnsOf] using none
      rw [moved, none]
      simp
    · rw [totalOn_insert_sub, moved, bare, yarnsOf, List.length_map, Int.natCast_zero, Int.sub_zero]
  | drop needle =>
    rw [gainOn_of_workNeedle? region s.loops rfl]
    exact totalOn_erase_sub s.loops needle
  | transfer needle target =>
    rw [gainOn_of_none region s.loops rfl, Int.add_zero, reload,
      Loops.totalOn_move region s.loops (spared needle target rfl)]
  | miss | bringIn | bringOut | rack =>
    rw [gainOn_of_none region s.loops rfl, Int.add_zero]
    rfl

end

end Operation

/-! ## Steps and runs -/

namespace State

/-- What an operation has done to the loops on the machine. -/
structure Accounts (s : State) (op : Operation) (t : State) : Prop where
  total : (t.loops.total : Int) = s.loops.total + op.gain s.loops
  /-- Moved loops come on top of those of the target. -/
  stacked : ∀ needle target, op.carries? = some (needle, target) →
    t.loopCount target = s.loopCount target + s.loopCount needle
  /-- A transfer leaves none behind. -/
  emptied : ∀ needle target, op = .transfer needle target → t.loopCount needle = 0
  elsewhere : ∀ needle ∉ op.loopNeedles, t.loopCount needle = s.loopCount needle

variable {s t : State} {op : Operation}

private theorem count_stacked (s : State) {needle target : Needle} (apart : needle ≠ target)
    (carries : op.carries? = some (needle, target)) :
    (op.reload s.loops).count target = s.loopCount target + s.loopCount needle := by
  have moved : (s.loops.move needle target).count target =
      s.loopCount target + s.loopCount needle := by
    rw [s.loops.count_move apart, if_pos rfl]
    rfl
  cases op with
  | split direction needle' target' length strands =>
    cases carries
    simp only [Operation.reload]
    split
    · exact moved
    · rw [← moved, Loops.count, Table.get?_insert, if_neg apart.symm]
      rfl
  | transfer needle' target' =>
    cases carries
    exact moved
  | _ => cases carries

theorem accounts_of_apply (done : s.apply op = .ok t) (once : op.TucksOnce) : s.Accounts op t := by
  obtain ⟨allowed, rfl⟩ := apply_ok_iff.1 done
  refine ⟨?_, ?_, ?_, ?_⟩
  · have whole : op.Spares fun _ => true := fun _ _ _ => rfl
    rw [← op.gainOn_all]
    exact Operation.totalOn_reload allowed once whole
  · intro needle target carries
    exact s.count_stacked (apart_of_demands allowed carries) carries
  · rintro needle target rfl
    have apart := apart_of_demands allowed rfl
    exact (s.loops.count_move apart needle).trans (by rw [if_neg apart, if_pos rfl])
  · intro needle other
    exact congrArg (·.getD 0) (Operation.get?_reload s.loops other)

/-- Along a path the loops of a region change by what the operations form and drop inside it. -/
theorem Path.totalOn {region : Needle → Bool} {ops : List Operation} {states : List State}
    (path : Path s ops states t) (once : ∀ op ∈ ops, op.TucksOnce)
    (spared : ∀ op ∈ ops, op.Spares region) :
    (t.loops.totalOn region : Int) = s.loops.totalOn region +
      (List.zipWith (fun u op => op.gainOn region u.loops) (s :: states) ops).sum := by
  induction path with
  | stop => simp
  | @step s t u op rest states applied _ ih =>
    obtain ⟨allowed, same⟩ := apply_ok_iff.1 applied
    have first : (t.loops.totalOn region : Int) =
        s.loops.totalOn region + op.gainOn region s.loops := by
      rw [same]
      exact Operation.totalOn_reload allowed (once op (by simp)) (spared op (by simp))
    rw [ih (fun op later => once op (List.mem_cons_of_mem _ later))
      (fun op later => spared op (List.mem_cons_of_mem _ later)), first, List.zipWith_cons_cons,
      List.sum_cons, Int.add_assoc]

/-- Operations that work outside a region gain nothing in it. -/
theorem gains_eq_zero {region : Needle → Bool} {ops : List Operation} (states : List State)
    (outside : ∀ op ∈ ops, ∀ needle, op.workNeedle? = some needle → region needle = false) :
    (List.zipWith (fun u op => op.gainOn region u.loops) states ops).sum = 0 := by
  refine List.sum_eq_zero fun gain member => ?_
  obtain ⟨u, op, pair, rfl⟩ : ∃ u op, (u, op) ∈ states.zip ops ∧ op.gainOn region u.loops = gain := by
    rw [← List.map_uncurry_zip_eq_zipWith] at member
    obtain ⟨⟨u, op⟩, pair, same⟩ := List.mem_map.1 member
    exact ⟨u, op, pair, same⟩
  have there := (List.of_mem_zip pair).2
  cases works : op.workNeedle? with
  | none => exact op.gainOn_of_none region u.loops works
  | some needle =>
    rw [Operation.gainOn_of_workNeedle? region u.loops works, outside op there needle works]
    rfl

end State

/-- Loops are formed and dropped by knits, tucks, splits and drops on their own needle, and moved all
together by splits and transfers. Over a run, the loops of a region that none are moved into or out of
change by what is formed and dropped inside it, and not at all if nothing is. -/
theorem loops_are_accounted_for :
    (∀ s t op, op.TucksOnce → State.apply s op = .ok t → s.Accounts op t) ∧
    ∀ s t ops states, State.Path s ops states t → (∀ op ∈ ops, op.TucksOnce) →
      ∀ region : Needle → Bool, (∀ op ∈ ops, op.Spares region) →
        (t.loops.totalOn region : Int) = s.loops.totalOn region +
            (List.zipWith (fun u op => op.gainOn region u.loops) (s :: states) ops).sum ∧
          ((∀ op ∈ ops, ∀ needle, op.workNeedle? = some needle → region needle = false) →
            t.loops.totalOn region = s.loops.totalOn region) := by
  refine ⟨fun s t op once done => State.accounts_of_apply done once, ?_⟩
  intro s t ops states path once region spared
  have sum := path.totalOn once spared
  refine ⟨sum, fun outside => ?_⟩
  rw [State.gains_eq_zero (s :: states) outside, Int.add_zero] at sum
  exact Int.ofNat_inj.1 sum

/-- Loops are tucked, split off, transferred and dropped in the first three columns, and one is tucked
in the fifth. -/
def restacking : List Operation :=
  [.bringIn .increasing (.front 0) 1,
    .tuck .increasing (.front 1) (.ofNat 30) [⟨1, .ofNat 1⟩],
    .tuck .increasing (.front 2) (.ofNat 30) [⟨1, .ofNat 1⟩],
    .split .decreasing (.front 2) (.back 2) (.ofNat 30) [⟨1, .ofNat 0⟩],
    .transfer (.back 2) (.front 2),
    .transfer (.front 1) (.back 1),
    .miss .increasing (.front 2) 1,
    .miss .increasing (.front 3) 1,
    .tuck .increasing (.front 4) (.ofNat 30) [⟨1, .ofNat 2⟩],
    .drop (.back 1)]

theorem loops_are_accounted_for_restacking :
    (∃ s t, State.apply s (.transfer (.back 2) (.front 2)) = .ok t ∧ s.loopCount (.front 2) = 1 ∧
      s.Accounts (.transfer (.back 2) (.front 2)) t) ∧
    ∃ states t, State.Path .initial restacking states t ∧
      t.loops.totalOn (fun needle => needle.index < 3) = 2 ∧
      t.loops.totalOn (fun needle => needle.index = 3) = 0 := by
  obtain ⟨steps, runs⟩ := loops_are_accounted_for
  refine ⟨?_, ?_⟩
  · let s : State :=
      { State.initial with loops := Table.insert ((∅ : Loops).insert (.back 2) 1) (.front 2) 1 }
    have done : s.apply (.transfer (.back 2) (.front 2)) =
        .ok (s.after (.transfer (.back 2) (.front 2))) := by decide
    exact ⟨s, _, done, by decide, steps s _ _ trivial done⟩
  · let r := Replay.ofInstructions (restacking.map fun op => ⟨op, 1, none⟩)
    obtain ⟨states, trace, path⟩ := (Replay.skips_ofInstructions
      (restacking.map fun op => ⟨op, 1, none⟩)).path
    have all : (r.accepted (restacking.map fun op => ⟨op, 1, none⟩)).map (·.operation) =
        restacking := by
      rw [Replay.accepted_eq]
      set_option maxRecDepth 2000 in
      decide
    have gains : (List.zipWith (fun u op => Operation.gainOn (fun n => n.index < 3) u.loops op)
        r.trace.toList restacking).sum = 2 := by decide
    rw [all] at path
    rw [show r.trace.toList = .initial :: states from trace] at gains
    have once : ∀ op ∈ restacking, op.TucksOnce := by
      simp [restacking, Operation.TucksOnce]
    have inner := runs _ _ _ _ path once (fun n => n.index < 3) (by
      simp [restacking, Operation.Spares, Operation.carries?, Needle.front, Needle.back])
    have between := runs _ _ _ _ path once (fun n => n.index = 3) (by
      simp [restacking, Operation.Spares, Operation.carries?, Needle.front, Needle.back])
    refine ⟨states, _, path, ?_, ?_⟩
    · have sum := inner.1
      rw [gains] at sum
      exact Int.ofNat_inj.1 sum
    · refine between.2 ?_
      simp [restacking, Operation.workNeedle?, Needle.front, Needle.back]

end Knitout
