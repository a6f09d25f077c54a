import Knitout.Proofs.Effects
import Mathlib.Data.List.Basic
import Mathlib.Logic.Relation

/-!
The order of operations that have no yarn and no loops in common does not matter
(`independent_operations_commute`). What an operation asks of a state depends on its own yarns and
needles (`State.demands_congr`), and so does what it makes of the feeders and the loops
(`Table.Local`); a transfer touches the attachments of all yarns, but only those at its own needle.
-/

namespace Knitout

/-! ## Local changes of tables -/

section
variable {κ ν : Type} [Ord κ] [Std.TransOrd κ] [Std.LawfulEqOrd κ]

/-- A change of a table that leaves all but some keys alone, and depends on nothing else there. -/
structure Table.Local (keys : List κ) (change : Table κ ν → Table κ ν) : Prop where
  other : ∀ t key, key ∉ keys → (change t).get? key = t.get? key
  congr : ∀ t t', (∀ key ∈ keys, t.get? key = t'.get? key) →
    ∀ key ∈ keys, (change t).get? key = (change t').get? key

/-- Changes at different keys can be made in either order. -/
theorem Table.Local.comm {keys keys' : List κ} {f g : Table κ ν → Table κ ν} (first : Local keys f)
    (second : Local keys' g) (apart : keys.Disjoint keys') (t : Table κ ν) : f (g t) = g (f t) := by
  refine ext_get? fun key => ?_
  by_cases here : key ∈ keys
  · have there : key ∉ keys' := fun member => apart here member
    rw [second.other _ key there]
    exact first.congr _ _ (fun k member => second.other t k fun both => apart member both) key here
  · rw [first.other _ key here]
    by_cases there : key ∈ keys'
    · exact (second.congr _ _ (fun k member => first.other t k fun both => apart both member)
        key there).symm
    · rw [second.other t key there, second.other _ key there, first.other t key here]

omit [Std.TransOrd κ] [Std.LawfulEqOrd κ] in
theorem Table.Local.id (keys : List κ) : Local keys fun t : Table κ ν => t where
  other _ _ _ := rfl
  congr _ _ same := same

theorem Table.Local.setAll [DecidableEq κ] (keys : List κ) (value : ν) :
    Local keys fun t : Table κ ν => t.setAll keys value where
  other t key outside := by rw [get?_setAll, if_neg outside]
  congr t t' _ key inside := by rw [get?_setAll, get?_setAll, if_pos inside, if_pos inside]

omit [Std.TransOrd κ] in
theorem Table.Local.erase [DecidableEq κ] (key : κ) :
    Local [key] fun t : Table κ ν => t.erase key where
  other t key' outside := by rw [get?_erase, if_neg (by simpa using outside)]
  congr t t' _ key' inside := by
    rw [get?_erase, get?_erase, if_pos (by simpa using inside), if_pos (by simpa using inside)]

end

/-! ## Loops and feeders -/

namespace Loops

/-- The loops of two needles after a move depend on those before it. -/
theorem get?_move_congr {loops loops' : Loops} {source target : Needle}
    (same : loops.get? source = loops'.get? source) (same' : loops.get? target = loops'.get? target)
    {needle : Needle} (member : needle = source ∨ needle = target) :
    (loops.move source target).get? needle = (loops'.move source target).get? needle := by
  have here : loops.get? needle = loops'.get? needle := by
    rcases member with rfl | rfl
    · exact same
    · exact same'
  unfold move
  rw [same]
  cases loops'.get? source with
  | none => exact here
  | some moved => simp only [count, Table.get?_insert, Table.get?_erase, same', here]

end Loops

namespace Operation

/-- An operation changes the loops of its own needles, whatever the others hold. -/
theorem local_reload (op : Operation) :
    Table.Local op.loopNeedles fun loops : Loops => op.reload loops where
  other loops _ outside := get?_reload loops outside
  congr loops loops' same needle inside := by
    cases op with
    | knit direction needle' length strands =>
      have here := same needle inside
      simp only [reload]
      split
      · rw [Table.get?_erase, Table.get?_erase, here]
      · rw [Table.get?_insert, Table.get?_insert, here]
    | tuck direction needle' length strands =>
      have here := same needle inside
      have own := same needle' (by simp [loopNeedles])
      simp only [reload]
      split
      · exact here
      · rw [Table.get?_insert, Table.get?_insert, own, here]
    | split direction needle' target length strands =>
      have moved := Loops.get?_move_congr (same needle' (by simp [loopNeedles]))
        (same target (by simp [loopNeedles])) (by simpa [loopNeedles] using inside)
      simp only [reload]
      split
      · exact moved
      · rw [Table.get?_insert, Table.get?_insert, moved]
    | drop needle' =>
      simp only [reload]
      rw [Table.get?_erase, Table.get?_erase, same needle inside]
    | transfer needle' target =>
      exact Loops.get?_move_congr (same needle' (by simp [loopNeedles]))
        (same target (by simp [loopNeedles])) (by simpa [loopNeedles] using inside)
    | miss | bringIn | bringOut | rack => cases inside

/-- It changes the feeders of its own yarns, wherever the others stand. -/
theorem local_refeed (op : Operation) (racking : Int) :
    Table.Local op.yarns fun feeders : Table Yarn Int => op.refeed racking feeders := by
  cases op with
  | knit | tuck | split | miss | bringIn => exact .setAll _ _
  | bringOut => exact .erase _
  | drop | transfer | rack => exact .id _

/-! ## Attachments -/

/-- The yarns whose attachments an operation sets or removes. -/
def tiedYarns : Operation → List Yarn
  | .knit _ _ _ strands | .tuck _ _ _ strands | .split _ _ _ _ strands => yarnsOf strands
  | .bringOut _ _ yarn => [yarn]
  | .miss .. | .bringIn .. | .drop _ | .transfer .. | .rack _ => []

/-- The attachment that they have afterwards. -/
def tie? : Operation → Option Location
  | .knit direction needle _ _ | .tuck direction needle _ _ | .split direction needle _ _ _ =>
    some ⟨needle, direction⟩
  | _ => none

/-- Where the loops at a location are afterwards. -/
def moved (op : Operation) : Location → Location :=
  match op.carries? with
  | some (needle, target) => Location.follow needle target
  | none => id

theorem get?_reattach (op : Operation) (attachments : Table Yarn Location) (yarn : Yarn) :
    (op.reattach attachments).get? yarn =
      if yarn ∈ op.tiedYarns then op.tie? else (attachments.get? yarn).map op.moved := by
  cases op with
  | knit | tuck => simp [reattach, tiedYarns, tie?, moved, carries?, Table.get?_setAll]
  | split direction needle target length strands =>
    rw [reattach, Table.get?_setAll, Table.get?_mapValues]
    rfl
  | bringOut => simp [reattach, tiedYarns, tie?, moved, carries?, Table.get?_erase]
  | transfer => simp [reattach, tiedYarns, moved, carries?, Table.get?_mapValues]
  | miss | bringIn | drop | rack => simp [reattach, tiedYarns, moved, carries?]

theorem mem_yarns_of_mem_tiedYarns {op : Operation} {yarn : Yarn} (tied : yarn ∈ op.tiedYarns) :
    yarn ∈ op.yarns := by
  cases op with
  | knit | tuck | split | bringOut => exact tied
  | miss | bringIn | drop | transfer | rack => cases tied

theorem mem_loopNeedles_of_tie? {op : Operation} {location : Location}
    (ties : op.tie? = some location) : location.needle ∈ op.loopNeedles := by
  cases op with
  | knit | tuck | split =>
    cases ties
    simp [loopNeedles]
  | miss | bringIn | bringOut | drop | transfer | rack => cases ties

theorem mem_loopNeedles_of_carries? {op : Operation} {needle target : Needle}
    (carries : op.carries? = some (needle, target)) :
    needle ∈ op.loopNeedles ∧ target ∈ op.loopNeedles := by
  cases op with
  | split | transfer =>
    cases carries
    simp [loopNeedles]
  | knit | tuck | miss | bringIn | bringOut | drop | rack => cases carries

/-- An operation leaves the loops of other needles where they are. -/
theorem moved_of_not_mem {op : Operation} {location : Location}
    (other : location.needle ∉ op.loopNeedles) : op.moved location = location := by
  unfold moved
  cases carries : op.carries? with
  | none => rfl
  | some pair =>
    obtain ⟨needle, target⟩ := pair
    have apart : location.needle ≠ needle := fun same =>
      other (same ▸ (mem_loopNeedles_of_carries? carries).1)
    exact if_neg apart

/-- Loops that are moved stay among the needles of the operation. -/
theorem moved_cases (op : Operation) (location : Location) :
    op.moved location = location ∨
      location.needle ∈ op.loopNeedles ∧ (op.moved location).needle ∈ op.loopNeedles := by
  unfold moved
  cases carries : op.carries? with
  | none => exact .inl rfl
  | some pair =>
    obtain ⟨needle, target⟩ := pair
    obtain ⟨source, goal⟩ := mem_loopNeedles_of_carries? carries
    simp only [Location.follow]
    split
    · next same => exact .inr ⟨same ▸ source, goal⟩
    · exact .inl rfl

/-! ## Independence -/

/-- Neither operation racks the beds, and they have no yarn and no loops in common. -/
structure Independent (a b : Operation) : Prop where
  still : ∀ racking, a ≠ .rack racking
  still' : ∀ racking, b ≠ .rack racking
  yarns : a.yarns.Disjoint b.yarns
  needles : a.loopNeedles.Disjoint b.loopNeedles

variable {a b : Operation}

theorem Independent.symm (independent : Independent a b) : Independent b a :=
  ⟨independent.still', independent.still, independent.yarns.symm, independent.needles.symm⟩

theorem rerack_of_still {op : Operation} (still : ∀ racking, op ≠ .rack racking) (racking : Int) :
    op.rerack racking = racking := by
  cases op with
  | rack target => exact absurd rfl (still target)
  | _ => rfl

/-- Loops that one of two independent operations moves are left alone by the other. -/
theorem Independent.moved_comm (independent : Independent a b) (location : Location) :
    a.moved (b.moved location) = b.moved (a.moved location) := by
  rcases a.moved_cases location with same | ⟨before, after⟩
  · rw [same]
    rcases b.moved_cases location with same' | ⟨_, after'⟩
    · rw [same', same]
    · exact moved_of_not_mem fun member => independent.needles member after'
  · rw [moved_of_not_mem fun member => independent.needles before member,
      moved_of_not_mem fun member => independent.needles after member]

/-- What an operation attaches its yarns to is not moved by one that is independent of it. -/
theorem Independent.map_tie? (independent : Independent a b) :
    a.tie?.map b.moved = a.tie? := by
  cases ties : a.tie? with
  | none => rfl
  | some location =>
    have own := mem_loopNeedles_of_tie? ties
    rw [Option.map_some, moved_of_not_mem fun member => independent.needles own member]

theorem Independent.reattach_comm (independent : Independent a b)
    (attachments : Table Yarn Location) :
    a.reattach (b.reattach attachments) = b.reattach (a.reattach attachments) := by
  -- moved loops take the attachments of all yarns with them, so this is no change at some keys
  refine Table.ext_get? fun yarn => ?_
  simp only [get?_reattach]
  by_cases tied : yarn ∈ a.tiedYarns
  · have untied : yarn ∉ b.tiedYarns := fun member =>
      independent.yarns (mem_yarns_of_mem_tiedYarns tied) (mem_yarns_of_mem_tiedYarns member)
    rw [if_pos tied, if_neg untied, if_pos tied, independent.map_tie?]
  · rw [if_neg tied, if_neg tied]
    split
    · exact independent.symm.map_tie?
    · rw [Option.map_map, Option.map_map]
      congr 1
      funext location
      exact independent.moved_comm location

end Operation

/-! ## The machine -/

namespace State

variable {s s' t : State} {a b op : Operation}

section
variable {needle target : Needle} {direction : Direction} {yarns : List Yarn}

theorem feederColumn_congr (racking : s.racking = s'.racking) :
    s.feederColumn isWord needle direction = s'.feederColumn isWord needle direction := by
  unfold feederColumn
  rw [racking]

theorem checkAligned_congr (racking : s.racking = s'.racking) :
    s.checkAligned isWord needle target = s'.checkAligned isWord needle target := by
  unfold checkAligned
  rw [feederColumn_congr racking, feederColumn_congr racking, racking]

theorem checkCarriers_congr {expected : Int}
    (carriers : ∀ yarn ∈ yarns, s.carriers.get? yarn = s'.carriers.get? yarn) :
    s.checkCarriers expected yarns = s'.checkCarriers expected yarns := by
  induction yarns with
  | nil => rfl
  | cons yarn rest ih =>
    unfold checkCarriers checkCarrier
    rw [carriers yarn (by simp), ih fun other member => carriers other (by simp [member])]

theorem checkPassage_congr (racking : s.racking = s'.racking)
    (carriers : ∀ yarn ∈ yarns, s.carriers.get? yarn = s'.carriers.get? yarn) :
    s.checkPassage needle direction yarns = s'.checkPassage needle direction yarns := by
  have waiting (expected : Int) : s.checkCarriers expected yarns = s'.checkCarriers expected yarns :=
    checkCarriers_congr carriers
  unfold checkPassage checkApproach
  simp only [feederColumn_congr racking, waiting]

end

/-- What an operation asks of a state depends on the racking, the feeders of its yarns and the loops
on its needles. -/
theorem demands_congr (racking : s.racking = s'.racking)
    (carriers : ∀ yarn ∈ op.yarns, s.carriers.get? yarn = s'.carriers.get? yarn)
    (loops : ∀ needle ∈ op.loopNeedles, s.loops.get? needle = s'.loops.get? needle) :
    s.demands op = s'.demands op := by
  cases op with
  | knit | tuck | miss => exact checkPassage_congr racking carriers
  | split direction needle target length strands =>
    have passage : s.checkPassage needle direction (yarnsOf strands) =
        s'.checkPassage needle direction (yarnsOf strands) := checkPassage_congr racking carriers
    simp only [demands, checkAligned_congr racking, passage]
  | bringIn direction needle yarn =>
    have own := carriers yarn (List.mem_singleton_self yarn)
    have listed : s.carriers.contains yarn = s'.carriers.contains yarn := by
      rw [Table.contains, own, Table.contains]
    simp only [demands]
    rw [listed, feederColumn_congr racking]
  | bringOut direction needle yarn =>
    have own := carriers yarn (List.mem_singleton_self yarn)
    simp only [demands, feederColumn_congr racking, checkCarrier, own]
  | drop needle =>
    have own := loops needle (List.mem_singleton_self needle)
    have count : s.loopCount needle = s'.loopCount needle := by
      rw [loopCount, Loops.count, own, loopCount, Loops.count]
    simp only [demands]
    rw [count]
  | transfer needle target => exact checkAligned_congr racking
  | rack target => simp only [demands, racking]

theorem demands_after (independent : a.Independent b) : (s.after a).demands b = s.demands b := by
  refine demands_congr (Operation.rerack_of_still independent.still _) ?_ ?_
  · intro yarn used
    exact (a.local_refeed s.racking).other _ yarn fun both => independent.yarns both used
  · intro needle used
    exact a.local_reload.other _ needle fun both => independent.needles both used

theorem after_comm (independent : a.Independent b) :
    (s.after a).after b = (s.after b).after a := by
  have still (racking : Int) := Operation.rerack_of_still independent.still racking
  have still' (racking : Int) := Operation.rerack_of_still independent.still' racking
  simp only [after, still, still', mk.injEq, true_and]
  refine ⟨?_, ?_, ?_⟩
  · exact b.local_reload.comm a.local_reload independent.needles.symm s.loops
  · exact (b.local_refeed s.racking).comm (a.local_refeed s.racking) independent.yarns.symm s.carriers
  · exact independent.symm.reattach_comm s.attachments

/-- Two independent operations are done in a row if each could be done alone. -/
theorem applyAll_pair (independent : a.Independent b) :
    s.applyAll [a, b] = .ok t ↔
      s.demands a = .ok () ∧ s.demands b = .ok () ∧ t = (s.after a).after b := by
  rw [applyAll_cons, apply_eq]
  cases s.demands a with
  | error fault => simp [Except.map, Except.bind]
  | ok =>
    have second : applyAll (s.after a) [b] = (s.after a).apply b := by
      rw [applyAll_cons]
      cases (s.after a).apply b <;> rfl
    simp only [Except.map, Except.bind, second, apply_ok_iff, demands_after independent, true_and]

/-- Independent operations in a row may be exchanged. -/
theorem applyAll_swap (independent : a.Independent b) :
    s.applyAll [a, b] = .ok t ↔ s.applyAll [b, a] = .ok t := by
  rw [applyAll_pair independent, applyAll_pair independent.symm, after_comm independent,
    and_left_comm]

/-- They may be exchanged in the middle of a run. -/
theorem applyAll_exchange (independent : a.Independent b) (before after : List Operation) :
    s.applyAll (before ++ a :: b :: after) = .ok t ↔
      s.applyAll (before ++ b :: a :: after) = .ok t := by
  have split (x y : Operation) : s.applyAll (before ++ x :: y :: after) = .ok t ↔
      ∃ u v, s.applyAll before = .ok u ∧ u.applyAll [x, y] = .ok v ∧ v.applyAll after = .ok t := by
    constructor
    · intro whole
      obtain ⟨u, first, rest⟩ := applyAll_prefix whole
      have rest : u.applyAll ([x, y] ++ after) = .ok t := rest
      obtain ⟨v, pair, last⟩ := applyAll_prefix rest
      exact ⟨u, v, first, pair, last⟩
    · rintro ⟨u, v, first, pair, last⟩
      rw [applyAll_append, first, Except.bind, show x :: y :: after = [x, y] ++ after from rfl,
        applyAll_append, pair, Except.bind, last]
  simp only [split, applyAll_swap independent]

end State

/-- Lists of operations that come from one another by exchanges of independent neighbours. -/
def Rearranged : List Operation → List Operation → Prop :=
  Relation.ReflTransGen fun xs ys => ∃ before a b after, Operation.Independent a b ∧
    xs = before ++ a :: b :: after ∧ ys = before ++ b :: a :: after

/-- How a run is arranged does not matter. -/
theorem Rearranged.applyAll {s t : State} {xs ys : List Operation} (rearranged : Rearranged xs ys) :
    s.applyAll xs = .ok t ↔ s.applyAll ys = .ok t := by
  induction rearranged with
  | refl => rfl
  | tail _ step ih =>
    obtain ⟨before, a, b, after, independent, rfl, rfl⟩ := step
    exact ih.trans (State.applyAll_exchange independent before after)

/-- Independent operations commute: in either order both are done or one of them is refused, the
machine ends in the same state, and what is refused after the other is refused without it. -/
theorem independent_operations_commute {a b : Operation} (independent : a.Independent b)
    (s : State) :
    ((∃ t, s.applyAll [a, b] = .ok t) ↔ ∃ t, s.applyAll [b, a] = .ok t) ∧
    (∀ t u, s.applyAll [a, b] = .ok t → s.applyAll [b, a] = .ok u → t = u) ∧
    ∀ t fault, s.apply a = .ok t → (t.apply b = .error fault ↔ s.apply b = .error fault) := by
  refine ⟨?_, ?_, ?_⟩
  · simp only [State.applyAll_swap independent]
  · intro t u first second
    rw [State.applyAll_swap independent, second] at first
    exact (Except.ok.inj first).symm
  · intro t fault done
    obtain ⟨_, rfl⟩ := State.apply_ok_iff.1 done
    rw [State.apply_error_iff, State.apply_error_iff, State.demands_after independent]

/-- Loops that one yarn is attached to are split off with another, and the yarn goes out. -/
theorem independent_operations_commute_unhooked :
    let s : State := ⟨0, (∅ : Loops).insert (.front 1) 1,
      Table.insert ((∅ : Table Yarn Int).insert 1 2) 2 1,
      (∅ : Table Yarn Location).insert 1 ⟨.front 1, .increasing⟩⟩
    let a : Operation := .split .increasing (.front 1) (.back 1) (.ofNat 30) [⟨2, .ofNat 1⟩]
    let b : Operation := .bringOut .increasing (.front 1) 1
    a.Independent b ∧ ∃ t, s.applyAll [a, b] = .ok t ∧ s.applyAll [b, a] = .ok t := by
  intro s a b
  have independent : a.Independent b :=
    ⟨by simp [a], by simp [b], by simp [a, b, Operation.yarns, yarnsOf],
      by simp [b, Operation.loopNeedles]⟩
  obtain ⟨t, first⟩ : ∃ t, s.applyAll [a, b] = .ok t := ⟨(s.after a).after b, by decide⟩
  obtain ⟨both, same, _⟩ := independent_operations_commute independent s
  obtain ⟨u, second⟩ := both.1 ⟨t, first⟩
  rw [← same t u first second] at second
  exact ⟨independent, t, first, second⟩

end Knitout
