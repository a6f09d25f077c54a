import Knitout.Machine.Snapshot
import Knitout.Proofs.Consistency
import Knitout.Proofs.JsonText
import Mathlib.Data.List.Forall2
import Mathlib.Data.List.Perm.Basic

/-!
What is shown of a state tells the state. In its text each entry tells what it is about and where it
ends, so the entries are those of one state only, and the attachments that the text leaves out are
those of yarns that are not in action, of which no replay has any. The object has a field for each
entry. Main statement: `Replay.snapshots_tell_states`.
-/

namespace Knitout

open Json (Ends)

/-! ## Texts with a boundary -/

variable {u v : Text}

/-- Integers tell where they end in front of a text that begins with no digit. -/
theorem intDigits_append_cancel {i j : Int} (ends : Ends u) (ends' : Ends v)
    (same : intDigits i ++ u = intDigits j ++ v) : i = j ∧ u = v := by
  have read := Json.takeNumber?_intDigits i ends
  rw [same, Json.takeNumber?_intDigits j ends'] at read
  cases read
  exact ⟨rfl, rfl⟩

theorem natDigits_append_cancel {m n : Nat} (ends : Ends u) (ends' : Ends v)
    (same : natDigits m ++ u = natDigits n ++ v) : m = n ∧ u = v := by
  have read := Json.takeNat?_natDigits m ends
  rw [same, Json.takeNat?_natDigits n ends'] at read
  cases read
  exact ⟨rfl, rfl⟩

theorem natDigits_injective : Function.Injective natDigits := by
  intro m n same
  have ends : Ends [] := by simp [Ends]
  exact (natDigits_append_cancel ends ends (congrArg (· ++ []) same)).1

theorem Needle.render_append_cancel {m n : Needle} (ends : Ends u) (ends' : Ends v)
    (same : m.render ++ u = n.render ++ v) : m = n ∧ u = v := by
  obtain ⟨bed, i⟩ := m
  obtain ⟨bed', j⟩ := n
  simp only [render, List.cons_append, List.cons.injEq, true_and] at same
  obtain ⟨letter, digits⟩ := same
  obtain ⟨rfl, rfl⟩ := intDigits_append_cancel ends ends' digits
  cases bed <;> cases bed' <;> first | exact ⟨rfl, rfl⟩ | cases letter

theorem Needle.render_injective : Function.Injective Needle.render := by
  intro m n same
  have ends : Ends [] := by simp [Ends]
  exact (Needle.render_append_cancel ends ends (congrArg (· ++ []) same)).1

/-- Signs are no digits, so a location ends by itself. -/
theorem Location.render_append_cancel {l l' : Location}
    (same : l.render ++ u = l'.render ++ v) : l = l' ∧ u = v := by
  obtain ⟨needle, direction⟩ := l
  obtain ⟨needle', direction'⟩ := l'
  have ends (direction : Direction) (rest : Text) : Ends (direction.sign :: rest) := by
    cases direction <;> simp [Ends, Direction.sign]
  simp only [render, List.append_assoc, List.singleton_append] at same
  obtain ⟨rfl, signs⟩ := Needle.render_append_cancel (ends _ _) (ends _ _) same
  obtain ⟨sign, rfl⟩ := List.cons.inj signs
  cases direction <;> cases direction' <;> first | exact ⟨rfl, rfl⟩ | cases sign

theorem ends_flatMap {α : Type} {f : α → Text} (leads : ∀ a, (f a).head? = some ' ') (xs : List α)
    (ends : Ends u) : Ends (xs.flatMap f ++ u) := by
  cases xs with
  | nil => exact ends
  | cons a xs =>
    obtain ⟨tail, head⟩ := List.head?_eq_some_iff.1 (leads a)
    simp [Ends, head]

/-- Entries that begin with a space and tell where they end are told by their texts one after the
other, in front of texts that begin like none of them. -/
theorem flatMap_append_cancel {α β : Type} {f : α → Text} {g : β → Text} {R : α → β → Prop}
    (leads : ∀ a, (f a).head? = some ' ') (leads' : ∀ b, (g b).head? = some ' ')
    (cancel : ∀ {a b u v}, Ends u → Ends v → f a ++ u = g b ++ v → R a b ∧ u = v)
    {xs : List α} {ys : List β} (ends : Ends u) (ends' : Ends v)
    (stop : ∀ b w, u ≠ g b ++ w) (stop' : ∀ a w, v ≠ f a ++ w)
    (same : xs.flatMap f ++ u = ys.flatMap g ++ v) : List.Forall₂ R xs ys ∧ u = v := by
  induction xs generalizing ys with
  | nil =>
    cases ys with
    | nil => exact ⟨.nil, same⟩
    | cons b ys =>
      rw [List.flatMap_cons, List.append_assoc] at same
      exact absurd same (stop b _)
  | cons a xs ih =>
    cases ys with
    | nil =>
      rw [List.flatMap_cons, List.append_assoc] at same
      exact absurd same.symm (stop' a _)
    | cons b ys =>
      rw [List.flatMap_cons, List.flatMap_cons, List.append_assoc, List.append_assoc] at same
      obtain ⟨first, others⟩ :=
        cancel (ends_flatMap leads xs ends) (ends_flatMap leads' ys ends') same
      obtain ⟨rest, behind⟩ := ih others
      exact ⟨.cons first rest, behind⟩

namespace Table

variable {κ ν : Type} [Ord κ] {a b : Table κ ν} {key : κ} {value : ν}

theorem ext_entries (same : a.entries = b.entries) : a = b := by
  cases a
  cases b
  cases same
  rfl

/-- What is found at a key is an entry. -/
theorem mem_of_get? [Std.LawfulEqOrd κ] (found : a.get? key = some value) :
    (key, value) ∈ a.entries := by
  obtain ⟨entries, sorted⟩ := a
  change findEntry key entries = some value at found
  change (key, value) ∈ entries
  clear sorted
  induction entries with
  | nil => cases found
  | cons entry rest ih =>
    rw [findEntry] at found
    split at found
    · next same =>
      cases found
      rw [Std.LawfulEqCmp.eq_of_compare same]
      exact List.mem_cons_self
    · exact List.mem_cons_of_mem entry (ih found)

end Table

namespace State

variable {s t : State}

/-- A needle with loops tells its entry. -/
theorem renderLoops_append_cancel {entry entry' : Needle × Nat} (ends : Ends u) (ends' : Ends v)
    (same : renderLoops entry ++ u = renderLoops entry' ++ v) : entry = entry' ∧ u = v := by
  obtain ⟨needle, count⟩ := entry
  obtain ⟨needle', count'⟩ := entry'
  simp only [renderLoops, List.cons_append, List.append_assoc, List.cons.injEq, true_and] at same
  have colon (rest : Text) : Ends (':' :: rest) := by simp [Ends]
  obtain ⟨rfl, counts⟩ := Needle.render_append_cancel (colon _) (colon _) same
  obtain ⟨rfl, rfl⟩ := natDigits_append_cancel ends ends' (List.cons.inj counts).2
  exact ⟨rfl, rfl⟩

/-- The attachment of a yarn in action, or what stands for none. -/
theorem attachment_append_cancel {attached attached' : Option Location}
    (same : (match attached with
        | some location => location.render
        | none => ['x']) ++ u =
      (match attached' with
        | some location => location.render
        | none => ['x']) ++ v) : attached = attached' ∧ u = v := by
  have marked (location : Location) (w w' : Text) : location.render ++ w ≠ 'x' :: w' := by
    obtain ⟨⟨bed, index⟩, direction⟩ := location
    intro same
    have letter : bed.letter = 'x' := (List.cons.inj same).1
    cases bed <;> cases letter
  match attached, attached' with
  | some location, some location' =>
    obtain ⟨rfl, rfl⟩ := Location.render_append_cancel same
    exact ⟨rfl, rfl⟩
  | some location, none => exact absurd same (marked location u v)
  | none, some location => exact absurd same.symm (marked location v u)
  | none, none => exact ⟨rfl, (List.cons.inj same).2⟩

/-- A yarn in action tells its entry and its attachment. -/
theorem renderCarrier_append_cancel {entry entry' : Yarn × Int}
    (same : s.renderCarrier entry ++ u = t.renderCarrier entry' ++ v) :
    (s.attachments.get? entry.1 = t.attachments.get? entry.1 ∧ entry = entry') ∧ u = v := by
  obtain ⟨yarn, column⟩ := entry
  obtain ⟨yarn', column'⟩ := entry'
  unfold renderCarrier at same
  -- the fixed parts count as wholes here, not as characters
  generalize " y".toList = front at same
  generalize bracket : ":[".toList = left at same
  generalize slash : " / ".toList = middle at same
  simp only [List.append_assoc] at same
  have ends (rest : Text) : Ends (left ++ rest) := by simp [← bracket, Ends]
  have ends' (rest : Text) : Ends (middle ++ rest) := by simp [← slash, Ends]
  have numbers := List.append_cancel_left same
  obtain ⟨rfl, columns⟩ := natDigits_append_cancel (ends _) (ends _) numbers
  have columns' := List.append_cancel_left columns
  obtain ⟨rfl, locations⟩ := intDigits_append_cancel (ends' _) (ends' _) columns'
  have locations' := List.append_cancel_left locations
  obtain ⟨attached, behind⟩ := attachment_append_cancel locations'
  exact ⟨⟨attached, rfl⟩, List.append_cancel_left behind⟩

/-- A needle is not taken for a yarn. -/
theorem flatMap_renderLoops_ne (entries : List (Needle × Nat)) (entry : Yarn × Int) (w : Text) :
    entries.flatMap renderLoops ≠ s.renderCarrier entry ++ w := by
  cases entries with
  | nil => exact nofun
  | cons first rest =>
    obtain ⟨⟨bed, index⟩, count⟩ := first
    intro same
    have letter : bed.letter = 'y' := (List.cons.inj (List.cons.inj same).2).1
    cases bed <;> cases letter

/-- The text of a state tells its racking, its loops, its feeders and the attachments of the yarns
in action. -/
theorem render_cancel (same : s.render = t.render) :
    s.racking = t.racking ∧ s.loops = t.loops ∧ s.carriers = t.carriers ∧
      ∀ entry ∈ s.carriers.entries, s.attachments.get? entry.1 = t.attachments.get? entry.1 := by
  have feeders (s : State) (entry : Yarn × Int) : (s.renderCarrier entry).head? = some ' ' := rfl
  have needles (entry : Needle × Nat) : (renderLoops entry).head? = some ' ' := rfl
  have nothing : Ends [] := by simp [Ends]
  have nothing_ne (entry : Needle × Nat) (w : Text) : [] ≠ renderLoops entry ++ w := by
    intro same
    cases same
  have loops (s : State) : Ends (s.loops.entries.flatMap renderLoops) := by
    simpa using ends_flatMap needles s.loops.entries nothing
  unfold render at same
  generalize "rack:".toList = front at same
  simp only [List.append_assoc] at same
  obtain ⟨racking, entries⟩ := intDigits_append_cancel
    (ends_flatMap (feeders s) s.carriers.entries (loops s))
    (ends_flatMap (feeders t) t.carriers.entries (loops t)) (List.append_cancel_left same)
  obtain ⟨carriers, others⟩ := flatMap_append_cancel (feeders s) (feeders t)
    (fun _ _ => renderCarrier_append_cancel) (loops s) (loops t) (flatMap_renderLoops_ne _)
    (flatMap_renderLoops_ne _) entries
  obtain ⟨loops', _⟩ := flatMap_append_cancel needles needles renderLoops_append_cancel nothing
    nothing nothing_ne nothing_ne (congrArg (· ++ []) others)
  obtain ⟨attached, carriers⟩ := (List.forall₂_and_left _ _).1 carriers
  rw [List.forall₂_eq_eq_eq] at carriers loops'
  exact ⟨racking, Table.ext_entries loops', Table.ext_entries carriers, attached⟩

/-- With the text the attachments are told too, as no yarn is attached that is not in action. -/
theorem eq_of_render (consistent : s.Consistent) (consistent' : t.Consistent)
    (same : s.render = t.render) : s = t := by
  obtain ⟨racking, loops, carriers, attached⟩ := render_cancel same
  have out {u : State} (consistent : u.Consistent) {yarn : Yarn}
      (absent : u.carriers.get? yarn = none) : u.attachments.get? yarn = none := by
    cases there : u.attachments.get? yarn with
    | none => rfl
    | some location =>
      obtain ⟨column, stands⟩ := consistent.fed yarn location there
      cases absent.symm.trans stands
  have attachments : s.attachments = t.attachments := by
    refine Table.ext_get? fun yarn => ?_
    cases stands : s.carriers.get? yarn with
    | none => rw [out consistent stands, out consistent' (carriers ▸ stands)]
    | some column => exact attached _ (Table.mem_of_get? stands)
  cases s
  cases t
  cases racking
  cases loops
  cases carriers
  cases attachments
  rfl

end State

/-! ## Objects -/

namespace Json

/-- No object within the value has two fields of one name. -/
inductive Keyed : Json → Prop
  | null : Keyed null
  | bool (value : Bool) : Keyed (bool value)
  | number (value : Int) : Keyed (number value)
  | string (value : Text) : Keyed (string value)
  | array {items : List Json} (keyed : ∀ item ∈ items, Keyed item) : Keyed (array items)
  | object {fields : List (Text × Json)} (distinct : (fields.map Prod.fst).Nodup)
      (keyed : ∀ field ∈ fields, Keyed field.2) : Keyed (object fields)

variable {fields fields' : List (Text × Json)}

theorem perm_of_ofFields (same : ofFields fields = ofFields fields') : fields.Perm fields' := by
  have sorted := List.mergeSort_perm fields fun a b => !List.lex b.1 a.1 fun c d => c < d
  rw [ofFields, ofFields, object.injEq] at same
  rw [same] at sorted
  exact sorted.symm.trans (List.mergeSort_perm _ _)

theorem keyed_ofFields (distinct : (fields.map Prod.fst).Nodup)
    (keyed : ∀ field ∈ fields, Keyed field.2) : Keyed (ofFields fields) := by
  refine .object ?_ fun field member => keyed field (List.mem_mergeSort.1 member)
  rw [((List.mergeSort_perm _ _).map _).nodup_iff]
  exact distinct

/-- Objects with fields of the same names tell the values of their fields. -/
theorem values_of_ofFields {names : List Text} {values values' : List Json} (distinct : names.Nodup)
    (full : values.length = names.length) (full' : values'.length = names.length)
    (same : ofFields (names.zip values) = ofFields (names.zip values')) : values = values' := by
  have perm := perm_of_ofFields same
  refine List.ext_getElem (full.trans full'.symm) fun i inside inside' => ?_
  have named : i < names.length := full ▸ inside
  have here : (names[i], values[i]) ∈ names.zip values' := by
    refine perm.subset (List.mem_iff_getElem.2 ⟨i, by simp [named, inside], ?_⟩)
    exact List.getElem_zip
  have there : (names[i], values'[i]) ∈ names.zip values' :=
    List.mem_iff_getElem.2 ⟨i, by simp [named, inside'], List.getElem_zip⟩
  have keys : ((names.zip values').map Prod.fst).Nodup := by
    rwa [List.map_fst_zip (Nat.le_of_eq full'.symm)]
  exact congrArg Prod.snd (List.inj_on_of_nodup_map keys here there rfl)

theorem keyed_zip {names : List Text} {values : List Json} (distinct : names.Nodup)
    (full : values.length = names.length) (keyed : ∀ value ∈ values, value.Keyed) :
    (ofFields (names.zip values)).Keyed := by
  refine keyed_ofFields ?_ fun field member => keyed field.2 (List.of_mem_zip member).2
  rwa [List.map_fst_zip (Nat.le_of_eq full.symm)]

end Json

namespace Table

variable {κ ν : Type} [Ord κ] {name : κ → Text} {value : ν → Json}

/-- The object with a field for each entry of a table. -/
def toJson (name : κ → Text) (value : ν → Json) (a : Table κ ν) : Json :=
  .ofFields (a.entries.map fun entry => (name entry.1, value entry.2))

variable [Std.TransOrd κ]

theorem toJson_injective (names : Function.Injective name) (values : Function.Injective value) :
    Function.Injective (toJson name value) := by
  intro a b same
  have injective : Function.Injective fun entry : κ × ν => (name entry.1, value entry.2) :=
    names.prodMap values
  have perm := (List.map_perm_map_iff injective).1 (Json.perm_of_ofFields same)
  refine ext_entries (perm.eq_of_pairwise ?_ a.sorted b.sorted)
  intro entry entry' _ _ before behind
  rw [Std.OrientedCmp.gt_of_lt before] at behind
  cases behind

/-- Different keys name different fields. -/
theorem keyed_toJson (names : Function.Injective name) (keyed : ∀ v, (value v).Keyed)
    (a : Table κ ν) : (a.toJson name value).Keyed := by
  refine Json.keyed_ofFields ?_ ?_
  · rw [List.map_map, List.Nodup, List.pairwise_map]
    refine a.sorted.imp fun {entry entry'} before same => ?_
    have key : entry.1 = entry'.1 := names same
    have equal : compare entry'.1 entry'.1 = .eq := Std.ReflCmp.compare_self
    rw [key, equal] at before
    cases before
  · intro field member
    obtain ⟨entry, _, rfl⟩ := List.mem_map.1 member
    exact keyed entry.2

end Table

namespace Location

/-- The names of the fields of an attachment. -/
def fieldNames : List Text :=
  ["needle".toList, "direction".toList]

/-- The object of an attachment. -/
def toJson (location : Location) : Json :=
  .ofFields (fieldNames.zip
    [.string location.needle.render, .string [location.direction.sign]])

theorem toJson_injective : Function.Injective toJson := by
  intro l l' same
  have values := Json.values_of_ofFields (by decide) rfl rfl same
  simp only [List.cons.injEq, Json.string.injEq, and_true] at values
  obtain ⟨needle, sign⟩ := values
  obtain ⟨m, direction⟩ := l
  obtain ⟨n, direction'⟩ := l'
  obtain rfl : m = n := Needle.render_injective needle
  cases direction <;> cases direction' <;> first | rfl | cases sign

theorem keyed_toJson (location : Location) : location.toJson.Keyed := by
  refine Json.keyed_zip (by decide) rfl ?_
  simp [Json.Keyed.string]

end Location

namespace State

variable {s t : State}

/-- The names of the fields of a state. -/
def fieldNames : List Text :=
  ["rack".toList, "loops".toList, "carriers".toList, "attachments".toList]

theorem toJson_eq (s : State) : s.toJson = .ofFields (fieldNames.zip
    [.number s.racking, s.loops.toJson Needle.render fun count => .number (count : Nat),
      s.carriers.toJson natDigits .number, s.attachments.toJson natDigits Location.toJson]) :=
  rfl

/-- The object of a state tells the state, whether it comes from a replay or not. -/
theorem eq_of_toJson (same : s.toJson = t.toJson) : s = t := by
  rw [toJson_eq, toJson_eq] at same
  have values := Json.values_of_ofFields (by decide) rfl rfl same
  simp only [List.cons.injEq, Json.number.injEq, and_true] at values
  obtain ⟨racking, loops, carriers, attachments⟩ := values
  have counts : Function.Injective fun count : Nat => Json.number count := by
    intro m n same
    exact Int.ofNat.inj (Json.number.inj same)
  have columns : Function.Injective Json.number := fun _ _ => Json.number.inj
  have loops' := Table.toJson_injective Needle.render_injective counts loops
  have carriers' := Table.toJson_injective natDigits_injective columns carriers
  have attachments' :=
    Table.toJson_injective natDigits_injective Location.toJson_injective attachments
  cases s
  cases t
  cases racking
  cases loops'
  cases carriers'
  cases attachments'
  rfl

theorem keyed_toJson (s : State) : s.toJson.Keyed := by
  rw [toJson_eq]
  refine Json.keyed_zip (by decide) rfl ?_
  simp only [List.forall_mem_cons, List.not_mem_nil, false_implies, implies_true, and_true]
  exact ⟨.number _, Table.keyed_toJson Needle.render_injective (fun _ => .number _) _,
    Table.keyed_toJson natDigits_injective .number _,
    Table.keyed_toJson natDigits_injective Location.keyed_toJson _⟩

end State

/-! ## Snapshots -/

namespace Replay

variable {xs ys : List Instruction} {s t : State}

/-- States of replays, of whatever instructions, are equal if their texts are, and likewise if their
objects are. In these objects no two fields have one name, so none is lost in writing them. -/
theorem snapshots_tell_states (here : s ∈ (ofInstructions xs).trace)
    (there : t ∈ (ofInstructions ys).trace) :
    (s.render = t.render → s = t) ∧ (s.toJson = t.toJson → s = t) ∧ s.toJson.Keyed :=
  ⟨State.eq_of_render (consistent_trace xs s here) (consistent_trace ys t there),
    State.eq_of_toJson, s.keyed_toJson⟩

/-- A loop on a needle left of zero. -/
def leftward : List Instruction :=
  [.bringIn .decreasing (.front (-2)) 1,
    .tuck .decreasing (.front (-3)) (.ofNat 30) [⟨1, .ofNat 1⟩]].map fun op => ⟨op, 1, none⟩

/-- The same loop, with the bed racked there and back before. -/
def roundabout : List Instruction :=
  [⟨.rack 1, 1, none⟩, ⟨.rack 0, 2, none⟩] ++ leftward

theorem snapshots_tell_states_roundabout : ∃ s t,
    s ∈ (ofInstructions leftward).trace ∧ t ∈ (ofInstructions roundabout).trace ∧
      s.render = "rack:0 y1:[-3 / f.-3-] f.-3:1".toList ∧ t.render = s.render ∧ s = t := by
  have shown : ((ofInstructions leftward).trace[2]?.map State.render) =
      some "rack:0 y1:[-3 / f.-3-] f.-3:1".toList := by decide
  have shown' : ((ofInstructions roundabout).trace[4]?.map State.render) =
      some "rack:0 y1:[-3 / f.-3-] f.-3:1".toList := by decide
  obtain ⟨s, here, text⟩ := Option.map_eq_some_iff.1 shown
  obtain ⟨t, there, text'⟩ := Option.map_eq_some_iff.1 shown'
  have member := Array.mem_of_getElem? here
  have member' := Array.mem_of_getElem? there
  have same : t.render = s.render := text'.trans text.symm
  exact ⟨s, t, member, member', text, same,
    (snapshots_tell_states member member').1 same.symm⟩

end Replay

end Knitout
