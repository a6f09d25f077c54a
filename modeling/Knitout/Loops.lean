import Knitout.Needle
import Knitout.Table

/-!
# Loops on needles

How many loops each needle holds. Loops are moved from one needle to another all at once. Main
statement: what a move does to the count of every needle (`Loops.count_move`).
-/

namespace Knitout

/-- How many loops each needle holds; one without an entry holds none. -/
abbrev Loops := Table Needle Nat

namespace Loops

/-- How many loops a needle holds. -/
def count (loops : Loops) (needle : Needle) : Nat :=
  (loops.get? needle).getD 0

/-- Put all loops of a needle on top of those of another one. -/
def move (loops : Loops) (source target : Needle) : Loops :=
  match loops.get? source with
  | none => loops
  | some moved =>
    let rest : Loops := loops.erase source
    rest.insert target (rest.count target + moved)

/-- A move between different needles leaves none at the source, adds them at the target, and changes
no other needle. -/
theorem count_move (loops : Loops) {source target : Needle} (h : source ≠ target)
    (needle : Needle) :
    (loops.move source target).count needle =
      if needle = target then loops.count target + loops.count source
      else if needle = source then 0
      else loops.count needle := by
  unfold move
  split
  · next hnone =>
    by_cases ht : needle = target
    · simp [ht, count, hnone]
    · by_cases hs : needle = source <;> simp [ht, hs, count, hnone, h]
  · next moved hsome =>
    by_cases ht : needle = target
    · simp [ht, count, Table.get?_insert, Table.get?_erase, hsome, Ne.symm h]
    · by_cases hs : needle = source <;>
        simp [ht, hs, count, Table.get?_insert, Table.get?_erase, h]

theorem get?_move_other (loops : Loops) {source target needle : Needle} (hs : needle ≠ source)
    (ht : needle ≠ target) : (loops.move source target).get? needle = loops.get? needle := by
  unfold move
  split
  · rfl
  · simp [Table.get?_insert, Table.get?_erase, hs, ht]

/-- Every needle in the table holds loops. -/
def Filled (loops : Loops) : Prop :=
  ∀ needle count, loops.get? needle = some count → 0 < count

namespace Filled

variable {loops : Loops}

theorem insert (filled : loops.Filled) (needle : Needle) {count : Nat} (some : 0 < count) :
    Loops.Filled (loops.insert needle count) := by
  intro needle' count' there
  rw [Table.get?_insert] at there
  split at there
  · cases there
    exact some
  · exact filled needle' count' there

theorem erase (filled : loops.Filled) (needle : Needle) : Loops.Filled (loops.erase needle) := by
  intro needle' count' there
  rw [Table.get?_erase] at there
  split at there
  · cases there
  · exact filled needle' count' there

theorem move (filled : loops.Filled) (source target : Needle) :
    (loops.move source target).Filled := by
  unfold Loops.move
  split
  · exact filled
  · next moved there =>
    exact (filled.erase source).insert target (Nat.add_pos_right _ (filled source moved there))

end Filled

end Loops

end Knitout
