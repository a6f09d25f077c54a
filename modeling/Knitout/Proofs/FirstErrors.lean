import Knitout.Report
import Mathlib.Data.List.Sort

/-!
What a limit on the errors shows. A list can hold the same diagnostic twice, so what is shown is
told by the places at which it is found (`FirstErrors`): those of all the warnings and of the first
errors. The loop keeps this of what it has seen so far (`Selection.Made`). Main statement:
`first_errors_are_shown`.
-/

namespace Knitout

namespace Report

variable {limit : Nat} {found shown shown' : List Diagnostic} {kept kept' : List Nat}
  {d : Diagnostic}

/-! ## Places -/

/-- The places of the errors, fatal or not, in order. -/
def errorPlaces (found : List Diagnostic) : List Nat :=
  found.findIdxs fun d => d.severity = .error ∨ d.severity = .fatal

/-- The places of the warnings, in order. -/
def warningPlaces (found : List Diagnostic) : List Nat :=
  found.findIdxs fun d => d.severity = .warning

/-- The places of the first errors, as many as there are up to a limit. -/
def firstErrorPlaces (limit : Nat) (found : List Diagnostic) : List Nat :=
  (errorPlaces found).take (min limit (errorCount found))

theorem isError_eq (d : Diagnostic) :
    d.severity.isError = decide (d.severity = .error ∨ d.severity = .fatal) := by
  cases d.severity <;> rfl

theorem not_isError_eq (d : Diagnostic) :
    (!d.severity.isError) = decide (d.severity = .warning) := by
  cases d.severity <;> rfl

theorem length_errorPlaces (found : List Diagnostic) :
    (errorPlaces found).length = errorCount found := by
  simp only [errorPlaces, List.length_findIdxs, errorCount, isError_eq]

theorem errorPlaces_concat (found : List Diagnostic) (d : Diagnostic) :
    errorPlaces (found ++ [d]) =
      errorPlaces found ++ if d.severity.isError then [found.length] else [] := by
  simp only [errorPlaces, List.findIdxs_append, List.findIdxs_singleton, isError_eq, Nat.zero_add]

theorem warningPlaces_concat (found : List Diagnostic) (d : Diagnostic) :
    warningPlaces (found ++ [d]) =
      warningPlaces found ++ if !d.severity.isError then [found.length] else [] := by
  simp only [warningPlaces, List.findIdxs_append, List.findIdxs_singleton, not_isError_eq,
    Nat.zero_add]

theorem errorCount_concat (found : List Diagnostic) (d : Diagnostic) :
    errorCount (found ++ [d]) = errorCount found + if d.severity.isError then 1 else 0 := by
  rw [errorCount, List.countP_append, List.countP_singleton, errorCount]

/-- Another error is one of the first if there is room for it. -/
theorem firstErrorPlaces_concat (limit : Nat) (found : List Diagnostic) (d : Diagnostic) :
    firstErrorPlaces limit (found ++ [d]) = firstErrorPlaces limit found ++
      if d.severity.isError ∧ errorCount found < limit then [found.length] else [] := by
  have size := length_errorPlaces found
  unfold firstErrorPlaces
  rw [errorPlaces_concat, errorCount_concat]
  by_cases error : d.severity.isError
  · by_cases room : errorCount found < limit
    · have more : min limit (errorCount found + 1) = (errorPlaces found).length + 1 := by omega
      have all : min limit (errorCount found) = (errorPlaces found).length := by omega
      rw [if_pos error, if_pos error, if_pos ⟨error, room⟩, more, all, List.take_length]
      exact List.take_of_length_le (by simp)
    · have full : min limit (errorCount found + 1) = min limit (errorCount found) := by omega
      have within : min limit (errorCount found) ≤ (errorPlaces found).length := by omega
      rw [if_pos error, if_pos error, if_neg fun both => room both.2, full, List.append_nil,
        List.take_append_of_le_length within]
  · simp [error]

/-! ## What is shown -/

/-- What is shown stands at the places `kept` of what was found, in the same order: these are the
places of all the warnings and of the first errors up to a limit. -/
structure FirstErrors (limit : Nat) (found shown : List Diagnostic) (kept : List Nat) : Prop where
  ordered : kept.Pairwise (· < ·)
  mem_iff : ∀ place,
    place ∈ kept ↔ place ∈ warningPlaces found ∨ place ∈ firstErrorPlaces limit found
  shown_eq : shown.map some = kept.map (found[·]?)

namespace FirstErrors

theorem nil (limit : Nat) : FirstErrors limit [] [] [] where
  ordered := .nil
  mem_iff := by simp [warningPlaces, firstErrorPlaces, errorPlaces]
  shown_eq := rfl

theorem lt_length (first : FirstErrors limit found shown kept) {place : Nat}
    (member : place ∈ kept) : place < found.length := by
  have there : found[place]? ∈ shown.map some := by
    rw [first.shown_eq]
    exact List.mem_map_of_mem member
  obtain ⟨d, _, same⟩ := List.mem_map.1 there
  exact (List.getElem?_eq_some_iff.1 same.symm).1

/-- The places so far are the same in a longer list. -/
theorem map_concat (first : FirstErrors limit found shown kept) (d : Diagnostic) :
    kept.map ((found ++ [d])[·]?) = shown.map some := by
  rw [first.shown_eq]
  exact List.map_congr_left fun place member => List.getElem?_append_left (first.lt_length member)

/-- A warning is shown, and so is an error if there is room for it. -/
theorem shows (first : FirstErrors limit found shown kept)
    (room : d.severity.isError = true → errorCount found < limit) :
    FirstErrors limit (found ++ [d]) (shown ++ [d]) (kept ++ [found.length]) where
  ordered := by
    refine List.pairwise_append.2 ⟨first.ordered, List.pairwise_singleton _ _, ?_⟩
    intro place member last same
    rw [List.mem_singleton.1 same]
    exact first.lt_length member
  mem_iff place := by
    rw [warningPlaces_concat, firstErrorPlaces_concat]
    by_cases error : d.severity.isError
    · simp [error, room error, first.mem_iff, or_assoc]
    · simp [error, first.mem_iff, or_right_comm]
  shown_eq := by
    rw [List.map_append, List.map_append, first.map_concat]
    simp

/-- An error for which there is no room is left out. -/
theorem hides (first : FirstErrors limit found shown kept) (error : d.severity.isError = true)
    (full : limit ≤ errorCount found) : FirstErrors limit (found ++ [d]) shown kept where
  ordered := first.ordered
  mem_iff place := by
    rw [warningPlaces_concat, firstErrorPlaces_concat]
    simp [error, Nat.not_lt.2 full, first.mem_iff]
  shown_eq := (first.map_concat d).symm

/-- The limit says exactly what is shown. -/
theorem unique (first : FirstErrors limit found shown kept)
    (other : FirstErrors limit found shown' kept') : shown = shown' := by
  have same : kept = kept' := first.ordered.eq_of_mem_iff other.ordered fun place =>
    (first.mem_iff place).trans (other.mem_iff place).symm
  refine List.map_injective_iff.2 (Option.some_injective _) ?_
  rw [first.shown_eq, other.shown_eq, same]

end FirstErrors

/-! ## The loop -/

/-- What the loop has made of the diagnostics that it has seen. -/
structure Selection.Made (limit : Nat) (seen : List Diagnostic) (s : Selection) : Prop where
  shown : ∃ kept, FirstErrors limit seen s.shown.toList kept
  errors : s.errors = errorCount seen
  hidden : s.hidden = errorCount seen - min limit (errorCount seen)

namespace Selection.Made

variable {seen : List Diagnostic} {s : Selection}

theorem start (limit : Nat) : Made limit [] {} where
  shown := ⟨[], .nil limit⟩
  errors := rfl
  hidden := by simp [errorCount]

/-- The loop stays right with one more diagnostic. -/
theorem add (made : Made limit seen s) (d : Diagnostic) :
    Made limit (seen ++ [d]) (s.add limit d) := by
  obtain ⟨⟨kept, first⟩, errors, hidden⟩ := made
  have count := errorCount_concat seen d
  have pushed (room : d.severity.isError = true → errorCount seen < limit) :
      FirstErrors limit (seen ++ [d]) (s.shown.push d).toList (kept ++ [seen.length]) := by
    rw [Array.toList_push]
    exact first.shows room
  unfold Selection.add
  by_cases error : d.severity.isError
  · rw [if_pos error] at count
    -- An error counts before the limit is looked at, so it is past the limit exactly if there were
    -- as many errors before it.
    by_cases past : limit < s.errors + 1
    · have full : limit ≤ errorCount seen := by omega
      simp only [error, past, if_true]
      exact {
        shown := ⟨kept, first.hides error full⟩
        errors := by rw [count, errors]
        hidden := by
          show s.hidden + 1 = _
          omega }
    · have room : errorCount seen < limit := by omega
      simp only [error, past, if_true, if_false]
      exact {
        shown := ⟨_, pushed fun _ => room⟩
        errors := by rw [count, errors]
        hidden := by
          show s.hidden = _
          omega }
  · rw [if_neg error] at count
    simp only [error, Bool.false_eq_true, if_false]
    exact {
      shown := ⟨_, pushed fun error' => absurd error' error⟩
      errors := errors.trans count.symm
      hidden := by rw [count]; exact hidden }

/-- And so it does with all that are still to come. -/
theorem foldl (made : Made limit seen s) (rest : List Diagnostic) :
    Made limit (seen ++ rest) (rest.foldl (Selection.add limit) s) := by
  induction rest generalizing seen s with
  | nil => simpa using made
  | cons d rest ih => simpa using ih (made.add d)

end Selection.Made

/-- Without a limit everything is shown. Under a limit all the warnings are shown and the first
errors, as many as there are up to the limit, in their order and nothing else; the other errors are
counted. -/
theorem first_errors_are_shown (found shown : List Diagnostic) (hidden : Nat) :
    (limitErrors none found = (shown, hidden) ↔ shown = found ∧ hidden = 0) ∧
    ∀ limit, limitErrors (some limit) found = (shown, hidden) ↔
      (∃ kept, FirstErrors limit found shown kept) ∧
        hidden = errorCount found - min limit (errorCount found) := by
  constructor
  · simp only [limitErrors, Prod.mk.injEq, eq_comm]
  · intro limit
    have made := (Selection.Made.start limit).foldl found
    rw [List.nil_append] at made
    obtain ⟨kept, first⟩ := made.shown
    constructor
    · intro result
      cases result
      exact ⟨⟨kept, first⟩, made.hidden⟩
    · rintro ⟨⟨kept', other⟩, rfl⟩
      rw [limitErrors, first.unique other, made.hidden]

/-- Warnings are shown behind errors that are left out. -/
example :
    let found : List Diagnostic := [(1, .error), (2, .warning), (3, .fatal), (4, .warning)].map
      fun (line, severity) => { line, severity, kind := .reading, message := "bad" }
    ((limitErrors (some 1) found).1.map (·.line), (limitErrors (some 1) found).2) =
      ([1, 2, 4], 1) := by
  decide

end Report

end Knitout
