/-!
# Finite tables in key order

A table maps finitely many keys to values and keeps its entries in increasing order of the keys, so
two tables with the same contents are equal. Main statements: what `insert`, `erase` and `mapValues`
do to `get?`, and extensionality (`Table.ext_get?`).
-/

namespace Knitout

/-- A finite map whose entries are listed by strictly increasing key. -/
structure Table (κ ν : Type) [Ord κ] where
  entries : List (κ × ν)
  sorted : entries.Pairwise fun a b => compare a.1 b.1 = .lt

namespace Table

variable {κ ν : Type} [Ord κ]

instance [DecidableEq κ] [DecidableEq ν] : DecidableEq (Table κ ν) := fun s t =>
  decidable_of_iff (s.entries = t.entries) <| by
    cases s; cases t; simp

/-- The table without entries. -/
def empty : Table κ ν := ⟨[], .nil⟩

instance : EmptyCollection (Table κ ν) := ⟨empty⟩
instance : Inhabited (Table κ ν) := ⟨empty⟩

/-- The first value at a key. -/
def findEntry (key : κ) : List (κ × ν) → Option ν
  | [] => none
  | e :: rest => if compare key e.1 = .eq then some e.2 else findEntry key rest

/-- Entries with one value set, at its place in the order. -/
def setEntry (key : κ) (value : ν) : List (κ × ν) → List (κ × ν)
  | [] => [(key, value)]
  | e :: rest =>
    match compare key e.1 with
    | .lt => (key, value) :: e :: rest
    | .eq => (key, value) :: rest
    | .gt => e :: setEntry key value rest

/-- The value at a key. -/
def get? (t : Table κ ν) (key : κ) : Option ν :=
  findEntry key t.entries

/-- Whether there is an entry at a key. -/
def contains (t : Table κ ν) (key : κ) : Bool :=
  (t.get? key).isSome

/-- The table without the entry at a key. -/
def erase (t : Table κ ν) (key : κ) : Table κ ν :=
  ⟨t.entries.filter fun e => compare key e.1 != .eq, t.sorted.filter _⟩

/-- The table with every value replaced. -/
def mapValues {μ : Type} (f : ν → μ) (t : Table κ ν) : Table κ μ :=
  ⟨t.entries.map fun e => (e.1, f e.2), by
    rw [List.pairwise_map]; exact t.sorted⟩

/-! ## Keys in a linear order -/

private theorem lt_setEntry {low key : κ} {value : ν} {entries : List (κ × ν)}
    (hkey : compare low key = .lt) (hlow : ∀ e ∈ entries, compare low e.1 = .lt) :
    ∀ e ∈ setEntry key value entries, compare low e.1 = .lt := by
  induction entries with
  | nil => simpa [setEntry] using hkey
  | cons e rest ih =>
    have hrest := fun d hd => hlow d (List.mem_cons_of_mem e hd)
    unfold setEntry
    split
    · intro d hd
      rcases List.mem_cons.1 hd with rfl | hd
      · exact hkey
      · exact hlow d hd
    · intro d hd
      rcases List.mem_cons.1 hd with rfl | hd
      · exact hkey
      · exact hrest d hd
    · intro d hd
      rcases List.mem_cons.1 hd with rfl | hd
      · exact hlow _ (by simp)
      · exact ih hrest d hd

variable [Std.TransOrd κ] [Std.LawfulEqOrd κ]

private theorem sorted_setEntry {key : κ} {value : ν} {entries : List (κ × ν)}
    (h : entries.Pairwise fun a b => compare a.1 b.1 = .lt) :
    (setEntry key value entries).Pairwise fun a b => compare a.1 b.1 = .lt := by
  induction entries with
  | nil => simp [setEntry]
  | cons e rest ih =>
    have ⟨hhead, htail⟩ := List.pairwise_cons.1 h
    unfold setEntry
    split
    · next hlt =>
      refine List.pairwise_cons.2 ⟨fun d hd => ?_, h⟩
      rcases List.mem_cons.1 hd with rfl | hd
      · exact hlt
      · exact Std.TransCmp.lt_trans hlt (hhead d hd)
    · next heq =>
      rw [Std.LawfulEqCmp.eq_of_compare heq]
      exact List.pairwise_cons.2 ⟨hhead, htail⟩
    · next hgt =>
      exact List.pairwise_cons.2
        ⟨lt_setEntry (Std.OrientedCmp.lt_of_gt hgt) hhead, ih htail⟩

/-- The table with one value set. -/
def insert (t : Table κ ν) (key : κ) (value : ν) : Table κ ν :=
  ⟨setEntry key value t.entries, sorted_setEntry t.sorted⟩

/-! ## What the operations do to `get?` -/

omit [Std.TransOrd κ] in
private theorem findEntry_setEntry [DecidableEq κ] (key : κ) (value : ν) (k : κ)
    (entries : List (κ × ν)) :
    findEntry k (setEntry key value entries) =
      if k = key then some value else findEntry k entries := by
  induction entries with
  | nil => simp [setEntry, findEntry, Std.LawfulEqCmp.compare_eq_iff_eq]
  | cons e rest ih =>
    unfold setEntry
    split
    · simp [findEntry, Std.LawfulEqCmp.compare_eq_iff_eq]
    · next heq =>
      have heq := Std.LawfulEqCmp.eq_of_compare heq
      by_cases hk : k = key <;>
        simp [findEntry, Std.LawfulEqCmp.compare_eq_iff_eq, hk, ← heq]
    · next hgt =>
      have hne : ¬ compare key e.1 = .eq := by rw [hgt]; simp
      by_cases hk : k = key
      · subst hk
        simpa [findEntry, hne] using ih
      · simp [findEntry, hk, ih]

omit [Std.TransOrd κ] in
private theorem findEntry_filter [DecidableEq κ] (key k : κ) (entries : List (κ × ν)) :
    findEntry k (entries.filter fun e => compare key e.1 != .eq) =
      if k = key then none else findEntry k entries := by
  induction entries with
  | nil => simp [findEntry]
  | cons e rest ih =>
    by_cases he : key = e.1
    · rw [List.filter_cons_of_neg (by simp [he]), ih]
      by_cases hk : k = key
      · simp [hk]
      · have : ¬ k = e.1 := he ▸ hk
        simp [findEntry, Std.LawfulEqCmp.compare_eq_iff_eq, hk, this]
    · rw [List.filter_cons_of_pos (by simp [he])]
      by_cases hk : k = key
      · subst hk
        simpa [findEntry, Std.LawfulEqCmp.compare_eq_iff_eq, he] using ih
      · simp [findEntry, hk, ih]

omit [Std.TransOrd κ] [Std.LawfulEqOrd κ] in
@[simp] theorem get?_empty (k : κ) : (empty : Table κ ν).get? k = none := rfl

theorem get?_insert [DecidableEq κ] (t : Table κ ν) (key : κ) (value : ν) (k : κ) :
    (t.insert key value).get? k = if k = key then some value else t.get? k :=
  findEntry_setEntry key value k t.entries

omit [Std.TransOrd κ] in
theorem get?_erase [DecidableEq κ] (t : Table κ ν) (key k : κ) :
    (t.erase key).get? k = if k = key then none else t.get? k :=
  findEntry_filter key k t.entries

omit [Std.TransOrd κ] [Std.LawfulEqOrd κ] in
theorem get?_mapValues {μ : Type} (f : ν → μ) (t : Table κ ν) (k : κ) :
    (t.mapValues f).get? k = (t.get? k).map f := by
  obtain ⟨entries, sorted⟩ := t
  simp only [get?, mapValues]
  clear sorted
  induction entries with
  | nil => rfl
  | cons e rest ih =>
    simp only [List.map_cons, findEntry]
    split
    · rfl
    · exact ih

/-! ## Equal contents -/

omit [Std.TransOrd κ] [Std.LawfulEqOrd κ] in
theorem findEntry_of_lt {k : κ} {entries : List (κ × ν)}
    (h : ∀ e ∈ entries, compare k e.1 = .lt) : findEntry k entries = none := by
  induction entries with
  | nil => rfl
  | cons e rest ih =>
    rw [findEntry, if_neg (by rw [h e (by simp)]; simp)]
    exact ih fun d hd => h d (List.mem_cons_of_mem e hd)

private theorem eq_of_findEntry {s t : List (κ × ν)}
    (hs : s.Pairwise fun a b => compare a.1 b.1 = .lt)
    (ht : t.Pairwise fun a b => compare a.1 b.1 = .lt)
    (h : ∀ k, findEntry k s = findEntry k t) : s = t := by
  induction s generalizing t with
  | nil =>
    cases t with
    | nil => rfl
    | cons e rest => simpa [findEntry] using h e.1
  | cons d s ih =>
    cases t with
    | nil => simpa [findEntry] using h d.1
    | cons e t =>
      have ⟨hd, hs⟩ := List.pairwise_cons.1 hs
      have ⟨he, ht⟩ := List.pairwise_cons.1 ht
      have hde : compare d.1 e.1 = .eq := by
        cases hc : compare d.1 e.1 with
        | eq => rfl
        | lt =>
          have := h d.1
          rw [findEntry, if_pos Std.ReflCmp.compare_self, findEntry, if_neg (by rw [hc]; simp),
            findEntry_of_lt fun b hb => Std.TransCmp.lt_trans hc (he b hb)] at this
          cases this
        | gt =>
          have hc := Std.OrientedCmp.lt_of_gt hc
          have := h e.1
          rw [findEntry, if_neg (by rw [hc]; simp), findEntry, if_pos Std.ReflCmp.compare_self,
            findEntry_of_lt fun b hb => Std.TransCmp.lt_trans hc (hd b hb)] at this
          cases this
      have hkey := Std.LawfulEqCmp.eq_of_compare hde
      have hval : d.2 = e.2 := by
        have := h d.1
        rw [findEntry, if_pos Std.ReflCmp.compare_self, findEntry, if_pos hde] at this
        exact Option.some.inj this
      have htail : s = t := ih hs ht fun k => by
        have hk := h k
        simp only [findEntry, hkey] at hk
        by_cases hke : compare k e.1 = .eq
        · have := Std.LawfulEqCmp.eq_of_compare hke
          subst this
          rw [findEntry_of_lt he, findEntry_of_lt fun b hb => hkey ▸ hd b hb]
        · simpa [hke] using hk
      rw [Prod.ext hkey hval, htail]

/-- Tables with the same contents are equal. -/
theorem ext_get? {s t : Table κ ν} (h : ∀ k, s.get? k = t.get? k) : s = t := by
  have := eq_of_findEntry s.sorted t.sorted h
  cases s; cases t; cases this; rfl

variable {μ : Type}

theorem mapValues_insert [DecidableEq κ] (f : ν → μ) (t : Table κ ν) (key : κ) (value : ν) :
    (t.insert key value).mapValues f = (t.mapValues f).insert key (f value) := by
  refine ext_get? fun k => ?_
  rw [get?_mapValues, get?_insert, get?_insert, get?_mapValues]
  split <;> rfl

theorem mapValues_erase [DecidableEq κ] (f : ν → μ) (t : Table κ ν) (key : κ) :
    (t.erase key).mapValues f = (t.mapValues f).erase key := by
  refine ext_get? fun k => ?_
  rw [get?_mapValues, get?_erase, get?_erase, get?_mapValues]
  split <;> rfl

theorem mapValues_foldl_insert [DecidableEq κ] (f : ν → μ) (keys : List κ) (value : ν) (t : Table κ ν) :
    (keys.foldl (fun t k => t.insert k value) t).mapValues f =
      keys.foldl (fun t k => t.insert k (f value)) (t.mapValues f) := by
  induction keys generalizing t with
  | nil => rfl
  | cons key rest ih => rw [List.foldl_cons, ih, mapValues_insert, List.foldl_cons]

end Table

end Knitout
