import Knitout.Header
import Knitout.Proofs.Words
import Mathlib.Data.List.Nodup

/-!
The carriers of a file have pairwise distinct names and pairwise distinct yarn numbers
(`CarrierTable.numbered_ofNames`), so an operation that lists carriers lists as many yarns. No name
goes over the end of a line (`Headers.newline_not_mem_carriers`).
-/

namespace Knitout

/-- A computation in two parts succeeds if both do. -/
theorem Except.bind_ok {ε α β : Type} {x : Except ε α} {f : α → Except ε β} {b : β}
    (done : (x >>= f) = .ok b) : ∃ a, x = .ok a ∧ f a = .ok b := by
  cases x with
  | error e => cases done
  | ok a => exact ⟨a, rfl, done⟩

theorem Except.bind_error {ε α β : Type} {x : Except ε α} {f : α → Except ε β} {e : ε}
    (refused : (x >>= f) = .error e) : x = .error e ∨ ∃ a, x = .ok a ∧ f a = .error e := by
  cases x with
  | error e' =>
    cases refused
    exact .inl rfl
  | ok a => exact .inr ⟨a, rfl, refused⟩

theorem Except.map_ok {ε α β : Type} {x : Except ε α} {f : α → β} {b : β}
    (done : x.map f = .ok b) : ∃ a, x = .ok a ∧ f a = b := by
  cases x with
  | error e => cases done
  | ok a => exact ⟨a, rfl, Except.ok.inj done⟩

theorem Except.map_error {ε α β : Type} {x : Except ε α} {f : α → β} {e : ε}
    (failed : x.map f = .error e) : x = .error e := by
  cases x with
  | error e' =>
    cases failed
    rfl
  | ok a => cases failed

namespace CarrierTable

/-- Names and yarns are pairwise distinct, and the yarns are 32-bit numbers. -/
structure Numbered (t : CarrierTable) : Prop where
  names : (t.carriers.map (·.name)).Nodup
  yarns : (t.carriers.map (·.yarn)).Nodup
  fits : ∀ carrier ∈ t.carriers, carrier.yarn ≤ maxHalfWord

/-! ## Numbering -/

/-- There is no repeat exactly if the names are pairwise distinct and none was seen before. -/
theorem firstRepeat?_eq_none_iff {seen names : List Text} :
    firstRepeat? seen names = none ↔ names.Nodup ∧ ∀ name ∈ names, name ∉ seen := by
  induction names generalizing seen with
  | nil => simp [firstRepeat?]
  | cons name rest ih =>
    unfold firstRepeat?
    split
    · next there =>
      have there : name ∈ seen := by simpa using there
      simp [there]
    · next fresh =>
      have fresh : name ∉ seen := by simpa using fresh
      rw [ih, List.nodup_cons, List.forall_mem_cons]
      constructor
      · rintro ⟨distinct, others⟩
        exact ⟨⟨fun member => others name member (by simp), distinct⟩, fresh,
          fun other member there => others other member (List.mem_cons_of_mem name there)⟩
      · rintro ⟨⟨absent, distinct⟩, _, others⟩
        refine ⟨distinct, fun other member there => ?_⟩
        rcases List.mem_cons.1 there with rfl | there
        · exact absent member
        · exact others other member there

private theorem ownNumber?_le {name : Text} {yarn : Yarn} (own : ownNumber? name = some yarn) :
    yarn ≤ maxHalfWord := by
  unfold ownNumber? at own
  split at own
  · next fits =>
    cases own
    simp only [Bool.and_eq_true, decide_eq_true_eq] at fits
    exact fits.2
  · cases own

/-- There are as many own numbers as names, and they increase. -/
private theorem ownNumbers?_increasing {low : Nat} {names : List Text} {numbers : List Yarn}
    (own : ownNumbers? low names = some numbers) :
    numbers.length = names.length ∧ numbers.Pairwise (· < ·) ∧
      ∀ number ∈ numbers, low < number ∧ number ≤ maxHalfWord := by
  induction names generalizing low numbers with
  | nil =>
    cases own
    simp
  | cons name rest ih =>
    unfold ownNumbers? at own
    cases first : ownNumber? name with
    | none => simp [first] at own
    | some number =>
      simp only [first] at own
      split at own
      · next higher =>
        obtain ⟨others, read, rfl⟩ := Option.map_eq_some_iff.1 own
        obtain ⟨length, increasing, bounds⟩ := ih read
        refine ⟨by simp [length], List.pairwise_cons.2 ⟨fun n member => (bounds n member).1,
          increasing⟩, ?_⟩
        intro n member
        rcases List.mem_cons.1 member with rfl | member
        · exact ⟨higher, ownNumber?_le first⟩
        · have above := bounds n member
          exact ⟨by omega, above.2⟩
      · cases own

/-- The carriers have the names they were asked for, and no two of them have one name or one
yarn. -/
theorem distinct_ofNames {names : List Text} {t : CarrierTable} (made : ofNames names = .ok t) :
    t.carriers.map (·.name) = names ∧ names.Nodup ∧ (t.carriers.map (·.yarn)).Nodup := by
  unfold ofNames at made
  split at made
  · cases made
  · next none =>
    have distinct := (firstRepeat?_eq_none_iff.1 none).1
    split at made
    · next numbers own =>
      cases made
      obtain ⟨length, increasing, _⟩ := ownNumbers?_increasing own
      refine ⟨?_, distinct, ?_⟩
      · rw [List.map_zipWith]
        have zipped : (names.zip numbers).map Prod.fst = names :=
          List.map_fst_zip (Nat.le_of_eq length.symm)
        simpa [List.zip_eq_zipWith] using zipped
      · rw [List.map_zipWith]
        have zipped : (names.zip numbers).map Prod.snd = numbers :=
          List.map_snd_zip (Nat.le_of_eq length)
        have yarns : List.zipWith (fun _ yarn => yarn) names numbers = numbers := by
          simpa [List.zip_eq_zipWith] using zipped
        rw [yarns]
        exact increasing.imp Nat.ne_of_lt
    · cases made
      refine ⟨?_, distinct, ?_⟩
      · rw [List.map_map]
        exact List.zipIdx_map_fst 1 names
      · rw [List.map_map]
        show ((names.zipIdx 1).map Prod.snd).Nodup
        rw [List.zipIdx_map_snd]
        exact List.nodup_range'

/-- Own numbers fit, and so do places, as long as there are no more than a 32-bit number can
count. -/
private theorem yarn_le {names : List Text} {t : CarrierTable} (made : ofNames names = .ok t)
    (few : names.length ≤ maxHalfWord) : ∀ carrier ∈ t.carriers, carrier.yarn ≤ maxHalfWord := by
  unfold ofNames at made
  split at made
  · cases made
  · split at made
    · next numbers own =>
      cases made
      obtain ⟨length, _, bounds⟩ := ownNumbers?_increasing own
      intro carrier member
      rw [← List.map_uncurry_zip_eq_zipWith] at member
      obtain ⟨⟨name, number⟩, there, rfl⟩ := List.mem_map.1 member
      exact (bounds number (List.of_mem_zip there).2).2
    · cases made
      intro carrier member
      obtain ⟨⟨name, place⟩, there, rfl⟩ := List.mem_map.1 member
      have here : place ∈ List.range' 1 names.length :=
        List.zipIdx_map_snd 1 names ▸ List.mem_map_of_mem there
      exact Nat.le_trans (Nat.lt_one_add_iff.1 (List.mem_range'_1.1 here).2) few

/-- The carriers have the names they were asked for. They are well numbered, as long as no more than
a 32-bit number can count. -/
theorem numbered_ofNames {names : List Text} {t : CarrierTable} (made : ofNames names = .ok t)
    (few : names.length ≤ maxHalfWord) : t.carriers.map (·.name) = names ∧ t.Numbered := by
  obtain ⟨named, distinct, yarns⟩ := distinct_ofNames made
  exact ⟨named, named ▸ distinct, yarns, yarn_le made few⟩

/-! ## Looking up -/

theorem find?_eq_some {t : CarrierTable} {name : Text} {carrier : Carrier}
    (found : t.find? name = some carrier) : carrier ∈ t.carriers ∧ carrier.name = name :=
  ⟨List.mem_of_find?_eq_some found, by simpa using List.find?_some found⟩

theorem lookup_ok {t : CarrierTable} {name : Text} {carrier : Carrier}
    (found : t.lookup name = .ok carrier) : t.find? name = some carrier := by
  unfold lookup at found
  split at found
  · next carrier' here =>
    cases found
    exact here
  · cases found

/-- Carriers of one yarn are one carrier. -/
theorem Numbered.eq_of_yarn {t : CarrierTable} (numbered : t.Numbered) {a b : Carrier}
    (ha : a ∈ t.carriers) (hb : b ∈ t.carriers) (same : a.yarn = b.yarn) : a = b :=
  List.inj_on_of_nodup_map numbered.yarns ha hb same

private theorem resolveAfter_ok {t : CarrierTable} {seen names : List Text}
    {carriers : List Carrier} (resolved : t.resolveAfter seen names = .ok carriers) :
    names.map t.find? = carriers.map some ∧ names.Nodup ∧ ∀ name ∈ names, name ∉ seen := by
  induction names generalizing seen carriers with
  | nil =>
    cases resolved
    simp
  | cons name rest ih =>
    obtain ⟨carrier, found, resolved⟩ := Except.bind_ok resolved
    split at resolved
    · cases resolved
    · next fresh =>
      obtain ⟨others, read, done⟩ := Except.bind_ok resolved
      cases done
      obtain ⟨all, distinct, unseen⟩ := ih read
      refine ⟨by simp [lookup_ok found, all], List.nodup_cons.2 ⟨fun member =>
        unseen name member (by simp), distinct⟩, ?_⟩
      intro other member
      rcases List.mem_cons.1 member with rfl | member
      · simpa using fresh
      · exact fun there => unseen other member (List.mem_cons_of_mem name there)

/-- The carriers of an operation are the ones that its names stand for, in their order. -/
theorem resolve_ok {t : CarrierTable} {names : List Text} {carriers : List Carrier}
    (resolved : t.resolve names = .ok carriers) : names.map t.find? = carriers.map some :=
  (resolveAfter_ok resolved).1

/-- The carriers of an operation have its names, in their order. -/
theorem names_resolve {t : CarrierTable} {names : List Text} {carriers : List Carrier}
    (resolved : t.resolve names = .ok carriers) : names = carriers.map (·.name) := by
  have found := resolve_ok resolved
  clear resolved
  induction names generalizing carriers with
  | nil => rw [List.map_eq_nil_iff.1 found.symm, List.map_nil]
  | cons name rest ih =>
    obtain ⟨carrier, others, rfl, first, later⟩ := List.map_eq_cons_iff.1 found.symm
    rw [List.map_cons, ← ih later.symm, (find?_eq_some first.symm).2]

theorem nodup_of_resolve {t : CarrierTable} {names : List Text} {carriers : List Carrier}
    (resolved : t.resolve names = .ok carriers) : names.Nodup :=
  (resolveAfter_ok resolved).2.1

theorem resolve_eq_nil {t : CarrierTable} {names : List Text} {carriers : List Carrier}
    (resolved : t.resolve names = .ok carriers) : carriers = [] ↔ names = [] := by
  have length : names.length = carriers.length := by
    simpa using congrArg List.length (resolve_ok resolved)
  rw [← List.length_eq_zero_iff, ← length, List.length_eq_zero_iff]

theorem mem_of_resolve {t : CarrierTable} {names : List Text} {carriers : List Carrier}
    (resolved : t.resolve names = .ok carriers) {carrier : Carrier} (member : carrier ∈ carriers) :
    carrier ∈ t.carriers ∧ carrier.name ∈ names := by
  have here : some carrier ∈ names.map t.find? :=
    resolve_ok resolved ▸ List.mem_map_of_mem member
  obtain ⟨name, listed, found⟩ := List.mem_map.1 here
  obtain ⟨inside, rfl⟩ := find?_eq_some found
  exact ⟨inside, listed⟩

/-- Each carrier that is named is among the carriers of the operation. -/
theorem mem_resolve {t : CarrierTable} (numbered : t.Numbered) {names : List Text}
    {carriers : List Carrier} (resolved : t.resolve names = .ok carriers) {carrier : Carrier}
    (listed : carrier ∈ t.carriers) (named : carrier.name ∈ names) : carrier ∈ carriers := by
  have here : t.find? carrier.name ∈ carriers.map some :=
    resolve_ok resolved ▸ List.mem_map_of_mem named
  obtain ⟨other, member, found⟩ := List.mem_map.1 here
  obtain ⟨inside, same⟩ := find?_eq_some found.symm
  rwa [← List.inj_on_of_nodup_map numbered.names inside listed same]

/-- No yarn is listed twice. -/
theorem distinct_resolve {t : CarrierTable} (yarns : (t.carriers.map (·.yarn)).Nodup)
    {names : List Text} {carriers : List Carrier} (resolved : t.resolve names = .ok carriers) :
    (carriers.map (·.yarn)).Nodup := by
  have distinct : (names.map t.find?).Nodup := by
    refine List.Nodup.map_on ?_ (nodup_of_resolve resolved)
    intro a ha b hb same
    have here : t.find? a ∈ carriers.map some := resolve_ok resolved ▸ List.mem_map_of_mem ha
    obtain ⟨carrier, _, found⟩ := List.mem_map.1 here
    rw [← (find?_eq_some found.symm).2, (find?_eq_some (same ▸ found.symm)).2]
  rw [resolve_ok resolved] at distinct
  refine List.Nodup.map_on ?_ distinct.of_map
  exact fun a ha b hb same => List.inj_on_of_nodup_map yarns (mem_of_resolve resolved ha).1
    (mem_of_resolve resolved hb).1 same

theorem nodup_resolve {t : CarrierTable} (numbered : t.Numbered) {names : List Text}
    {carriers : List Carrier} (resolved : t.resolve names = .ok carriers) :
    (carriers.map (·.yarn)).Nodup :=
  distinct_resolve numbered.yarns resolved

end CarrierTable

/-! ## Names in a header -/

private theorem mem_of_after? {lead text rest : Text} (found : after? lead text = some rest)
    {c : Char} (member : c ∈ rest) : c ∈ text := by
  induction lead generalizing text with
  | nil =>
    cases found
    exact member
  | cons d lead ih =>
    cases text with
    | nil => cases found
    | cons e text =>
      simp only [after?, List.isPrefixOf?] at found
      split at found
      · exact List.mem_cons_of_mem e (ih found)
      · cases found

private theorem mem_of_cutAtColon? {text key value : Text}
    (cut : cutAtColon? text = some (key, value)) {c : Char} (member : c ∈ value) : c ∈ text := by
  fun_induction cutAtColon? text generalizing key with
  | case1 => cases cut
  | case2 rest =>
    cases cut
    exact List.mem_cons_of_mem _ (List.mem_cons_of_mem _ member)
  | case3 d rest other ih =>
    obtain ⟨⟨key', value'⟩, tail, same⟩ := Option.map_eq_some_iff.1 cut
    cases same
    exact List.mem_cons_of_mem _ (ih tail)

namespace Headers

/-- What holds of a draft before a block and is kept by warnings, keys and values of its lines holds
of the draft behind it. -/
theorem readBlock_keeps {P : Draft → Prop} {d d' : Draft} {number : Nat} {lines : List Text}
    {result : Except FatalError Nat} (read : readBlock d number lines = (d', result)) (holds : P d)
    (warn : ∀ d number message, P d → P (d.warn number message))
    (addKey : ∀ d number key, P d → P (d.addKey number key))
    (setValue : ∀ d next number line key value, line ∈ lines →
      BlockLine.ofText line = .entry key value → d.setValue number key value = .ok next →
        P d → P next) : P d' := by
  induction lines generalizing d number with
  | nil =>
    cases read
    exact holds
  | cons line rest ih =>
    unfold readBlock at read
    split at read
    · cases read
      exact holds
    · cases read
      exact warn _ _ _ holds
    · next key value entry =>
      have known := addKey d number key holds
      simp only at read
      split at read
      · cases read
        exact known
      · next next set =>
        refine ih read (setValue _ _ number line key value (by simp) entry set known) ?_
        exact fun d next number line key value member =>
          setValue d next number line key value (List.mem_cons_of_mem _ member)

theorem Draft.carriers_addKey (d : Draft) (line : Nat) (key : Text) :
    (d.addKey line key).carriers = d.carriers := by
  unfold addKey
  split <;> rfl

/-- The names of a draft hold no line feed. -/
def Draft.OneLine (d : Draft) : Prop :=
  ∀ names, d.carriers = some names → ∀ name ∈ names, '\n' ∉ name

private theorem Draft.oneLine_setValue {d d' : Draft} {line : Nat} {key value : Text}
    (set : d.setValue line key value = .ok d') (oneLine : d.OneLine) (whole : '\n' ∉ value) :
    d'.OneLine := by
  unfold setValue at set
  split at set
  · obtain ⟨t, _, rfl⟩ := Except.map_ok set
    intro names same name member newline
    cases same
    exact whole (mem_of_mem_splitOn (List.mem_of_mem_filter member) newline)
  · split at set
    · split at set
      · cases set
        exact oneLine
      · cases set
    · split at set <;> (cases set; exact oneLine)

private theorem newline_not_mem_value {line key value : Text}
    (entry : BlockLine.ofText line = .entry key value) (whole : '\n' ∉ line) : '\n' ∉ value := by
  intro newline
  unfold BlockLine.ofText at entry
  split at entry
  · cases entry
  · next tail found =>
    split at entry
    · next cut =>
      cases entry
      exact whole (mem_of_after? found (mem_of_cutAtColon? cut newline))
    · cases entry

private theorem oneLine_readBlock {d d' : Draft} {number : Nat} {lines : List Text}
    {result : Except FatalError Nat} (read : readBlock d number lines = (d', result))
    (oneLine : d.OneLine) (whole : ∀ line ∈ lines, '\n' ∉ line) : d'.OneLine := by
  refine readBlock_keeps read oneLine (fun _ _ _ before => before) ?_ ?_
  · intro d number key before
    rwa [Draft.OneLine, d.carriers_addKey]
  · intro d next number line key value member entry set before
    exact Draft.oneLine_setValue set before (newline_not_mem_value entry (whole line member))

/-- The header of a document names no carrier over the end of a line. -/
theorem newline_not_mem_carriers {source : Text} {block : HeaderBlock}
    (read : ofLines (lines source) = .ok block) :
    ∀ name ∈ block.headers.carriers, '\n' ∉ name := by
  have whole : ∀ line ∈ lines source, '\n' ∉ line := fun line => newline_not_mem_lines
  unfold ofLines scan at read
  split at read
  · cases read
  · next magic rest split =>
    rw [split] at whole
    split at read
    · cases read
    · next version _ =>
      have start : (versionDraft version).OneLine := by
        intro names none
        unfold versionDraft at none
        split at none <;> cases none
      cases block' : readBlock (versionDraft version) 2 rest with
      | mk d result =>
        have oneLine := oneLine_readBlock block' start
          fun line member => whole line (List.mem_cons_of_mem magic member)
        simp only [block'] at read
        split at read
        · cases read
        · split at read
          · cases read
          · next carriers named =>
            cases read
            exact oneLine carriers named

end Headers

end Knitout
