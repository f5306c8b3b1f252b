import SharedMind.Kernel.Reducers

/-!
# Contradicting claims and their conflicts

* `openConflict?_eq_some`, `resolvedConflict?_eq_some`: the conflict a contradiction
  merges into or reopens.
* `mem_contradicting`: the claims an incoming one contradicts.
* `conflictKind_symm`: contradiction is symmetric.
* `Registry.FamiliesNamePredicate.eq`: claims of one family have one predicate.
-/

namespace SharedMind

open Py

/-! ### The conflict of a family and kind -/

theorem latest_concat (rows : List (RecordId × ConflictRow)) (c : RecordId × ConflictRow) :
    latest (rows ++ [c]) = match latest rows with
      | none => some c
      | some b => if b.2.episode < c.2.episode then some c else some b := by
  rw [latest, List.foldl_append]
  rfl

theorem latest_mem {rows : List (RecordId × ConflictRow)} {c : RecordId × ConflictRow}
    (h : latest rows = some c) : c ∈ rows := by
  induction rows using List.reverseRecOn with
  | nil => exact nomatch h
  | append_singleton rows a ih =>
    rw [latest_concat] at h
    cases hl : latest rows with
    | none =>
      rw [hl] at h
      cases h
      simp
    | some b =>
      rw [hl] at h
      simp only at h
      split at h
      · cases h
        simp
      · cases h
        exact List.mem_append_left _ (ih hl)

theorem latest_eq_none {rows : List (RecordId × ConflictRow)} : latest rows = none ↔ rows = [] := by
  induction rows using List.reverseRecOn with
  | nil => simp [latest]
  | append_singleton rows a ih =>
    rw [latest_concat]
    cases latest rows with
    | none => simp
    | some b => simp only; split <;> simp

section

variable {t : Tables} {family : Hash} {kind : ConflictKind} {c : RecordId × ConflictRow}

theorem openConflict?_eq_some (h : openConflict? t family kind = some c) :
    t.conflicts[c.1]? = some c.2 ∧ c.2.familyKey = family ∧ c.2.kind = kind ∧ c.2.status = .open := by
  have hprop := List.find?_some h
  have hmem := List.mem_of_find?_eq_some h
  simp only [decide_eq_true_eq] at hprop
  exact ⟨Table.mem_toList.mp hmem, hprop⟩

theorem openConflict?_eq_none : openConflict? t family kind = none ↔
    ∀ (id : RecordId) (row : ConflictRow), t.conflicts[id]? = some row → row.familyKey = family →
      row.kind = kind → row.status ≠ .open := by
  rw [openConflict?, List.find?_eq_none]
  constructor
  · intro h id row hrow hf hk hs
    exact h (id, row) (Table.mem_toList.mpr hrow) (by simp [hf, hk, hs])
  · rintro h ⟨id, row⟩ hmem hprop
    simp only [decide_eq_true_eq] at hprop
    exact h id row (Table.mem_toList.mp hmem) hprop.1 hprop.2.1 hprop.2.2

theorem resolvedConflict?_eq_some (h : resolvedConflict? t family kind = some c) :
    t.conflicts[c.1]? = some c.2 ∧ c.2.familyKey = family ∧ c.2.kind = kind ∧
      c.2.status = .resolved := by
  have hmem := latest_mem h
  rw [List.mem_filter] at hmem
  simp only [decide_eq_true_eq] at hmem
  exact ⟨Table.mem_toList.mp hmem.1, hmem.2⟩

theorem resolvedConflict?_eq_none : resolvedConflict? t family kind = none ↔
    ∀ (id : RecordId) (row : ConflictRow), t.conflicts[id]? = some row → row.familyKey = family →
      row.kind = kind → row.status ≠ .resolved := by
  rw [resolvedConflict?, latest_eq_none, List.filter_eq_nil_iff]
  constructor
  · intro h id row hrow hf hk hs
    exact h (id, row) (Table.mem_toList.mpr hrow) (by simp [hf, hk, hs])
  · rintro h ⟨id, row⟩ hmem hprop
    simp only [decide_eq_true_eq] at hprop
    exact h id row (Table.mem_toList.mp hmem) hprop.1 hprop.2.1 hprop.2.2

/-- A conflict is open or resolved. -/
theorem not_conflict_of_none (ho : openConflict? t family kind = none)
    (hr : resolvedConflict? t family kind = none) (id : RecordId) (row : ConflictRow)
    (hrow : t.conflicts[id]? = some row) : ¬(row.familyKey = family ∧ row.kind = kind) := by
  rintro ⟨hf, hk⟩
  cases hs : row.status with
  | «open» => exact openConflict?_eq_none.mp ho id row hrow hf hk hs
  | resolved => exact resolvedConflict?_eq_none.mp hr id row hrow hf hk hs

end

/-! ### What a contradiction leaves behind -/

/-- No two conflicts have one family and kind. -/
def Tables.OneConflictEach (t : Tables) : Prop :=
  ∀ (id id' : RecordId) (row row' : ConflictRow), t.conflicts[id]? = some row →
    t.conflicts[id']? = some row' → row.familyKey = row'.familyKey → row.kind = row'.kind → id = id'

/-- What a contradiction of `members` makes of the conflict of its family and kind. -/
structure Contradicted (t : Tables) (family : Hash) (kind : ConflictKind) (members : List RecordId)
    (c : RecordId × ConflictRow) : Prop where
  family_eq : c.2.familyKey = family
  kind_eq : c.2.kind = kind
  status_eq : c.2.status = .open
  digest_eq : c.2.memberDigest = membersDigest c.2.members
  sorted : c.2.members.Pairwise (· < ·)
  covers : members ⊆ c.2.members
  only : ∀ (id : RecordId) (row : ConflictRow), t.conflicts[id]? = some row →
    row.familyKey = family → row.kind = kind → id = c.1
  old : ∀ row, t.conflicts[c.1]? = some row → row.familyKey = family ∧ row.kind = kind ∧
    c.2.version = row.version + 1 ∧
    (row.status = .open ∧ c.2.episode = row.episode ∧ c.2.resolution = row.resolution ∧
        row.members ⊆ c.2.members ∧ (∀ m ∈ c.2.members, m ∈ row.members ∨ m ∈ members) ∨
      row.status = .resolved ∧ c.2.episode = row.episode + 1 ∧ c.2.resolution = none ∧
        ∀ m ∈ c.2.members, m ∈ members)
  new : t.conflicts[c.1]? = none → c.1 = conflictIdOf (sortedSet members) ∧
    c.2.members = sortedSet members ∧ c.2.episode = 1 ∧ c.2.version = 1 ∧ c.2.resolution = none

section

variable {t : Tables} {family : Hash} {kind : ConflictKind} {members : List RecordId}
  {openedSeq : Nat} {c : RecordId × ConflictRow}

theorem conflictRowFor_contradicted (h : conflictRowFor t family kind members openedSeq = .ok c)
    (hone : t.OneConflictEach) : Contradicted t family kind members c := by
  rcases conflictRowFor_eq_ok.mp h with ⟨b, hb, rfl⟩ | ⟨_, b, hb, rfl⟩ | ⟨ho, hr, hid, rfl⟩
  · obtain ⟨hrow, hf, hk, hs⟩ := openConflict?_eq_some hb
    refine ⟨hf, hk, hs, rfl, sortedSet_sorted _, ?_, ?_, ?_, ?_⟩
    · intro m hm
      simp [ConflictRow.merge, hm]
    · intro id row hrow' hf' hk'
      exact hone _ _ _ _ hrow' hrow (hf'.trans hf.symm) (hk'.trans hk.symm)
    · intro row hrow'
      rw [hrow] at hrow'
      cases hrow'
      refine ⟨hf, hk, rfl, Or.inl ⟨hs, rfl, rfl, fun m hm => ?_, fun m hm => ?_⟩⟩
      · simp [ConflictRow.merge, hm]
      · simpa [ConflictRow.merge] using hm
    · intro hnone
      rw [hrow] at hnone
      exact nomatch hnone
  · obtain ⟨hrow, hf, hk, hs⟩ := resolvedConflict?_eq_some hb
    refine ⟨hf, hk, rfl, rfl, sortedSet_sorted _, ?_, ?_, ?_, ?_⟩
    · intro m hm
      simp [ConflictRow.reopen, hm]
    · intro id row hrow' hf' hk'
      exact hone _ _ _ _ hrow' hrow (hf'.trans hf.symm) (hk'.trans hk.symm)
    · intro row hrow'
      rw [hrow] at hrow'
      cases hrow'
      exact ⟨hf, hk, rfl, Or.inr ⟨hs, rfl, rfl, fun m hm => by simpa [ConflictRow.reopen] using hm⟩⟩
    · intro hnone
      rw [hrow] at hnone
      exact nomatch hnone
  · refine ⟨rfl, rfl, rfl, rfl, sortedSet_sorted _, ?_, ?_, ?_, ?_⟩
    · intro m hm
      simp [ConflictRow.new, hm]
    · intro id row hrow hf hk
      exact absurd ⟨hf, hk⟩ (not_conflict_of_none ho hr id row hrow)
    · intro row hrow
      rw [hid] at hrow
      exact nomatch hrow
    · exact fun _ => ⟨rfl, rfl, rfl, rfl, rfl⟩

/-- It is the only one of its family and kind. -/
theorem Contradicted.one (hc : Contradicted t family kind members c) (hone : t.OneConflictEach) :
    Tables.OneConflictEach { t with conflicts := t.conflicts.insert c.1 c.2 } := by
  intro id id' row row' hrow hrow' hf hk
  rw [Table.get_insert] at hrow hrow'
  split at hrow <;> split at hrow'
  · next h1 h2 => rw [h1, h2]
  · next h1 h2 =>
    cases hrow
    exact absurd (hc.only id' row' hrow' (hf ▸ hc.family_eq) (hk ▸ hc.kind_eq)) h2
  · next h1 h2 =>
    cases hrow'
    exact absurd (hc.only id row hrow (hf ▸ hc.family_eq) (hk ▸ hc.kind_eq)) h1
  · exact hone id id' row row' hrow hrow' hf hk

end

/-! ### Families -/

theorem predicate?_mem {reg : Registry} {key : PredicateKey} {p : PredicateDefinition}
    (h : reg.predicate? key = some p) : p ∈ reg.predicates.1 ∧ p.key = key := by
  rw [Registry.predicate?, List.findRev?_eq_find?_reverse] at h
  exact ⟨List.mem_reverse.mp (List.mem_of_find?_eq_some h), by simpa using List.find?_some h⟩

theorem getPath_predicate (a : Proposition) :
    getPath (Proposition.codec.enc a) "predicate" = .str (a.predicate : String) := rfl

/-- Equal family values name one predicate. -/
theorem Registry.FamiliesNamePredicate.eq {reg : Registry} (h : reg.FamiliesNamePredicate)
    {p : PredicateDefinition} (hp : p ∈ reg.predicates.1) {a b : Proposition}
    (hvalues : familyValues a p = familyValues b p) : a.predicate = b.predicate := by
  obtain ⟨f, hf, hname⟩ := h p hp
  have hpath := List.map_inj_left.mp (JsonOf.arr.inj hvalues) f
    (by simpa using ⟨f, hf, rfl⟩)
  rw [hname, getPath_predicate, getPath_predicate] at hpath
  exact Text.ext (JsonOf.str.inj hpath)

/-- The values whose hashes are the families of stored claims. -/
def familyInputs (reg : Registry) (t : Tables) : Set Json :=
  {v | ∃ (id : RecordId) (row : ClaimRow) (p : PredicateDefinition), t.claims[id]? = some row ∧
    p ∈ reg.predicates.1 ∧ v = familyValues row.proposition p}

/-! ### Contradiction -/

theorem ObjectValue.pyEq_comm (a b : ObjectValue) : a.pyEq b = b.pyEq a := JsonOf.pyEq_comm _ _

section

variable [Host] {a b : Proposition} {predicate : PredicateDefinition} {kind : ConflictKind}

theorem overlaps_comm (left right : ValidTime) {r : Bool} (h : overlaps left right = .ok r) :
    overlaps right left = .ok r := by
  simp only [overlaps, bind_eq_ok, pure_eq_ok] at h ⊢
  obtain ⟨ls, hls, rs, hrs, le, hle, re, hre, h⟩ := h
  exact ⟨rs, hrs, ls, hls, re, hre, le, hle, by rw [max_comm, min_comm]; exact h⟩

/-- What two propositions must differ in, for a kind of contradiction. -/
def Contradict (a b : Proposition) (predicate : PredicateDefinition) : ConflictKind → Prop
  | .polarityConflict => .oppositePolarity ∈ predicate.rules ∧ a.object.pyEq b.object = true ∧
      a.polarity ≠ b.polarity
  | .exclusiveValueConflict => .exclusiveObject ∈ predicate.rules ∧ predicate.cardinality = .one ∧
      a.polarity = .positive ∧ b.polarity = .positive ∧ a.object.pyEq b.object = false
  | .temporalOverlapConflict => False

theorem conflictKind_eq_some : conflictKind a b predicate = .ok (some kind) ↔
    (.temporalOverlap ∈ predicate.rules → overlaps a.validTime b.validTime = .ok true) ∧
      Contradict a b predicate kind := by
  have hkind : (if .oppositePolarity ∈ predicate.rules ∧ a.object.pyEq b.object = true ∧
        a.polarity ≠ b.polarity then some ConflictKind.polarityConflict
      else if .exclusiveObject ∈ predicate.rules ∧ predicate.cardinality = .one ∧
        a.polarity = .positive ∧ b.polarity = .positive ∧ a.object.pyEq b.object = false then
        some .exclusiveValueConflict
      else none) = some kind ↔ Contradict a b predicate kind := by
    cases kind <;> simp only [Contradict] <;> split_ifs <;> simp_all
  rw [← hkind]
  unfold conflictKind
  by_cases hrule : .temporalOverlap ∈ predicate.rules
  · rw [if_pos hrule]
    cases hov : overlaps a.validTime b.validTime with
    | error e => simp [hrule]
    | ok r => cases r <;> simp [hrule]; split_ifs <;> simp
  · rw [if_neg hrule]
    simp [hrule]
    split_ifs <;> simp

omit [Host] in
theorem Contradict.symm (h : Contradict a b predicate kind) : Contradict b a predicate kind := by
  cases kind with
  | temporalOverlapConflict => exact h
  | polarityConflict => exact ⟨h.1, by rw [ObjectValue.pyEq_comm]; exact h.2.1, h.2.2.symm⟩
  | exclusiveValueConflict =>
    obtain ⟨hrule, hone, ha, hb, hne⟩ := h
    exact ⟨hrule, hone, hb, ha, by rw [ObjectValue.pyEq_comm]; exact hne⟩

theorem conflictKind_symm (h : conflictKind a b predicate = .ok (some kind)) :
    conflictKind b a predicate = .ok (some kind) := by
  obtain ⟨hoverlap, hdiffer⟩ := conflictKind_eq_some.mp h
  exact conflictKind_eq_some.mpr ⟨fun hrule => overlaps_comm _ _ (hoverlap hrule), hdiffer.symm⟩

end

/-! ### The claims an incoming one contradicts -/

/-- A loop that collects what it finds in the items it looks at. -/
def collect {α β γ ε : Type} (looks : α → Prop) [DecidablePred looks] (find : α → Except ε (Option β))
    (entry : α → β → γ) (items : List α) (init : List γ) : Except ε (List γ) :=
  items.foldlM (fun found c =>
    if looks c then do
      match ← find c with
      | some k => return found ++ [entry c k]
      | none => return found
    else pure found) init

section

variable {α β γ ε : Type} {looks : α → Prop} [DecidablePred looks] {find : α → Except ε (Option β)}
  {entry : α → β → γ} {items : List α} {init found : List γ}

theorem collect_cons {a : α} : collect looks find entry (a :: items) init = .ok found ↔
    looks a ∧ (∃ k, find a = .ok (some k) ∧
        collect looks find entry items (init ++ [entry a k]) = .ok found) ∨
      (looks a → find a = .ok none) ∧ collect looks find entry items init = .ok found := by
  rw [collect, List.foldlM_cons]
  by_cases ha : looks a
  · rw [if_pos ha]
    cases hf : find a with
    | error e => simp [ha]
    | ok r => cases r <;> simp [ha, collect]
  · rw [if_neg ha]
    simp [ha, collect]

/-- It succeeds when nothing it looks at raises. -/
theorem exists_collect (h : ∀ c ∈ items, looks c → ∃ r, find c = .ok r) (init : List γ) :
    ∃ found, collect looks find entry items init = .ok found := by
  induction items generalizing init with
  | nil => exact ⟨init, rfl⟩
  | cons a items ih =>
    obtain ⟨ha, hitems⟩ := List.forall_mem_cons.mp h
    by_cases hlooks : looks a
    · obtain ⟨r, hr⟩ := ha hlooks
      cases r with
      | none =>
        obtain ⟨found, hfound⟩ := ih hitems init
        exact ⟨found, collect_cons.mpr (Or.inr ⟨fun _ => hr, hfound⟩)⟩
      | some k =>
        obtain ⟨found, hfound⟩ := ih hitems (init ++ [entry a k])
        exact ⟨found, collect_cons.mpr (Or.inl ⟨hlooks, k, hr, hfound⟩)⟩
    · obtain ⟨found, hfound⟩ := ih hitems init
      exact ⟨found, collect_cons.mpr (Or.inr ⟨fun h => absurd h hlooks, hfound⟩)⟩

/-- What it has found. -/
theorem collect_spec (h : collect looks find entry items init = .ok found) :
    (∀ c ∈ items, looks c → ∃ r, find c = .ok r) ∧
    ∀ x, x ∈ found ↔ x ∈ init ∨ ∃ c ∈ items, looks c ∧ ∃ k, find c = .ok (some k) ∧ entry c k = x := by
  induction items generalizing init with
  | nil =>
    cases h
    simp
  | cons a items ih =>
    rcases collect_cons.mp h with ⟨ha, k, hk, h⟩ | ⟨ha, h⟩
    · obtain ⟨hall, hmem⟩ := ih h
      refine ⟨List.forall_mem_cons.mpr ⟨fun _ => ⟨_, hk⟩, hall⟩, fun x => ?_⟩
      rw [hmem, List.mem_append, List.mem_singleton, List.exists_mem_cons_iff, or_assoc]
      refine or_congr_right (or_congr_left ⟨?_, ?_⟩)
      · rintro rfl
        exact ⟨ha, k, hk, rfl⟩
      · rintro ⟨_, k', hk', rfl⟩
        rw [hk] at hk'
        cases hk'
        rfl
    · obtain ⟨hall, hmem⟩ := ih h
      refine ⟨List.forall_mem_cons.mpr ⟨fun hl => ⟨_, ha hl⟩, hall⟩, fun x => ?_⟩
      rw [hmem, List.exists_mem_cons_iff]
      refine or_congr_right ⟨Or.inr, fun h => h.resolve_left ?_⟩
      rintro ⟨hl, k, hk, _⟩
      rw [ha hl] at hk
      exact nomatch hk

end

section

variable [Host] {t : Tables} {incoming : Claim} {predicate : PredicateDefinition}
  {ignored : List RecordId} {found : List (RecordId × ConflictKind)} {kind : ConflictKind}

theorem contradicting_eq_collect : contradicting t incoming predicate ignored =
    collect (fun c => c.2.status = .active ∧ c.1 ≠ incoming.claimId ∧ c.1 ∉ ignored ∧
        familyKey c.2.proposition predicate = familyKey incoming.proposition predicate)
      (fun c => conflictKind incoming.proposition c.2.proposition predicate)
      (fun c kind => (c.1, kind)) t.claims.toList [] := by
  unfold contradicting collect
  congr 1
  funext found c
  congr 1
  dsimp only
  cases conflictKind incoming.proposition c.2.proposition predicate with
  | error => rfl
  | ok kind => cases kind <;> rfl

/-- No comparison has raised. -/
theorem conflictKind_of_contradicting (h : contradicting t incoming predicate ignored = .ok found)
    {id : RecordId} {row : ClaimRow} (hrow : t.claims[id]? = some row) (hactive : row.status = .active)
    (hne : id ≠ incoming.claimId) (hignored : id ∉ ignored)
    (hfamily : familyKey row.proposition predicate = familyKey incoming.proposition predicate) :
    ∃ r, conflictKind incoming.proposition row.proposition predicate = .ok r := by
  rw [contradicting_eq_collect] at h
  exact (collect_spec h).1 (id, row) (Table.mem_toList.mpr hrow) ⟨hactive, hne, hignored, hfamily⟩

theorem mem_contradicting (h : contradicting t incoming predicate ignored = .ok found)
    (id : RecordId) : (id, kind) ∈ found ↔ ∃ row, t.claims[id]? = some row ∧
      row.status = .active ∧ id ≠ incoming.claimId ∧ id ∉ ignored ∧
      familyKey row.proposition predicate = familyKey incoming.proposition predicate ∧
      conflictKind incoming.proposition row.proposition predicate = .ok (some kind) := by
  rw [contradicting_eq_collect] at h
  rw [(collect_spec h).2]
  constructor
  · rintro (h | ⟨⟨id', row⟩, hmem, ⟨h1, h2, h3, h4⟩, k, hk, hentry⟩)
    · exact absurd h List.not_mem_nil
    · cases hentry
      exact ⟨row, Table.mem_toList.mp hmem, h1, h2, h3, h4, hk⟩
  · rintro ⟨row, hrow, h1, h2, h3, h4, hk⟩
    exact Or.inr ⟨(id, row), Table.mem_toList.mpr hrow, ⟨h1, h2, h3, h4⟩, kind, hk, rfl⟩

end

end SharedMind
