import SharedMind.Law.ConflictTable

/-!
# No silent contradiction

Two active claims of one family that contradict each other have a conflict.

* `Seen`: the conflict is open and has both, or a resolution covered an episode that did.
* `Noticed`: every contradiction of active claims has been seen.
* `no_silent_contradiction`: the law over every interleaving.
-/

namespace SharedMind

open Py

/-! ### Contradictions and what the ledger knows of them -/

/-- Two active claims of one predicate and one family that contradict each other. -/
def Contradicting [Host] (reg : Registry) (t : Tables) (family : Hash) (kind : ConflictKind)
    (a b : RecordId) : Prop :=
  a ≠ b ∧ ∃ (ca cb : ClaimRow) (predicate : PredicateDefinition), t.claims[a]? = some ca ∧
    t.claims[b]? = some cb ∧ ca.status = .active ∧ cb.status = .active ∧
    cb.proposition.predicate = ca.proposition.predicate ∧
    reg.predicate? ca.proposition.predicate = some predicate ∧
    familyKey ca.proposition predicate = family ∧ familyKey cb.proposition predicate = family ∧
    conflictKind ca.proposition cb.proposition predicate = .ok (some kind)

/-- A resolution of the conflict covered an episode that had both claims. -/
def Covered (events : List LedgerEvent) (id a b : RecordId) : Prop :=
  ∃ (c : ConflictDoc) (episode : Nat) (resolution : Resolution),
    [.conflictOpened c, .conflictResolved id resolution].Sublist events ∧
    c.conflictId = id ∧ a ∈ c.memberClaimIds ∧ b ∈ c.memberClaimIds ∧
    sortedSet (resolution.selectedClaimIds.1 ++ resolution.rejectedClaimIds.1) =
      c.memberClaimIds ∧
    c.episode = .int episode ∧ resolution.resolutionEpoch.eqInt episode = true

/-- There is a conflict of the family and kind that is open and has both claims, or of which
a resolution covered both. -/
def Seen (t : Tables) (events : List LedgerEvent) (family : Hash) (kind : ConflictKind)
    (a b : RecordId) : Prop :=
  ∃ (id : RecordId) (row : ConflictRow), t.conflicts[id]? = some row ∧ row.familyKey = family ∧
    row.kind = kind ∧
    (row.status = .open ∧ a ∈ row.members ∧ b ∈ row.members ∨ Covered events id a b)

/-- The ledger holds the last document of every open conflict. -/
def OpenLogged (t : Tables) (events : List LedgerEvent) : Prop :=
  ∀ (id : RecordId) (row : ConflictRow), t.conflicts[id]? = some row → row.status = .open →
    .conflictOpened (conflictDocument id row) ∈ events

section

variable {t t' : Tables} {events es : List LedgerEvent} {family : Hash} {kind : ConflictKind}
  {id a b : RecordId}

theorem Covered.symm (h : Covered events id a b) : Covered events id b a := by
  obtain ⟨c, n, r, hsub, hid, ha, hb, h⟩ := h
  exact ⟨c, n, r, hsub, hid, hb, ha, h⟩

theorem Covered.append (h : Covered events id a b) (es : List LedgerEvent) :
    Covered (events ++ es) id a b := by
  obtain ⟨c, n, r, hsub, h⟩ := h
  exact ⟨c, n, r, hsub.trans (List.sublist_append_left _ _), h⟩

theorem Seen.symm (h : Seen t events family kind a b) : Seen t events family kind b a := by
  obtain ⟨id, row, hrow, hf, hk, h⟩ := h
  exact ⟨id, row, hrow, hf, hk, h.imp (fun ⟨hs, ha, hb⟩ => ⟨hs, hb, ha⟩) Covered.symm⟩

theorem Seen.keep (h : Seen t events family kind a b) (hc : t'.conflicts = t.conflicts) :
    Seen t' (events ++ es) family kind a b := by
  obtain ⟨id, row, hrow, hf, hk, h⟩ := h
  exact ⟨id, row, hc ▸ hrow, hf, hk, h.imp_right fun h => h.append es⟩

theorem OpenLogged.keep (h : OpenLogged t events) (hc : t'.conflicts = t.conflicts) :
    OpenLogged t' (events ++ es) :=
  fun id row hrow hs => List.mem_append_left _ (h id row (hc ▸ hrow) hs)

theorem Contradicting.symm [Host] {reg : Registry} (h : Contradicting reg t family kind a b) :
    Contradicting reg t family kind b a := by
  obtain ⟨hne, ca, cb, p, ha, hb, hsa, hsb, hpred, hp, hfa, hfb, hk⟩ := h
  exact ⟨hne.symm, cb, ca, p, hb, ha, hsb, hsa, hpred.symm, by rw [hpred]; exact hp, hfb, hfa,
    conflictKind_symm hk⟩

/-! ### Conflicts that are opened and resolved -/

variable {members : List RecordId} {c : RecordId × ConflictRow}

/-- A contradiction hides no other. -/
theorem Seen.insert (hc : Contradicted t family kind members c) {family' : Hash}
    {kind' : ConflictKind} (h : Seen t events family' kind' a b) :
    Seen { t with conflicts := t.conflicts.insert c.1 c.2 }
      (events ++ [.conflictOpened (conflictDocument c.1 c.2)]) family' kind' a b := by
  obtain ⟨id, row, hrow, hf, hk, hseen⟩ := h
  by_cases hid : id = c.1
  · subst hid
    obtain ⟨hf', hk', _, hcase⟩ := hc.old row hrow
    refine ⟨c.1, c.2, by rw [Table.get_insert, if_pos rfl], ?_, ?_, ?_⟩
    · rw [hc.family_eq, ← hf', hf]
    · rw [hc.kind_eq, ← hk', hk]
    · rcases hseen with ⟨hs, ha, hb⟩ | hcovered
      · rcases hcase with ⟨_, _, _, hsub, _⟩ | ⟨hs', _⟩
        · exact Or.inl ⟨hc.status_eq, hsub ha, hsub hb⟩
        · rw [hs] at hs'
          exact nomatch hs'
      · exact Or.inr (hcovered.append _)
  · exact ⟨id, row, by rw [Table.get_insert, if_neg hid, hrow], hf, hk,
      hseen.imp_right fun h => h.append _⟩

/-- The claims that were found to contradict are seen. -/
theorem Contradicted.seen (hc : Contradicted t family kind members c) (ha : a ∈ members)
    (hb : b ∈ members) : Seen { t with conflicts := t.conflicts.insert c.1 c.2 }
      (events ++ [.conflictOpened (conflictDocument c.1 c.2)]) family kind a b :=
  ⟨c.1, c.2, by rw [Table.get_insert, if_pos rfl], hc.family_eq, hc.kind_eq,
    Or.inl ⟨hc.status_eq, hc.covers ha, hc.covers hb⟩⟩

theorem OpenLogged.insert (h : OpenLogged t events) :
    OpenLogged { t with conflicts := t.conflicts.insert c.1 c.2 }
      (events ++ [.conflictOpened (conflictDocument c.1 c.2)]) := by
  intro id row hrow hs
  rw [Table.get_insert] at hrow
  split at hrow
  · next hid =>
    cases hrow
    rw [hid]
    simp
  · exact List.mem_append_left _ (h id row hrow hs)

variable {proposer : ActorRef} {op : ResolveConflict} {row : ConflictRow}

/-- A resolution covers the claims of the open conflict. -/
theorem Seen.resolve (hI : ConflictTable reg t events) (hlogged : OpenLogged t events)
    (hrow : t.conflicts[op.conflictId]? = some row) (hres : Resolves t proposer op row)
    (h : Seen t events family kind a b) :
    Seen { t with conflicts := t.conflicts.modify op.conflictId fun r => r.resolve op.resolution }
      (events ++ [.conflictResolved op.conflictId op.resolution]) family kind a b := by
  obtain ⟨id, r, hr, hf, hk, hseen⟩ := h
  by_cases hid : id = op.conflictId
  · subst hid
    rw [hrow] at hr
    cases hr
    refine ⟨op.conflictId, row.resolve op.resolution, ?_, hf, hk, Or.inr ?_⟩
    · rw [Table.get_modify, if_pos rfl, hrow]
      rfl
    · rcases hseen with ⟨hs, ha, hb⟩ | hcovered
      · refine ⟨conflictDocument op.conflictId row, row.episode, op.resolution, ?_, rfl, ha, hb, ?_,
          rfl, hres.epoch⟩
        · exact List.Sublist.append (List.singleton_sublist.mpr (hlogged _ row hrow hs))
            (List.Sublist.refl [LedgerEvent.conflictResolved op.conflictId op.resolution])
        · rw [hres.covers]
          exact sortedSet_of_sorted (hI.sound _ row hrow).sorted
      · exact hcovered.append _
  · exact ⟨id, r, by rw [Table.get_modify, if_neg hid, hr], hf, hk,
      hseen.imp_right fun h => h.append _⟩

theorem OpenLogged.resolve (h : OpenLogged t events) :
    OpenLogged
      { t with conflicts := t.conflicts.modify op.conflictId fun r => r.resolve op.resolution }
      (events ++ [.conflictResolved op.conflictId op.resolution]) := by
  intro id r hr hs
  rw [Table.get_modify] at hr
  split at hr
  · obtain ⟨old, _, rfl⟩ := Option.map_eq_some_iff.mp hr
    exact nomatch hs
  · exact List.mem_append_left _ (h id r hr hs)

end

/-! ### The invariant -/

/-- Every contradiction of active claims, except those of the ignored ones, has been seen. -/
structure Noticed [Host] (reg : Registry) (t : Tables) (events : List LedgerEvent)
    (ignored : List RecordId) : Prop where
  table : ConflictTable reg t events
  logged : OpenLogged t events
  seen : ∀ (family : Hash) (kind : ConflictKind) (a b : RecordId), a ∉ ignored → b ∉ ignored →
    Contradicting reg t family kind a b → Seen t events family kind a b

/-- What is active in `t` was active in `s`, with the same proposition. -/
def ActiveFrom (s t : Tables) : Prop :=
  ∀ (id : RecordId) (row : ClaimRow), t.claims[id]? = some row → row.status = .active →
    ∃ row', s.claims[id]? = some row' ∧ row'.status = .active ∧ row'.proposition = row.proposition

theorem ActiveFrom.of_eq {s t : Tables} (h : t.claims = s.claims) : ActiveFrom s t :=
  fun _ row hrow hs => ⟨row, h ▸ hrow, hs, rfl⟩

/-- A claim that changes, and is active afterwards only if it was before. -/
theorem ActiveFrom.modify {t : Tables} {id : RecordId} {f : ClaimRow → ClaimRow}
    (hf : ∀ row, (f row).status = .active → row.status = .active ∧
      row.proposition = (f row).proposition) :
    ActiveFrom t { t with claims := t.claims.modify id f } := by
  intro id' row hrow hs
  rw [Table.get_modify] at hrow
  split at hrow
  · obtain ⟨old, hold, rfl⟩ := Option.map_eq_some_iff.mp hrow
    exact ⟨old, hold, hf old hs⟩
  · exact ⟨row, hrow, hs, rfl⟩

section

variable [Host] {reg : Registry} {s t : Tables} {events es : List LedgerEvent}
  {ignored : List RecordId} {family : Hash} {kind : ConflictKind} {a b : RecordId}

theorem Contradicting.from (h : Contradicting reg t family kind a b) (hactive : ActiveFrom s t) :
    Contradicting reg s family kind a b := by
  obtain ⟨hne, ca, cb, p, ha, hb, hsa, hsb, hpred, hp, hfa, hfb, hk⟩ := h
  obtain ⟨ca', ha', hsa', hpa⟩ := hactive a ca ha hsa
  obtain ⟨cb', hb', hsb', hpb⟩ := hactive b cb hb hsb
  exact ⟨hne, ca', cb', p, ha', hb', hsa', hsb', by rw [hpa, hpb]; exact hpred,
    by rw [hpa]; exact hp, by rw [hpa]; exact hfa, by rw [hpb]; exact hfb,
    by rw [hpa, hpb]; exact hk⟩

theorem Noticed.empty : Noticed reg .empty [] [] := by
  refine ⟨.empty, fun id row h => by simp [Tables.empty] at h, ?_⟩
  rintro family kind a b - - ⟨_, ca, _, _, ha, _⟩
  simp [Tables.empty] at ha

/-- No conflict changes, and no claim becomes active. -/
theorem Noticed.keep (h : Noticed reg s events ignored) (hg : s.Grows t)
    (hc : t.conflicts = s.conflicts) (hactive : ActiveFrom s t)
    (hes : ∀ e ∈ es, ∀ id, e.turn? id = none) : Noticed reg t (events ++ es) ignored :=
  ⟨h.table.keep hg hc hes, h.logged.keep hc, fun family kind a b ha hb hab =>
    (h.seen family kind a b ha hb (hab.from hactive)).keep hc⟩

/-! ### A claim that is asserted -/

variable {w w' : Txn} {hist : List LedgerEvent} {incoming : Claim}
  {predicate : PredicateDefinition} {found : List (RecordId × ConflictKind)} {openedSeq : Nat}

omit [Host] in
/-- One kind of contradiction: what was seen stays seen, and the claims found are seen. -/
theorem openConflictOf_seen
    (h : openConflictOf w incoming family kind found openedSeq = .ok w')
    (hI : ConflictTable reg w.tables (hist ++ w.events))
    (hlogged : OpenLogged w.tables (hist ++ w.events)) :
    OpenLogged w'.tables (hist ++ w'.events) ∧
    (∀ family' kind' a b, Seen w.tables (hist ++ w.events) family' kind' a b →
      Seen w'.tables (hist ++ w'.events) family' kind' a b) ∧
    ∀ b, (b, kind) ∈ found →
      Seen w'.tables (hist ++ w'.events) family kind incoming.claimId b := by
  rcases openConflictOf_eq_ok.mp h with ⟨hnil, rfl⟩ | ⟨_, c, hc, rfl⟩
  · refine ⟨hlogged, fun _ _ _ _ h => h, fun b hb => ?_⟩
    have hmem := mem_membersOf.mpr hb
    rw [hnil] at hmem
    exact absurd hmem List.not_mem_nil
  · have hcon := conflictRowFor_contradicted hc hI.unique
    rw [← List.append_assoc]
    exact ⟨hlogged.insert, fun _ _ _ _ h => h.insert hcon, fun b hb =>
      hcon.seen List.mem_cons_self (List.mem_cons_of_mem _ (mem_membersOf.mpr hb))⟩

variable {claim : Claim} {evidence : List EvidenceLink}

theorem assertClaim_noticed (h : assertClaim reg w claim evidence ignored openedSeq = .ok w')
    (hI : Noticed reg w.tables (hist ++ w.events) []) :
    Noticed reg w'.tables (hist ++ w'.events) ignored := by
  obtain ⟨predicate, t, hvalid, hins, hopen⟩ := assertClaim_eq_ok.mp h
  obtain ⟨found, v, hfound, hv, hw⟩ := openConflicts_eq_ok.mp hopen
  have hclaims : t.claims = w.tables.claims.insert claim.claimId claim.row := by
    rw [insertClaim_frame hins]
  have hconflicts : t.conflicts = w.tables.conflicts := by rw [insertClaim_frame hins]
  have htables : w'.tables.claims = t.claims := by
    rw [(openConflictOf_frame hw).1, (openConflictOf_frame hv).1]
    rfl
  -- What is known before the conflicts are opened, and after each kind.
  have hI₀ := insertClaim_table hins hI.table
  have hlogged₀ : OpenLogged t (hist ++ (w.emit t (.claimAsserted claim evidence)).events) := by
    rw [Txn.emit_events, ← List.append_assoc]
    exact hI.logged.keep hconflicts
  obtain ⟨hI₁, _⟩ := openConflictOf_table hv (incoming_of_inserted hvalid hins hfound) hI₀
  obtain ⟨hlogged₁, hkeep₁, hseen₁⟩ := openConflictOf_seen hv hI₀ hlogged₀
  obtain ⟨hlogged₂, hkeep₂, hseen₂⟩ := openConflictOf_seen hw hI₁ hlogged₁
  -- A claim that contradicts the new one was found.
  have hnew : ∀ family kind b, b ∉ ignored →
      Contradicting reg t family kind claim.claimId b →
      Seen w'.tables (hist ++ w'.events) family kind claim.claimId b := by
    rintro family kind b hb ⟨hne, ca, cb, p, ha, hcb, hsa, hsb, hpred, hp, hfa, hfb, hk⟩
    rw [hclaims, Table.get_insert, if_pos rfl] at ha
    cases ha
    obtain rfl : p = predicate :=
      Option.some.inj (hp.symm.trans (validateClaim_predicate hvalid))
    have hmem : (b, kind) ∈ found := (mem_contradicting hfound b).mpr
      ⟨cb, hcb, hsb, hne.symm, hb, hfb.trans hfa.symm, hk⟩
    obtain rfl := hfa
    cases kind with
    | exclusiveValueConflict => exact hkeep₂ _ _ _ _ (hseen₁ b hmem)
    | polarityConflict => exact hseen₂ b hmem
    | temporalOverlapConflict => exact (conflictKind_eq_some.mp hk).2.elim
  refine ⟨assertClaim_table h hI.table, hlogged₂, fun family kind a b ha hb hab => ?_⟩
  have habt : Contradicting reg t family kind a b := hab.from (.of_eq htables)
  by_cases hac : a = claim.claimId
  · subst hac
    exact hnew family kind b hb habt
  by_cases hbc : b = claim.claimId
  · subst hbc
    exact (hnew family kind a ha habt.symm).symm
  -- Two claims that were there before.
  obtain ⟨hne, ca, cb, p, hca, hcb, hrest⟩ := habt
  rw [hclaims, Table.get_insert, if_neg hac] at hca
  rw [hclaims, Table.get_insert, if_neg hbc] at hcb
  have hold := hI.seen family kind a b List.not_mem_nil List.not_mem_nil
    ⟨hne, ca, cb, p, hca, hcb, hrest⟩
  refine hkeep₂ _ _ _ _ (hkeep₁ _ _ _ _ ?_)
  rw [Txn.emit_events, ← List.append_assoc]
  exact hold.keep hconflicts

variable {proposer : ActorRef} {op : Operation}

/-- The target of a supersession is no longer active once it has been ignored. -/
theorem supersedeClaim_noticed {op : SupersedeClaim}
    (h : supersedeClaim reg w op openedSeq = .ok w')
    (hI : Noticed reg w.tables (hist ++ w.events) []) :
    Noticed reg w'.tables (hist ++ w'.events) [] := by
  obtain ⟨_, v, _, _, hv, rfl⟩ := supersedeClaim_eq_ok.mp h
  have hI' := assertClaim_noticed hv hI
  rw [Txn.emit_events, ← List.append_assoc]
  refine ⟨hI'.table.keep (.modify_claim op.targetClaimId fun _ => rfl) rfl
    (by simp [LedgerEvent.turn?]), hI'.logged.keep rfl, ?_⟩
  intro family kind a b _ _ hab
  have hactive : ∀ (id : RecordId) (row : ClaimRow), (v.tables.claims.modify op.targetClaimId
      fun r => r.supersede op.replacementClaim.claimId)[id]? = some row → row.status = .active →
      id ∉ [op.targetClaimId] := by
    intro id row hrow hs hid
    rw [Table.get_modify, if_pos (List.mem_singleton.mp hid)] at hrow
    obtain ⟨old, _, rfl⟩ := Option.map_eq_some_iff.mp hrow
    cases hs
  obtain ⟨_, ca, cb, _, ha, hb, hsa, hsb, _⟩ := id hab
  refine (hI'.seen family kind a b (hactive a ca ha hsa) (hactive b cb hb hsb)
    (hab.from (.modify fun row hs => ?_))).keep rfl
  cases hs

theorem applyOperation_noticed (h : applyOperation reg proposer openedSeq w op = .ok w')
    (hI : Noticed reg w.tables (hist ++ w.events) []) :
    Noticed reg w'.tables (hist ++ w'.events) [] := by
  cases op with
  | registerSourceRevision _ source =>
    have hgrows := registerSourceRevision_grows h
    rcases registerSourceRevision_eq_ok.mp h with ⟨_, _, _, _, rfl⟩ | ⟨_, _, _, _, rfl⟩ <;>
    · rw [Txn.emit_events, ← List.append_assoc]
      exact hI.keep hgrows rfl (.of_eq rfl) (by simp [LedgerEvent.turn?])
  | assertClaim claim evidence _ => exact assertClaim_noticed h hI
  | attachEvidence link _ =>
    obtain ⟨row, _, t, _, _, _, _, ht, rfl⟩ := attachEvidence_eq_ok.mp h
    rw [Txn.emit_events, ← List.append_assoc]
    have hframe := validateAndInsertEvidence_frame ht
    have hattached := @hI.keep _ _ _ _ _ [] _ (validateAndInsertEvidence_grows ht) (by rw [hframe])
      (.of_eq (by rw [hframe])) (by simp)
    rw [List.append_nil] at hattached
    exact hattached.keep (.modify_claim link.claimId fun _ => rfl) rfl
      (.modify fun _ hs => ⟨hs, rfl⟩) (by simp [LedgerEvent.turn?])
  | supersedeClaim op => exact supersedeClaim_noticed h hI
  | retractClaim op =>
    obtain ⟨_, _, _, _, _, rfl⟩ := retractClaim_eq_ok.mp h
    rw [Txn.emit_events, ← List.append_assoc]
    exact hI.keep (.modify_claim op.targetClaimId fun _ => rfl) rfl
      (.modify fun _ hs => by cases hs) (by simp [LedgerEvent.turn?])
  | resolveConflict op =>
    obtain ⟨row, hrow, hres, rfl⟩ := resolveConflict_eq_ok.mp h
    rw [Txn.emit_events, ← List.append_assoc]
    exact ⟨hI.table.resolve hrow op.resolution, hI.logged.resolve, fun family kind a b ha hb hab =>
      (hI.seen family kind a b ha hb (hab.from (.of_eq rfl))).resolve hI.table hI.logged hrow hres⟩
  | recordDecision | supersedeDecision | openQuestion | answerQuestion | dropQuestion
  | createWorkItem | updateWorkItemStatus =>
    have hkeep := applyOperation_keepsMemory h (by simp [applyContinuityOperation])
    obtain ⟨es, he, hes⟩ := hkeep.events
    rw [he, ← List.append_assoc]
    exact hI.keep (.of_eq hkeep.sources hkeep.claims hkeep.evidence) hkeep.conflicts
      (.of_eq hkeep.claims) fun e hmem => turn?_of_continuity (hes e hmem)

/-! ### The law -/

variable {ι : Type} [DecidableEq ι]

/-- **No silent contradiction.**  In every state of every interleaving under a registry whose
families name their predicate, two different active claims of one family that contradict
each other have a conflict of that family and kind: it is open and has both, or an accepted
resolution covered an episode that had both. -/
theorem no_silent_contradiction (reg : Registry) (hreg : reg.FamiliesNamePredicate)
    (es : List (Event ι)) (u : Sys ι) (hrun : Run reg (.start .empty) es u)
    (hapart : Set.InjOn sha256Json (familyInputs reg u.db.tables)) (a b : RecordId)
    (ca cb : ClaimRow) (predicate : PredicateDefinition) (kind : ConflictKind) (hne : a ≠ b)
    (ha : u.db.tables.claims[a]? = some ca) (hb : u.db.tables.claims[b]? = some cb)
    (hsa : ca.status = .active) (hsb : cb.status = .active)
    (hp : reg.predicate? ca.proposition.predicate = some predicate)
    (hfamily : familyKey cb.proposition predicate = familyKey ca.proposition predicate)
    (hkind : conflictKind ca.proposition cb.proposition predicate = .ok (some kind)) :
    Seen u.db.tables u.db.events (familyKey ca.proposition predicate) kind a b := by
  have hnoticed : Noticed reg u.db.tables u.db.events [] :=
    hrun.history (I := fun t events => Noticed reg t events []) .empty
      fun _ _ _ _ _ _ h => applyOperation_noticed h
  have hmem := (predicate?_mem hp).1
  have hvalues : familyValues cb.proposition predicate = familyValues ca.proposition predicate :=
    hapart ⟨b, cb, predicate, hb, hmem, rfl⟩ ⟨a, ca, predicate, ha, hmem, rfl⟩ hfamily
  exact hnoticed.seen _ kind a b List.not_mem_nil List.not_mem_nil
    ⟨hne, ca, cb, predicate, ha, hb, hsa, hsb, hreg.eq hmem hvalues, hp, rfl, hfamily, hkind⟩

end

/-- Two owners of one system. -/
theorem no_silent_contradiction_of_rivals : letI := Host.utc
    ∃ u : Sys Unit, u.db.tables = rivalTables ∧ Seen u.db.tables u.db.events
      (familyKey ownerClaim.proposition ownerPredicate) .exclusiveValueConflict
      ownerClaim.claimId rivalClaim.claimId := by
  let := Host.utc
  obtain ⟨es, u, hrun, hu⟩ := rival_run
  have howner : u.db.tables.claims[ownerClaim.claimId]? = some ownerClaim.row := by
    rw [hu]
    rfl
  have hrival : u.db.tables.claims[rivalClaim.claimId]? = some rivalClaim.row := by
    rw [hu]
    rfl
  refine ⟨u, hu, no_silent_contradiction ownerRegistry ownerRegistry_familiesNamePredicate es u hrun
    ?_ _ _ ownerClaim.row rivalClaim.row ownerPredicate _ (by decide) howner hrival rfl rfl (by rfl)
    rival_family.symm (by rfl)⟩
  have hvalues : ∀ v ∈ familyInputs ownerRegistry u.db.tables,
      v = familyValues ownerClaim.proposition ownerPredicate := by
    rintro v ⟨id, row, p, hrow, hp, rfl⟩
    obtain rfl := List.mem_singleton.mp hp
    rw [hu, rivalTables, rivalClaims, ownerTables, Table.get_insert, Table.get_insert] at hrow
    split at hrow
    · cases hrow
      rfl
    · split at hrow
      · cases hrow
        rfl
      · simp at hrow
  intro v hv w hw _
  rw [hvalues v hv, hvalues w hw]

end SharedMind
