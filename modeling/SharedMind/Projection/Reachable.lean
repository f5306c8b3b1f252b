import SharedMind.Law.ConflictTable
import SharedMind.Projection.Build

/-!
# Projections of reachable states

* `Keyed`: the documents of sources and claims have the identifiers of their rows.
* `Documented`: every row of the ledger has a document.
* `buildProjection_returns`: **a reachable state is projected**.
-/

namespace SharedMind.Projection

open Py

/-! ### Identifiers -/

/-- A document has the identifier of its row. -/
structure Keyed (t : Tables) : Prop where
  sources : ∀ (id : RecordId) (row : SourceRow), t.sources[id]? = some row →
    row.document.revisionId = id
  claims : ∀ (id : RecordId) (row : ClaimRow), t.claims[id]? = some row → row.document.claimId = id

theorem Keyed.empty : Keyed .empty :=
  ⟨fun id row h => by simp [Tables.empty] at h, fun id row h => by simp [Tables.empty] at h⟩

section

variable {s t : Tables}

theorem Keyed.of_eq (h : Keyed s) (hs : t.sources = s.sources) (hc : t.claims = s.claims) :
    Keyed t :=
  ⟨hs ▸ h.sources, hc ▸ h.claims⟩

theorem Keyed.insert_source (h : Keyed s) {source : SourceRevision} {row : SourceRow}
    (hrow : row.document = source) :
    Keyed { s with sources := s.sources.insert source.revisionId row } := by
  refine ⟨?_, h.claims⟩
  intro id found hfound
  rw [Table.get_insert] at hfound
  split at hfound
  · next hid =>
    cases hfound
    rw [hrow, hid]
  · exact h.sources id found hfound

theorem Keyed.insert_claim (h : Keyed s) {claim : Claim} :
    Keyed { s with claims := s.claims.insert claim.claimId claim.row } := by
  refine ⟨h.sources, ?_⟩
  intro id found hfound
  rw [Table.get_insert] at hfound
  split at hfound
  · next hid =>
    cases hfound
    exact hid.symm
  · exact h.claims id found hfound

theorem Keyed.modify_claim (h : Keyed s) {target : RecordId} {f : ClaimRow → ClaimRow}
    (hf : ∀ row, (f row).document = row.document) :
    Keyed { s with claims := s.claims.modify target f } := by
  refine ⟨h.sources, ?_⟩
  intro id found hfound
  rw [Table.get_modify] at hfound
  split at hfound
  · obtain ⟨row, hrow, rfl⟩ := Option.map_eq_some_iff.mp hfound
    rw [hf]
    exact h.claims id row hrow
  · exact h.claims id found hfound

end

section

variable [Host] {reg : Registry} {proposer : ActorRef} {openedSeq : Nat} {op : Operation}
  {w w' : Txn}

theorem assertClaim_keyed {claim : Claim} {evidence : List EvidenceLink} {ignored : List RecordId}
    (h : assertClaim reg w claim evidence ignored openedSeq = .ok w') (hI : Keyed w.tables) :
    Keyed w'.tables := by
  obtain ⟨_, hclaims, hsources, _⟩ := assertClaim_frame h
  exact hI.insert_claim.of_eq hsources hclaims

/-- An operation keeps the identifiers. -/
theorem applyOperation_keyed (h : applyOperation reg proposer openedSeq w op = .ok w')
    (hI : Keyed w.tables) : Keyed w'.tables := by
  cases op with
  | registerSourceRevision _ source =>
    rcases registerSourceRevision_eq_ok.mp h with ⟨_, _, _, _, rfl⟩ | ⟨_, content, _, _, rfl⟩
    · exact hI
    · exact hI.insert_source rfl
  | assertClaim claim evidence _ => exact assertClaim_keyed h hI
  | attachEvidence link _ =>
    obtain ⟨_, _, t, _, _, _, _, ht, rfl⟩ := attachEvidence_eq_ok.mp h
    have hframe := validateAndInsertEvidence_frame ht
    have hkept : Keyed t := hI.of_eq (by rw [hframe]) (by rw [hframe])
    exact hkept.modify_claim fun _ => rfl
  | supersedeClaim op =>
    obtain ⟨_, v, _, _, hv, rfl⟩ := supersedeClaim_eq_ok.mp h
    exact (assertClaim_keyed hv hI).modify_claim fun _ => rfl
  | retractClaim op =>
    obtain ⟨_, _, _, _, _, rfl⟩ := retractClaim_eq_ok.mp h
    exact hI.modify_claim fun _ => rfl
  | resolveConflict op =>
    obtain ⟨_, _, _, rfl⟩ := resolveConflict_eq_ok.mp h
    exact hI.of_eq rfl rfl
  | recordDecision | supersedeDecision | openQuestion | answerQuestion | dropQuestion
  | createWorkItem | updateWorkItemStatus =>
    have hkeep := applyOperation_keepsMemory h (by simp [applyContinuityOperation])
    exact hI.of_eq hkeep.sources hkeep.claims

end

/-! ### The ledger -/

/-- Every row of the ledger has a document, and it is a dict. -/
def Documented (db : Db) : Prop :=
  ∀ row ∈ db.ledger, isMapping (loadJson row.document .null) = true

variable [Host] {reg : Registry} {ι : Type} [DecidableEq ι] {u : Sys ι} {es : List (Event ι)}

theorem documented_of_run (hrun : Run reg (.start .empty : Sys ι) es u) : Documented u.db := by
  refine hrun.accepted_inv (Q := Documented) (fun _ h => absurd h List.not_mem_nil)
    (fun _ _ h => h) ?_
  intro s _ _ _ _ _ _ e row _ hq hacc r hr
  rw [Evaluation.accept_ledger] at hr
  obtain hr | hr := List.mem_append.mp hr
  · exact hq r hr
  · obtain ⟨hdocument, hloads⟩ := Evaluation.loads_document hacc.accepts.evaluated
    rw [List.mem_singleton.mp hr, loadJson, hdocument, Option.bind_some, hloads]
    rfl

/-! ### The projection -/

omit [Host] in
theorem mapM_returns {ε α β : Type} {f : α → Except ε β} {as : List α}
    (h : ∀ a ∈ as, ∃ b, f a = .ok b) : ∃ bs, as.mapM f = .ok bs := by
  induction as with
  | nil => exact ⟨[], rfl⟩
  | cons a as ih =>
    obtain ⟨b, hb⟩ := h a List.mem_cons_self
    obtain ⟨bs, hbs⟩ := ih fun c hc => h c (List.mem_cons_of_mem a hc)
    exact ⟨b :: bs, by rw [List.mapM_cons, hb, hbs]; rfl⟩

omit [Host] in
/-- The statuses of the records of a section are known. -/
theorem validateStatuses_optionalRecords {ρ : Type} {history : List HistoryEntry}
    {columns : RecordId → ρ → List (String × Json)} {document : ρ → Json}
    {rows : Table RecordId ρ} {table kind : String} {known : List String}
    (hstatus : ∀ id row, ∃ s ∈ known, (JsonOf.obj (columns id row)).get? "status" = some (.str s)) :
    validateStatuses kind known (optionalRecords history table columns document rows) =
      .ok () := by
  rw [validateStatuses, forM_eq_ok]
  intro r hr
  rw [optionalRecords, List.mem_insertionSort] at hr
  obtain ⟨⟨id, row⟩, -, rfl⟩ := List.mem_map.mp hr
  obtain ⟨s, hs, hget⟩ := hstatus id row
  rw [ensure_eq_ok]
  refine ⟨s, hs, ?_⟩
  rw [OptionalRecord.row, JsonOf.get?_dictOf, hget]
  rfl

theorem checkOpenConflict_returns (hrun : Run reg (.start .empty : Sys ι) es u) {id : RecordId}
    {row : ConflictRow} (hrow : u.db.tables.conflicts[id]? = some row) :
    checkOpenConflict u.db.tables id row = .ok () := by
  have htable : ConflictTable reg u.db.tables u.db.events :=
    hrun.history .empty fun _ _ _ _ _ _ h => applyOperation_table h
  have hkeyed : Keyed u.db.tables := hrun.history (I := fun t _ => Keyed t) .empty
    fun _ _ _ _ _ _ h => applyOperation_keyed h
  rw [checkOpenConflict]
  split
  · rw [ensure_eq_ok, List.filter_eq_nil_iff]
    intro m hm
    obtain ⟨_, _, _, claim, _, _, hclaim, _⟩ :=
      htable.members id row hrow m (mem_sortedSet.mp hm)
    have hmem : m ∈ u.db.tables.claims.toList.map fun c => c.2.document.claimId :=
      List.mem_map.mpr ⟨(m, claim), Table.mem_toList.mpr hclaim, hkeyed.claims m claim hclaim⟩
    simp [hmem]
  · rfl

/-- **A reachable state is projected.** -/
theorem buildProjection_returns (hrun : Run reg (.start .empty : Sys ι) es u) :
    ∃ p, buildProjection u.db = .ok p := by
  have hentries : ∀ r ∈ u.db.ledger.zipIdx, ∃ e, ledgerEntry r.1 r.2 = .ok e := by
    intro r hr
    have hdocument := documented_of_run hrun r.1 (List.fst_mem_of_mem_zipIdx hr)
    refine ⟨_, bind_eq_ok.mpr ⟨(), ?_, rfl⟩⟩
    rw [ensure_eq_ok, Bool.or_eq_true]
    exact Or.inr hdocument
  obtain ⟨entries, hentries⟩ := mapM_returns hentries
  have hconflicts : (u.db.tables.conflicts.toList.forM fun c =>
      checkOpenConflict u.db.tables c.1 c.2) = .ok () := by
    rw [forM_eq_ok]
    intro c hc
    exact checkOpenConflict_returns hrun (Table.mem_toList.mp hc)
  simp only [buildProjection, hentries, hconflicts, ok_bind]
  rw [validateStatuses_optionalRecords, validateStatuses_optionalRecords,
    validateStatuses_optionalRecords]
  · exact ⟨_, rfl⟩
  · intro id row
    exact ⟨row.status.text, by cases row.status <;> decide, rfl⟩
  · intro id row
    exact ⟨row.status.text, by cases row.status <;> decide, rfl⟩
  · intro id row
    exact ⟨row.status.text, by cases row.status <;> decide, rfl⟩

end SharedMind.Projection
