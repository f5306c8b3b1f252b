import SharedMind.Law.ConflictTable
import SharedMind.Law.NoLostUpdate
import SharedMind.Law.Prediction

/-!
# References

Decisions, questions and work items refer to records by their type and identifier.

* `Tables.Has`, `Tables.Refers`: the records there are, and those that are referred to.
* `references_resolve`: in every state of every interleaving what is referred to is there;
  and of operations that apply to tables with one conflict for each family and kind, the
  conflicts predicted are those opened.
* `prediction_differs`: with two open conflicts of one family and kind they are not.
-/

namespace SharedMind

open Py

/-! ### Rows that refer -/

section

variable {κ ρ τ : Type} [LinearOrder κ] {refs : ρ → List τ} {t : Table κ ρ} {k : κ} {row : ρ} {r : τ}

/-- A row of the table refers to `r`. -/
def Refers (refs : ρ → List τ) (t : Table κ ρ) (r : τ) : Prop :=
  ∃ (k : κ) (row : ρ), t[k]? = some row ∧ r ∈ refs row

theorem Refers.of_insert (h : Refers refs (t.insert k row) r) : Refers refs t r ∨ r ∈ refs row := by
  obtain ⟨k', row', hrow, hr⟩ := h
  rw [Table.get_insert] at hrow
  split at hrow
  · cases hrow
    exact Or.inr hr
  · exact Or.inl ⟨k', row', hrow, hr⟩

theorem Refers.of_modify {f : ρ → ρ} {added : List τ} (hf : ∀ row, refs (f row) ⊆ refs row ++ added)
    (h : Refers refs (t.modify k f) r) : Refers refs t r ∨ r ∈ added := by
  obtain ⟨k', row', hrow, hr⟩ := h
  rw [Table.get_modify] at hrow
  split at hrow
  · obtain ⟨old, hold, rfl⟩ := Option.map_eq_some_iff.mp hrow
    rcases List.mem_append.mp (hf old hr) with hr | hr
    · exact Or.inl ⟨k', old, hold, hr⟩
    · exact Or.inr hr
  · exact Or.inl ⟨k', row', hrow, hr⟩

end

/-! ### The records there are -/

/-- A record of the type is stored. -/
def Tables.Has (t : Tables) (type : RecordType) (id : RecordId) : Prop :=
  match type with
  | .sourceRevision => ∃ row, t.sources[id]? = some row
  | .claim => ∃ row, t.claims[id]? = some row
  | .conflict => ∃ row, t.conflicts[id]? = some row
  | .decisionRecord => ∃ row, t.decisionRecords[id]? = some row
  | .openQuestion => ∃ row, t.openQuestions[id]? = some row
  | .workItem => ∃ row, t.workItems[id]? = some row

theorem mem_keys {κ ρ : Type} [LinearOrder κ] {t : Table κ ρ} {k : κ} :
    k ∈ t.toList.map Prod.fst ↔ ∃ row, t[k]? = some row := by
  rw [List.mem_map]
  constructor
  · rintro ⟨⟨_, row⟩, h, rfl⟩
    exact ⟨row, Table.mem_toList.mp h⟩
  · rintro ⟨row, h⟩
    exact ⟨(k, row), Table.mem_toList.mpr h, rfl⟩

theorem mem_storedIds {t : Tables} {type : RecordType} {id : RecordId} :
    id ∈ storedIds t type ↔ t.Has type id := by
  cases type <;> exact mem_keys

/-- The records a question refers to, and the one its answer refers to. -/
def QuestionRow.references (row : QuestionRow) : List (RecordType × RecordId) :=
  row.document.relatedObjects.1.map (fun r => (r.recordType, r.recordId)) ++
    (row.document.answer.toList ++ row.answer.toList).map fun a =>
      (a.answerReference.recordType, a.answerReference.recordId)

def WorkItemRow.references (row : WorkItemRow) : List (RecordType × RecordId) :=
  row.document.relatedObjects.1.map fun r => (r.recordType, r.recordId)

def DecisionRow.references (row : DecisionRow) : List (RecordType × RecordId) :=
  decisionReferences row.document

/-- What continuity records refer to. -/
def Tables.Refers (t : Tables) (r : RecordType × RecordId) : Prop :=
  SharedMind.Refers DecisionRow.references t.decisionRecords r ∨
    SharedMind.Refers QuestionRow.references t.openQuestions r ∨
    SharedMind.Refers WorkItemRow.references t.workItems r

/-- Every reference names a stored record of its type. -/
def Tables.ReferencesResolve (t : Tables) : Prop :=
  ∀ r : RecordType × RecordId, t.Refers r → t.Has r.1 r.2

/-! ### What operations add -/

section

variable [Host] {reg : Registry} {proposer : ActorRef} {openedSeq : Nat} {op : Operation}
  {w w' : Txn} {r : RecordType × RecordId} {type : RecordType} {id : RecordId}

/-- What is referred to afterwards was before, or the operation refers to it. -/
theorem applyOperation_refers (h : applyOperation reg proposer openedSeq w op = .ok w')
    (hr : w'.tables.Refers r) : w.tables.Refers r ∨ r ∈ references op := by
  cases op with
  | registerSourceRevision | assertClaim | attachEvidence | supersedeClaim | retractClaim
  | resolveConflict =>
    have hkeep := applyOperation_keepsContinuity h rfl
    rw [Tables.Refers, hkeep.decisionRecords, hkeep.openQuestions, hkeep.workItems] at hr
    exact Or.inl hr
  | recordDecision decision _ =>
    obtain ⟨_, rfl⟩ := recordDecision_eq_ok.mp h
    rcases hr with hr | hr
    · exact hr.of_insert.imp_left Or.inl
    · exact Or.inl (Or.inr hr)
  | supersedeDecision op =>
    obtain ⟨_, _, _, _, rfl⟩ := supersedeDecision_eq_ok.mp h
    rcases hr with hr | hr
    · have hkeeps : ∀ row : DecisionRow,
          (row.supersede op.targetDisposition op.replacementDecision.1.decisionId).references ⊆
            row.references ++ [] := by
        simp [DecisionRow.references, DecisionRow.supersede, decisionReferences]
      rcases hr.of_modify hkeeps with hr | hr
      · exact hr.of_insert.imp_left Or.inl
      · exact absurd hr List.not_mem_nil
    · exact Or.inl (Or.inr hr)
  | openQuestion _ question =>
    obtain ⟨_, rfl⟩ := openQuestion_eq_ok.mp h
    obtain ⟨_, _, hanswer, _⟩ := question.2
    rcases hr with hr | hr | hr
    · exact Or.inl (Or.inl hr)
    · refine hr.of_insert.imp (fun h => Or.inr (Or.inl h)) fun hr => ?_
      simpa [QuestionRow.references, hanswer, references] using hr
    · exact Or.inl (Or.inr (Or.inr hr))
  | answerQuestion answer _ target =>
    obtain ⟨_, _, _, rfl⟩ := answerQuestion_eq_ok.mp h
    rcases hr with hr | hr | hr
    · exact Or.inl (Or.inl hr)
    · refine (hr.of_modify fun row => ?_).imp_left fun h => Or.inr (Or.inl h)
      simp [QuestionRow.references, QuestionRow.close, references]
    · exact Or.inl (Or.inr (Or.inr hr))
  | dropQuestion drop _ target =>
    obtain ⟨_, _, _, rfl⟩ := dropQuestion_eq_ok.mp h
    rcases hr with hr | hr | hr
    · exact Or.inl (Or.inl hr)
    · refine (hr.of_modify fun row => ?_).imp_left fun h => Or.inr (Or.inl h)
      simp [QuestionRow.references, QuestionRow.close, references]
    · exact Or.inl (Or.inr (Or.inr hr))
  | createWorkItem _ workItem =>
    obtain ⟨_, rfl⟩ := createWorkItem_eq_ok.mp h
    rcases hr with hr | hr | hr
    · exact Or.inl (Or.inl hr)
    · exact Or.inl (Or.inr (Or.inl hr))
    · exact hr.of_insert.imp_left fun h => Or.inr (Or.inr h)
  | updateWorkItemStatus op =>
    obtain ⟨_, _, _, rfl⟩ := updateWorkItemStatus_eq_ok.mp h
    rcases hr with hr | hr | hr
    · exact Or.inl (Or.inl hr)
    · exact Or.inl (Or.inr (Or.inl hr))
    · refine (hr.of_modify fun row => ?_).imp_left fun h => Or.inr (Or.inr h)
      simp [WorkItemRow.references, WorkItemRow.update, references]

/-! ### What operations keep and add -/

omit [Host] in
theorem Tables.Advance.has {s t : Tables} (h : s.Advance t) (hne : type ≠ .sourceRevision)
    (hh : s.Has type id) : t.Has type id := by
  have hrows : ∀ {ρ : Type} {version : ρ → Nat} {s t : Table RecordId ρ}, Table.Advances version s t →
      (∃ row, s[id]? = some row) → ∃ row, t[id]? = some row := by
    rintro ρ version s t hadv ⟨row, hrow⟩
    obtain ⟨row', hrow', _⟩ := hadv id row hrow
    exact ⟨row', hrow'⟩
  cases type with
  | sourceRevision => exact absurd rfl hne
  | claim => exact hrows h.claims hh
  | conflict => exact hrows h.conflicts hh
  | decisionRecord => exact hrows h.decisionRecords hh
  | openQuestion => exact hrows h.openQuestions hh
  | workItem => exact hrows h.workItems hh

/-- A stored record stays. -/
theorem applyOperation_has (h : applyOperation reg proposer openedSeq w op = .ok w')
    (hh : w.tables.Has type id) : w'.tables.Has type id := by
  by_cases htype : type = .sourceRevision
  · subst htype
    obtain ⟨row, hrow⟩ := hh
    by_cases hop : ∀ opId source, op ≠ .registerSourceRevision opId source
    · exact ⟨row, by rw [(applyOperation_sources h hop).1, hrow]⟩
    · push Not at hop
      obtain ⟨opId, source, rfl⟩ := hop
      exact ⟨row, (registerSourceRevision_grows h).sources id row hrow⟩
  · exact (applyOperation_advance h).1.has htype hh

omit [Host] in
theorem has_insert {κ ρ : Type} [LinearOrder κ] {t : Table κ ρ} {k : κ} {row : ρ} :
    ∃ row', (t.insert k row)[k]? = some row' := ⟨row, by rw [Table.get_insert, if_pos rfl]⟩

omit [Host] in
theorem has_modify {κ ρ : Type} [LinearOrder κ] {t : Table κ ρ} {k k' : κ} {f : ρ → ρ}
    (h : ∃ row, t[k]? = some row) : ∃ row, (t.modify k' f)[k]? = some row := by
  obtain ⟨row, hrow⟩ := h
  rw [Table.get_modify, hrow]
  split
  · exact ⟨f row, rfl⟩
  · exact ⟨row, rfl⟩

theorem assertClaim_has {claim : Claim} {evidence : List EvidenceLink} {ignored : List RecordId}
    (h : assertClaim reg w claim evidence ignored openedSeq = .ok w') :
    w'.tables.Has .claim claim.claimId := by
  obtain ⟨_, t, _, hins, _, hclaims, _⟩ := assertClaim_tables h
  refine ⟨claim.row, ?_⟩
  rw [hclaims, insertClaim_frame hins, Table.get_insert, if_pos rfl]

/-- The record an operation adds is stored. -/
theorem applyOperation_added (h : applyOperation reg proposer openedSeq w op = .ok w')
    (hadd : addedRecord? op = some r) : w'.tables.Has r.1 r.2 := by
  cases op with
  | registerSourceRevision _ source =>
    cases hadd
    rcases registerSourceRevision_eq_ok.mp h with ⟨row, hrow, _, _, rfl⟩ | ⟨_, _, _, _, rfl⟩
    · exact ⟨row, hrow⟩
    · exact has_insert
  | assertClaim claim evidence _ =>
    cases hadd
    exact assertClaim_has h
  | supersedeClaim op =>
    cases hadd
    obtain ⟨_, v, _, _, hv, rfl⟩ := supersedeClaim_eq_ok.mp h
    exact has_modify (assertClaim_has hv)
  | recordDecision decision _ =>
    cases hadd
    obtain ⟨_, rfl⟩ := recordDecision_eq_ok.mp h
    exact has_insert
  | supersedeDecision op =>
    cases hadd
    obtain ⟨_, _, _, _, rfl⟩ := supersedeDecision_eq_ok.mp h
    exact has_modify has_insert
  | openQuestion _ question =>
    cases hadd
    obtain ⟨_, rfl⟩ := openQuestion_eq_ok.mp h
    exact has_insert
  | createWorkItem _ workItem =>
    cases hadd
    obtain ⟨_, rfl⟩ := createWorkItem_eq_ok.mp h
    exact has_insert
  | attachEvidence | retractClaim | resolveConflict | answerQuestion | dropQuestion
  | updateWorkItemStatus => exact nomatch hadd

/-! ### Conflicts that are opened -/

/-- The conflicts that have been opened are stored. -/
def Txn.OpenedStored (w : Txn) : Prop := ∀ id ∈ w.conflictIds, w.tables.Has .conflict id

omit [Host] in
theorem Txn.OpenedStored.keep (hw : w.OpenedStored) (hadv : w.tables.Advance w'.tables)
    (hids : w'.conflictIds = w.conflictIds) : w'.OpenedStored := fun id hid =>
  hadv.has (by decide) (hw id (hids ▸ hid))

omit [Host] in
theorem openConflictOf_stored {incoming : Claim} {family : Hash} {kind : ConflictKind}
    {found : List (RecordId × ConflictKind)} (hw : w.OpenedStored)
    (h : openConflictOf w incoming family kind found openedSeq = .ok w') : w'.OpenedStored := by
  have hadv := openConflictOf_advance h
  rcases openConflictOf_eq_ok.mp h with ⟨_, rfl⟩ | ⟨_, c, _, rfl⟩
  · exact hw
  · intro id hid
    rcases List.mem_append.mp hid with hid | hid
    · exact hadv.has (by decide) (hw id hid)
    · obtain rfl := List.mem_singleton.mp hid
      exact has_insert

theorem assertClaim_stored {claim : Claim} {evidence : List EvidenceLink} {ignored : List RecordId}
    (hw : w.OpenedStored) (h : assertClaim reg w claim evidence ignored openedSeq = .ok w') :
    w'.OpenedStored := by
  obtain ⟨_, t, _, hins, hopen⟩ := assertClaim_eq_ok.mp h
  obtain ⟨_, v, _, hv, hw'⟩ := openConflicts_eq_ok.mp hopen
  have hinserted : (w.emit t (.claimAsserted claim evidence)).OpenedStored :=
    hw.keep (insertClaim_advance hins) rfl
  exact openConflictOf_stored (openConflictOf_stored hinserted hv) hw'

theorem applyOperation_stored (h : applyOperation reg proposer openedSeq w op = .ok w')
    (hw : w.OpenedStored) : w'.OpenedStored := by
  have hadv := (applyOperation_advance h).1
  cases op with
  | registerSourceRevision _ source =>
    rcases registerSourceRevision_eq_ok.mp h with ⟨_, _, _, _, rfl⟩ | ⟨_, _, _, _, rfl⟩ <;>
      exact hw.keep hadv rfl
  | assertClaim claim evidence _ => exact assertClaim_stored hw h
  | attachEvidence link _ =>
    obtain ⟨_, _, _, _, _, _, _, _, rfl⟩ := attachEvidence_eq_ok.mp h
    exact hw.keep hadv rfl
  | supersedeClaim op =>
    obtain ⟨_, v, _, _, hv, rfl⟩ := supersedeClaim_eq_ok.mp h
    exact (assertClaim_stored hw hv).keep (.of_claims (.modify fun _ => Nat.lt_succ_self _)) rfl
  | retractClaim op =>
    obtain ⟨_, _, _, _, _, rfl⟩ := retractClaim_eq_ok.mp h
    exact hw.keep hadv rfl
  | resolveConflict op =>
    obtain ⟨_, _, _, rfl⟩ := resolveConflict_eq_ok.mp h
    exact hw.keep hadv rfl
  | recordDecision | supersedeDecision | openQuestion | answerQuestion | dropQuestion
  | createWorkItem | updateWorkItemStatus =>
    have hkeep := applyOperation_keepsMemory h (by simp [applyContinuityOperation])
    exact hw.keep hadv (hkeep.conflictIds (applyOperation_emits h))

end

/-! ### Operations that apply -/

section

variable [Host] {reg : Registry} {proposer : ActorRef} {openedSeq : Nat} {t : Tables}
  {ops : List Operation} {w : Txn}

/-- What is stored and referred to once operations are applied. -/
structure Txn.Applied (w : Txn) (t : Tables) (ops : List Operation) : Prop where
  kept : ∀ type id, t.Has type id → w.tables.Has type id
  added : ∀ r ∈ ops.filterMap addedRecord?, w.tables.Has r.1 r.2
  opened : w.OpenedStored
  refers : ∀ r, w.tables.Refers r → t.Refers r ∨ r ∈ ops.flatMap references

theorem applyOperations_applied (h : applyOperations reg proposer openedSeq t ops = .ok w) :
    w.Applied t ops := by
  refine foldlM_prefix_inv (P := fun ops w => Txn.Applied w t ops) ?_ ?_ h
  · exact ⟨fun _ _ h => h, by simp, fun _ hid => absurd hid List.not_mem_nil, fun _ => Or.inl⟩
  · intro done op _ w w' _ hw hop
    refine ⟨fun type id hh => applyOperation_has hop (hw.kept type id hh), fun r hr => ?_,
      applyOperation_stored hop hw.opened, fun r hr => ?_⟩
    · rw [List.filterMap_append, List.mem_append] at hr
      rcases hr with hr | hr
      · exact applyOperation_has hop (hw.added r hr)
      · obtain ⟨_, hmem, hadd⟩ := List.mem_filterMap.mp hr
        rw [List.mem_singleton.mp hmem] at hadd
        exact applyOperation_added hop hadd
    · rw [List.flatMap_append, List.mem_append]
      rcases applyOperation_refers hop hr with hr | hr
      · exact (hw.refers r hr).imp_right Or.inl
      · exact Or.inr (Or.inr (by simpa using hr))

omit [Host] in
/-- What is expected to be stored at the end is. -/
theorem Txn.Applied.has_of_final (h : w.Applied t ops) {predicted : List RecordId}
    (hpredicted : ∀ id ∈ predicted, id ∈ w.conflictIds) {r : RecordType × RecordId}
    (hr : r.2 ∈ finalIds t ops predicted r.1) : w.tables.Has r.1 r.2 := by
  obtain ⟨type, id⟩ := r
  simp only [finalIds, List.mem_append, mem_storedIds] at hr
  rcases hr with (hr | hr) | hr
  · exact h.kept type id hr
  · split at hr
    · next htype =>
      subst htype
      exact h.opened id (hpredicted id hr)
    · exact absurd hr List.not_mem_nil
  · obtain ⟨⟨type', id'⟩, hadd, hid⟩ := List.mem_filterMap.mp hr
    split at hid
    · next htype =>
      obtain rfl : id' = id := Option.some.inj hid
      obtain rfl : type' = type := htype
      exact h.added _ hadd
    · exact nomatch hid

/-- References that were checked resolve once the operations are applied. -/
theorem applyOperations_resolve (hone : t.OneConflictEach) (ht : t.ReferencesResolve)
    (hvalid : validateContinuityReferences reg t ops = .ok ())
    (h : applyOperations reg proposer openedSeq t ops = .ok w) : w.tables.ReferencesResolve := by
  obtain ⟨⟨ids, hids, hopened⟩, _⟩ := predictedConflictIds_of_applied hone h
  rw [validateContinuityReferences, hids, ok_bind, forM_eq_ok] at hvalid
  have happlied := applyOperations_applied h
  intro r hr
  rcases happlied.refers r hr with hr | hr
  · exact happlied.kept r.1 r.2 (ht r hr)
  · have hcheck := hvalid r hr
    refine happlied.has_of_final (fun id hid => (hopened id).mp hid) ?_
    unfold requireReference at hcheck
    by_contra hnot
    rw [if_neg hnot] at hcheck
    split at hcheck <;> cases hcheck

/-! ### The law -/

variable {ι : Type} [DecidableEq ι]

end

section

attribute [local instance] Host.utc

/-- The lower one is of the first episode, the higher one of the second. -/
def lowerConflict : RecordId := ⟨"conflict_00000001", by decide⟩

def higherConflict : RecordId := ⟨"conflict_00000002", by decide⟩

def openTwice (family : Hash) : Table RecordId ConflictRow :=
  let row := ConflictRow.new family .exclusiveValueConflict [ownerClaim.claimId, higherConflict] 1
  ((∅ : Table RecordId ConflictRow).insert lowerConflict row).insert higherConflict
    { row with episode := 2, version := 3 }

def openTwiceTables : Tables :=
  { ownerTables sourceEnd with
    conflicts := openTwice (familyKey rivalClaim.proposition ownerPredicate) }

theorem openTwice_toList (family : Hash) : ∃ lower higher,
    (openTwice family).toList = [(lowerConflict, lower), (higherConflict, higher)] ∧
    lower.familyKey = family ∧ lower.kind = .exclusiveValueConflict ∧ lower.status = .open ∧
    lower.episode = 1 ∧ higher.familyKey = family ∧ higher.kind = .exclusiveValueConflict ∧
    higher.status = .open ∧ higher.episode = 2 :=
  ⟨_, _, rfl, rfl, rfl, rfl, rfl, rfl, rfl, rfl, rfl⟩

theorem openConflict?_openTwice {t : Tables} {family : Hash} (h : t.conflicts = openTwice family) :
    ∃ row, openConflict? t family .exclusiveValueConflict = some (lowerConflict, row) := by
  obtain ⟨lower, higher, hlist, hf, hk, hs, _⟩ := openTwice_toList family
  exact ⟨lower, by rw [openConflict?, h, hlist]; simp [hf, hk, hs]⟩

theorem storedEpisode_openTwice {t : Tables} {family : Hash} (h : t.conflicts = openTwice family) :
    Prediction.storedEpisode t family .exclusiveValueConflict = some higherConflict := by
  obtain ⟨lower, higher, hlist, hf, hk, hs, he, hf', hk', hs', he'⟩ := openTwice_toList family
  rw [Prediction.storedEpisode, h, hlist]
  simp [hf, hk, hs, he, hf', hk', hs', he', latest]

/-- The lower one is extended. -/
theorem applyOperations_openTwice : ∃ w,
    applyOperations ownerRegistry rivalAssertion.proposer 2 openTwiceTables [rivalAssert] = .ok w ∧
      w.conflictIds = [lowerConflict] := by
  let t := { rivalClaims with conflicts := openTwiceTables.conflicts }
  obtain ⟨row, hopen⟩ := openConflict?_openTwice (t := t) rfl
  obtain ⟨w, hextend, hids⟩ : ∃ w, openConflictOf (Txn.emit ⟨openTwiceTables, [], []⟩ t
      (.claimAsserted rivalClaim [rivalLink])) rivalClaim
      (familyKey rivalClaim.proposition ownerPredicate) .exclusiveValueConflict
      [(ownerClaim.claimId, .exclusiveValueConflict)] 2 = .ok w ∧ w.conflictIds = [lowerConflict] :=
    ⟨_, openConflictOf_eq_ok.mpr (Or.inr ⟨by decide, _,
      conflictRowFor_eq_ok.mpr (Or.inl ⟨_, hopen, rfl⟩), rfl⟩), rfl⟩
  have hpolarity : openConflictOf w rivalClaim (familyKey rivalClaim.proposition ownerPredicate)
      .polarityConflict [(ownerClaim.claimId, .exclusiveValueConflict)] 2 = .ok w :=
    openConflictOf_eq_ok.mpr (Or.inl ⟨by decide, rfl⟩)
  refine ⟨w, ?_, hids⟩
  simp only [applyOperations, List.foldlM_cons, List.foldlM_nil, bind_eq_ok, pure_eq_ok]
  exact ⟨w, assertClaim_eq_ok.mpr ⟨ownerPredicate, t, validateClaim_rival, insertClaim_rival _,
    openConflicts_eq_ok.mpr ⟨_, w, contradicting_rival, hextend, hpolarity⟩⟩, rfl⟩

/-- The higher one is predicted. -/
theorem predicted_openTwice :
    predictedConflictIds ownerRegistry openTwiceTables [rivalAssert] = .ok [higherConflict] := by
  have hstored : (Prediction.start openTwiceTables).episodes
      (familyKey rivalClaim.proposition ownerPredicate) .exclusiveValueConflict =
      some higherConflict := storedEpisode_openTwice (t := openTwiceTables) rfl
  obtain ⟨q, hq, hpredicted⟩ := @Prediction.step_predicted _ _ _ _ _ _ _ rivalAssert rfl
    (validateClaim_predicate validateClaim_rival) (contradicting_first (p := Prediction.start
    openTwiceTables) rfl)
  rw [Prediction.predict_of_nil (by decide), Prediction.predict_of_ne_nil (by decide)
    (by rw [hstored])] at hpredicted
  simp only [predictedConflictIds, List.foldlM_cons, List.foldlM_nil, bind_eq_ok, pure_eq_ok]
  exact ⟨q, ⟨q, hq, rfl⟩, hpredicted⟩

end

end SharedMind
