import SharedMind.Kernel.Conflicts
import SharedMind.Kernel.Steps

/-!
# No lost update

A destructive operation has read the version it overwrites, and leaves a larger one.

* `Tables.Advance`: rows are kept and change only with a larger version.
* `applyOperation_advance`, `applyOperation_bumps`: what each operation does to
  versions.
* `no_lost_update`: the law over every interleaving.
-/

namespace SharedMind

open Py

/-! ### Versions -/

/-- Rows with a version are kept, and change only with a larger one. -/
structure Tables.Advance (s t : Tables) : Prop where
  claims : Table.Advances ClaimRow.version s.claims t.claims
  conflicts : Table.Advances ConflictRow.version s.conflicts t.conflicts
  decisionRecords : Table.Advances DecisionRow.version s.decisionRecords t.decisionRecords
  openQuestions : Table.Advances QuestionRow.version s.openQuestions t.openQuestions
  workItems : Table.Advances WorkItemRow.version s.workItems t.workItems

/-- The aggregate has a version before and a larger one after. -/
def Tables.Bumps (s t : Tables) (target : RecordType × RecordId) : Prop :=
  ∃ v v', aggregateVersion s target.1 target.2 = some v ∧
    aggregateVersion t target.1 target.2 = some v' ∧ v < v'

namespace Tables.Advance

variable {s t u : Tables}

theorem refl (s : Tables) : Advance s s := ⟨.refl _, .refl _, .refl _, .refl _, .refl _⟩

theorem trans (h : Advance s t) (h' : Advance t u) : Advance s u :=
  ⟨h.claims.trans h'.claims, h.conflicts.trans h'.conflicts,
    h.decisionRecords.trans h'.decisionRecords, h.openQuestions.trans h'.openQuestions,
    h.workItems.trans h'.workItems⟩

theorem of_claims {c : Table RecordId ClaimRow} (h : Table.Advances ClaimRow.version s.claims c) :
    Advance s { s with claims := c } := ⟨h, .refl _, .refl _, .refl _, .refl _⟩

theorem of_conflicts {c : Table RecordId ConflictRow}
    (h : Table.Advances ConflictRow.version s.conflicts c) : Advance s { s with conflicts := c } :=
  ⟨.refl _, h, .refl _, .refl _, .refl _⟩

theorem of_decisionRecords {d : Table RecordId DecisionRow}
    (h : Table.Advances DecisionRow.version s.decisionRecords d) :
    Advance s { s with decisionRecords := d } := ⟨.refl _, .refl _, h, .refl _, .refl _⟩

theorem of_openQuestions {q : Table RecordId QuestionRow}
    (h : Table.Advances QuestionRow.version s.openQuestions q) :
    Advance s { s with openQuestions := q } := ⟨.refl _, .refl _, .refl _, h, .refl _⟩

theorem of_workItems {i : Table RecordId WorkItemRow}
    (h : Table.Advances WorkItemRow.version s.workItems i) : Advance s { s with workItems := i } :=
  ⟨.refl _, .refl _, .refl _, .refl _, h⟩

/-- The version of an aggregate never decreases. -/
theorem version_le (h : Advance s t) {target : RecordType × RecordId} {v : Nat}
    (hne : target.1 ≠ .sourceRevision) (hv : aggregateVersion s target.1 target.2 = some v) :
    ∃ v', aggregateVersion t target.1 target.2 = some v' ∧ v ≤ v' := by
  obtain ⟨type, id⟩ := target
  cases type with
  | sourceRevision => exact absurd rfl hne
  | claim => exact h.claims.le hv
  | conflict => exact h.conflicts.le hv
  | decisionRecord => exact h.decisionRecords.le hv
  | openQuestion => exact h.openQuestions.le hv
  | workItem => exact h.workItems.le hv

end Tables.Advance

variable {w w' : Txn} {reg : Registry}

/-! ### Continuity -/

/-- A row that is modified has the version its update gives it. -/
theorem modify_version {ρ : Type} {version : ρ → Nat} {table : Table RecordId ρ} {id : RecordId}
    {row : ρ} {f : ρ → ρ} (h : table[id]? = some row) :
    (table.modify id f)[id]?.map version = some (version (f row)) := by
  rw [Table.get_modify, if_pos rfl, h]
  rfl

theorem recordDecision_advance {decision : NewDecisionRecord}
    (h : recordDecision w decision.1 = .ok w') : w.tables.Advance w'.tables := by
  obtain ⟨hid, rfl⟩ := recordDecision_eq_ok.mp h
  exact .of_decisionRecords (.insert_new hid)

theorem supersedeDecision_advance {target : RecordId} {disposition : Disposition}
    {replacement : NewDecisionRecord} {rationale : String}
    (h : supersedeDecision w target disposition replacement.1 rationale = .ok w') :
    w.tables.Advance w'.tables ∧ w.tables.Bumps w'.tables (.decisionRecord, target) := by
  obtain ⟨row, hrow, _, hid, rfl⟩ := supersedeDecision_eq_ok.mp h
  have hne : target ≠ replacement.1.decisionId := by
    rintro rfl
    rw [hid] at hrow
    exact nomatch hrow
  refine ⟨.of_decisionRecords (.trans (.insert_new hid) (.modify fun r => Nat.lt_succ_self _)),
    row.version, row.version + 1, ?_, ?_, Nat.lt_succ_self _⟩
  · exact congrArg (Option.map DecisionRow.version) hrow
  · exact modify_version (by rw [Table.get_insert, if_neg hne, hrow])

theorem openQuestion_advance {question : NewOpenQuestion}
    (h : openQuestion w question.1 = .ok w') : w.tables.Advance w'.tables := by
  obtain ⟨hid, rfl⟩ := openQuestion_eq_ok.mp h
  exact .of_openQuestions (.insert_new hid)

theorem answerQuestion_advance {target : RecordId} {answer : QuestionAnswer}
    (h : answerQuestion w target answer = .ok w') :
    w.tables.Advance w'.tables ∧ w.tables.Bumps w'.tables (.openQuestion, target) := by
  obtain ⟨row, hrow, _, rfl⟩ := answerQuestion_eq_ok.mp h
  exact ⟨.of_openQuestions (.modify fun r => Nat.lt_succ_self _), row.version, row.version + 1,
    congrArg (Option.map QuestionRow.version) hrow, modify_version hrow, Nat.lt_succ_self _⟩

theorem dropQuestion_advance {target : RecordId} {drop : QuestionDrop}
    (h : dropQuestion w target drop = .ok w') :
    w.tables.Advance w'.tables ∧ w.tables.Bumps w'.tables (.openQuestion, target) := by
  obtain ⟨row, hrow, _, rfl⟩ := dropQuestion_eq_ok.mp h
  exact ⟨.of_openQuestions (.modify fun r => Nat.lt_succ_self _), row.version, row.version + 1,
    congrArg (Option.map QuestionRow.version) hrow, modify_version hrow, Nat.lt_succ_self _⟩

theorem createWorkItem_advance {workItem : NewWorkItem}
    (h : createWorkItem w workItem.1 = .ok w') : w.tables.Advance w'.tables := by
  obtain ⟨hid, rfl⟩ := createWorkItem_eq_ok.mp h
  exact .of_workItems (.insert_new hid)

theorem updateWorkItemStatus_advance {target : RecordId} {newStatus : WorkItemStatus}
    {blocker : Option (Bounded 1 4096)} {rationale : String} {updatedBy : ActorRef}
    {updatedAt : String}
    (h : updateWorkItemStatus w target newStatus blocker rationale updatedBy updatedAt = .ok w') :
    w.tables.Advance w'.tables ∧ w.tables.Bumps w'.tables (.workItem, target) := by
  obtain ⟨_, row, hrow, rfl⟩ := updateWorkItemStatus_eq_ok.mp h
  exact ⟨.of_workItems (.modify fun r => Nat.lt_succ_self _), row.version, row.version + 1,
    congrArg (Option.map WorkItemRow.version) hrow, modify_version hrow, Nat.lt_succ_self _⟩

/-! ### Sources, evidence and conflicts -/

theorem registerSourceRevision_advance {source : SourceRevision}
    (h : registerSourceRevision w source = .ok w') : w.tables.Advance w'.tables := by
  rcases registerSourceRevision_eq_ok.mp h with ⟨_, _, _, _, rfl⟩ | ⟨_, _, _, _, rfl⟩
  · exact .refl _
  · exact ⟨.refl _, .refl _, .refl _, .refl _, .refl _⟩

theorem validateAndInsertEvidence_advance {t t' : Tables} {link : EvidenceLink} {claimId : RecordId}
    (h : validateAndInsertEvidence t link claimId = .ok t') : t.Advance t' := by
  obtain ⟨_, _, _, _, rfl⟩ := validateAndInsertEvidence_eq_ok.mp h
  exact ⟨.refl _, .refl _, .refl _, .refl _, .refl _⟩

theorem attachEvidence_advance {link : EvidenceLink} (h : attachEvidence reg w link = .ok w') :
    w.tables.Advance w'.tables := by
  obtain ⟨_, _, t, _, _, _, _, ht, rfl⟩ := attachEvidence_eq_ok.mp h
  exact (validateAndInsertEvidence_advance ht).trans
    (.of_claims (.modify fun r => Nat.lt_succ_self _))

/-- The row a contradiction leaves behind lies above the one it replaces. -/
theorem conflictRowFor_above {t : Tables} {family : Hash} {kind : ConflictKind}
    {members : List RecordId} {openedSeq : Nat} {c : RecordId × ConflictRow}
    (h : conflictRowFor t family kind members openedSeq = .ok c) :
    ∀ old, t.conflicts[c.1]? = some old → old.version < c.2.version := by
  intro old hold
  rcases conflictRowFor_eq_ok.mp h with ⟨b, hb, rfl⟩ | ⟨_, b, hb, rfl⟩ | ⟨_, _, hb, rfl⟩
  · rw [(openConflict?_eq_some hb).1] at hold
    cases hold
    exact Nat.lt_succ_self _
  · rw [(resolvedConflict?_eq_some hb).1] at hold
    cases hold
    exact Nat.lt_succ_self _
  · rw [hb] at hold
    exact nomatch hold

theorem openConflictOf_advance {incoming : Claim} {family : Hash} {kind : ConflictKind}
    {found : List (RecordId × ConflictKind)} {openedSeq : Nat}
    (h : openConflictOf w incoming family kind found openedSeq = .ok w') :
    w.tables.Advance w'.tables := by
  rcases openConflictOf_eq_ok.mp h with ⟨_, rfl⟩ | ⟨_, c, hc, rfl⟩
  · exact .refl _
  · exact .of_conflicts (.insert (conflictRowFor_above hc))

theorem resolveConflict_advance {proposer : ActorRef} {op : ResolveConflict}
    (h : resolveConflict w proposer op = .ok w') :
    w.tables.Advance w'.tables ∧ w.tables.Bumps w'.tables (.conflict, op.conflictId) := by
  obtain ⟨row, hrow, _, rfl⟩ := resolveConflict_eq_ok.mp h
  exact ⟨.of_conflicts (.modify fun r => Nat.lt_succ_self _), row.version, row.version + 1,
    congrArg (Option.map ConflictRow.version) hrow, modify_version hrow, Nat.lt_succ_self _⟩

/-! ### Claims -/

theorem insertClaim_advance {t t' : Tables} {claim : Claim} {evidence : List EvidenceLink}
    (h : insertClaim t claim evidence = .ok t') : t.Advance t' := by
  obtain ⟨hid, hfold⟩ := insertClaim_eq_ok.mp h
  have hnew : t.Advance { t with claims := t.claims.insert claim.claimId claim.row } :=
    .of_claims (.insert_new hid)
  exact hnew.trans (foldlM_rel (R := Tables.Advance) .refl (fun _ _ _ => .trans)
    (fun _ _ _ _ hlink => validateAndInsertEvidence_advance hlink) hfold)

theorem retractClaim_advance {proposer : ActorRef} {op : RetractClaim}
    (h : retractClaim w proposer op = .ok w') :
    w.tables.Advance w'.tables ∧ w.tables.Bumps w'.tables (.claim, op.targetClaimId) := by
  obtain ⟨row, hrow, _, _, _, rfl⟩ := retractClaim_eq_ok.mp h
  exact ⟨.of_claims (.modify fun r => Nat.lt_succ_self _), row.version, row.version + 1,
    congrArg (Option.map ClaimRow.version) hrow, modify_version hrow, Nat.lt_succ_self _⟩

/-- Only a source has no version to bump. -/
theorem requiredRead?_ne {op : Operation} {target : RecordType × RecordId} (h : requiredRead? op = some target) :
    target.1 ≠ .sourceRevision := by
  cases op <;> simp only [requiredRead?, Option.some.injEq, reduceCtorEq] at h <;>
    (subst h; simp)

variable [Host]

theorem assertClaim_advance {claim : Claim} {evidence : List EvidenceLink} {ignored : List RecordId}
    {openedSeq : Nat} (h : assertClaim reg w claim evidence ignored openedSeq = .ok w') :
    w.tables.Advance w'.tables := by
  obtain ⟨_, t, _, ht, hopen⟩ := assertClaim_eq_ok.mp h
  obtain ⟨_, v, _, hv, hw⟩ := openConflicts_eq_ok.mp hopen
  exact (insertClaim_advance ht).trans
    ((openConflictOf_advance hv).trans (openConflictOf_advance hw))

theorem supersedeClaim_advance {op : SupersedeClaim} {openedSeq : Nat}
    (h : supersedeClaim reg w op openedSeq = .ok w') :
    w.tables.Advance w'.tables ∧ w.tables.Bumps w'.tables (.claim, op.targetClaimId) := by
  obtain ⟨row, v, hrow, _, hv, rfl⟩ := supersedeClaim_eq_ok.mp h
  have hadv := assertClaim_advance hv
  obtain ⟨row', hrow', _⟩ := hadv.claims _ row hrow
  obtain ⟨v', hv', hle⟩ := hadv.claims.le (congrArg (Option.map ClaimRow.version) hrow)
  rw [hrow'] at hv'
  obtain rfl := Option.some.inj hv'
  refine ⟨hadv.trans (.of_claims (.modify fun r => Nat.lt_succ_self _)), row.version,
    row'.version + 1, congrArg (Option.map ClaimRow.version) hrow, modify_version hrow', ?_⟩
  exact Nat.lt_succ_of_le hle

/-! ### Operations -/

variable {proposer : ActorRef} {openedSeq : Nat} {op : Operation}

/-- An operation keeps every row or gives it a larger version, and gives the aggregate
it must have read a larger one. -/
theorem applyOperation_advance (h : applyOperation reg proposer openedSeq w op = .ok w') :
    w.tables.Advance w'.tables ∧
      ∀ target, requiredRead? op = some target → w.tables.Bumps w'.tables target := by
  cases op with
  | registerSourceRevision _ source =>
    exact ⟨registerSourceRevision_advance h, fun _ ht => nomatch ht⟩
  | assertClaim claim evidence _ => exact ⟨assertClaim_advance h, fun _ ht => nomatch ht⟩
  | attachEvidence link _ => exact ⟨attachEvidence_advance h, fun _ ht => nomatch ht⟩
  | supersedeClaim op =>
    have hop := supersedeClaim_advance h
    exact ⟨hop.1, fun _ ht => Option.some.inj ht ▸ hop.2⟩
  | retractClaim op =>
    have hop := retractClaim_advance h
    exact ⟨hop.1, fun _ ht => Option.some.inj ht ▸ hop.2⟩
  | resolveConflict op =>
    have hop := resolveConflict_advance h
    exact ⟨hop.1, fun _ ht => Option.some.inj ht ▸ hop.2⟩
  | recordDecision decision _ => exact ⟨recordDecision_advance h, fun _ ht => nomatch ht⟩
  | supersedeDecision op =>
    have hop := supersedeDecision_advance h
    exact ⟨hop.1, fun _ ht => Option.some.inj ht ▸ hop.2⟩
  | openQuestion _ question => exact ⟨openQuestion_advance h, fun _ ht => nomatch ht⟩
  | answerQuestion answer _ target =>
    have hop := answerQuestion_advance h
    exact ⟨hop.1, fun _ ht => Option.some.inj ht ▸ hop.2⟩
  | dropQuestion drop _ target =>
    have hop := dropQuestion_advance h
    exact ⟨hop.1, fun _ ht => Option.some.inj ht ▸ hop.2⟩
  | createWorkItem _ workItem => exact ⟨createWorkItem_advance h, fun _ ht => nomatch ht⟩
  | updateWorkItemStatus op =>
    have hop := updateWorkItemStatus_advance h
    exact ⟨hop.1, fun _ ht => Option.some.inj ht ▸ hop.2⟩

theorem applyOperations_advance {t : Tables} {ops : List Operation}
    (h : applyOperations reg proposer openedSeq t ops = .ok w') : t.Advance w'.tables :=
  foldlM_rel (R := fun v v' : Txn => v.tables.Advance v'.tables) (fun v => .refl v.tables)
    (fun _ _ _ => .trans) (fun _ _ _ _ hop => (applyOperation_advance hop).1) h

/-- Over all operations, what one of them must have read gets a larger version. -/
theorem applyOperations_bumps {t : Tables} {ops : List Operation} {v : Nat}
    {target : RecordType × RecordId}
    (h : applyOperations reg proposer openedSeq t ops = .ok w') (hop : op ∈ ops)
    (htarget : requiredRead? op = some target)
    (hv : aggregateVersion t target.1 target.2 = some v) :
    ∃ v', aggregateVersion w'.tables target.1 target.2 = some v' ∧ v < v' := by
  have hne := requiredRead?_ne htarget
  obtain ⟨w1, w2, pre, post, -, hpre, hmid, hpost⟩ := foldlM_split hop h
  obtain ⟨v1, hv1, hle1⟩ := (applyOperations_advance hpre).version_le hne hv
  obtain ⟨a, b, ha, hb, hlt⟩ := (applyOperation_advance hmid).2 target htarget
  rw [hv1] at ha
  obtain rfl := Option.some.inj ha
  have hafter : w2.tables.Advance w'.tables :=
    foldlM_rel (R := fun v v' : Txn => v.tables.Advance v'.tables) (fun v => .refl v.tables)
      (fun _ _ _ => .trans) (fun _ _ _ _ hop => (applyOperation_advance hop).1) hpost
  obtain ⟨v3, hv3, hle3⟩ := hafter.version_le hne hb
  exact ⟨v3, hv3, by omega⟩

/-! ### The law -/

/-- The proposal reads the aggregate and expects version `v` of it. -/
def Proposal.Pins (p : Proposal) (target : RecordType × RecordId) (v : Nat) : Prop :=
  ∃ read, .aggregate read ∈ p.reads.1 ∧ (read.aggregateType, read.aggregateId) = target ∧
    read.expectedVersion.1.toInt? = some (v : Int)

/-- The proposal destructively changes the aggregate. -/
def Proposal.Changes (p : Proposal) (target : RecordType × RecordId) : Prop :=
  ∃ op ∈ p.operations.1, requiredRead? op = some target

/-- A proposal that passes the checks pins the current version of what it changes. -/
theorem pins_of_validateProposal {t : Tables} {p : Proposal} {target : RecordType × RecordId}
    (h : validateProposal reg t p = .ok ()) (hc : p.Changes target) :
    ∃ v, p.Pins target v ∧ aggregateVersion t target.1 target.2 = some v := by
  simp only [validateProposal, validateRequiredOperationReads, validateReadsAndGuards, bind_eq_ok,
    forM_eq_ok] at h
  obtain ⟨_, _, _, hreq, _, ⟨_, hreads, _⟩, _⟩ := h
  obtain ⟨op, hop, htarget⟩ := hc
  have hmem := hreq op hop
  simp only [htarget, require_eq_ok, aggregateReads, List.mem_filterMap] at hmem
  obtain ⟨read, hread, heq⟩ := hmem
  cases read with
  | collection read => cases heq
  | aggregate read =>
    obtain rfl := Option.some.inj heq
    have hv := hreads _ hread
    simp only [validateRead, validateVersion, requireNow_eq_ok] at hv
    obtain ⟨v, hv, hpy⟩ := hv
    exact ⟨v, ⟨read, hread, rfl, (PyNum.pyEq_int_iff _ _).mp hpy⟩, hv⟩

/-- Whatever version a proposal pins is the current one. -/
theorem version_of_pins {t : Tables} {p : Proposal} {target : RecordType × RecordId} {v : Nat}
    (h : validateProposal reg t p = .ok ()) (hp : p.Pins target v) :
    aggregateVersion t target.1 target.2 = some v := by
  simp only [validateProposal, validateReadsAndGuards, bind_eq_ok, forM_eq_ok] at h
  obtain ⟨_, _, _, _, _, ⟨_, hreads, _⟩, _⟩ := h
  obtain ⟨read, hread, rfl, hnum⟩ := hp
  have hv := hreads _ hread
  simp only [validateRead, validateVersion, requireNow_eq_ok] at hv
  obtain ⟨v', hv', hpy⟩ := hv
  rw [PyNum.pyEq_int_iff, hnum] at hpy
  have heq : v = v' := by exact_mod_cast Option.some.inj hpy
  exact heq ▸ hv'

section

variable {ι : Type} [DecidableEq ι] {s t u : Sys ι} {ev : Event ι}

theorem Step.advance (h : Step reg s ev u) : s.db.tables.Advance u.db.tables := by
  rcases h.db_cases with h | ⟨_, _, _, _, e, _, _, hacc, rfl, _⟩ |
      ⟨_, _, _, _, _, _, _, _, _, rfl, _⟩
  · rw [h]
    exact .refl _
  · obtain ⟨_, _, hops, _⟩ := evaluate_eq_ok.mp hacc.evaluated
    exact applyOperations_advance hops
  · exact .refl _

theorem RunWhere.advance {P : Sys ι → Event ι → Prop} {es : List (Event ι)}
    (h : RunWhere reg P s es u) : s.db.tables.Advance u.db.tables :=
  h.inv (Q := fun u => s.db.tables.Advance u.db.tables) (.refl _)
    fun _ _ _ _ hq hstep => hq.trans hstep.advance

/-- The version a committed proposal pins of what it changes is the one before its
transaction, and a larger one stands after it. -/
theorem Step.bumps (h : Step reg s ev u) {p : Proposal} {target : RecordType × RecordId}
    (hp : Commits s.db u.db p) (hc : p.Changes target) :
    ∃ v v', p.Pins target v ∧ aggregateVersion s.db.tables target.1 target.2 = some v ∧
      aggregateVersion u.db.tables target.1 target.2 = some v' ∧ v < v' := by
  obtain ⟨_, _, _, _, e, row, _, hacc, rfl, hdb⟩ := h.accepts_of_commits hp
  obtain ⟨_, hvalid, hops, _⟩ := evaluate_eq_ok.mp hacc.evaluated
  obtain ⟨v, hpins, hv⟩ := pins_of_validateProposal hvalid hc
  obtain ⟨op, hop, htarget⟩ := hc
  obtain ⟨v', hv', hlt⟩ := applyOperations_bumps hops hop htarget hv
  exact ⟨v, v', hpins, hv, by rw [hdb]; exact hv', hlt⟩

theorem Step.version_of_pins (h : Step reg s ev u) {p : Proposal} {v : Nat}
    {target : RecordType × RecordId} (hp : Commits s.db u.db p) (hpins : p.Pins target v) :
    aggregateVersion s.db.tables target.1 target.2 = some v := by
  obtain ⟨_, _, _, _, e, row, _, hacc, rfl, _⟩ := h.accepts_of_commits hp
  obtain ⟨_, hvalid, _⟩ := evaluate_eq_ok.mp hacc.evaluated
  exact SharedMind.version_of_pins hvalid hpins

end

end SharedMind
