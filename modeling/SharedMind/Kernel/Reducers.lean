import SharedMind.Kernel.Validate

/-!
# What each reducer can do

One lemma a reducer: it succeeds exactly when its checks hold, and then changes its
own table and appends its own event.  The proofs about runs use these lemmas and
unfold no reducer.
-/

namespace SharedMind

open Py

variable {w w' : Txn} {reg : Registry}

/-! ### Continuity -/

theorem ensureAvailable_eq_ok {ρ : Type} {table : Table RecordId ρ} {id : RecordId} {u : Unit} :
    ensureAvailable table id = .ok u ↔ table[id]? = none := by
  rw [ensureAvailable, require_eq_ok, Table.contains_eq_false_iff]

theorem validateNewDecision_eq_ok {d : DecisionDoc} {n : NewDecisionRecord} :
    validateNewDecision d = .ok n ↔ n.1 = d := by
  unfold validateNewDecision
  by_cases h : d.IsNew
  · rw [dif_pos h, Except.ok.injEq]
    exact ⟨fun hn => hn ▸ rfl, fun hn => Subtype.ext hn.symm⟩
  · rw [dif_neg h]
    exact ⟨fun hn => (nomatch hn), fun hn => absurd (hn ▸ n.2) h⟩

theorem validateNewQuestion_eq_ok {q : QuestionDoc} {n : NewOpenQuestion} :
    validateNewQuestion q = .ok n ↔ n.1 = q := by
  unfold validateNewQuestion
  by_cases h : q.IsNew
  · rw [dif_pos h, Except.ok.injEq]
    exact ⟨fun hn => hn ▸ rfl, fun hn => Subtype.ext hn.symm⟩
  · rw [dif_neg h]
    exact ⟨fun hn => (nomatch hn), fun hn => absurd (hn ▸ n.2) h⟩

theorem validateNewWorkItem_eq_ok {i : WorkItemDoc} {n : NewWorkItem} :
    validateNewWorkItem i = .ok n ↔ n.1 = i := by
  unfold validateNewWorkItem
  by_cases h : i.IsNew
  · rw [dif_pos h, Except.ok.injEq]
    exact ⟨fun hn => hn ▸ rfl, fun hn => Subtype.ext hn.symm⟩
  · rw [dif_neg h]
    exact ⟨fun hn => (nomatch hn), fun hn => absurd (hn ▸ n.2) h⟩

theorem recordDecision_eq_ok {decision : NewDecisionRecord} :
    recordDecision w decision.1 = .ok w' ↔
      w.tables.decisionRecords[decision.1.decisionId]? = none ∧
      w' = w.emit { w.tables with
          decisionRecords := w.tables.decisionRecords.insert decision.1.decisionId decision.1.row }
        (.decisionRecorded decision) := by
  simp only [recordDecision, bind_eq_ok, pure_eq_ok, validateNewDecision_eq_ok,
    ensureAvailable_eq_ok]
  constructor
  · rintro ⟨n, hn, _, hid, rfl⟩
    exact ⟨hid, by rw [Subtype.ext hn]⟩
  · rintro ⟨hid, rfl⟩
    exact ⟨decision, rfl, (), hid, rfl⟩

theorem supersedeDecision_eq_ok {target : RecordId} {disposition : Disposition}
    {replacement : NewDecisionRecord} {rationale : String} :
    supersedeDecision w target disposition replacement.1 rationale = .ok w' ↔
      ∃ row, w.tables.decisionRecords[target]? = some row ∧ row.status = .active ∧
      w.tables.decisionRecords[replacement.1.decisionId]? = none ∧
      w' = w.emit { w.tables with
          decisionRecords := (w.tables.decisionRecords.insert replacement.1.decisionId
            replacement.1.row).modify target
              fun r => r.supersede disposition replacement.1.decisionId }
        (.decisionSuperseded {
          newVersion := .int (row.version + 1 : Nat), previousVersion := .int row.version,
          rationale := rationale, replacementDecision := replacement, targetDecisionId := target,
          targetDisposition := disposition }) := by
  simp only [supersedeDecision, bind_eq_ok, pure_eq_ok, validateNewDecision_eq_ok,
    ensureAvailable_eq_ok, orRaise_eq_ok, requireNow_eq_ok]
  constructor
  · rintro ⟨row, hrow, _, hst, n, hn, _, hid, rfl⟩
    exact ⟨row, hrow, hst, hid, by rw [Subtype.ext hn]⟩
  · rintro ⟨row, hrow, hst, hid, rfl⟩
    exact ⟨row, hrow, (), hst, replacement, rfl, (), hid, rfl⟩

theorem openQuestion_eq_ok {question : NewOpenQuestion} :
    openQuestion w question.1 = .ok w' ↔
      w.tables.openQuestions[question.1.questionId]? = none ∧
      w' = w.emit { w.tables with
          openQuestions := w.tables.openQuestions.insert question.1.questionId
            ⟨question.1.status, question.1.version.toNat, none, none, question.1⟩ }
        (.questionOpened question) := by
  simp only [openQuestion, bind_eq_ok, pure_eq_ok, validateNewQuestion_eq_ok,
    ensureAvailable_eq_ok]
  constructor
  · rintro ⟨n, hn, _, hid, rfl⟩
    exact ⟨hid, by rw [Subtype.ext hn]⟩
  · rintro ⟨hid, rfl⟩
    exact ⟨question, rfl, (), hid, rfl⟩

theorem openQuestionTarget_eq_ok {target : RecordId} {row : QuestionRow} :
    openQuestionTarget w target = .ok row ↔
      w.tables.openQuestions[target]? = some row ∧ row.status = .open := by
  simp only [openQuestionTarget, bind_eq_ok, pure_eq_ok, orRaise_eq_ok, requireNow_eq_ok]
  constructor
  · rintro ⟨r, hr, _, hst, rfl⟩
    exact ⟨hr, hst⟩
  · rintro ⟨hr, hst⟩
    exact ⟨row, hr, (), hst, rfl⟩

theorem answerQuestion_eq_ok {target : RecordId} {answer : QuestionAnswer} :
    answerQuestion w target answer = .ok w' ↔
      ∃ row, w.tables.openQuestions[target]? = some row ∧ row.status = .open ∧
      w' = w.emit { w.tables with
          openQuestions := w.tables.openQuestions.modify target
            fun r => r.close .answered answer none }
        (.questionAnswered answer (.int (row.version + 1 : Nat)) (.int row.version) target) := by
  simp only [answerQuestion, bind_eq_ok, pure_eq_ok, openQuestionTarget_eq_ok]
  constructor
  · intro h
    obtain ⟨row, ⟨hr, hst⟩, h⟩ := h
    exact ⟨row, hr, hst, h.symm⟩
  · intro h
    obtain ⟨row, hr, hst, h⟩ := h
    exact ⟨row, ⟨hr, hst⟩, h.symm⟩

theorem dropQuestion_eq_ok {target : RecordId} {drop : QuestionDrop} :
    dropQuestion w target drop = .ok w' ↔
      ∃ row, w.tables.openQuestions[target]? = some row ∧ row.status = .open ∧
      w' = w.emit { w.tables with
          openQuestions := w.tables.openQuestions.modify target
            fun r => r.close .dropped none drop }
        (.questionDropped drop (.int (row.version + 1 : Nat)) (.int row.version) target) := by
  simp only [dropQuestion, bind_eq_ok, pure_eq_ok, openQuestionTarget_eq_ok]
  constructor
  · intro h
    obtain ⟨row, ⟨hr, hst⟩, h⟩ := h
    exact ⟨row, hr, hst, h.symm⟩
  · intro h
    obtain ⟨row, hr, hst, h⟩ := h
    exact ⟨row, ⟨hr, hst⟩, h.symm⟩

theorem createWorkItem_eq_ok {workItem : NewWorkItem} :
    createWorkItem w workItem.1 = .ok w' ↔
      w.tables.workItems[workItem.1.workItemId]? = none ∧
      w' = w.emit { w.tables with
          workItems := w.tables.workItems.insert workItem.1.workItemId
            ⟨workItem.1.status, workItem.1.version.toNat, workItem.1.blocker, workItem.1.updatedAt,
              workItem.1⟩ }
        (.workItemCreated workItem) := by
  simp only [createWorkItem, bind_eq_ok, pure_eq_ok, validateNewWorkItem_eq_ok,
    ensureAvailable_eq_ok]
  constructor
  · rintro ⟨n, hn, _, hid, rfl⟩
    exact ⟨hid, by rw [Subtype.ext hn]⟩
  · rintro ⟨hid, rfl⟩
    exact ⟨workItem, rfl, (), hid, rfl⟩

theorem updateWorkItemStatus_eq_ok {target : RecordId} {newStatus : WorkItemStatus}
    {blocker : Option (Bounded 1 4096)} {rationale : String} {updatedBy : ActorRef}
    {updatedAt : String} :
    updateWorkItemStatus w target newStatus blocker rationale updatedBy updatedAt = .ok w' ↔
      (newStatus = .blocked ↔ blocker.isSome = true) ∧
      ∃ row, w.tables.workItems[target]? = some row ∧
      w' = w.emit { w.tables with
          workItems := w.tables.workItems.modify target
            fun r => r.update newStatus blocker updatedAt }
        (.workItemStatusUpdated {
          blocker := blocker, newStatus := newStatus, newVersion := .int (row.version + 1 : Nat),
          previousStatus := row.status, previousVersion := .int row.version,
          rationale := rationale, targetWorkItemId := target, updatedAt := updatedAt,
          updatedBy := updatedBy }) := by
  simp only [updateWorkItemStatus, bind_eq_ok, pure_eq_ok, orRaise_eq_ok, require_eq_ok]
  constructor
  · rintro ⟨_, hb, row, hrow, rfl⟩
    exact ⟨hb, row, hrow, rfl⟩
  · rintro ⟨hb, row, hrow, rfl⟩
    exact ⟨(), hb, row, hrow, rfl⟩

/-! ### Sources -/

/-- A source is registered once; registering it again changes no row. -/
theorem registerSourceRevision_eq_ok {source : SourceRevision} :
    registerSourceRevision w source = .ok w' ↔
      (∃ row, w.tables.sources[source.revisionId]? = some row ∧
        row.contentHash = source.contentHash ∧ sha256Bytes row.content = source.contentHash ∧
        w' = w.emit w.tables (.sourceRevisionRegistered source)) ∨
      (w.tables.sources[source.revisionId]? = none ∧
        ∃ content, contentFromBlobRef source.blobRef = some content ∧
        sha256Bytes content = source.contentHash ∧
        w' = w.emit { w.tables with
            sources := w.tables.sources.insert source.revisionId
              ⟨source.contentHash, source, content⟩ }
          (.sourceRevisionRegistered source)) := by
  unfold registerSourceRevision
  cases hs : w.tables.sources[source.revisionId]? with
  | none =>
    simp only [bind_eq_ok, pure_eq_ok, orRaise_eq_ok, require_eq_ok]
    constructor
    · rintro ⟨content, hc, _, hh, rfl⟩
      exact Or.inr ⟨trivial, content, hc, hh, rfl⟩
    · rintro (⟨row, h, _⟩ | ⟨_, content, hc, hh, rfl⟩)
      · cases h
      · exact ⟨content, hc, (), hh, rfl⟩
  | some row =>
    simp only [bind_eq_ok, pure_eq_ok, require_eq_ok]
    constructor
    · rintro ⟨_, h1, _, h2, rfl⟩
      exact Or.inl ⟨row, rfl, h1, h2, rfl⟩
    · rintro (⟨r, h, h1, h2, rfl⟩ | ⟨h, _⟩)
      · obtain rfl := Option.some.inj h
        exact ⟨(), h1, (), h2, rfl⟩
      · cases h

/-! ### Evidence -/

/-- The excerpt of a link is what its source has there. -/
structure Backed (content : Bytes) (selector : TextSelector) (start stop : Nat) : Prop where
  start_eq : sliceIndex selector.startByte.1 = .ok start
  stop_eq : sliceIndex selector.endByte.1 = .ok stop
  decoded : utf8Decode? (slice content start stop) = some (selector.excerpt : String)
  hashed : sha256Bytes (slice content start stop) = selector.excerptHash

theorem validateAndInsertEvidence_eq_ok {t t' : Tables} {link : EvidenceLink} {claimId : RecordId} :
    validateAndInsertEvidence t link claimId = .ok t' ↔
      link.claimId = claimId ∧
      (∃ source start stop, t.sources[link.sourceRevisionId]? = some source ∧
        Backed source.content link.selector start stop) ∧
      t.evidence[link.evidenceLinkId]? = none ∧ (∃ row, t.claims[claimId]? = some row) ∧
      t' = { t with evidence :=
        t.evidence.insert link.evidenceLinkId ⟨claimId, link.sourceRevisionId, link⟩ } := by
  simp only [validateAndInsertEvidence, bind_eq_ok, pure_eq_ok, orRaise_eq_ok, require_eq_ok,
    ensure_eq_ok, Table.contains_eq_false_iff, Table.contains_iff]
  constructor
  · rintro ⟨_, hc, source, hs, start, h1, stop, h2, text, hd, _, ⟨rfl, hh⟩, _, he, _, hr, rfl⟩
    exact ⟨hc, ⟨source, start, stop, hs, h1, h2, hd, hh⟩, he, hr, rfl⟩
  · rintro ⟨hc, ⟨source, start, stop, hs, h1, h2, hd, hh⟩, he, hr, rfl⟩
    exact ⟨(), hc, source, hs, start, h1, stop, h2, _, hd, (), ⟨rfl, hh⟩, (), he, (), hr, rfl⟩

/-- A claim row with one more piece of evidence. -/
def ClaimRow.touch (row : ClaimRow) : ClaimRow := { row with version := row.version + 1 }

theorem attachEvidence_eq_ok {link : EvidenceLink} :
    attachEvidence reg w link = .ok w' ↔
      ∃ row predicate t, w.tables.claims[link.claimId]? = some row ∧ row.status = .active ∧
      reg.predicate? row.proposition.predicate = some predicate ∧
      validateEvidenceInterpretations predicate [link] = .ok () ∧
      validateAndInsertEvidence w.tables link link.claimId = .ok t ∧
      w' = w.emit { t with claims := t.claims.modify link.claimId ClaimRow.touch }
        (.evidenceAttached link) := by
  simp only [attachEvidence, bind_eq_ok, pure_eq_ok, orRaise_eq_ok, requireNow_eq_ok]
  constructor
  · rintro ⟨row, hrow, _, hst, predicate, hp, _, hi, t, ht, rfl⟩
    exact ⟨row, predicate, t, hrow, hst, hp, hi, ht, rfl⟩
  · rintro ⟨row, predicate, t, hrow, hst, hp, hi, ht, rfl⟩
    exact ⟨row, hrow, (), hst, predicate, hp, (), hi, t, ht, rfl⟩

/-! ### Conflicts -/

/-- The row a contradiction leaves behind merges an open conflict, reopens a resolved
one or is new. -/
theorem conflictRowFor_eq_ok {t : Tables} {family : Hash} {kind : ConflictKind}
    {members : List RecordId} {openedSeq : Nat} {c : RecordId × ConflictRow} :
    conflictRowFor t family kind members openedSeq = .ok c ↔
      (∃ b, openConflict? t family kind = some b ∧ c = (b.1, b.2.merge members)) ∨
      (openConflict? t family kind = none ∧ ∃ b, resolvedConflict? t family kind = some b ∧
        c = (b.1, b.2.reopen members openedSeq)) ∨
      (openConflict? t family kind = none ∧ resolvedConflict? t family kind = none ∧
        t.conflicts[conflictIdOf (sortedSet members)]? = none ∧
        c = (conflictIdOf (sortedSet members), .new family kind members openedSeq)) := by
  unfold conflictRowFor
  cases ho : openConflict? t family kind with
  | some b => simp [eq_comm]
  | none =>
    cases hr : resolvedConflict? t family kind with
    | some b => simp [eq_comm]
    | none =>
      simp only [bind_eq_ok, pure_eq_ok, ensure_eq_ok, Table.contains_eq_false_iff]
      simp [eq_comm]

/-- The claims a kind of contradiction is found with. -/
def membersOf (found : List (RecordId × ConflictKind)) (kind : ConflictKind) : List RecordId :=
  (found.filter fun f => f.2 = kind).map Prod.fst

theorem mem_membersOf {found : List (RecordId × ConflictKind)} {kind : ConflictKind}
    {id : RecordId} : id ∈ membersOf found kind ↔ (id, kind) ∈ found := by
  simp [membersOf]

theorem openConflictOf_eq_ok {incoming : Claim} {family : Hash} {kind : ConflictKind}
    {found : List (RecordId × ConflictKind)} {openedSeq : Nat} :
    openConflictOf w incoming family kind found openedSeq = .ok w' ↔
      (membersOf found kind = [] ∧ w' = w) ∨
      (membersOf found kind ≠ [] ∧ ∃ c, conflictRowFor w.tables family kind
          (incoming.claimId :: membersOf found kind) openedSeq = .ok c ∧
        w' = ⟨{ w.tables with conflicts := w.tables.conflicts.insert c.1 c.2 },
          w.events ++ [.conflictOpened (conflictDocument c.1 c.2)], w.conflictIds ++ [c.1]⟩) := by
  unfold openConflictOf
  rw [← membersOf]
  cases membersOf found kind with
  | nil => simp [eq_comm]
  | cons m ms =>
    simp only [bind_eq_ok, pure_eq_ok, reduceCtorEq, false_and, ne_eq, not_false_eq_true, true_and,
      false_or]
    constructor
    · rintro ⟨c, hc, rfl⟩
      exact ⟨c, hc, rfl⟩
    · rintro ⟨c, hc, rfl⟩
      exact ⟨c, hc, rfl⟩

/-! ### Claims -/

theorem insertClaim_eq_ok {t t' : Tables} {claim : Claim} {evidence : List EvidenceLink} :
    insertClaim t claim evidence = .ok t' ↔
      t.claims[claim.claimId]? = none ∧
      evidence.foldlM (fun t link => validateAndInsertEvidence t link claim.claimId)
        { t with claims := t.claims.insert claim.claimId claim.row } = .ok t' := by
  simp only [insertClaim, bind_eq_ok, ensure_eq_ok, Table.contains_eq_false_iff]
  constructor
  · intro h
    obtain ⟨_, h, h'⟩ := h
    exact ⟨h, h'⟩
  · intro h
    exact ⟨(), h.1, h.2⟩

theorem retractClaim_eq_ok {proposer : ActorRef} {op : RetractClaim} :
    retractClaim w proposer op = .ok w' ↔
      ∃ row, w.tables.claims[op.targetClaimId]? = some row ∧ row.status = .active ∧
      actorIsAuthorized proposer row.document.assertedBy = true ∧
      (∀ id ∈ op.evidenceLinkIds.1, ∃ e ∈ w.tables.evidence[id]?, e.claimId = op.targetClaimId) ∧
      w' = w.emit { w.tables with
          claims := w.tables.claims.modify op.targetClaimId ClaimRow.retract }
        (.claimRetracted proposer op.authorityPolicyVersion op.rationale op.targetClaimId) := by
  simp only [retractClaim, bind_eq_ok, pure_eq_ok, orRaise_eq_ok, requireNow_eq_ok, require_eq_ok]
  constructor
  · rintro ⟨row, hrow, _, hst, _, ha, _, he, rfl⟩
    exact ⟨row, hrow, hst, ha, he, rfl⟩
  · rintro ⟨row, hrow, hst, ha, he, rfl⟩
    exact ⟨row, hrow, (), hst, (), ha, (), he, rfl⟩

/-- What a resolution must satisfy against the row of its conflict. -/
structure Resolves (t : Tables) (proposer : ActorRef) (op : ResolveConflict) (row : ConflictRow) :
    Prop where
  status : row.status = .open
  digest : row.memberDigest = op.expectedMemberDigest
  epoch : op.resolution.resolutionEpoch.eqInt row.episode = true
  authorized : actorIsAuthorized proposer op.resolution.resolver = true
  apart : ∀ id ∈ op.resolution.selectedClaimIds.1, id ∉ op.resolution.rejectedClaimIds.1
  covers : sortedSet (op.resolution.selectedClaimIds.1 ++ op.resolution.rejectedClaimIds.1) =
    sortedSet row.members
  evidence : ∀ id ∈ op.resolution.evidenceLinkIds.1, ∃ e ∈ t.evidence[id]?, e.claimId ∈ row.members

theorem resolveConflict_eq_ok {proposer : ActorRef} {op : ResolveConflict} :
    resolveConflict w proposer op = .ok w' ↔
      ∃ row, w.tables.conflicts[op.conflictId]? = some row ∧
      Resolves w.tables proposer op row ∧
      w' = w.emit { w.tables with
          conflicts := w.tables.conflicts.modify op.conflictId fun r => r.resolve op.resolution }
        (.conflictResolved op.conflictId op.resolution) := by
  simp only [resolveConflict, bind_eq_ok, pure_eq_ok, orRaise_eq_ok, requireNow_eq_ok,
    require_eq_ok]
  constructor
  · rintro ⟨row, hrow, _, h1, _, h2, _, h3, _, h4, _, ⟨h5, h6⟩, _, h7, rfl⟩
    exact ⟨row, hrow, ⟨h1, h2, h3, h4, h5, h6, h7⟩, rfl⟩
  · rintro ⟨row, hrow, ⟨h1, h2, h3, h4, h5, h6, h7⟩, rfl⟩
    exact ⟨row, hrow, (), h1, (), h2, (), h3, (), h4, (), ⟨h5, h6⟩, (), h7, rfl⟩

/-! ### Asserting -/

variable [Host]

theorem openConflicts_eq_ok {incoming : Claim} {predicate : PredicateDefinition}
    {ignored : List RecordId} {openedSeq : Nat} :
    openConflicts w incoming predicate ignored openedSeq = .ok w' ↔
      ∃ found v, contradicting w.tables incoming predicate ignored = .ok found ∧
      openConflictOf w incoming (familyKey incoming.proposition predicate)
        .exclusiveValueConflict found openedSeq = .ok v ∧
      openConflictOf v incoming (familyKey incoming.proposition predicate)
        .polarityConflict found openedSeq = .ok w' := by
  simp only [openConflicts, bind_eq_ok]
  constructor
  · intro h
    obtain ⟨found, hf, v, hv, h⟩ := h
    exact ⟨found, v, hf, hv, h⟩
  · intro h
    obtain ⟨found, v, hf, hv, h⟩ := h
    exact ⟨found, hf, v, hv, h⟩

theorem assertClaim_eq_ok {claim : Claim} {evidence : List EvidenceLink} {ignored : List RecordId}
    {openedSeq : Nat} :
    assertClaim reg w claim evidence ignored openedSeq = .ok w' ↔
      ∃ predicate t, validateClaim reg claim evidence = .ok predicate ∧
      insertClaim w.tables claim evidence = .ok t ∧
      openConflicts (w.emit t (.claimAsserted claim evidence)) claim predicate ignored openedSeq =
        .ok w' := by
  simp only [assertClaim, bind_eq_ok]
  constructor
  · intro h
    obtain ⟨p, hp, t, ht, h⟩ := h
    exact ⟨p, t, hp, ht, h⟩
  · intro h
    obtain ⟨p, t, hp, ht, h⟩ := h
    exact ⟨p, hp, t, ht, h⟩

theorem supersedeClaim_eq_ok {op : SupersedeClaim} {openedSeq : Nat} :
    supersedeClaim reg w op openedSeq = .ok w' ↔
      ∃ row v, w.tables.claims[op.targetClaimId]? = some row ∧ row.status = .active ∧
      assertClaim reg w op.replacementClaim op.initialEvidence.1 [op.targetClaimId] openedSeq =
        .ok v ∧
      w' = v.emit { v.tables with
          claims := v.tables.claims.modify op.targetClaimId
            fun r => r.supersede op.replacementClaim.claimId }
        (.claimSuperseded op.rationale op.replacementClaim.claimId op.targetClaimId) := by
  simp only [supersedeClaim, bind_eq_ok, pure_eq_ok, orRaise_eq_ok, requireNow_eq_ok]
  constructor
  · rintro ⟨row, hrow, _, hst, v, hv, rfl⟩
    exact ⟨row, v, hrow, hst, hv, rfl⟩
  · rintro ⟨row, v, hrow, hst, hv, rfl⟩
    exact ⟨row, hrow, (), hst, v, hv, rfl⟩

end SharedMind
