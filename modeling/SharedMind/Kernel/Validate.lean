import SharedMind.Kernel.Claims

/-!
# What a proposal must satisfy before it is applied

* `validateVersions`, `validateRequiredOperationReads`, `validateReadsAndGuards`,
  `validateContinuityReferences`: the checks of `_commit`, in its order.
* `predictedConflictIds`: the conflicts a proposal will open, which its own
  continuity records may already name.
-/

namespace SharedMind

open Py

variable [Host]

/-! ### Versions -/

/-- `SUPPORTED_VERSIONS["schema"]`. -/
def supportedSchema : String := "1.3.0"

/-- `_validate_versions`. -/
def validateVersions (reg : Registry) (versions : VersionBundle) : Kernel Unit := do
  require ((versions.1.schema : String) = supportedSchema) .unsupportedSchemaVersion
  require (versions.1.predicateRegistry = reg.version) .unsupportedPredicateRegistry
  require (versions.1.predicateRegistryHash = some reg.hash) .predicateRegistryContentMismatch
  require ((versions.1.conflictRules : String) = "conflict-rules@1")
    .unsupportedConflictRulesVersion
  require (versions.1.guardDsl = reg.guardDslVersion) .unsupportedGuardDslVersion
  require ((versions.1.projection : String) = "markdown-projection@3")
    .unsupportedProjectionVersion

/-! ### Required reads -/

/-- The aggregate an operation destructively changes, which it must have read. -/
def requiredRead? : Operation → Option (RecordType × RecordId)
  | .supersedeClaim op => some (.claim, op.targetClaimId)
  | .retractClaim op => some (.claim, op.targetClaimId)
  | .resolveConflict op => some (.conflict, op.conflictId)
  | .supersedeDecision op => some (.decisionRecord, op.targetDecisionId)
  | .answerQuestion _ _ target => some (.openQuestion, target)
  | .dropQuestion _ _ target => some (.openQuestion, target)
  | .updateWorkItemStatus op => some (.workItem, op.1.targetWorkItemId)
  | _ => none

def missingReadCode : RecordType → ReasonCode
  | .conflict => .missingRequiredConflictRead
  | .decisionRecord => .missingRequiredDecisionRead
  | .openQuestion => .missingRequiredQuestionRead
  | .workItem => .missingRequiredWorkItemRead
  | _ => .missingRequiredClaimRead

/-- The aggregates a list of reads covers. -/
def aggregateReads (reads : List ReadRef) : List (RecordType × RecordId) :=
  reads.filterMap fun
    | .aggregate read => some (read.aggregateType, read.aggregateId)
    | .collection _ => none

/-- `_validate_required_operation_reads`. -/
def validateRequiredOperationReads (p : Proposal) : Kernel Unit :=
  p.operations.1.forM fun op =>
    match requiredRead? op with
    | none => pure ()
    | some target => require (target ∈ aggregateReads p.reads.1) (missingReadCode target.1)

/-! ### Reads and guards -/

/-- The version a read of an aggregate compares with. -/
def aggregateVersion (t : Tables) (type : RecordType) (id : RecordId) : Option Nat :=
  match type with
  | .sourceRevision => some (if t.sources.contains id then 1 else 0)
  | .claim => t.claims[id]?.map ClaimRow.version
  | .conflict => t.conflicts[id]?.map ConflictRow.version
  | .decisionRecord => t.decisionRecords[id]?.map DecisionRow.version
  | .openQuestion => t.openQuestions[id]?.map QuestionRow.version
  | .workItem => t.workItems[id]?.map WorkItemRow.version

def versionMismatchCode : RecordType → ReasonCode
  | .sourceRevision => .sourceRevisionVersionMismatch
  | .claim => .claimVersionMismatch
  | .conflict => .conflictVersionMismatch
  | .decisionRecord => .decisionVersionMismatch
  | .openQuestion => .questionVersionMismatch
  | .workItem => .workItemVersionMismatch

def validateRead (reg : Registry) (t : Tables) : ReadRef → Kernel Unit
  | .collection read =>
    requireNow (activeSetDigest reg t read.familyKey = read.expectedDigest)
      .activeSetDigestMismatch
  | .aggregate read =>
    validateVersion (aggregateVersion t read.aggregateType read.aggregateId) read.expectedVersion.1
      (versionMismatchCode read.aggregateType)

def validateGuard (reg : Registry) (t : Tables) : Guard → Kernel Unit
  | .claimStatusEq id expected =>
    validateColumn (t.claims[id]?.map ClaimRow.status) expected .claimStatusMismatch
  | .claimVersionEq id expected =>
    validateVersion (t.claims[id]?.map ClaimRow.version) expected.1 .claimVersionMismatch
  | .conflictStatusEq id expected =>
    validateColumn (t.conflicts[id]?.map ConflictRow.status) expected .conflictStatusMismatch
  | .conflictMemberDigestEq id expected =>
    validateColumn (t.conflicts[id]?.map ConflictRow.memberDigest) expected
      .conflictMemberDigestMismatch
  | .activeSetDigestEq expected family =>
    requireNow (activeSetDigest reg t family = expected) .activeSetDigestMismatch
  | .sourceHashEq expected id =>
    validateColumn (t.sources[id]?.map SourceRow.contentHash) expected .sourceHashMismatch
  | .noActiveClaim family =>
    requireNow ((activeFamilyMembers reg t family).isEmpty = true) .activeClaimExists
  | .decisionStatusEq id expected =>
    validateColumn (t.decisionRecords[id]?.map DecisionRow.status) expected .decisionStatusMismatch
  | .decisionVersionEq id expected =>
    validateVersion (t.decisionRecords[id]?.map DecisionRow.version) expected.1
      .decisionVersionMismatch
  | .questionStatusEq expected id =>
    validateColumn (t.openQuestions[id]?.map QuestionRow.status) expected .questionStatusMismatch
  | .questionVersionEq expected id =>
    validateVersion (t.openQuestions[id]?.map QuestionRow.version) expected.1
      .questionVersionMismatch
  | .workItemStatusEq expected id =>
    validateColumn (t.workItems[id]?.map WorkItemRow.status) expected .workItemStatusMismatch
  | .workItemVersionEq expected id =>
    validateVersion (t.workItems[id]?.map WorkItemRow.version) expected.1 .workItemVersionMismatch

/-- `_validate_reads_and_guards`. -/
def validateReadsAndGuards (reg : Registry) (t : Tables) (p : Proposal) : Kernel Unit := do
  p.reads.1.forM (validateRead reg t)
  p.guards.1.forM (validateGuard reg t)

/-! ### Predicted conflicts -/

/-- What `_predicted_conflict_ids` carries along the operations.  `active` is a dict,
listed in the order of insertion. -/
structure Prediction where
  active : List (RecordId × Proposition)
  episodes : Hash → ConflictKind → Option RecordId
  predicted : List RecordId

namespace Prediction

/-- The conflict of a family and kind: an open one first, then the highest episode. -/
def storedEpisode (t : Tables) (family : Hash) (kind : ConflictKind) : Option RecordId :=
  let rows := t.conflicts.toList.filter fun c => c.2.familyKey = family ∧ c.2.kind = kind
  match latest (rows.filter fun c => c.2.status = .open) with
  | some c => some c.1
  | none => (latest rows).map Prod.fst

def start (t : Tables) : Prediction where
  active := (t.claims.toList.filter fun c => c.2.status = .active).map
    fun c => (c.1, c.2.proposition)
  episodes := storedEpisode t
  predicted := []

/-- `active[id] = proposition`. -/
def set (p : Prediction) (id : RecordId) (proposition : Proposition) : Prediction :=
  { p with active :=
    if p.active.any (fun c => c.1 = id) then
      p.active.map fun c => if c.1 = id then (id, proposition) else c
    else p.active ++ [(id, proposition)] }

/-- `active.pop(id, None)`. -/
def pop (p : Prediction) (id : RecordId) : Prediction :=
  { p with active := p.active.filter fun c => c.1 ≠ id }

/-- The conflict one kind of contradiction will open, when a claim contradicts. -/
def predict (p : Prediction) (incoming : RecordId) (family : Hash) (kind : ConflictKind)
    (found : List (RecordId × ConflictKind)) : Prediction :=
  match (found.filter fun f => f.2 = kind).map Prod.fst with
  | [] => p
  | members =>
    let id := (p.episodes family kind).getD (conflictIdOf (sortedSet (incoming :: members)))
    { p with
      episodes := fun f k => if f = family ∧ k = kind then some id else p.episodes f k
      predicted := p.predicted ++ [id] }

/-- The claim an operation brings in, and the claim it ignores. -/
def incoming? : Operation → Option (Claim × List RecordId)
  | .assertClaim claim _ _ => some (claim, [])
  | .supersedeClaim op => some (op.replacementClaim, [op.targetClaimId])
  | _ => none

/-- The active claims that contradict the incoming one. -/
def contradicting (p : Prediction) (incoming : Claim) (predicate : PredicateDefinition)
    (ignored : List RecordId) : Kernel (List (RecordId × ConflictKind)) :=
  p.active.foldlM (fun found c =>
    if c.1 ∉ ignored ∧ familyKey c.2 predicate = familyKey incoming.proposition predicate then do
      match ← conflictKind incoming.proposition c.2 predicate with
      | some kind => return found ++ [(c.1, kind)]
      | none => return found
    else pure found) []

def step (reg : Registry) (p : Prediction) (op : Operation) : Kernel Prediction :=
  match incoming? op with
  | none =>
    match op with
    | .retractClaim op => .ok (p.pop op.targetClaimId)
    | _ => .ok p
  | some (claim, ignored) =>
    match reg.predicate? claim.proposition.predicate with
    | none => .ok p
    | some predicate => do
      let family := familyKey claim.proposition predicate
      let found ← p.contradicting claim predicate ignored
      let p := p.predict claim.claimId family .exclusiveValueConflict found
      let p := p.predict claim.claimId family .polarityConflict found
      return ignored.foldl pop (p.set claim.claimId claim.proposition)

end Prediction

/-- `_predicted_conflict_ids`. -/
def predictedConflictIds (reg : Registry) (t : Tables) (ops : List Operation) :
    Kernel (List RecordId) := do
  let p ← ops.foldlM (Prediction.step reg) (Prediction.start t)
  return p.predicted

/-! ### References -/

/-- The record an operation adds. -/
def addedRecord? : Operation → Option (RecordType × RecordId)
  | .registerSourceRevision _ source => some (.sourceRevision, source.revisionId)
  | .assertClaim claim _ _ => some (.claim, claim.claimId)
  | .supersedeClaim op => some (.claim, op.replacementClaim.claimId)
  | .recordDecision decision _ => some (.decisionRecord, decision.1.decisionId)
  | .supersedeDecision op => some (.decisionRecord, op.replacementDecision.1.decisionId)
  | .openQuestion _ question => some (.openQuestion, question.1.questionId)
  | .createWorkItem _ workItem => some (.workItem, workItem.1.workItemId)
  | _ => none

/-- The stored identifiers of a record type. -/
def storedIds (t : Tables) : RecordType → List RecordId
  | .sourceRevision => t.sources.toList.map Prod.fst
  | .claim => t.claims.toList.map Prod.fst
  | .conflict => t.conflicts.toList.map Prod.fst
  | .decisionRecord => t.decisionRecords.toList.map Prod.fst
  | .openQuestion => t.openQuestions.toList.map Prod.fst
  | .workItem => t.workItems.toList.map Prod.fst

/-- The identifiers of a record type once the operations are applied. -/
def finalIds (t : Tables) (ops : List Operation) (predicted : List RecordId) (type : RecordType) :
    List RecordId :=
  storedIds t type ++ (if type = .conflict then predicted else []) ++
    (ops.filterMap addedRecord?).filterMap fun r => if r.1 = type then some r.2 else none

/-- `require`, of a reference. -/
def requireReference (ids : RecordType → List RecordId) (type : RecordType) (id : RecordId) :
    Kernel Unit :=
  if id ∈ ids type then .ok ()
  else if ∃ other ∈ RecordType.all, other ≠ type ∧ id ∈ ids other then
    .error (.validationFailure .referenceTypeMismatch)
  else .error (.validationFailure .referenceNotFound)

/-- The references a decision makes. -/
def decisionReferences (d : DecisionDoc) : List (RecordType × RecordId) :=
  d.relatedSourceRevisionIds.1.map (RecordType.sourceRevision, ·) ++
    d.relatedClaimIds.1.map (RecordType.claim, ·)

/-- The references an operation's continuity record makes. -/
def references : Operation → List (RecordType × RecordId)
  | .recordDecision decision _ => decisionReferences decision.1
  | .supersedeDecision op => decisionReferences op.replacementDecision.1
  | .openQuestion _ question =>
    question.1.relatedObjects.1.map fun r => (r.recordType, r.recordId)
  | .answerQuestion answer _ _ =>
    [(answer.answerReference.recordType, answer.answerReference.recordId)]
  | .createWorkItem _ workItem =>
    workItem.1.relatedObjects.1.map fun r => (r.recordType, r.recordId)
  | _ => []

/-- `_validate_continuity_references`. -/
def validateContinuityReferences (reg : Registry) (t : Tables) (ops : List Operation) :
    Kernel Unit := do
  let predicted ← predictedConflictIds reg t ops
  (ops.flatMap references).forM fun r => requireReference (finalIds t ops predicted) r.1 r.2

end SharedMind
