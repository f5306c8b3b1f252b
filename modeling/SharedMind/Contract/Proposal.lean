import SharedMind.Contract.Registry

/-!
# Proposals

Reads, guards, the thirteen operations, and `Proposal` itself.  A value passes the
contract as a proposal exactly when `Proposal.codec` reads it.
-/

namespace SharedMind

open Py

/-! ### Reads -/

structure AggregateRead where
  aggregateId : RecordId
  aggregateType : RecordType
  expectedVersion : AtLeast 0
  deriving DecidableEq

structure CollectionRead where
  expectedDigest : Hash
  familyKey : Hash
  deriving DecidableEq

inductive ReadRef where
  | aggregate (read : AggregateRead)
  | collection (read : CollectionRead)
  deriving DecidableEq

namespace ReadRef

def aggregateObject : Tagged "kind" AggregateRead :=
  ((TaggedFields.req "aggregate_id" Text.codec (.req "aggregate_type" RecordType.codec
    (.req "expected_version" AtLeast.codec (.tagged "kind" "AGGREGATE" .nil)))).object
    (by decide)).iso (fun p => ⟨p.1, p.2.1, p.2.2.1⟩)
    (fun r => (r.aggregateId, r.aggregateType, r.expectedVersion, ()))
    (fun _ => rfl) (fun _ => rfl)

def collectionObject : Tagged "kind" CollectionRead :=
  ((TaggedFields.req "expected_digest" Text.codec (.req "family_key" Text.codec
    (.tagged "kind" "COLLECTION" .nil))).object (by decide)).iso
    (fun p => ⟨p.1, p.2.1⟩) (fun r => (r.expectedDigest, r.familyKey, ()))
    (fun _ => rfl) (fun _ => rfl)

def codec : Codec ReadRef :=
  (aggregateObject.sum collectionObject (by decide)).toCodec.iso
    (fun
      | .inl a => .aggregate a
      | .inr a => .collection a)
    (fun
      | .aggregate a => .inl a
      | .collection a => .inr a)
    (by rintro (_ | _) <;> rfl) (by rintro (_ | _) <;> rfl)

end ReadRef

/-! ### Guards -/

inductive ClaimStatus where
  | active
  | superseded
  | retracted
  deriving DecidableEq

namespace ClaimStatus

def text : ClaimStatus → String
  | active => "ACTIVE"
  | superseded => "SUPERSEDED"
  | retracted => "RETRACTED"

def codec : Codec ClaimStatus :=
  .enum [active, superseded, retracted] text (by intro a; cases a <;> decide)
    (by intro a b; cases a <;> cases b <;> decide)

end ClaimStatus

inductive ConflictStatus where
  | «open»
  | resolved
  deriving DecidableEq

namespace ConflictStatus

def text : ConflictStatus → String
  | «open» => "OPEN"
  | resolved => "RESOLVED"

def codec : Codec ConflictStatus :=
  .enum [«open», resolved] text (by intro a; cases a <;> decide)
    (by intro a b; cases a <;> cases b <;> decide)

end ConflictStatus

inductive Guard where
  | claimStatusEq (claimId : RecordId) (expectedStatus : ClaimStatus)
  | claimVersionEq (claimId : RecordId) (expectedVersion : AtLeast 0)
  | conflictStatusEq (conflictId : RecordId) (expectedStatus : ConflictStatus)
  | conflictMemberDigestEq (conflictId : RecordId) (expectedDigest : Hash)
  | activeSetDigestEq (expectedDigest : Hash) (familyKey : Hash)
  | sourceHashEq (expectedHash : Hash) (sourceRevisionId : RecordId)
  | noActiveClaim (familyKey : Hash)
  | decisionStatusEq (decisionId : RecordId) (expectedStatus : DecisionStatus)
  | decisionVersionEq (decisionId : RecordId) (expectedVersion : AtLeast 1)
  | questionStatusEq (expectedStatus : QuestionStatus) (questionId : RecordId)
  | questionVersionEq (expectedVersion : AtLeast 1) (questionId : RecordId)
  | workItemStatusEq (expectedStatus : WorkItemStatus) (workItemId : RecordId)
  | workItemVersionEq (expectedVersion : AtLeast 1) (workItemId : RecordId)
  deriving DecidableEq

namespace Guard

/-- Two members before `op`. -/
def opAfterTwo {α β : Type} (op k l : String) (c : Codec α) (d : Codec β)
    (h : [k, l, "op"].Pairwise (· < ·)) : Tagged "op" (α × β) :=
  ((TaggedFields.req k c (.req l d (.tagged "op" op .nil))).object h).iso
    (fun p => (p.1, p.2.1)) (fun p => (p.1, p.2, ())) (fun _ => rfl) (fun _ => rfl)

/-- A member before `op` and one after. -/
def opBetween {α β : Type} (op k l : String) (c : Codec α) (d : Codec β)
    (h : [k, "op", l].Pairwise (· < ·)) : Tagged "op" (α × β) :=
  ((TaggedFields.req k c (.tagged "op" op (.req l d .nil))).object h).iso
    (fun p => (p.1, p.2.1)) (fun p => (p.1, p.2, ())) (fun _ => rfl) (fun _ => rfl)

def noActiveClaimObject : Tagged "op" Hash :=
  ((TaggedFields.req "family_key" Text.codec (.tagged "op" "NO_ACTIVE_CLAIM" .nil)).object
    (by decide)).iso (fun p => p.1) (fun a => (a, ())) (fun _ => rfl) (fun _ => rfl)

def codec : Codec Guard :=
  ((opAfterTwo "CLAIM_STATUS_EQ" "claim_id" "expected_status" Text.codec ClaimStatus.codec
      (by decide)).sum
  ((opAfterTwo "CLAIM_VERSION_EQ" "claim_id" "expected_version" Text.codec AtLeast.codec
      (by decide)).sum
  ((opAfterTwo "CONFLICT_STATUS_EQ" "conflict_id" "expected_status" Text.codec
      ConflictStatus.codec (by decide)).sum
  ((opAfterTwo "CONFLICT_MEMBER_DIGEST_EQ" "conflict_id" "expected_digest" Text.codec Text.codec
      (by decide)).sum
  ((opAfterTwo "ACTIVE_SET_DIGEST_EQ" "expected_digest" "family_key" Text.codec Text.codec
      (by decide)).sum
  ((opBetween "SOURCE_HASH_EQ" "expected_hash" "source_revision_id" Text.codec Text.codec
      (by decide)).sum
  (noActiveClaimObject.sum
  ((opAfterTwo "DECISION_STATUS_EQ" "decision_id" "expected_status" Text.codec
      DecisionStatus.codec (by decide)).sum
  ((opAfterTwo "DECISION_VERSION_EQ" "decision_id" "expected_version" Text.codec AtLeast.codec
      (by decide)).sum
  ((opBetween "QUESTION_STATUS_EQ" "expected_status" "question_id" QuestionStatus.codec Text.codec
      (by decide)).sum
  ((opBetween "QUESTION_VERSION_EQ" "expected_version" "question_id" AtLeast.codec Text.codec
      (by decide)).sum
  ((opBetween "WORK_ITEM_STATUS_EQ" "expected_status" "work_item_id" WorkItemStatus.codec
      Text.codec (by decide)).sum
  (opBetween "WORK_ITEM_VERSION_EQ" "expected_version" "work_item_id" AtLeast.codec Text.codec
      (by decide))
  (by decide)) (by decide)) (by decide)) (by decide)) (by decide)) (by decide)) (by decide))
  (by decide)) (by decide)) (by decide)) (by decide)) (by decide)).toCodec.iso
    (fun
      | .inl a => .claimStatusEq a.1 a.2
      | .inr (.inl a) => .claimVersionEq a.1 a.2
      | .inr (.inr (.inl a)) => .conflictStatusEq a.1 a.2
      | .inr (.inr (.inr (.inl a))) => .conflictMemberDigestEq a.1 a.2
      | .inr (.inr (.inr (.inr (.inl a)))) => .activeSetDigestEq a.1 a.2
      | .inr (.inr (.inr (.inr (.inr (.inl a))))) => .sourceHashEq a.1 a.2
      | .inr (.inr (.inr (.inr (.inr (.inr (.inl a)))))) => .noActiveClaim a
      | .inr (.inr (.inr (.inr (.inr (.inr (.inr (.inl a))))))) => .decisionStatusEq a.1 a.2
      | .inr (.inr (.inr (.inr (.inr (.inr (.inr (.inr (.inl a)))))))) =>
        .decisionVersionEq a.1 a.2
      | .inr (.inr (.inr (.inr (.inr (.inr (.inr (.inr (.inr (.inl a))))))))) =>
        .questionStatusEq a.1 a.2
      | .inr (.inr (.inr (.inr (.inr (.inr (.inr (.inr (.inr (.inr (.inl a)))))))))) =>
        .questionVersionEq a.1 a.2
      | .inr (.inr (.inr (.inr (.inr (.inr (.inr (.inr (.inr (.inr (.inr (.inl a))))))))))) =>
        .workItemStatusEq a.1 a.2
      | .inr (.inr (.inr (.inr (.inr (.inr (.inr (.inr (.inr (.inr (.inr (.inr a))))))))))) =>
        .workItemVersionEq a.1 a.2)
    (fun
      | .claimStatusEq a b => .inl (a, b)
      | .claimVersionEq a b => .inr (.inl (a, b))
      | .conflictStatusEq a b => .inr (.inr (.inl (a, b)))
      | .conflictMemberDigestEq a b => .inr (.inr (.inr (.inl (a, b))))
      | .activeSetDigestEq a b => .inr (.inr (.inr (.inr (.inl (a, b)))))
      | .sourceHashEq a b => .inr (.inr (.inr (.inr (.inr (.inl (a, b))))))
      | .noActiveClaim a => .inr (.inr (.inr (.inr (.inr (.inr (.inl a))))))
      | .decisionStatusEq a b => .inr (.inr (.inr (.inr (.inr (.inr (.inr (.inl (a, b))))))))
      | .decisionVersionEq a b =>
        .inr (.inr (.inr (.inr (.inr (.inr (.inr (.inr (.inl (a, b)))))))))
      | .questionStatusEq a b =>
        .inr (.inr (.inr (.inr (.inr (.inr (.inr (.inr (.inr (.inl (a, b))))))))))
      | .questionVersionEq a b =>
        .inr (.inr (.inr (.inr (.inr (.inr (.inr (.inr (.inr (.inr (.inl (a, b)))))))))))
      | .workItemStatusEq a b =>
        .inr (.inr (.inr (.inr (.inr (.inr (.inr (.inr (.inr (.inr (.inr (.inl (a, b))))))))))))
      | .workItemVersionEq a b =>
        .inr (.inr (.inr (.inr (.inr (.inr (.inr (.inr (.inr (.inr (.inr (.inr (a, b)))))))))))))
    (by intro b; cases b <;> rfl)
    (by
      rintro (_ | _ | _ | _ | _ | _ | _ | _ | _ | _ | _ | _ | _) <;> rfl)

end Guard

/-! ### Operations -/

structure Resolution where
  authorityPolicyVersion : RuleVersion
  decidedAt : String
  evidenceLinkIds : RecordIds
  rationale : Bounded 1 8192
  rejectedClaimIds : UniqueSome (Text.codec (p := recordIdPattern.search))
  resolutionEpoch : AtLeast 1
  resolver : ActorRef
  selectedClaimIds : UniqueSome (Text.codec (p := recordIdPattern.search))
  deriving DecidableEq

namespace Resolution

def fields : Fields (RuleVersion × String × RecordIds × Bounded 1 8192 ×
    UniqueSome (Text.codec (p := recordIdPattern.search)) × AtLeast 1 × ActorRef ×
    UniqueSome (Text.codec (p := recordIdPattern.search)) × Unit) :=
  .req "authority_policy_version" Text.codec (.req "decided_at" .str
    (.req "evidence_link_ids" (uniqueList _) (.req "rationale" Text.codec
    (.req "rejected_claim_ids" (uniqueSome _) (.req "resolution_epoch" AtLeast.codec
    (.req "resolver" ActorRef.codec (.req "selected_claim_ids" (uniqueSome _) .nil)))))))

def codec : Codec Resolution :=
  (fields.object (by decide)).iso
    (fun p => ⟨p.1, p.2.1, p.2.2.1, p.2.2.2.1, p.2.2.2.2.1, p.2.2.2.2.2.1, p.2.2.2.2.2.2.1,
      p.2.2.2.2.2.2.2.1⟩)
    (fun r => (r.authorityPolicyVersion, r.decidedAt, r.evidenceLinkIds, r.rationale,
      r.rejectedClaimIds, r.resolutionEpoch, r.resolver, r.selectedClaimIds, ()))
    (fun _ => rfl) (fun _ => rfl)

theorem codec_ne_null (r : Resolution) : codec.enc r ≠ .null :=
  Fields.object_enc_ne_null fields (by decide) _

end Resolution

/-- What becomes of a superseded decision. -/
inductive Disposition where
  | superseded
  | reversed
  deriving DecidableEq

namespace Disposition

def text : Disposition → String
  | superseded => "SUPERSEDED"
  | reversed => "REVERSED"

def codec : Codec Disposition :=
  .enum [superseded, reversed] text (by intro a; cases a <;> decide)
    (by intro a b; cases a <;> cases b <;> decide)

def status : Disposition → DecisionStatus
  | superseded => .superseded
  | reversed => .reversed

end Disposition

structure SupersedeClaim where
  initialEvidence : UniqueSome EvidenceLink.codec
  opId : RecordId
  rationale : Bounded 1 4096
  replacementClaim : Claim
  targetClaimId : RecordId
  deriving DecidableEq

structure RetractClaim where
  authorityPolicyVersion : RuleVersion
  evidenceLinkIds : RecordIds
  opId : RecordId
  rationale : Bounded 1 4096
  targetClaimId : RecordId
  deriving DecidableEq

structure ResolveConflict where
  conflictId : RecordId
  expectedMemberDigest : Hash
  opId : RecordId
  resolution : Resolution
  deriving DecidableEq

structure SupersedeDecision where
  opId : RecordId
  rationale : Bounded 1 4096
  replacementDecision : NewDecisionRecord
  targetDecisionId : RecordId
  targetDisposition : Disposition
  deriving DecidableEq

/-- The shape of an update of a work item's status. -/
structure UpdateWorkItemDoc where
  blocker : Option (Bounded 1 4096)
  newStatus : WorkItemStatus
  opId : RecordId
  rationale : Bounded 1 4096
  targetWorkItemId : RecordId
  updatedAt : String
  updatedBy : ActorRef
  deriving DecidableEq

/-- `blocker` goes with the new status. -/
def UpdateWorkItemDoc.WellFormed (u : UpdateWorkItemDoc) : Prop :=
  u.newStatus = .blocked ↔ u.blocker.isSome = true

instance : DecidablePred UpdateWorkItemDoc.WellFormed := fun _ => inferInstanceAs (Decidable (_ ↔ _))

abbrev UpdateWorkItemStatus : Type := {u : UpdateWorkItemDoc // u.WellFormed}

inductive Operation where
  | registerSourceRevision (opId : RecordId) (sourceRevision : SourceRevision)
  | assertClaim (claim : Claim) (initialEvidence : UniqueSome EvidenceLink.codec) (opId : RecordId)
  | attachEvidence (evidenceLink : EvidenceLink) (opId : RecordId)
  | supersedeClaim (op : SupersedeClaim)
  | retractClaim (op : RetractClaim)
  | resolveConflict (op : ResolveConflict)
  | recordDecision (decision : NewDecisionRecord) (opId : RecordId)
  | supersedeDecision (op : SupersedeDecision)
  | openQuestion (opId : RecordId) (question : NewOpenQuestion)
  | answerQuestion (answer : QuestionAnswer) (opId : RecordId) (targetQuestionId : RecordId)
  | dropQuestion (drop : QuestionDrop) (opId : RecordId) (targetQuestionId : RecordId)
  | createWorkItem (opId : RecordId) (workItem : NewWorkItem)
  | updateWorkItemStatus (op : UpdateWorkItemStatus)
  deriving DecidableEq

namespace Operation

/-- `op`, `op_id` and one member after them. -/
def opFirst {α : Type} (op l : String) (c : Codec α) (h : ["op", "op_id", l].Pairwise (· < ·)) :
    Tagged "op" (RecordId × α) :=
  ((TaggedFields.tagged "op" op (.req "op_id" Text.codec (.req l c .nil))).object h).iso
    (fun p => (p.1, p.2.1)) (fun p => (p.1, p.2, ())) (fun _ => rfl) (fun _ => rfl)

/-- One member before `op` and `op_id`. -/
def opLast {α : Type} (op k : String) (c : Codec α) (h : [k, "op", "op_id"].Pairwise (· < ·)) :
    Tagged "op" (α × RecordId) :=
  ((TaggedFields.req k c (.tagged "op" op (.req "op_id" Text.codec .nil))).object h).iso
    (fun p => (p.1, p.2.1)) (fun p => (p.1, p.2, ())) (fun _ => rfl) (fun _ => rfl)

/-- A member before `op` and `op_id`, and one after. -/
def opMiddle {α β : Type} (op k l : String) (c : Codec α) (d : Codec β)
    (h : [k, "op", "op_id", l].Pairwise (· < ·)) : Tagged "op" (α × RecordId × β) :=
  ((TaggedFields.req k c (.tagged "op" op (.req "op_id" Text.codec (.req l d .nil)))).object h).iso
    (fun p => (p.1, p.2.1, p.2.2.1)) (fun p => (p.1, p.2.1, p.2.2, ()))
    (fun _ => rfl) (fun _ => rfl)

def assertClaimObject : Tagged "op" (Claim × UniqueSome EvidenceLink.codec × RecordId) :=
  ((TaggedFields.req "claim" Claim.codec (.req "initial_evidence" (uniqueSome _)
    (.tagged "op" "ASSERT_CLAIM" (.req "op_id" Text.codec .nil)))).object (by decide)).iso
    (fun p => (p.1, p.2.1, p.2.2.1)) (fun p => (p.1, p.2.1, p.2.2, ()))
    (fun _ => rfl) (fun _ => rfl)

def supersedeClaimObject : Tagged "op" SupersedeClaim :=
  ((TaggedFields.req "initial_evidence" (uniqueSome _) (.tagged "op" "SUPERSEDE_CLAIM"
    (.req "op_id" Text.codec (.req "rationale" Text.codec (.req "replacement_claim" Claim.codec
    (.req "target_claim_id" Text.codec .nil)))))).object (by decide)).iso
    (fun p => ⟨p.1, p.2.1, p.2.2.1, p.2.2.2.1, p.2.2.2.2.1⟩)
    (fun o => (o.initialEvidence, o.opId, o.rationale, o.replacementClaim, o.targetClaimId, ()))
    (fun _ => rfl) (fun _ => rfl)

def retractClaimObject : Tagged "op" RetractClaim :=
  ((TaggedFields.req "authority_policy_version" Text.codec (.req "evidence_link_ids"
    (uniqueList _) (.tagged "op" "RETRACT_CLAIM" (.req "op_id" Text.codec
    (.req "rationale" Text.codec (.req "target_claim_id" Text.codec .nil)))))).object
    (by decide)).iso (fun p => ⟨p.1, p.2.1, p.2.2.1, p.2.2.2.1, p.2.2.2.2.1⟩)
    (fun o => (o.authorityPolicyVersion, o.evidenceLinkIds, o.opId, o.rationale,
      o.targetClaimId, ())) (fun _ => rfl) (fun _ => rfl)

def resolveConflictObject : Tagged "op" ResolveConflict :=
  ((TaggedFields.req "conflict_id" Text.codec (.req "expected_member_digest" Text.codec
    (.tagged "op" "RESOLVE_CONFLICT" (.req "op_id" Text.codec
    (.req "resolution" Resolution.codec .nil))))).object (by decide)).iso
    (fun p => ⟨p.1, p.2.1, p.2.2.1, p.2.2.2.1⟩)
    (fun o => (o.conflictId, o.expectedMemberDigest, o.opId, o.resolution, ()))
    (fun _ => rfl) (fun _ => rfl)

def supersedeDecisionObject : Tagged "op" SupersedeDecision :=
  ((TaggedFields.tagged "op" "SUPERSEDE_DECISION" (.req "op_id" Text.codec
    (.req "rationale" Text.codec (.req "replacement_decision" NewDecisionRecord.codec
    (.req "target_decision_id" Text.codec
    (.req "target_disposition" Disposition.codec .nil)))))).object (by decide)).iso
    (fun p => ⟨p.1, p.2.1, p.2.2.1, p.2.2.2.1, p.2.2.2.2.1⟩)
    (fun o => (o.opId, o.rationale, o.replacementDecision, o.targetDecisionId,
      o.targetDisposition, ())) (fun _ => rfl) (fun _ => rfl)

def updateWorkItemObject : Tagged "op" UpdateWorkItemStatus :=
  (((TaggedFields.req "blocker" Text.nullable (.req "new_status" WorkItemStatus.codec
    (.tagged "op" "UPDATE_WORK_ITEM_STATUS" (.req "op_id" Text.codec
    (.req "rationale" Text.codec (.req "target_work_item_id" Text.codec
    (.req "updated_at" .str (.req "updated_by" ActorRef.codec .nil)))))))).object (by decide)).iso
    (fun p => ⟨p.1, p.2.1, p.2.2.1, p.2.2.2.1, p.2.2.2.2.1, p.2.2.2.2.2.1, p.2.2.2.2.2.2.1⟩)
    (fun o => (o.blocker, o.newStatus, o.opId, o.rationale, o.targetWorkItemId, o.updatedAt,
      o.updatedBy, ())) (fun _ => rfl) (fun _ => rfl)).refine UpdateWorkItemDoc.WellFormed

def codec : Codec Operation :=
  ((opFirst "REGISTER_SOURCE_REVISION" "source_revision" SourceRevision.codec (by decide)).sum
  (assertClaimObject.sum
  ((opLast "ATTACH_EVIDENCE" "evidence_link" EvidenceLink.codec (by decide)).sum
  (supersedeClaimObject.sum
  (retractClaimObject.sum
  (resolveConflictObject.sum
  ((opLast "RECORD_DECISION" "decision" NewDecisionRecord.codec (by decide)).sum
  (supersedeDecisionObject.sum
  ((opFirst "OPEN_QUESTION" "question" NewOpenQuestion.codec (by decide)).sum
  ((opMiddle "ANSWER_QUESTION" "answer" "target_question_id" QuestionAnswer.codec Text.codec
      (by decide)).sum
  ((opMiddle "DROP_QUESTION" "drop" "target_question_id" QuestionDrop.codec Text.codec
      (by decide)).sum
  ((opFirst "CREATE_WORK_ITEM" "work_item" NewWorkItem.codec (by decide)).sum
  updateWorkItemObject
  (by decide)) (by decide)) (by decide)) (by decide)) (by decide)) (by decide)) (by decide))
  (by decide)) (by decide)) (by decide)) (by decide)) (by decide)).toCodec.iso
    (fun
      | .inl a => .registerSourceRevision a.1 a.2
      | .inr (.inl a) => .assertClaim a.1 a.2.1 a.2.2
      | .inr (.inr (.inl a)) => .attachEvidence a.1 a.2
      | .inr (.inr (.inr (.inl a))) => .supersedeClaim a
      | .inr (.inr (.inr (.inr (.inl a)))) => .retractClaim a
      | .inr (.inr (.inr (.inr (.inr (.inl a))))) => .resolveConflict a
      | .inr (.inr (.inr (.inr (.inr (.inr (.inl a)))))) => .recordDecision a.1 a.2
      | .inr (.inr (.inr (.inr (.inr (.inr (.inr (.inl a))))))) => .supersedeDecision a
      | .inr (.inr (.inr (.inr (.inr (.inr (.inr (.inr (.inl a)))))))) => .openQuestion a.1 a.2
      | .inr (.inr (.inr (.inr (.inr (.inr (.inr (.inr (.inr (.inl a))))))))) =>
        .answerQuestion a.1 a.2.1 a.2.2
      | .inr (.inr (.inr (.inr (.inr (.inr (.inr (.inr (.inr (.inr (.inl a)))))))))) =>
        .dropQuestion a.1 a.2.1 a.2.2
      | .inr (.inr (.inr (.inr (.inr (.inr (.inr (.inr (.inr (.inr (.inr (.inl a))))))))))) =>
        .createWorkItem a.1 a.2
      | .inr (.inr (.inr (.inr (.inr (.inr (.inr (.inr (.inr (.inr (.inr (.inr a))))))))))) =>
        .updateWorkItemStatus a)
    (fun
      | .registerSourceRevision a b => .inl (a, b)
      | .assertClaim a b c => .inr (.inl (a, b, c))
      | .attachEvidence a b => .inr (.inr (.inl (a, b)))
      | .supersedeClaim a => .inr (.inr (.inr (.inl a)))
      | .retractClaim a => .inr (.inr (.inr (.inr (.inl a))))
      | .resolveConflict a => .inr (.inr (.inr (.inr (.inr (.inl a)))))
      | .recordDecision a b => .inr (.inr (.inr (.inr (.inr (.inr (.inl (a, b)))))))
      | .supersedeDecision a => .inr (.inr (.inr (.inr (.inr (.inr (.inr (.inl a)))))))
      | .openQuestion a b => .inr (.inr (.inr (.inr (.inr (.inr (.inr (.inr (.inl (a, b)))))))))
      | .answerQuestion a b c =>
        .inr (.inr (.inr (.inr (.inr (.inr (.inr (.inr (.inr (.inl (a, b, c))))))))))
      | .dropQuestion a b c =>
        .inr (.inr (.inr (.inr (.inr (.inr (.inr (.inr (.inr (.inr (.inl (a, b, c)))))))))))
      | .createWorkItem a b =>
        .inr (.inr (.inr (.inr (.inr (.inr (.inr (.inr (.inr (.inr (.inr (.inl (a, b))))))))))))
      | .updateWorkItemStatus a =>
        .inr (.inr (.inr (.inr (.inr (.inr (.inr (.inr (.inr (.inr (.inr (.inr a))))))))))))
    (by intro b; cases b <;> rfl)
    (by
      rintro (_ | _ | _ | _ | _ | _ | _ | _ | _ | _ | _ | _ | _) <;> rfl)

end Operation

/-! ### The proposal -/

/-- The shape of a `VersionBundle`. -/
structure VersionDoc where
  conflictRules : RuleVersion
  guardDsl : RuleVersion
  predicateRegistry : SemVer
  predicateRegistryHash : Option Hash
  projection : RuleVersion
  schema : SemVer
  deriving DecidableEq

namespace VersionDoc

def codec : Codec VersionDoc :=
  ((Fields.req "conflict_rules" Text.codec (.req "guard_dsl" Text.codec
    (.req "predicate_registry" Text.codec (.opt "predicate_registry_hash" Text.codec
    (.req "projection" Text.codec (.req "schema" Text.codec .nil))
    (show "predicate_registry_hash" ∉ ["projection", "schema"] by decide))))).object
    (show ["conflict_rules", "guard_dsl", "predicate_registry", "predicate_registry_hash",
      "projection", "schema"].Pairwise (· < ·) by decide)).iso
    (fun p => ⟨p.1, p.2.1, p.2.2.1, p.2.2.2.1, p.2.2.2.2.1, p.2.2.2.2.2.1⟩)
    (fun v => (v.conflictRules, v.guardDsl, v.predicateRegistry, v.predicateRegistryHash,
      v.projection, v.schema, ())) (fun _ => rfl) (fun _ => rfl)

/-- From schema 1.1.0 on the registry hash is required. -/
def WellFormed (v : VersionDoc) : Prop :=
  (v.schema : String) ∈ ["1.1.0", "1.2.0", "1.3.0"] → v.predicateRegistryHash.isSome = true

instance : DecidablePred WellFormed := fun _ => inferInstanceAs (Decidable (_ → _))

end VersionDoc

abbrev VersionBundle : Type := {v : VersionDoc // v.WellFormed}

def VersionBundle.codec : Codec VersionBundle := VersionDoc.codec.refine VersionDoc.WellFormed

/-- Between one and 128 operations. -/
abbrev Operations : Type := {ops : List Operation // ops ≠ [] ∧ ops.length ≤ 128}

def Operations.codec : Codec Operations :=
  Operation.codec.list.refine fun ops => ops ≠ [] ∧ ops.length ≤ 128

structure Proposal where
  baseStateRoot : Option Hash
  guards : Unique Guard.codec
  idempotencyKey : IdempotencyKey
  operations : Operations
  proposalId : RecordId
  proposedAt : String
  proposer : ActorRef
  reads : Unique ReadRef.codec
  versions : VersionBundle

def Proposal.codec : Codec Proposal :=
  ((Fields.req "base_state_root" Text.nullable (.req "guards" (uniqueList _)
    (.req "idempotency_key" Text.codec (.const "object_type" "PROPOSAL"
    (.req "operations" Operations.codec (.req "proposal_id" Text.codec
    (.req "proposed_at" .str (.req "proposer" ActorRef.codec (.req "reads" (uniqueList _)
    (.req "versions" VersionBundle.codec .nil)))))))))).object (by decide)).iso
    (fun p => ⟨p.1, p.2.1, p.2.2.1, p.2.2.2.1, p.2.2.2.2.1, p.2.2.2.2.2.1, p.2.2.2.2.2.2.1,
      p.2.2.2.2.2.2.2.1, p.2.2.2.2.2.2.2.2.1⟩)
    (fun p => (p.baseStateRoot, p.guards, p.idempotencyKey, p.operations, p.proposalId,
      p.proposedAt, p.proposer, p.reads, p.versions, ())) (fun _ => rfl) (fun _ => rfl)

end SharedMind
