import SharedMind.Contract.Proposal

/-!
# Conflicts, ledger events, ledger entries and receipts

What the kernel writes.  It assembles these records itself and then checks them
against the contract, so `ConflictDoc` and `LedgerEvent` are the shapes, and
`LedgerEvent.Valid` is what the schema demands beyond the shape.

* `LedgerEvent.codec`, `LedgerEntry.codec`, `DecisionReceipt.codec`.
* `isContractObject`: the `oneOf` of the contract's top level.
-/

namespace SharedMind

open Py

/-! ### Conflicts -/

inductive ConflictKind where
  | polarityConflict
  | exclusiveValueConflict
  | temporalOverlapConflict
  deriving DecidableEq

namespace ConflictKind

def text : ConflictKind → String
  | polarityConflict => "POLARITY_CONFLICT"
  | exclusiveValueConflict => "EXCLUSIVE_VALUE_CONFLICT"
  | temporalOverlapConflict => "TEMPORAL_OVERLAP_CONFLICT"

def codec : Codec ConflictKind :=
  .enum [polarityConflict, exclusiveValueConflict, temporalOverlapConflict] text
    (by intro a; cases a <;> decide) (by intro a b; cases a <;> cases b <;> decide)

end ConflictKind

structure ConflictDoc where
  conflictId : RecordId
  episode : PyNum
  familyKey : Hash
  kind : ConflictKind
  memberClaimIds : List RecordId
  memberDigest : Hash
  openedSeq : PyNum
  resolution : Option Resolution
  status : ConflictStatus
  deriving DecidableEq

namespace ConflictDoc

def codec : Codec ConflictDoc :=
  ((Fields.req "conflict_id" Text.codec (.req "episode" .num (.req "family_key" Text.codec
    (.req "kind" ConflictKind.codec (.req "member_claim_ids" Text.codec.list
    (.req "member_digest" Text.codec (.const "object_type" "CONFLICT" (.req "opened_seq" .num
    (.req "resolution" (Resolution.codec.nullable Resolution.codec_ne_null)
    (.req "status" ConflictStatus.codec .nil)))))))))).object (by decide)).iso
    (fun p => ⟨p.1, p.2.1, p.2.2.1, p.2.2.2.1, p.2.2.2.2.1, p.2.2.2.2.2.1, p.2.2.2.2.2.2.1,
      p.2.2.2.2.2.2.2.1, p.2.2.2.2.2.2.2.2.1⟩)
    (fun c => (c.conflictId, c.episode, c.familyKey, c.kind, c.memberClaimIds, c.memberDigest,
      c.openedSeq, c.resolution, c.status, ())) (fun _ => rfl) (fun _ => rfl)

def WellFormed (c : ConflictDoc) : Prop :=
  atLeast 1 c.episode = true ∧ atLeast 1 c.openedSeq = true ∧ 2 ≤ c.memberClaimIds.length ∧
    (Text.codec (p := recordIdPattern.search)).UniqueItems c.memberClaimIds ∧
    (c.status = .resolved ↔ c.resolution.isSome = true)

instance : DecidablePred WellFormed :=
  fun _ => inferInstanceAs (Decidable (_ ∧ _ ∧ _ ∧ _ ∧ (_ ↔ _)))

end ConflictDoc

/-! ### Events -/

structure DecisionSuperseded where
  newVersion : PyNum
  previousVersion : PyNum
  rationale : String
  replacementDecision : NewDecisionRecord
  targetDecisionId : RecordId
  targetDisposition : Disposition
  deriving DecidableEq

structure WorkItemStatusUpdated where
  blocker : Option (Bounded 1 4096)
  newStatus : WorkItemStatus
  newVersion : PyNum
  previousStatus : WorkItemStatus
  previousVersion : PyNum
  rationale : String
  targetWorkItemId : RecordId
  updatedAt : String
  updatedBy : ActorRef
  deriving DecidableEq

inductive LedgerEvent where
  | sourceRevisionRegistered (sourceRevision : SourceRevision)
  | claimAsserted (claim : Claim) (initialEvidence : List EvidenceLink)
  | evidenceAttached (evidenceLink : EvidenceLink)
  | claimSuperseded (rationale : String) (replacementClaimId targetClaimId : RecordId)
  | claimRetracted (actor : ActorRef) (authorityPolicyVersion rationale : String)
      (targetClaimId : RecordId)
  | conflictOpened (conflict : ConflictDoc)
  | conflictResolved (conflictId : RecordId) (resolution : Resolution)
  | decisionRecorded (decision : NewDecisionRecord)
  | decisionSuperseded (event : DecisionSuperseded)
  | questionOpened (question : NewOpenQuestion)
  | questionAnswered (answer : QuestionAnswer) (newVersion previousVersion : PyNum)
      (targetQuestionId : RecordId)
  | questionDropped (drop : QuestionDrop) (newVersion previousVersion : PyNum)
      (targetQuestionId : RecordId)
  | workItemCreated (workItem : NewWorkItem)
  | workItemStatusUpdated (event : WorkItemStatusUpdated)
  deriving DecidableEq

namespace LedgerEvent

/-- `event_type` and one member after it. -/
def eventFirst {α : Type} (type l : String) (c : Codec α)
    (h : ["event_type", l].Pairwise (· < ·)) : Tagged "event_type" α :=
  ((TaggedFields.tagged "event_type" type (.req l c .nil)).object h).only

/-- One member before `event_type`. -/
def eventLast {α : Type} (type k : String) (c : Codec α)
    (h : [k, "event_type"].Pairwise (· < ·)) : Tagged "event_type" α :=
  ((TaggedFields.req k c (.tagged "event_type" type .nil)).object h).only

def claimAssertedObject : Tagged "event_type" (Claim × List EvidenceLink) :=
  ((TaggedFields.req "claim" Claim.codec (.tagged "event_type" "CLAIM_ASSERTED"
    (.req "initial_evidence" EvidenceLink.codec.list .nil))).object (by decide)).iso
    (fun p => (p.1, p.2.1)) (fun p => (p.1, p.2, ())) (fun _ => rfl) (fun _ => rfl)

def claimSupersededObject : Tagged "event_type" (String × RecordId × RecordId) :=
  ((TaggedFields.tagged "event_type" "CLAIM_SUPERSEDED" (.req "rationale" .str
    (.req "replacement_claim_id" Text.codec (.req "target_claim_id" Text.codec .nil)))).object
    (by decide)).iso (fun p => (p.1, p.2.1, p.2.2.1)) (fun p => (p.1, p.2.1, p.2.2, ()))
    (fun _ => rfl) (fun _ => rfl)

def claimRetractedObject : Tagged "event_type" (ActorRef × String × String × RecordId) :=
  ((TaggedFields.req "actor" ActorRef.codec (.req "authority_policy_version" .str
    (.tagged "event_type" "CLAIM_RETRACTED" (.req "rationale" .str
    (.req "target_claim_id" Text.codec .nil))))).object (by decide)).iso
    (fun p => (p.1, p.2.1, p.2.2.1, p.2.2.2.1)) (fun p => (p.1, p.2.1, p.2.2.1, p.2.2.2, ()))
    (fun _ => rfl) (fun _ => rfl)

def conflictResolvedObject : Tagged "event_type" (RecordId × Resolution) :=
  ((TaggedFields.req "conflict_id" Text.codec (.tagged "event_type" "CONFLICT_RESOLVED"
    (.req "resolution" Resolution.codec .nil))).object (by decide)).iso
    (fun p => (p.1, p.2.1)) (fun p => (p.1, p.2, ())) (fun _ => rfl) (fun _ => rfl)

def decisionSupersededObject : Tagged "event_type" DecisionSuperseded :=
  ((TaggedFields.tagged "event_type" "DECISION_SUPERSEDED" (.req "new_version" .num
    (.req "previous_version" .num (.req "rationale" .str
    (.req "replacement_decision" NewDecisionRecord.codec (.req "target_decision_id" Text.codec
    (.req "target_disposition" Disposition.codec .nil))))))).object (by decide)).iso
    (fun p => ⟨p.1, p.2.1, p.2.2.1, p.2.2.2.1, p.2.2.2.2.1, p.2.2.2.2.2.1⟩)
    (fun e => (e.newVersion, e.previousVersion, e.rationale, e.replacementDecision,
      e.targetDecisionId, e.targetDisposition, ())) (fun _ => rfl) (fun _ => rfl)

/-- The close of a question, by the member `k`. -/
def questionClosedObject {α : Type} (type k : String) (c : Codec α)
    (h : [k, "event_type", "new_version", "previous_version",
      "target_question_id"].Pairwise (· < ·)) :
    Tagged "event_type" (α × PyNum × PyNum × RecordId) :=
  ((TaggedFields.req k c (.tagged "event_type" type (.req "new_version" .num
    (.req "previous_version" .num (.req "target_question_id" Text.codec .nil))))).object h).iso
    (fun p => (p.1, p.2.1, p.2.2.1, p.2.2.2.1)) (fun p => (p.1, p.2.1, p.2.2.1, p.2.2.2, ()))
    (fun _ => rfl) (fun _ => rfl)

def workItemStatusUpdatedObject : Tagged "event_type" WorkItemStatusUpdated :=
  ((TaggedFields.req "blocker" Text.nullable (.tagged "event_type" "WORK_ITEM_STATUS_UPDATED"
    (.req "new_status" WorkItemStatus.codec (.req "new_version" .num
    (.req "previous_status" WorkItemStatus.codec (.req "previous_version" .num
    (.req "rationale" .str (.req "target_work_item_id" Text.codec (.req "updated_at" .str
    (.req "updated_by" ActorRef.codec .nil)))))))))).object (by decide)).iso
    (fun p => ⟨p.1, p.2.1, p.2.2.1, p.2.2.2.1, p.2.2.2.2.1, p.2.2.2.2.2.1, p.2.2.2.2.2.2.1,
      p.2.2.2.2.2.2.2.1, p.2.2.2.2.2.2.2.2.1⟩)
    (fun e => (e.blocker, e.newStatus, e.newVersion, e.previousStatus, e.previousVersion,
      e.rationale, e.targetWorkItemId, e.updatedAt, e.updatedBy, ()))
    (fun _ => rfl) (fun _ => rfl)

def codec : Codec LedgerEvent :=
  ((eventFirst "SOURCE_REVISION_REGISTERED" "source_revision" SourceRevision.codec
      (by decide)).sum
  (claimAssertedObject.sum
  ((eventFirst "EVIDENCE_ATTACHED" "evidence_link" EvidenceLink.codec (by decide)).sum
  (claimSupersededObject.sum
  (claimRetractedObject.sum
  ((eventLast "CONFLICT_OPENED" "conflict" ConflictDoc.codec (by decide)).sum
  (conflictResolvedObject.sum
  ((eventLast "DECISION_RECORDED" "decision" NewDecisionRecord.codec (by decide)).sum
  (decisionSupersededObject.sum
  ((eventFirst "QUESTION_OPENED" "question" NewOpenQuestion.codec (by decide)).sum
  ((questionClosedObject "QUESTION_ANSWERED" "answer" QuestionAnswer.codec (by decide)).sum
  ((questionClosedObject "QUESTION_DROPPED" "drop" QuestionDrop.codec (by decide)).sum
  ((eventFirst "WORK_ITEM_CREATED" "work_item" NewWorkItem.codec (by decide)).sum
  workItemStatusUpdatedObject
  (by decide)) (by decide)) (by decide)) (by decide)) (by decide)) (by decide)) (by decide))
  (by decide)) (by decide)) (by decide)) (by decide)) (by decide)) (by decide)).toCodec.iso
    (fun
      | .inl a => .sourceRevisionRegistered a
      | .inr (.inl a) => .claimAsserted a.1 a.2
      | .inr (.inr (.inl a)) => .evidenceAttached a
      | .inr (.inr (.inr (.inl a))) => .claimSuperseded a.1 a.2.1 a.2.2
      | .inr (.inr (.inr (.inr (.inl a)))) => .claimRetracted a.1 a.2.1 a.2.2.1 a.2.2.2
      | .inr (.inr (.inr (.inr (.inr (.inl a))))) => .conflictOpened a
      | .inr (.inr (.inr (.inr (.inr (.inr (.inl a)))))) => .conflictResolved a.1 a.2
      | .inr (.inr (.inr (.inr (.inr (.inr (.inr (.inl a))))))) => .decisionRecorded a
      | .inr (.inr (.inr (.inr (.inr (.inr (.inr (.inr (.inl a)))))))) => .decisionSuperseded a
      | .inr (.inr (.inr (.inr (.inr (.inr (.inr (.inr (.inr (.inl a))))))))) => .questionOpened a
      | .inr (.inr (.inr (.inr (.inr (.inr (.inr (.inr (.inr (.inr (.inl a)))))))))) =>
        .questionAnswered a.1 a.2.1 a.2.2.1 a.2.2.2
      | .inr (.inr (.inr (.inr (.inr (.inr (.inr (.inr (.inr (.inr (.inr (.inl a))))))))))) =>
        .questionDropped a.1 a.2.1 a.2.2.1 a.2.2.2
      | .inr (.inr (.inr (.inr (.inr (.inr (.inr (.inr (.inr (.inr (.inr (.inr
          (.inl a)))))))))))) => .workItemCreated a
      | .inr (.inr (.inr (.inr (.inr (.inr (.inr (.inr (.inr (.inr (.inr (.inr
          (.inr a)))))))))))) => .workItemStatusUpdated a)
    (fun
      | .sourceRevisionRegistered a => .inl a
      | .claimAsserted a b => .inr (.inl (a, b))
      | .evidenceAttached a => .inr (.inr (.inl a))
      | .claimSuperseded a b c => .inr (.inr (.inr (.inl (a, b, c))))
      | .claimRetracted a b c d => .inr (.inr (.inr (.inr (.inl (a, b, c, d)))))
      | .conflictOpened a => .inr (.inr (.inr (.inr (.inr (.inl a)))))
      | .conflictResolved a b => .inr (.inr (.inr (.inr (.inr (.inr (.inl (a, b)))))))
      | .decisionRecorded a => .inr (.inr (.inr (.inr (.inr (.inr (.inr (.inl a)))))))
      | .decisionSuperseded a => .inr (.inr (.inr (.inr (.inr (.inr (.inr (.inr (.inl a))))))))
      | .questionOpened a => .inr (.inr (.inr (.inr (.inr (.inr (.inr (.inr (.inr (.inl a)))))))))
      | .questionAnswered a b c d =>
        .inr (.inr (.inr (.inr (.inr (.inr (.inr (.inr (.inr (.inr (.inl (a, b, c, d)))))))))))
      | .questionDropped a b c d =>
        .inr (.inr (.inr (.inr (.inr (.inr (.inr (.inr (.inr (.inr (.inr
          (.inl (a, b, c, d))))))))))))
      | .workItemCreated a =>
        .inr (.inr (.inr (.inr (.inr (.inr (.inr (.inr (.inr (.inr (.inr (.inr (.inl a))))))))))))
      | .workItemStatusUpdated a =>
        .inr (.inr (.inr (.inr (.inr (.inr (.inr (.inr (.inr (.inr (.inr (.inr (.inr a)))))))))))))
    (by intro b; cases b <;> rfl)
    (by
      rintro (_ | _ | _ | _ | _ | _ | _ | _ | _ | _ | _ | _ | _ | _) <;> rfl)

/-- What the schema demands of an event beyond its shape. -/
def Valid : LedgerEvent → Prop
  | claimAsserted _ initialEvidence => initialEvidence ≠ []
  | claimSuperseded rationale _ _ => 1 ≤ rationale.length
  | claimRetracted _ _ rationale _ => 1 ≤ rationale.length
  | conflictOpened conflict => conflict.WellFormed
  | decisionSuperseded e =>
    lengthIn 1 4096 e.rationale = true ∧ atLeast 1 e.previousVersion = true ∧
      atLeast 2 e.newVersion = true
  | questionAnswered _ newVersion previousVersion _ =>
    atLeast 1 previousVersion = true ∧ atLeast 2 newVersion = true
  | questionDropped _ newVersion previousVersion _ =>
    atLeast 1 previousVersion = true ∧ atLeast 2 newVersion = true
  | workItemStatusUpdated e =>
    lengthIn 1 4096 e.rationale = true ∧ atLeast 1 e.previousVersion = true ∧
      atLeast 2 e.newVersion = true ∧ (e.newStatus = .blocked ↔ e.blocker.isSome = true)
  | _ => True

instance : DecidablePred Valid := fun e => by
  cases e <;> simp only [Valid] <;> infer_instance

/-- `LedgerEvent` of the contract. -/
def validCodec : Codec {e : LedgerEvent // e.Valid} := codec.refine Valid

end LedgerEvent

/-! ### Entries -/

abbrev LedgerEvents : Type := {es : List {e : LedgerEvent // e.Valid} // es ≠ []}

structure LedgerEntry where
  committedAt : String
  entryHash : Hash
  entryId : RecordId
  events : LedgerEvents
  postStateRoot : Hash
  preStateRoot : Hash
  prevHash : Option Hash
  proposalHash : Hash
  proposalId : RecordId
  seq : AtLeast 1
  versions : VersionBundle

def LedgerEntry.codec : Codec LedgerEntry :=
  ((Fields.req "committed_at" .str (.req "entry_hash" Text.codec (.req "entry_id" Text.codec
    (.req "events" (LedgerEvent.validCodec.list.refine (· ≠ []))
    (.const "object_type" "LEDGER_ENTRY" (.req "post_state_root" Text.codec
    (.req "pre_state_root" Text.codec (.req "prev_hash" Text.nullable
    (.req "proposal_hash" Text.codec (.req "proposal_id" Text.codec (.req "seq" AtLeast.codec
    (.req "versions" VersionBundle.codec .nil)))))))))))).object (by decide)).iso
    (fun p => ⟨p.1, p.2.1, p.2.2.1, p.2.2.2.1, p.2.2.2.2.1, p.2.2.2.2.2.1, p.2.2.2.2.2.2.1,
      p.2.2.2.2.2.2.2.1, p.2.2.2.2.2.2.2.2.1, p.2.2.2.2.2.2.2.2.2.1, p.2.2.2.2.2.2.2.2.2.2.1⟩)
    (fun e => (e.committedAt, e.entryHash, e.entryId, e.events, e.postStateRoot, e.preStateRoot,
      e.prevHash, e.proposalHash, e.proposalId, e.seq, e.versions, ()))
    (fun _ => rfl) (fun _ => rfl)

/-! ### Receipts -/

inductive Outcome where
  | committed
  | factConflict
  | transactionConflict
  | validationError
  deriving DecidableEq

namespace Outcome

def text : Outcome → String
  | committed => "COMMITTED"
  | factConflict => "FACT_CONFLICT"
  | transactionConflict => "TRANSACTION_CONFLICT"
  | validationError => "VALIDATION_ERROR"

def codec : Codec Outcome :=
  .enum [committed, factConflict, transactionConflict, validationError] text
    (by intro a; cases a <;> decide) (by intro a b; cases a <;> cases b <;> decide)

/-- The proposal is in the ledger. -/
def Accepted (o : Outcome) : Prop := o = committed ∨ o = factConflict

instance : DecidablePred Accepted := fun _ => inferInstanceAs (Decidable (_ ∨ _))

end Outcome

/-- The shape of a receipt, of schema 1.2.0 without `proposer` and of 1.3.0 with it. -/
structure ReceiptDoc where
  conflictIds : RecordIds
  decidedAt : String
  headAfter : Option Hash
  headBefore : Option Hash
  idempotencyKey : Option IdempotencyKey
  ledgerEntryId : Option RecordId
  outcome : Outcome
  proposalHash : Hash
  proposalId : Option RecordId
  proposer : Option (Option ActorRef)
  reasonCodes : Unique (Text.codec (p := reasonCodePattern.search))
  receiptId : RecordId

namespace ReceiptDoc

def codec : Codec ReceiptDoc :=
  ((Fields.req "conflict_ids" (uniqueList _) (.req "decided_at" .str
    (.req "head_after" Text.nullable (.req "head_before" Text.nullable
    (.req "idempotency_key" Text.nullable (.req "ledger_entry_id" Text.nullable
    (.const "object_type" "DECISION_RECEIPT" (.req "outcome" Outcome.codec
    (.req "proposal_hash" Text.codec (.req "proposal_id" Text.nullable
    (.opt "proposer" (ActorRef.codec.nullable ActorRef.codec_ne_null)
    (.req "reason_codes" (uniqueList _) (.req "receipt_id" Text.codec .nil))
    (show "proposer" ∉ ["reason_codes", "receipt_id"] by decide)))))))))))).object
    (show ["conflict_ids", "decided_at", "head_after", "head_before", "idempotency_key",
      "ledger_entry_id", "object_type", "outcome", "proposal_hash", "proposal_id", "proposer",
      "reason_codes", "receipt_id"].Pairwise (· < ·) by decide)).iso
    (fun p => ⟨p.1, p.2.1, p.2.2.1, p.2.2.2.1, p.2.2.2.2.1, p.2.2.2.2.2.1, p.2.2.2.2.2.2.1,
      p.2.2.2.2.2.2.2.1, p.2.2.2.2.2.2.2.2.1, p.2.2.2.2.2.2.2.2.2.1, p.2.2.2.2.2.2.2.2.2.2.1,
      p.2.2.2.2.2.2.2.2.2.2.2.1⟩)
    (fun r => (r.conflictIds, r.decidedAt, r.headAfter, r.headBefore, r.idempotencyKey,
      r.ledgerEntryId, r.outcome, r.proposalHash, r.proposalId, r.proposer, r.reasonCodes,
      r.receiptId, ())) (fun _ => rfl) (fun _ => rfl)

/-- What goes with the outcome. -/
def WellFormed (r : ReceiptDoc) : Prop :=
  (r.outcome.Accepted → r.proposalId.isSome = true ∧ r.idempotencyKey.isSome = true) ∧
    (r.outcome.Accepted ↔ r.ledgerEntryId.isSome = true) ∧
    (r.outcome = .factConflict → r.conflictIds.1 ≠ [])

instance : DecidablePred WellFormed :=
  fun _ => inferInstanceAs (Decidable ((_ → _) ∧ (_ ↔ _) ∧ (_ → _)))

end ReceiptDoc

/-- `DecisionReceipt`. -/
abbrev DecisionReceipt : Type := {r : ReceiptDoc // r.WellFormed ∧ r.proposer.isSome = true}

def DecisionReceipt.codec : Codec DecisionReceipt :=
  ReceiptDoc.codec.refine fun r => r.WellFormed ∧ r.proposer.isSome = true

/-- `DecisionReceiptV1_2`. -/
abbrev DecisionReceiptV12 : Type := {r : ReceiptDoc // r.WellFormed ∧ r.proposer.isSome = false}

def DecisionReceiptV12.codec : Codec DecisionReceiptV12 :=
  ReceiptDoc.codec.refine fun r => r.WellFormed ∧ r.proposer.isSome = false

/-! ### The contract -/

/-- `Conflict`. -/
def Conflict.codec : Codec {c : ConflictDoc // c.WellFormed} :=
  ConflictDoc.codec.refine ConflictDoc.WellFormed

/-- The contract's `oneOf`; its alternatives exclude each other by `object_type`
and by the `proposer` of a receipt. -/
def isContractObject (v : Json) : Bool :=
  (Registry.codec.dec v).isSome || (SourceRevision.codec.dec v).isSome ||
    (Claim.codec.dec v).isSome || (EvidenceLink.codec.dec v).isSome ||
    (DecisionRecord.codec.dec v).isSome || (OpenQuestion.codec.dec v).isSome ||
    (WorkItem.codec.dec v).isSome || (Proposal.codec.dec v).isSome ||
    (Conflict.codec.dec v).isSome || (LedgerEntry.codec.dec v).isSome ||
    (DecisionReceiptV12.codec.dec v).isSome || (DecisionReceipt.codec.dec v).isSome

end SharedMind
