import SharedMind.Contract.Proposal

/-!
# The tags of reads, guards and operations

* `ReadRef.kindText`, `Guard.opText`, `Operation.opText`: the text that tells them apart.
* `get?_kind`, `get?_op`: where their encodings carry it.
* `Proposal.get?_reads`, `get?_guards`, `get?_operations`: the lists of a proposal.
-/

namespace SharedMind

open Py

/-- `kind` of a read. -/
def ReadRef.kindText : ReadRef → String
  | .aggregate _ => "AGGREGATE"
  | .collection _ => "COLLECTION"

theorem ReadRef.get?_kind (r : ReadRef) :
    (ReadRef.codec.enc r).get? "kind" = some (.str r.kindText) := by
  cases r <;> rfl

/-- `op` of a guard. -/
def Guard.opText : Guard → String
  | .claimStatusEq _ _ => "CLAIM_STATUS_EQ"
  | .claimVersionEq _ _ => "CLAIM_VERSION_EQ"
  | .conflictStatusEq _ _ => "CONFLICT_STATUS_EQ"
  | .conflictMemberDigestEq _ _ => "CONFLICT_MEMBER_DIGEST_EQ"
  | .activeSetDigestEq _ _ => "ACTIVE_SET_DIGEST_EQ"
  | .sourceHashEq _ _ => "SOURCE_HASH_EQ"
  | .noActiveClaim _ => "NO_ACTIVE_CLAIM"
  | .decisionStatusEq _ _ => "DECISION_STATUS_EQ"
  | .decisionVersionEq _ _ => "DECISION_VERSION_EQ"
  | .questionStatusEq _ _ => "QUESTION_STATUS_EQ"
  | .questionVersionEq _ _ => "QUESTION_VERSION_EQ"
  | .workItemStatusEq _ _ => "WORK_ITEM_STATUS_EQ"
  | .workItemVersionEq _ _ => "WORK_ITEM_VERSION_EQ"

theorem Guard.get?_op (g : Guard) : (Guard.codec.enc g).get? "op" = some (.str g.opText) := by
  cases g <;> rfl

/-- The `op` of an operation. -/
def Operation.opText : Operation → String
  | registerSourceRevision _ _ => "REGISTER_SOURCE_REVISION"
  | assertClaim _ _ _ => "ASSERT_CLAIM"
  | attachEvidence _ _ => "ATTACH_EVIDENCE"
  | supersedeClaim _ => "SUPERSEDE_CLAIM"
  | retractClaim _ => "RETRACT_CLAIM"
  | resolveConflict _ => "RESOLVE_CONFLICT"
  | recordDecision _ _ => "RECORD_DECISION"
  | supersedeDecision _ => "SUPERSEDE_DECISION"
  | openQuestion _ _ => "OPEN_QUESTION"
  | answerQuestion _ _ _ => "ANSWER_QUESTION"
  | dropQuestion _ _ _ => "DROP_QUESTION"
  | createWorkItem _ _ => "CREATE_WORK_ITEM"
  | updateWorkItemStatus _ => "UPDATE_WORK_ITEM_STATUS"

theorem Operation.get?_op (op : Operation) :
    (Operation.codec.enc op).get? "op" = some (.str op.opText) := by
  cases op <;> rfl

/-! ### Lists of a proposal -/

theorem Proposal.get?_reads (p : Proposal) :
    (Proposal.codec.enc p).get? "reads" = some (.arr (p.reads.1.map ReadRef.codec.enc)) := rfl

theorem Proposal.get?_guards (p : Proposal) :
    (Proposal.codec.enc p).get? "guards" = some (.arr (p.guards.1.map Guard.codec.enc)) := rfl

theorem Proposal.get?_operations (p : Proposal) :
    (Proposal.codec.enc p).get? "operations" =
      some (.arr (p.operations.1.map Operation.codec.enc)) := rfl

end SharedMind
