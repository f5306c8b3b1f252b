import SharedMind.Contract.Ledger
import SharedMind.Py.DateTime
import SharedMind.Py.JsonRoundTrip
import SharedMind.Py.Store

/-!
# The kernel's database and what it raises

* `Host`: what the process takes from its surroundings.
* `ReasonCode`, `PyExc`, `handled`: the reason codes of receipts, the exceptions,
  and which of them `commit` turns into a receipt.
* `Tables`, `LedgerRow`, `ReceiptRow`, `Db`: the tables.  A materialized table holds
  rows of decoded documents; ledger and receipts hold the texts SQLite stores.
-/

namespace SharedMind

open Py

/-! ### Surroundings -/

class Host where
  /-- How deep containers may nest before `json.dumps` raises `RecursionError`. -/
  recursionLimit : Nat
  /-- The offset of local time at a wall-clock moment that names none. -/
  localOffset : Int → Except TimeError Int
  /-- The text SQLite stores in a TEXT column for a real; NaN is stored as NULL. -/
  realText : PyFloat → Option String
  /-- Such a text is a number or `Inf`, so no lower-case letter begins it. -/
  realText_head : ∀ {f t c r}, realText f = some t → t.toList = c :: r → lowerChar c = false

theorem lowerChar_of_isDigit {c : Char} (h : c.isDigit = true) : lowerChar c = false := by
  have hlt : '9' < 'a' := by decide
  rw [Char.isDigit, Bool.and_eq_true, decide_eq_true_eq, decide_eq_true_eq] at h
  rw [lowerChar, Bool.and_eq_false_iff, decide_eq_false_iff_not, not_le]
  exact Or.inl (lt_of_le_of_lt h.2 hlt)

/-- A host on UTC, which prints a finite real as `repr` does. -/
@[reducible] def Host.utc : Host where
  recursionLimit := 1000
  localOffset _ := .ok 0
  realText
    | .finite neg d => some (String.ofList ((if neg then ['-'] else []) ++ d.text))
    | .inf neg => some (if neg then "-Inf" else "Inf")
    | .nan => none
  realText_head {f t c r} ht hc := by
    cases f with
    | finite neg d =>
      obtain rfl := Option.some.inj ht
      rw [String.toList_ofList] at hc
      obtain ⟨e, s, hd, he⟩ := decimal_text_head d
      cases neg with
      | true => obtain ⟨rfl, -⟩ := List.cons_eq_cons.mp hc; decide
      | false =>
        rw [hd] at hc
        obtain ⟨rfl, -⟩ := List.cons_eq_cons.mp hc
        exact lowerChar_of_isDigit he
    | inf neg =>
      obtain rfl := Option.some.inj ht
      cases neg with
      | true => obtain ⟨rfl, -⟩ := List.cons_eq_cons.mp (show ['-', 'I', 'n', 'f'] = c :: r from hc); decide
      | false => obtain ⟨rfl, -⟩ := List.cons_eq_cons.mp (show ['I', 'n', 'f'] = c :: r from hc); decide
    | nan => exact nomatch ht

/-! ### Reason codes -/

inductive ReasonCode where
  | activeClaimExists
  | activeSetDigestMismatch
  | actorNotAuthorized
  | claimStatusMismatch
  | claimVersionMismatch
  | conflictFamilyKeyMismatch
  | conflictMemberDigestMismatch
  | conflictMemberNotFound
  | conflictResolutionEpochMismatch
  | conflictStatusMismatch
  | conflictVersionMismatch
  | decisionReceiptSchemaInvalid
  | decisionStatusMismatch
  | decisionVersionMismatch
  | duplicateObjectId
  | evidenceClaimMismatch
  | evidenceInterpretationNotAllowed
  | evidenceReferenceNotFound
  | evidenceSelectorMismatch
  | idempotencyKeyReuse
  | insufficientEvidence
  | integrityConstraintViolation
  | invalidConflictResolution
  | invalidNewDecisionState
  | invalidNewQuestionState
  | invalidNewWorkItemState
  | invalidValidTimeRange
  | invalidWorkItemBlocker
  | ledgerDocumentNotFound
  | ledgerEntrySchemaInvalid
  | malformedProposal
  | missingRequiredClaimRead
  | missingRequiredConflictRead
  | missingRequiredDecisionRead
  | missingRequiredQuestionRead
  | missingRequiredWorkItemRead
  | objectEntityTypeMismatch
  | objectEnumValueNotAllowed
  | objectKindMismatch
  | predicateRegistryContentMismatch
  | proposalTooDeep
  | proposalTooLarge
  | propositionHashMismatch
  | questionStatusMismatch
  | questionVersionMismatch
  | referenceNotFound
  | referenceTypeMismatch
  | replayEventPreconditionFailed
  | replayEventTransitionMismatch
  | requiredScopeMissing
  | schemaValidationFailed
  | scopeFieldNotAllowed
  | sourceContentHashMismatch
  | sourceContentUnavailable
  | sourceHashMismatch
  | sourceRevisionImmutabilityViolation
  | sourceRevisionNotFound
  | sourceRevisionVersionMismatch
  | subjectTypeMismatch
  | unknownPredicate
  | unsupportedConflictRulesVersion
  | unsupportedGuardDslVersion
  | unsupportedPredicateRegistry
  | unsupportedProjectionVersion
  | unsupportedSchemaVersion
  | validTimeForbidden
  | validTimeRequired
  | workItemStatusMismatch
  | workItemVersionMismatch
  deriving DecidableEq

namespace ReasonCode

def text : ReasonCode → String
  | activeClaimExists => "ACTIVE_CLAIM_EXISTS"
  | activeSetDigestMismatch => "ACTIVE_SET_DIGEST_MISMATCH"
  | actorNotAuthorized => "ACTOR_NOT_AUTHORIZED"
  | claimStatusMismatch => "CLAIM_STATUS_MISMATCH"
  | claimVersionMismatch => "CLAIM_VERSION_MISMATCH"
  | conflictFamilyKeyMismatch => "CONFLICT_FAMILY_KEY_MISMATCH"
  | conflictMemberDigestMismatch => "CONFLICT_MEMBER_DIGEST_MISMATCH"
  | conflictMemberNotFound => "CONFLICT_MEMBER_NOT_FOUND"
  | conflictResolutionEpochMismatch => "CONFLICT_RESOLUTION_EPOCH_MISMATCH"
  | conflictStatusMismatch => "CONFLICT_STATUS_MISMATCH"
  | conflictVersionMismatch => "CONFLICT_VERSION_MISMATCH"
  | decisionReceiptSchemaInvalid => "DECISION_RECEIPT_SCHEMA_INVALID"
  | decisionStatusMismatch => "DECISION_STATUS_MISMATCH"
  | decisionVersionMismatch => "DECISION_VERSION_MISMATCH"
  | duplicateObjectId => "DUPLICATE_OBJECT_ID"
  | evidenceClaimMismatch => "EVIDENCE_CLAIM_MISMATCH"
  | evidenceInterpretationNotAllowed => "EVIDENCE_INTERPRETATION_NOT_ALLOWED"
  | evidenceReferenceNotFound => "EVIDENCE_REFERENCE_NOT_FOUND"
  | evidenceSelectorMismatch => "EVIDENCE_SELECTOR_MISMATCH"
  | idempotencyKeyReuse => "IDEMPOTENCY_KEY_REUSE"
  | insufficientEvidence => "INSUFFICIENT_EVIDENCE"
  | integrityConstraintViolation => "INTEGRITY_CONSTRAINT_VIOLATION"
  | invalidConflictResolution => "INVALID_CONFLICT_RESOLUTION"
  | invalidNewDecisionState => "INVALID_NEW_DECISION_STATE"
  | invalidNewQuestionState => "INVALID_NEW_QUESTION_STATE"
  | invalidNewWorkItemState => "INVALID_NEW_WORK_ITEM_STATE"
  | invalidValidTimeRange => "INVALID_VALID_TIME_RANGE"
  | invalidWorkItemBlocker => "INVALID_WORK_ITEM_BLOCKER"
  | ledgerDocumentNotFound => "LEDGER_DOCUMENT_NOT_FOUND"
  | ledgerEntrySchemaInvalid => "LEDGER_ENTRY_SCHEMA_INVALID"
  | malformedProposal => "MALFORMED_PROPOSAL"
  | missingRequiredClaimRead => "MISSING_REQUIRED_CLAIM_READ"
  | missingRequiredConflictRead => "MISSING_REQUIRED_CONFLICT_READ"
  | missingRequiredDecisionRead => "MISSING_REQUIRED_DECISION_READ"
  | missingRequiredQuestionRead => "MISSING_REQUIRED_QUESTION_READ"
  | missingRequiredWorkItemRead => "MISSING_REQUIRED_WORK_ITEM_READ"
  | objectEntityTypeMismatch => "OBJECT_ENTITY_TYPE_MISMATCH"
  | objectEnumValueNotAllowed => "OBJECT_ENUM_VALUE_NOT_ALLOWED"
  | objectKindMismatch => "OBJECT_KIND_MISMATCH"
  | predicateRegistryContentMismatch => "PREDICATE_REGISTRY_CONTENT_MISMATCH"
  | proposalTooDeep => "PROPOSAL_TOO_DEEP"
  | proposalTooLarge => "PROPOSAL_TOO_LARGE"
  | propositionHashMismatch => "PROPOSITION_HASH_MISMATCH"
  | questionStatusMismatch => "QUESTION_STATUS_MISMATCH"
  | questionVersionMismatch => "QUESTION_VERSION_MISMATCH"
  | referenceNotFound => "REFERENCE_NOT_FOUND"
  | referenceTypeMismatch => "REFERENCE_TYPE_MISMATCH"
  | replayEventPreconditionFailed => "REPLAY_EVENT_PRECONDITION_FAILED"
  | replayEventTransitionMismatch => "REPLAY_EVENT_TRANSITION_MISMATCH"
  | requiredScopeMissing => "REQUIRED_SCOPE_MISSING"
  | schemaValidationFailed => "SCHEMA_VALIDATION_FAILED"
  | scopeFieldNotAllowed => "SCOPE_FIELD_NOT_ALLOWED"
  | sourceContentHashMismatch => "SOURCE_CONTENT_HASH_MISMATCH"
  | sourceContentUnavailable => "SOURCE_CONTENT_UNAVAILABLE"
  | sourceHashMismatch => "SOURCE_HASH_MISMATCH"
  | sourceRevisionImmutabilityViolation => "SOURCE_REVISION_IMMUTABILITY_VIOLATION"
  | sourceRevisionNotFound => "SOURCE_REVISION_NOT_FOUND"
  | sourceRevisionVersionMismatch => "SOURCE_REVISION_VERSION_MISMATCH"
  | subjectTypeMismatch => "SUBJECT_TYPE_MISMATCH"
  | unknownPredicate => "UNKNOWN_PREDICATE"
  | unsupportedConflictRulesVersion => "UNSUPPORTED_CONFLICT_RULES_VERSION"
  | unsupportedGuardDslVersion => "UNSUPPORTED_GUARD_DSL_VERSION"
  | unsupportedPredicateRegistry => "UNSUPPORTED_PREDICATE_REGISTRY"
  | unsupportedProjectionVersion => "UNSUPPORTED_PROJECTION_VERSION"
  | unsupportedSchemaVersion => "UNSUPPORTED_SCHEMA_VERSION"
  | validTimeForbidden => "VALID_TIME_FORBIDDEN"
  | validTimeRequired => "VALID_TIME_REQUIRED"
  | workItemStatusMismatch => "WORK_ITEM_STATUS_MISMATCH"
  | workItemVersionMismatch => "WORK_ITEM_VERSION_MISMATCH"

/-- A capital letter, then 1 to 127 capital letters, digits or underscores. -/
def isReasonText : List Char → Bool
  | c :: r => upperChar c && (decide (1 ≤ r.length ∧ r.length ≤ 127) &&
      r.all (orElse (orElse upperChar digitChar) (· == '_')))
  | [] => false

theorem search_of_isReasonText {s : List Char} (h : isReasonText s = true) :
    reasonCodePattern.search (String.ofList s) = true := by
  apply Pattern.search_of_fullmatch
  rw [Pattern.fullmatch, String.toList_ofList]
  cases s with
  | nil => cases h
  | cons c r =>
    simp only [isReasonText, Bool.and_eq_true, decide_eq_true_eq] at h
    obtain ⟨hc, ⟨hlo, hhi⟩, hall⟩ := h
    rw [Pattern.matches_, reasonCodePattern, List.any_cons, Bool.or_eq_true]
    left
    refine @matchPieces_append [Piece.one upperChar] _ [c] _ ?_ ?_
    · refine matchPieces_singleton rfl ?_
      rw [List.all_cons, List.all_nil, Bool.and_true]
      exact hc
    · refine matchPieces_singleton (by simp [Piece.admits, hlo, hhi]) ?_
      refine List.all_eq_true.mpr fun d hd => ?_
      have hd := List.all_eq_true.mp hall d hd
      simp only [orElse, Bool.or_eq_true, beq_iff_eq] at hd ⊢
      rcases hd with hd | rfl
      · exact Or.inl hd
      · exact Or.inr rfl

/-- Every reason code is one the contract admits in a receipt. -/
theorem text_admitted (c : ReasonCode) : reasonCodePattern.search c.text = true := by
  obtain ⟨s, hs, h⟩ : ∃ s, c.text = String.ofList s ∧ isReasonText s = true := by
    cases c <;> exact ⟨_, rfl, by decide⟩
  rw [hs]
  exact search_of_isReasonText h

/-- A reason code as a receipt lists it. -/
def admitted (c : ReasonCode) : Text reasonCodePattern.search := ⟨c.text, c.text_admitted⟩

end ReasonCode

/-! ### Exceptions -/

inductive IntegrityError where
  | unique
  | foreignKey
  | notNull
  deriving DecidableEq

inductive PyExc where
  | transactionConflict (code : ReasonCode)
  | validationFailure (code : ReasonCode)
  | integrityError (error : IntegrityError)
  | keyError
  | typeError
  | valueError
  | overflowError
  | recursionError
  | interfaceError
  | operationalError
  deriving DecidableEq

/-- `_integrity_reason`. -/
def integrityReason : IntegrityError → ReasonCode
  | .unique => .duplicateObjectId
  | .foreignKey => .referenceNotFound
  | .notNull => .integrityConstraintViolation

/-- The receipt the `except` clauses of `_commit` write for an exception; those of
no clause are raised again. -/
def handled : PyExc → Option (Outcome × ReasonCode)
  | .transactionConflict code => some (.transactionConflict, code)
  | .integrityError e => some (.validationError, integrityReason e)
  | .validationFailure code => some (.validationError, code)
  | .keyError | .typeError | .valueError => some (.validationError, .malformedProposal)
  | .overflowError | .recursionError | .interfaceError | .operationalError => none

def ofTimeError : TimeError → PyExc
  | .valueError => .valueError
  | .overflowError => .overflowError

abbrev Kernel (α : Type) := Except PyExc α

/-- `raise ValidationFailure(code)` unless the condition holds. -/
def require (c : Prop) [Decidable c] (code : ReasonCode) : Kernel Unit :=
  ensure c (.validationFailure code)

/-- `raise TransactionConflict(code)` unless the condition holds. -/
def requireNow (c : Prop) [Decidable c] (code : ReasonCode) : Kernel Unit :=
  ensure c (.transactionConflict code)

@[simp] theorem require_eq_ok {c : Prop} [Decidable c] {code : ReasonCode} {u : Unit} :
    require c code = .ok u ↔ c := ensure_eq_ok

@[simp] theorem requireNow_eq_ok {c : Prop} [Decidable c] {code : ReasonCode} {u : Unit} :
    requireNow c code = .ok u ↔ c := ensure_eq_ok

/-! ### Rows -/

instance {p : String → Bool} : LinearOrder (Text p) :=
  inferInstanceAs (LinearOrder {s : String // p s = true})

instance transCmp_id : Std.TransCmp (compare : RecordId → RecordId → Ordering) := inferInstance

structure SourceRow where
  contentHash : Hash
  document : SourceRevision
  content : Bytes
  deriving DecidableEq

structure ClaimRow where
  propositionHash : Hash
  proposition : Proposition
  document : Claim
  status : ClaimStatus
  version : Nat
  supersededBy : Option RecordId
  deriving DecidableEq

structure EvidenceRow where
  claimId : RecordId
  sourceRevisionId : RecordId
  document : EvidenceLink
  deriving DecidableEq

structure ConflictRow where
  familyKey : Hash
  kind : ConflictKind
  memberDigest : Hash
  members : List RecordId
  status : ConflictStatus
  episode : Nat
  version : Nat
  resolution : Option Resolution
  openedSeq : Nat
  deriving DecidableEq

structure DecisionRow where
  status : DecisionStatus
  version : Nat
  replacedByDecisionId : Option RecordId
  document : DecisionDoc
  deriving DecidableEq

structure QuestionRow where
  status : QuestionStatus
  version : Nat
  answer : Option QuestionAnswer
  dropRecord : Option QuestionDrop
  document : QuestionDoc
  deriving DecidableEq

structure WorkItemRow where
  status : WorkItemStatus
  version : Nat
  blocker : Option (Bounded 1 4096)
  updatedAt : String
  document : WorkItemDoc
  deriving DecidableEq

/-- The materialized tables. -/
@[ext] structure Tables where
  sources : Table RecordId SourceRow
  claims : Table RecordId ClaimRow
  evidence : Table RecordId EvidenceRow
  conflicts : Table RecordId ConflictRow
  decisionRecords : Table RecordId DecisionRow
  openQuestions : Table RecordId QuestionRow
  workItems : Table RecordId WorkItemRow

def Tables.empty : Tables := ⟨∅, ∅, ∅, ∅, ∅, ∅, ∅⟩

structure LedgerRow where
  seq : Nat
  prevHash : Option String
  entryHash : String
  proposalHash : String
  proposal : String
  events : String
  preStateRoot : Option String
  stateRoot : String
  committedAt : Option String
  document : Option String
  deriving DecidableEq

structure ReceiptRow where
  id : Nat
  idempotencyKey : String
  proposalHash : String
  proposalId : String
  outcome : String
  reasonCodes : String
  ledgerSeq : Option Nat
  stateRoot : String
  conflictIds : String
  proposer : Option String
  document : Option String
  schemaVersion : Option String
  deriving DecidableEq

/-- A database: the tables, the ledger by `seq`, the receipts by `id`, and the pin
of the receipts an older layout left behind. -/
structure Db where
  tables : Tables
  ledger : List LedgerRow
  receipts : List ReceiptRow
  legacyReceiptPin : Option String

def Db.empty : Db := ⟨.empty, [], [], none⟩

/-- The last row id SQLite gives. -/
def maxRowId : Nat := 2 ^ 63 - 1

/-- `_head_entry_hash`. -/
def headEntryHash (ledger : List LedgerRow) : Option String := ledger.getLast?.map LedgerRow.entryHash

/-- `_next_ledger_seq`. -/
def nextLedgerSeq (ledger : List LedgerRow) : Nat := (ledger.map LedgerRow.seq).foldl max 0 + 1

/-- `COALESCE(MAX(id), 0) + 1`. -/
def nextReceiptId (receipts : List ReceiptRow) : Nat :=
  (receipts.map ReceiptRow.id).foldl max 0 + 1

end SharedMind
