import SharedMind.Contract.Continuity
import SharedMind.Observe.Trace
import SharedMind.Py.Freeform

/-!
# Skills and product proposals

The parts of the product contract that `commit_product_proposal` reads and writes: `SkillRecord`,
`ProductSkillOperation`, `ProductMutationProposal` and `ProductMutationReceipt`.
-/

namespace SharedMind.Product

open Py

/-! ### Texts -/

/-- A prefix and twenty-four hexadecimal digits. -/
def digestIdPattern (stem : String) : Pattern := ⟨[Piece.text stem ++ [⟨isHexChar, 24, some 24⟩]]⟩

def productKeyPattern : Pattern := ⟨[[⟨orElse alnumChar (oneOf "._:-"), 8, some 128⟩]]⟩

abbrev ProductOpId := Text (digestIdPattern "product_op_").search
abbrev ProductProposalId := Text (digestIdPattern "product_proposal_").search
abbrev ProductReceiptId := Text (digestIdPattern "product_receipt_").search
abbrev ProductKey := Text productKeyPattern.search
abbrev Timestamp := Text Observe.timestampPattern.search

/-- A list with an item. -/
abbrev Listed (α : Type) : Type := {as : List α // as ≠ []}

def listed {α : Type} (c : Codec α) : Codec (Listed α) where
  enc as := c.list.enc as.1
  dec v := (c.list.dec v).bind fun as => match as with
    | [] => none
    | a :: as => some ⟨a :: as, List.cons_ne_nil a as⟩
  dec_enc := by
    rintro ⟨as, has⟩
    rw [c.list.dec_enc]
    cases as with
    | nil => exact absurd rfl has
    | cons a as => rfl
  enc_dec {v as} h := by
    obtain ⟨bs, hbs, h⟩ := Option.bind_eq_some_iff.mp h
    cases bs with
    | nil => exact nomatch h
    | cons b bs =>
      obtain rfl := Option.some.inj h
      exact c.list.enc_dec hbs
  sorted as := c.list.sorted as.1

/-! ### Skills -/

inductive SkillStatus where
  | draft
  | tested
  | approved
  | deprecated
  deriving DecidableEq

namespace SkillStatus

def text : SkillStatus → String
  | draft => "DRAFT"
  | tested => "TESTED"
  | approved => "APPROVED"
  | deprecated => "DEPRECATED"

def codec : Codec SkillStatus :=
  .enum [draft, tested, approved, deprecated] text (by intro a; cases a <;> decide)
    (by intro a b; cases a <;> cases b <;> decide)

end SkillStatus

structure SkillResource where
  contentHash : Hash
  path : Bounded 1 1024
  sourceRevisionId : Option (Option String)

def SkillResource.codec : Codec SkillResource :=
  ((Fields.req "content_hash" Text.codec (.req "path" Text.codec
    (.opt "source_revision_id" nullableStr .nil
      (by decide)))).object (by decide)).iso (fun p => ⟨p.1, p.2.1, p.2.2.1⟩)
    (fun r => (r.contentHash, r.path, r.sourceRevisionId, ())) (fun _ => rfl) (fun _ => rfl)

/-- A string with a character. -/
abbrev NonEmpty := Text fun s => decide (1 ≤ s.length)

/-- `SkillRecord`. -/
structure SkillRecord where
  contentHash : Hash
  createdAt : Timestamp
  document : AnyObject
  expectedOutputs : List String
  preconditions : List String
  provenance : AnyObject
  purpose : Bounded 1 2048
  resources : List SkillResource
  skillId : SemanticId
  status : SkillStatus
  steps : Listed NonEmpty
  triggers : Listed NonEmpty
  updatedAt : Timestamp
  validationRules : Listed AnyObject
  version : AtLeast 1

def SkillRecord.codec : Codec SkillRecord :=
  ((Fields.req "content_hash" Text.codec (.req "created_at" Text.codec
    (.req "document" AnyObject.codec (.req "expected_outputs" Codec.str.list
    (.const "object_type" "SKILL_RECORD" (.req "preconditions" Codec.str.list
    (.req "provenance" AnyObject.codec (.req "purpose" Text.codec
    (.req "resources" SkillResource.codec.list (.req "skill_id" Text.codec
    (.req "status" SkillStatus.codec (.req "steps" (listed Text.codec)
    (.req "triggers" (listed Text.codec) (.req "updated_at" Text.codec
    (.req "validation_rules" (listed AnyObject.codec)
    (.req "version" AtLeast.codec .nil)))))))))))))))).object (by decide)).iso
    (fun p => ⟨p.1, p.2.1, p.2.2.1, p.2.2.2.1, p.2.2.2.2.1, p.2.2.2.2.2.1, p.2.2.2.2.2.2.1,
      p.2.2.2.2.2.2.2.1, p.2.2.2.2.2.2.2.2.1, p.2.2.2.2.2.2.2.2.2.1, p.2.2.2.2.2.2.2.2.2.2.1,
      p.2.2.2.2.2.2.2.2.2.2.2.1, p.2.2.2.2.2.2.2.2.2.2.2.2.1, p.2.2.2.2.2.2.2.2.2.2.2.2.2.1,
      p.2.2.2.2.2.2.2.2.2.2.2.2.2.2.1⟩)
    (fun s => (s.contentHash, s.createdAt, s.document, s.expectedOutputs, s.preconditions,
      s.provenance, s.purpose, s.resources, s.skillId, s.status, s.steps, s.triggers, s.updatedAt,
      s.validationRules, s.version, ())) (fun _ => rfl) (fun _ => rfl)

/-- `int(value)`, of an integer that the contract bounds from below by one. -/
def versionOf (n : AtLeast 1) : Nat := (n.1.toInt?.getD 0).toNat

/-! ### Operations -/

structure ReviseSkill where
  expectedVersion : AtLeast 1
  opId : ProductOpId
  replacementSkill : SkillRecord
  skillId : SemanticId

structure MarkSkillTested where
  opId : ProductOpId
  skillId : SemanticId
  testEvidence : AnyObject
  version : AtLeast 1

structure ApproveSkill where
  approval : AnyObject
  opId : ProductOpId
  skillId : SemanticId
  version : AtLeast 1

/-- The statuses a skill is deprecated from. -/
abbrev DeprecatedFrom : Type := {s : SkillStatus // s ≠ .deprecated}

structure DeprecateSkill where
  expectedStatus : DeprecatedFrom
  opId : ProductOpId
  rationale : Bounded 1 4096
  skillId : SemanticId
  version : AtLeast 1

/-- `ProductSkillOperation`. -/
inductive SkillOperation where
  | createSkill (opId : ProductOpId) (skill : SkillRecord)
  | importSkill (opId : ProductOpId) (skill : SkillRecord)
  | reviseSkill (o : ReviseSkill)
  | markSkillTested (o : MarkSkillTested)
  | approveSkill (o : ApproveSkill)
  | deprecateSkill (o : DeprecateSkill)

namespace SkillOperation

def wholeSkillObject (op : String) : Tagged "op" (ProductOpId × SkillRecord) :=
  ((TaggedFields.tagged "op" op (.req "op_id" Text.codec
    (.req "skill" SkillRecord.codec .nil))).object
    (show ["op", "op_id", "skill"].Pairwise (· < ·) by decide)).iso
    (fun p => (p.1, p.2.1)) (fun p => (p.1, p.2, ())) (fun _ => rfl) (fun _ => rfl)

def reviseSkillObject : Tagged "op" ReviseSkill :=
  ((TaggedFields.req "expected_version" AtLeast.codec (.tagged "op" "REVISE_SKILL"
    (.req "op_id" Text.codec (.req "replacement_skill" SkillRecord.codec
    (.req "skill_id" Text.codec .nil))))).object (by decide)).iso
    (fun p => ⟨p.1, p.2.1, p.2.2.1, p.2.2.2.1⟩)
    (fun o => (o.expectedVersion, o.opId, o.replacementSkill, o.skillId, ()))
    (fun _ => rfl) (fun _ => rfl)

def markSkillTestedObject : Tagged "op" MarkSkillTested :=
  ((TaggedFields.req "expected_status" (SkillStatus.codec.refine (· = .draft))
    (.tagged "op" "MARK_SKILL_TESTED" (.req "op_id" Text.codec (.req "skill_id" Text.codec
    (.req "test_evidence" AnyObject.codec (.req "version" AtLeast.codec .nil)))))).object
    (by decide)).iso (fun p => ⟨p.2.1, p.2.2.1, p.2.2.2.1, p.2.2.2.2.1⟩)
    (fun o => (⟨.draft, rfl⟩, o.opId, o.skillId, o.testEvidence, o.version, ())) (fun _ => rfl)
    (by rintro ⟨⟨_, rfl⟩, _⟩; rfl)

def approveSkillObject : Tagged "op" ApproveSkill :=
  ((TaggedFields.req "approval" AnyObject.codec
    (.req "expected_status" (SkillStatus.codec.refine (· = .tested))
    (.tagged "op" "APPROVE_SKILL" (.req "op_id" Text.codec (.req "skill_id" Text.codec
    (.req "version" AtLeast.codec .nil)))))).object (by decide)).iso
    (fun p => ⟨p.1, p.2.2.1, p.2.2.2.1, p.2.2.2.2.1⟩)
    (fun o => (o.approval, ⟨.tested, rfl⟩, o.opId, o.skillId, o.version, ())) (fun _ => rfl)
    (by rintro ⟨_, ⟨_, rfl⟩, _⟩; rfl)

def deprecateSkillObject : Tagged "op" DeprecateSkill :=
  ((TaggedFields.req "expected_status" (SkillStatus.codec.refine (· ≠ .deprecated))
    (.tagged "op" "DEPRECATE_SKILL" (.req "op_id" Text.codec (.req "rationale" Text.codec
    (.req "skill_id" Text.codec (.req "version" AtLeast.codec .nil)))))).object (by decide)).iso
    (fun p => ⟨p.1, p.2.1, p.2.2.1, p.2.2.2.1, p.2.2.2.2.1⟩)
    (fun o => (o.expectedStatus, o.opId, o.rationale, o.skillId, o.version, ())) (fun _ => rfl)
    (fun _ => rfl)

def codec : Codec SkillOperation :=
  ((wholeSkillObject "CREATE_SKILL").sum
  ((wholeSkillObject "IMPORT_SKILL").sum
  (reviseSkillObject.sum
  (markSkillTestedObject.sum
  (approveSkillObject.sum
  deprecateSkillObject
  (by decide)) (by decide)) (by decide)) (by decide)) (by decide)).toCodec.iso
    (fun
      | .inl a => .createSkill a.1 a.2
      | .inr (.inl a) => .importSkill a.1 a.2
      | .inr (.inr (.inl a)) => .reviseSkill a
      | .inr (.inr (.inr (.inl a))) => .markSkillTested a
      | .inr (.inr (.inr (.inr (.inl a)))) => .approveSkill a
      | .inr (.inr (.inr (.inr (.inr a)))) => .deprecateSkill a)
    (fun
      | .createSkill a b => .inl (a, b)
      | .importSkill a b => .inr (.inl (a, b))
      | .reviseSkill a => .inr (.inr (.inl a))
      | .markSkillTested a => .inr (.inr (.inr (.inl a)))
      | .approveSkill a => .inr (.inr (.inr (.inr (.inl a))))
      | .deprecateSkill a => .inr (.inr (.inr (.inr (.inr a)))))
    (by intro b; cases b <;> rfl)
    (by rintro (_ | _ | _ | _ | _ | _) <;> rfl)

end SkillOperation

/-! ### Proposals and receipts -/

abbrev SkillOperations : Type := {ops : List SkillOperation // ops ≠ [] ∧ ops.length ≤ 64}

def SkillOperations.codec : Codec SkillOperations where
  enc ops := SkillOperation.codec.list.enc ops.1
  dec v := (SkillOperation.codec.list.dec v).bind fun ops =>
    if h : ops.isEmpty = false ∧ ops.length ≤ 64 then
      some ⟨ops, by simpa using h.1, h.2⟩ else none
  dec_enc ops := by
    rw [Codec.dec_enc, Option.bind_some, dif_pos ⟨by simpa using ops.2.1, ops.2.2⟩]
  enc_dec {v ops} h := by
    obtain ⟨as, has, h⟩ := Option.bind_eq_some_iff.mp h
    split at h
    · obtain rfl := Option.some.inj h
      exact SkillOperation.codec.list.enc_dec has
    · exact nomatch h
  sorted ops := SkillOperation.codec.list.sorted ops.1

/-- `ProductMutationProposal`. -/
structure ProductProposal where
  expectedProductStateHash : Option Hash
  idempotencyKey : ProductKey
  operations : SkillOperations
  proposalId : ProductProposalId
  proposedAt : Timestamp
  proposer : SemanticId

def ProductProposal.codec : Codec ProductProposal :=
  ((Fields.req "expected_product_state_hash" Text.nullable (.req "idempotency_key" Text.codec
    (.const "object_type" "PRODUCT_MUTATION_PROPOSAL" (.req "operations" SkillOperations.codec
    (.req "proposal_id" Text.codec (.req "proposed_at" Text.codec
    (.req "proposer" Text.codec .nil))))))).object (by decide)).iso
    (fun p => ⟨p.1, p.2.1, p.2.2.1, p.2.2.2.1, p.2.2.2.2.1, p.2.2.2.2.2.1⟩)
    (fun p => (p.expectedProductStateHash, p.idempotencyKey, p.operations, p.proposalId,
      p.proposedAt, p.proposer, ())) (fun _ => rfl) (fun _ => rfl)

/-- `sha256_json(proposal)`. -/
def ProductProposal.hash (p : ProductProposal) : Hash := sha256Json (ProductProposal.codec.enc p)

inductive ProductOutcome where
  | committed
  | validationError
  | transactionConflict
  deriving DecidableEq

namespace ProductOutcome

def text : ProductOutcome → String
  | committed => "COMMITTED"
  | validationError => "VALIDATION_ERROR"
  | transactionConflict => "TRANSACTION_CONFLICT"

def codec : Codec ProductOutcome :=
  .enum [committed, validationError, transactionConflict] text (by intro a; cases a <;> decide)
    (by intro a b; cases a <;> cases b <;> decide)

end ProductOutcome

/-- The codes of a `ProductStoreError` that a receipt can name, and of a reused key. -/
inductive ProductReason where
  | idempotencyKeyReuse
  | proposalIdReuse
  | stateHashMismatch
  | skillNotFound
  | skillRevisionInvalid
  | skillStatusMismatch
  | skillVersionMismatch
  | skillVersionReuse
  deriving DecidableEq

def ProductReason.text : ProductReason → String
  | idempotencyKeyReuse => "PRODUCT_IDEMPOTENCY_KEY_REUSE"
  | proposalIdReuse => "PRODUCT_PROPOSAL_ID_REUSE"
  | stateHashMismatch => "PRODUCT_STATE_HASH_MISMATCH"
  | skillNotFound => "SKILL_NOT_FOUND"
  | skillRevisionInvalid => "SKILL_REVISION_INVALID"
  | skillStatusMismatch => "SKILL_STATUS_MISMATCH"
  | skillVersionMismatch => "SKILL_VERSION_MISMATCH"
  | skillVersionReuse => "SKILL_VERSION_REUSE"

/-- `ProductMutationReceipt`, as the store builds it: it names one reason at most. -/
structure ProductReceipt where
  decidedAt : Timestamp
  idempotencyKey : ProductKey
  operationCount : Nat
  outcome : ProductOutcome
  productStateHashAfter : Hash
  productStateHashBefore : Hash
  proposalHash : Hash
  proposalId : ProductProposalId
  reason : Option ProductReason
  receiptId : String
  deriving DecidableEq

end SharedMind.Product
