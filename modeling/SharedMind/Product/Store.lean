import SharedMind.Kernel.Base
import SharedMind.Product.Skill

/-!
# The product store

The tables a product proposal reads and writes.  The eight tables of `product_state_hash` that no
proposal writes are lists of rows, each a dict, in the order they are selected in.

* `putSkill`, `updateSkillStatus`, `applySkillOperation`: what an operation does to the skills.
* `productStateHash`: `product_state_hash` of the rows that were read.
* `commitTransaction`, `rejectTransaction`: the two transactions of `commit_product_proposal`.
-/

namespace SharedMind.Product

open Py

/-! ### Skills -/

/-- A row of `skills` but for its primary key. -/
structure SkillRow where
  status : SkillStatus
  contentHash : Hash
  createdAt : String
  updatedAt : String
  document : AnyObject
  provenance : AnyObject

/-- `skills`, by `skill_id` and `version`. -/
abbrev SkillTable := Table (String ×ₗ Nat) SkillRow

instance transCmp_key : Std.TransCmp (compare : String ×ₗ Nat → String ×ₗ Nat → Ordering) := inferInstance

def skillKey (skillId : String) (version : Nat) : String ×ₗ Nat := toLex (skillId, version)

/-- What a transaction raises: a `ProductStoreError`, or another exception. -/
inductive StoreExc where
  | store (reason : ProductReason)
  | integrityError
  | overflowError
  deriving DecidableEq

/-- The versions of a skill, the latest last. -/
def skillVersions (skills : SkillTable) (skillId : String) : List Nat :=
  (skills.toList.filter fun r => (ofLex r.1).1 = skillId).map fun r => (ofLex r.1).2

/-- `SELECT version FROM skills WHERE skill_id=? AND status='APPROVED'`. -/
def approvedVersion (skills : SkillTable) (skillId : String) : Option Nat :=
  (skills.toList.find? fun r => (ofLex r.1).1 = skillId ∧ r.2.status = .approved).map
    fun r => (ofLex r.1).2

/-- `put_skill`; `now` is what `utc_now` answers. -/
def putSkill (now : String) (skills : SkillTable) (skill : SkillRecord) :
    Except StoreExc SkillTable := do
  let skillId := skill.skillId.text
  let key := skillKey skillId (versionOf skill.version)
  ensure (versionOf skill.version ≤ maxRowId) .overflowError
  match skills[key]? with
  | some existing =>
    ensure (existing.contentHash = skill.contentHash) (.store .skillVersionReuse)
    return skills
  | none =>
    let skills := match skill.status, approvedVersion skills skillId with
      | .approved, some version =>
        skills.modify (skillKey skillId version) fun row =>
          { row with status := .deprecated, updatedAt := now }
      | _, _ => skills
    return skills.insert key {
      status := skill.status
      contentHash := skill.contentHash
      createdAt := skill.createdAt.text
      updatedAt := skill.updatedAt.text
      document := skill.document
      provenance := skill.provenance }

/-- `update_skill_status`. -/
def updateSkillStatus (occurredAt : String) (skills : SkillTable) (skillId : String) (version : Nat)
    (status expected : SkillStatus) : Except StoreExc SkillTable := do
  let current ← orRaise skills[skillKey skillId version]? (.store .skillNotFound)
  ensure (current.status = expected) (.store .skillStatusMismatch)
  let skills := if status = .approved then
      skills.map fun key row =>
        if (ofLex key).1 = skillId ∧ row.status = .approved ∧ (ofLex key).2 ≠ version then
          { row with status := .deprecated, updatedAt := occurredAt } else row
    else skills
  return skills.modify (skillKey skillId version) fun row =>
    { row with status := status, updatedAt := occurredAt }

/-- The row an operation on a version begins with. -/
def currentSkill (skills : SkillTable) (skillId : String) (version : Nat) :
    Except StoreExc SkillRow := do
  ensure (version ≤ maxRowId) .overflowError
  orRaise skills[skillKey skillId version]? (.store .skillNotFound)

/-- `_apply_product_skill_operation`. -/
def applySkillOperation (now occurredAt : String) (skills : SkillTable) :
    SkillOperation → Except StoreExc SkillTable
  | .createSkill _ skill | .importSkill _ skill => putSkill now skills skill
  | .reviseSkill o => do
    let expected := versionOf o.expectedVersion
    let _ ← currentSkill skills o.skillId.text expected
    ensure ((skillVersions skills o.skillId.text).getLast? = some expected)
      (.store .skillVersionMismatch)
    ensure (o.replacementSkill.skillId = o.skillId ∧
      versionOf o.replacementSkill.version = expected + 1) (.store .skillRevisionInvalid)
    putSkill now skills o.replacementSkill
  | .markSkillTested o => do
    let current ← currentSkill skills o.skillId.text (versionOf o.version)
    ensure (current.status = .draft) (.store .skillStatusMismatch)
    updateSkillStatus occurredAt skills o.skillId.text (versionOf o.version) .tested .draft
  | .approveSkill o => do
    let current ← currentSkill skills o.skillId.text (versionOf o.version)
    ensure (current.status = .tested) (.store .skillStatusMismatch)
    updateSkillStatus occurredAt skills o.skillId.text (versionOf o.version) .approved .tested
  | .deprecateSkill o => do
    let current ← currentSkill skills o.skillId.text (versionOf o.version)
    ensure (current.status = o.expectedStatus.1) (.store .skillStatusMismatch)
    updateSkillStatus occurredAt skills o.skillId.text (versionOf o.version) .deprecated
      o.expectedStatus.1

/-! ### The product state -/

/-- The tables of `product_state_hash` that proposals leave alone. -/
inductive OtherTable where
  | ingestBatches
  | ingestItems
  | drafts
  | artifacts
  | retrievalDocuments
  | links
  | codeSymbols
  | codeEdges
  deriving DecidableEq

inductive ProductTable where
  | skills
  | other (table : OtherTable)
  deriving DecidableEq

/-- In the order they are selected. -/
def ProductTable.all : List ProductTable := [.other .ingestBatches, .other .ingestItems,
  .other .drafts, .other .artifacts, .skills, .other .retrievalDocuments, .other .links,
  .other .codeSymbols, .other .codeEdges]

/-- `dict(row)` of a skill, its documents the texts that are stored. -/
def skillColumns (key : String ×ₗ Nat) (row : SkillRow) : Json :=
  .obj [("content_hash", .str row.contentHash.text), ("created_at", .str row.createdAt),
    ("document", .str row.document.json.dumps), ("provenance", .str row.provenance.json.dumps),
    ("skill_id", .str (ofLex key).1), ("status", .str row.status.text),
    ("updated_at", .str row.updatedAt), ("version", .num (.int (ofLex key).2))]

structure ProductTables where
  skills : SkillTable
  others : OtherTable → List Json

/-- `SELECT * FROM table ORDER BY` its primary key. -/
def ProductTables.rows (tables : ProductTables) : ProductTable → List Json
  | .skills => tables.skills.toList.map fun r => skillColumns r.1 r.2
  | .other table => tables.others table

/-- `product_state_hash`, of the rows that were read of each table. -/
def productStateHash (rows : ProductTable → List Json) : Hash :=
  sha256Json (.obj [("artifacts", .arr (rows (.other .artifacts))),
    ("code_edges", .arr (rows (.other .codeEdges))),
    ("code_symbols", .arr (rows (.other .codeSymbols))), ("drafts", .arr (rows (.other .drafts))),
    ("ingest_batches", .arr (rows (.other .ingestBatches))),
    ("ingest_items", .arr (rows (.other .ingestItems))), ("links", .arr (rows (.other .links))),
    ("retrieval_documents", .arr (rows (.other .retrievalDocuments))),
    ("skills", .arr (rows .skills))])

/-! ### Proposals and receipts -/

/-- A row of `product_proposals`, with the proposal that is its document. -/
structure ProposalRow where
  hash : Hash
  proposal : ProductProposal

/-- The tables of `commit_product_proposal`, proposals and receipts in the order of insertion. -/
structure ProductDb where
  tables : ProductTables
  proposals : List ProposalRow
  receipts : List ProductReceipt

def ProductDb.empty : ProductDb := ⟨⟨∅, fun _ => []⟩, [], []⟩

/-- `product_state_hash` inside a transaction. -/
def ProductDb.stateHash (db : ProductDb) : Hash := productStateHash db.tables.rows

/-- `get_product_receipt_by_key`. -/
def receiptByKey (db : ProductDb) (key : ProductKey) : Option ProductReceipt :=
  db.receipts.find? fun r => r.idempotencyKey = key

/-- `_product_receipt`, with one reason code at most. -/
def productReceipt (p : ProductProposal) (outcome : ProductOutcome) (reason : Option ProductReason)
    (before after : Hash) : ProductReceipt :=
  let digest := sha256Json (.obj [("outcome", .str outcome.text),
    ("proposal_hash", .str p.hash.text),
    ("reason_codes", .arr (reason.toList.map fun r => .str r.text)),
    ("state_after", .str after.text), ("state_before", .str before.text)])
  { decidedAt := p.proposedAt
    idempotencyKey := p.idempotencyKey
    operationCount := p.operations.1.length
    outcome := outcome
    productStateHashAfter := after
    productStateHashBefore := before
    proposalHash := p.hash
    proposalId := p.proposalId
    reason := reason
    receiptId := "product_receipt_" ++ String.ofList (digest.digits.take 24) }

/-- `_insert_product_proposal`. -/
def insertProductProposal (db : ProductDb) (p : ProductProposal) : Except StoreExc ProductDb := do
  ensure (∀ row ∈ db.proposals, row.proposal.proposalId ≠ p.proposalId ∧
    row.proposal.idempotencyKey ≠ p.idempotencyKey) (.store .proposalIdReuse)
  return { db with proposals := db.proposals ++ [⟨p.hash, p⟩] }

/-- `_insert_product_receipt`.  A receipt the store builds passes its own check. -/
def insertProductReceipt (db : ProductDb) (r : ProductReceipt) : Except StoreExc ProductDb := do
  ensure (∀ row ∈ db.receipts, row.receiptId ≠ r.receiptId ∧
    row.idempotencyKey ≠ r.idempotencyKey) .integrityError
  return { db with receipts := db.receipts ++ [r] }

/-- The transaction that commits a proposal, with the state hash read before it. -/
def commitTransaction (now : String) (p : ProductProposal) (before : Hash) (db : ProductDb) :
    Except StoreExc (ProductReceipt × ProductDb) := do
  let db ← insertProductProposal db p
  let skills ← p.operations.1.foldlM (applySkillOperation now p.proposedAt.text) db.tables.skills
  let db := { db with tables := { db.tables with skills := skills } }
  let receipt := productReceipt p .committed none before db.stateHash
  let db ← insertProductReceipt db receipt
  return (receipt, db)

/-- The transaction of `_persist_product_rejection`. -/
def rejectTransaction (p : ProductProposal) (receipt : ProductReceipt) (db : ProductDb) :
    Except StoreExc ProductDb := do
  let db ← insertProductProposal db p
  insertProductReceipt db receipt

end SharedMind.Product
