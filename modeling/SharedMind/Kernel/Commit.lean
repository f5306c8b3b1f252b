import SharedMind.Kernel.StateRoot

/-!
# Commit

* `preflight`: what `_commit` decides before any transaction.
* `evaluate`, `transaction`: the transaction that answers a proposal from its first
  receipt, or applies it.
* `insertReceipt`: the receipt, with its document, as a row.
* `commit`: one call on a database nobody else writes.
-/

namespace SharedMind

open Py

variable [Host]

/-! ### The call -/

/-- A call of `commit`: the decoded value, and the time of day. -/
structure Call where
  proposal : RawJson
  now : String

namespace Call

/-- `proposal.get(key, "")`, or `""` when the proposal is no dict. -/
def member (c : Call) (key : String) : RawJson :=
  (c.proposal.get? (PyStr.ofString key)).getD (.str (PyStr.ofString ""))

def proposalId (c : Call) : RawJson := c.member "proposal_id"

def idempotencyKey (c : Call) : RawJson := c.member "idempotency_key"

/-- `_representable_proposer`. -/
def representableProposer (c : Call) : Option ActorRef :=
  (c.proposal.get? (PyStr.ofString "proposer")).bind fun v => v.toJson?.bind ActorRef.codec.dec

end Call

/-! ### Times of receipts -/

/-- A lone surrogate. -/
def isSurrogate (p : Fin 0x110000) : Bool := (PyStr.toChar? p).isNone

/-- `candidate.replace("Z", "+00:00")`, with the one lone surrogate that
`fromisoformat` takes for a separator replaced. -/
def isoformatText (s : PyStr) : PyStr :=
  let points := s.points.flatMap fun p =>
    if p = PyStr.ofChar 'Z' then (PyStr.ofString "+00:00").points else [p]
  match [7, 8, 10].find? fun i => points[i]?.any isSurrogate with
  | some i => ⟨points.set i (PyStr.ofChar 'T')⟩
  | none => ⟨points⟩

/-- Whether a text is a moment with a UTC offset. -/
def namesOffset (s : PyStr) : Bool :=
  ((isoformatText s).toString?.bind fun t => fromisoformat t.toList).any fun d => d.utcoffset.isSome

/-- `_proposal_decided_at`. -/
def proposalDecidedAt (c : Call) : PyStr :=
  match (c.proposal.get? (PyStr.ofString "proposed_at")).bind JsonOf.str? with
  | some candidate => if namesOffset candidate then candidate else PyStr.ofString c.now
  | none => PyStr.ofString c.now

/-! ### Receipts -/

/-- What SQLite makes of a value it stores in a TEXT column, or compares with one;
`none` is `NULL`. -/
def columnText (v : RawJson) : Kernel (Option String) :=
  match v with
  | .null => .ok none
  | .bool b => .ok (some (if b then "1" else "0"))
  | .num (.int i) => do
    ensure (-2 ^ 63 ≤ i ∧ i < 2 ^ 63) .overflowError
    return some (String.ofList (intText i))
  | .num (.float f) => .ok (Host.realText f)
  | .str s => (orRaise s.toString? .valueError).map some
  | .arr _ | .obj _ => .error .interfaceError

/-- A string a pattern matches whole. -/
def matchedText (p : Pattern) (v : RawJson) : Option String :=
  (v.str?.bind PyStr.toString?).filter fun s => p.fullmatch s

/-- The arguments of `_insert_receipt`. -/
structure ReceiptInput where
  proposalHash : Hash
  outcome : Outcome
  reasons : List ReasonCode
  ledgerSeq : Option Nat
  root : Hash
  conflicts : List RecordId
  headBefore : Option String
  decidedAt : Option PyStr

/-- `f"receipt_decision_{ordinal:020d}"`. -/
def receiptIdText (id : Nat) : String := String.ofList ("receipt_decision_".toList ++ decimal20 id)

/-- The heads and the entry a receipt names. -/
structure ReceiptLinks where
  headBefore : Option String
  headAfter : Option String
  entryId : Json

def receiptLinks (db : Db) (input : ReceiptInput) : Kernel ReceiptLinks :=
  match input.ledgerSeq with
  | some seq => do
    let row ← orRaise (db.ledger.find? fun r => r.seq = seq)
      (.validationFailure .ledgerDocumentNotFound)
    let text ← orRaise row.document (.validationFailure .ledgerDocumentNotFound)
    let document ← orRaise (loads text) .valueError
    let entryId ← orRaise (document.get? "entry_id") .keyError
    return ⟨row.prevHash, some row.entryHash, entryId⟩
  | none =>
    match input.headBefore with
    | some head => .ok ⟨some head, some head, .null⟩
    | none => .ok ⟨headEntryHash db.ledger, headEntryHash db.ledger, .null⟩

/-- `decided_at or self._utc_now()`. -/
def decidedAtText (c : Call) (decidedAt : Option PyStr) : PyStr :=
  match decidedAt with
  | some s => if s.points = [] then PyStr.ofString c.now else s
  | none => PyStr.ofString c.now

def receiptDocument (c : Call) (input : ReceiptInput) (links : ReceiptLinks) (id : Nat)
    (decidedAt : String) : Json :=
  .obj [("conflict_ids", .arr (input.conflicts.map idColumn)), ("decided_at", .str decidedAt),
    ("head_after", optText links.headAfter), ("head_before", optText links.headBefore),
    ("idempotency_key", optText (matchedText idempotencyKeyPattern c.idempotencyKey)),
    ("ledger_entry_id", links.entryId), ("object_type", .str "DECISION_RECEIPT"),
    ("outcome", .str input.outcome.text), ("proposal_hash", idColumn input.proposalHash),
    ("proposal_id", optText (matchedText recordIdPattern c.proposalId)),
    ("proposer", optColumn ActorRef.codec.enc c.representableProposer),
    ("reason_codes", .arr (input.reasons.map fun r => .str r.text)),
    ("receipt_id", .str (receiptIdText id))]

/-- `Receipt`. -/
structure Receipt where
  proposalId : String
  outcome : String
  reasonCodes : List Json
  ledgerSeq : Option Nat
  stateRoot : String
  conflictIds : List Json
  document : Option Json

/-- `tuple(json.loads(text))`, for a list. -/
def loadsItems (text : String) : Kernel (List Json) :=
  match loads text with
  | some (.arr items) => .ok items
  | some _ => .error .typeError
  | none => .error .valueError

/-- `_row_to_receipt`. -/
def rowToReceipt (row : ReceiptRow) : Kernel Receipt := do
  let reasonCodes ← loadsItems row.reasonCodes
  let conflictIds ← loadsItems row.conflictIds
  let document ← row.document.mapM fun text => orRaise (loads text) .valueError
  return ⟨row.proposalId, row.outcome, reasonCodes, row.ledgerSeq, row.stateRoot, conflictIds,
    document⟩

/-- The columns of a receipt. -/
def receiptColumns (c : Call) (input : ReceiptInput) (id : Nat) (key proposalId : String)
    (document : Json) : ReceiptRow where
  id := id
  idempotencyKey := key
  proposalHash := input.proposalHash
  proposalId := proposalId
  outcome := input.outcome.text
  reasonCodes := (JsonOf.arr (input.reasons.map fun r => .str r.text)).dumps
  ledgerSeq := input.ledgerSeq
  stateRoot := input.root
  conflictIds := (JsonOf.arr (input.conflicts.map idColumn)).dumps
  proposer := c.representableProposer.map fun a => (ActorRef.codec.enc a).dumps
  document := some document.dumps
  schemaVersion := some supportedSchema

/-- The row `_insert_receipt` writes. -/
def receiptRow (c : Call) (db : Db) (input : ReceiptInput) : Kernel ReceiptRow := do
  let links ← receiptLinks db input
  let id := nextReceiptId db.receipts
  let decidedAt := decidedAtText c input.decidedAt
  -- the contract does not look at the format of the time
  let document := receiptDocument c input links id (decidedAt.toString?.getD "")
  ensure ((DecisionReceipt.codec.dec document).isSome = true)
    (.validationFailure .decisionReceiptSchemaInvalid)
  let key ← columnText c.idempotencyKey
  let proposalId ← columnText c.proposalId
  ensure (decidedAt.toString?.isSome = true) .valueError
  let key ← orRaise key (.integrityError .notNull)
  let proposalId ← orRaise proposalId (.integrityError .notNull)
  ensure (id ≤ maxRowId) .operationalError
  return receiptColumns c input id key proposalId document

/-- `_insert_receipt`, inside a transaction. -/
def insertReceipt (c : Call) (db : Db) (input : ReceiptInput) : Kernel (Receipt × Db) := do
  let row ← receiptRow c db input
  let receipt ← rowToReceipt row
  return (receipt, { db with receipts := db.receipts ++ [row] })

/-! ### Before the transaction -/

/-- What a rejection receipt will say. -/
structure Rejection where
  proposalHash : Hash
  outcome : Outcome
  reason : ReasonCode
  decidedAt : Option PyStr

def Rejection.input (r : Rejection) (headBefore : Option String) (root : Hash) : ReceiptInput :=
  ⟨r.proposalHash, r.outcome, [r.reason], none, root, [], headBefore, r.decidedAt⟩

/-- `f"{type(value).__module__}.{type(value).__qualname__}"`. -/
def typeName : RawJson → String
  | .null => "builtins.NoneType"
  | .bool _ => "builtins.bool"
  | .num (.int _) => "builtins.int"
  | .num (.float _) => "builtins.float"
  | .str _ => "builtins.str"
  | .arr _ => "builtins.list"
  | .obj _ => "builtins.dict"

/-- The hash of a proposal that cannot be encoded. -/
def malformedHash (c : Call) : Kernel Hash := do
  ensure (c.idempotencyKey.depth < Host.recursionLimit ∧
    c.proposalId.depth < Host.recursionLimit) .recursionError
  let key ← orRaise c.idempotencyKey.toJson? .valueError
  let proposalId ← orRaise c.proposalId.toJson? .valueError
  return sha256Json (.obj [("idempotency_key", key),
    ("malformed_proposal_type", .str (typeName c.proposal)), ("proposal_id", proposalId)])

def maxProposalDepth : Nat := 64

def maxProposalBytes : Nat := 1024 * 1024

/-- What `_commit` decides before its transaction. -/
inductive Preflight where
  | refuse (rejection : Rejection)
  | evaluate (proposalHash : Hash) (value : Json)

def preflight (c : Call) : Kernel Preflight :=
  let tooDeep := maxProposalDepth < c.proposal.depth
  if Host.recursionLimit < c.proposal.depth then do
    let hash ← malformedHash c
    return .refuse ⟨hash, .validationError,
      if tooDeep then .proposalTooDeep else .malformedProposal,
      if tooDeep then some (proposalDecidedAt c) else none⟩
  else
    match c.proposal.toJson? with
    | none => do
      let hash ← malformedHash c
      return .refuse ⟨hash, .validationError, .malformedProposal, none⟩
    | some value =>
      if tooDeep then
        .ok (.refuse ⟨sha256Json value, .validationError, .proposalTooDeep,
          some (proposalDecidedAt c)⟩)
      else if maxProposalBytes < (utf8 value.dumps).length then
        .ok (.refuse ⟨sha256Json value, .validationError, .proposalTooLarge,
          some (proposalDecidedAt c)⟩)
      else .ok (.evaluate (sha256Json value) value)

/-! ### The transaction -/

/-- `_validate_contract_object`, and what the checks after it make of an object of
the contract that is no proposal: only a ledger entry has `versions`, and it has no
`reads`. -/
def contractProposal (reg : Registry) (value : Json) : Kernel Proposal :=
  match Proposal.codec.dec value with
  | some p => .ok p
  | none =>
    match LedgerEntry.codec.dec value with
    | some entry => do
      validateVersions reg entry.versions
      .error .keyError
    | none =>
      if isContractObject value then .error .keyError
      else .error (.validationFailure .schemaValidationFailed)

/-- What an accepted proposal does to the tables and the ledger. -/
structure Evaluation where
  proposal : Proposal
  txn : Txn
  parts : EntryParts
  row : LedgerRow

namespace Evaluation

def conflictIds (e : Evaluation) : List RecordId := sortedSet e.txn.conflictIds

def outcome (e : Evaluation) : Outcome :=
  if e.conflictIds = [] then .committed else .factConflict

/-- The database with the proposal applied and its entry appended. -/
def apply (e : Evaluation) (db : Db) : Db :=
  { db with tables := e.txn.tables, ledger := db.ledger ++ [e.row] }

end Evaluation

def eventsJson (events : List LedgerEvent) : Json := .arr (events.map LedgerEvent.codec.enc)

/-- The parts of the entry of a proposal that is applied. -/
def entryParts (db : Db) (p : Proposal) (proposalHash : Hash) (w : Txn) : EntryParts where
  seq := nextLedgerSeq db.ledger
  prevHash := headEntryHash db.ledger
  proposalHash := proposalHash
  preStateRoot := stateRoot db
  postStateRoot := stateRootForSchema p.versions.1.schema w.tables
  versions := VersionBundle.codec.enc p.versions
  events := eventsJson w.events
  committedAt := p.proposedAt

/-- The row of a ledger entry. -/
def ledgerRow (parts : EntryParts) (value : Json) (proposalId : RecordId) : LedgerRow where
  seq := parts.seq
  prevHash := parts.prevHash
  entryHash := sha256Json (ledgerEnvelope parts)
  proposalHash := parts.proposalHash
  proposal := value.dumps
  events := parts.events.dumps
  preStateRoot := some (parts.preStateRoot : String)
  stateRoot := parts.postStateRoot
  committedAt := some parts.committedAt
  document := some (ledgerDocument parts (sha256Json (ledgerEnvelope parts)) proposalId).dumps

/-- The checks of `_commit` on a proposal, in order. -/
def validateProposal (reg : Registry) (t : Tables) (p : Proposal) : Kernel Unit := do
  validateVersions reg p.versions
  validateRequiredOperationReads p
  validateReadsAndGuards reg t p
  validateContinuityReferences reg t p.operations.1

/-- From the contract check to the insertion of the ledger entry. -/
def evaluate (reg : Registry) (db : Db) (value : Json) (proposalHash : Hash) :
    Kernel Evaluation := do
  let p ← contractProposal reg value
  validateProposal reg db.tables p
  let w ← applyOperations reg p.proposer (nextLedgerSeq db.ledger) db.tables p.operations.1
  let parts := entryParts db p proposalHash w
  let row := ledgerRow parts value p.proposalId
  ensure ((LedgerEntry.codec.dec (ledgerDocument parts (sha256Json (ledgerEnvelope parts))
    p.proposalId)).isSome = true) (.validationFailure .ledgerEntrySchemaInvalid)
  ensure (parts.seq ≤ maxRowId) .overflowError
  ensure (∀ r ∈ db.ledger, r.entryHash ≠ row.entryHash) (.integrityError .unique)
  return ⟨p, w, parts, row⟩

def Evaluation.receiptInput (e : Evaluation) (proposalHash : Hash) : ReceiptInput :=
  ⟨proposalHash, e.outcome, [], some e.parts.seq, e.parts.postStateRoot, e.conflictIds,
    e.parts.prevHash, some (PyStr.ofString e.parts.committedAt)⟩

/-- The first receipt under a key; `NULL` equals no key. -/
def prior? (receipts : List ReceiptRow) (key : Option String) : Option ReceiptRow :=
  key.bind fun k => receipts.find? fun r => r.idempotencyKey = k

/-- How the transaction of `_commit` ends when it raises nothing. -/
inductive Answer where
  | replayed (receipt : Receipt)
  | keyReuse
  | accepted (receipt : Receipt) (db : Db)

/-- The transaction of `_commit`. -/
def transaction (reg : Registry) (c : Call) (db : Db) (proposalHash : Hash) (value : Json) :
    Kernel Answer := do
  let key ← columnText c.idempotencyKey
  match prior? db.receipts key with
  | some row =>
    if row.proposalHash ≠ proposalHash then return .keyReuse
    else return .replayed (← rowToReceipt row)
  | none =>
    let e ← evaluate reg db value proposalHash
    let (receipt, db') ← insertReceipt c (e.apply db) (e.receiptInput proposalHash)
    return .accepted receipt db'

/-- The rejection the `except` clauses write for an exception. -/
def rejectionOf (c : Call) (proposalHash : Hash) (e : PyExc) : Option Rejection :=
  (handled e).map fun h => ⟨proposalHash, h.1, h.2, some (proposalDecidedAt c)⟩

def keyReuseRejection (c : Call) (proposalHash : Hash) : Rejection :=
  ⟨proposalHash, .validationError, .idempotencyKeyReuse, some (proposalDecidedAt c)⟩

/-! ### One call without interference -/

/-- Write a rejection receipt on the state the rejection was decided on. -/
def reject (c : Call) (db : Db) (r : Rejection) : Kernel (Receipt × Db) :=
  insertReceipt c db (r.input (headEntryHash db.ledger) (stateRoot db))

/-- The `except` clauses of `_commit`. -/
def rejectFor (c : Call) (db : Db) (proposalHash : Hash) (e : PyExc) : Kernel (Receipt × Db) :=
  match rejectionOf c proposalHash e with
  | some r => reject c db r
  | none => .error e

/-- What `_commit` answers once its transaction has ended. -/
def answer (c : Call) (db : Db) (proposalHash : Hash) : Kernel Answer → Kernel (Receipt × Db)
  | .ok (.replayed receipt) => .ok (receipt, db)
  | .ok (.accepted receipt db') => .ok (receipt, db')
  | .ok .keyReuse =>
    -- still inside the `try`
    match reject c db (keyReuseRejection c proposalHash) with
    | .ok result => .ok result
    | .error e => rejectFor c db proposalHash e
  | .error e => rejectFor c db proposalHash e

/-- `commit`, by the only writer. -/
def commit (reg : Registry) (db : Db) (c : Call) : Kernel (Receipt × Db) :=
  match preflight c with
  | .error e => .error e
  | .ok (.refuse r) => reject c db r
  | .ok (.evaluate hash value) => answer c db hash (transaction reg c db hash value)

/-- The database after a call; a call that raises leaves it as it was. -/
def dbAfter (reg : Registry) (db : Db) (c : Call) : Db :=
  match commit reg db c with
  | .ok result => result.2
  | .error _ => db

/-- The database after a sequence of calls. -/
def runFrom (reg : Registry) (db : Db) (calls : List Call) : Db := calls.foldl (dbAfter reg) db

end SharedMind
