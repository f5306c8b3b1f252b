import SharedMind.Kernel.Commit

/-!
# The verifier

* `verifyLedgerRows`, `verifyReceiptDocuments`, `verifyAcceptedReceiptCoverage`: the
  three passes of `verify_ledger` over what the tables store.  They read the stored
  texts back and share no function with `commit` but the hash and the contract.
-/

namespace SharedMind

open Py

/-! ### Errors -/

inductive VerifyError where
  | ledgerSequenceGap (seq : Nat)
  | previousHashMismatch (seq : Nat)
  | proposalHashMismatch (seq : Nat)
  | proposalSchemaInvalid (seq : Nat)
  | ledgerEventSchemaInvalid (seq : Nat)
  | entryHashMismatch (seq : Nat)
  | predicateRegistryContentMismatch (seq : Nat)
  | ledgerDocumentMismatch (seq : Nat)
  | incompleteLedgerEntry (seq : Nat)
  | unsupportedLedgerSchema (seq : Nat)
  | malformedLedgerEntry (seq : Nat)
  | receiptDocumentMismatch (id : Nat)
  | acceptedReceiptCoverageMismatch (seq count : Nat)
  deriving DecidableEq

namespace VerifyError

/-- A code and the numbers after it. -/
def textOf (code : String) (ns : List Nat) : String :=
  String.ofList (code.toList ++ ns.flatMap fun n => ':' :: Nat.toDigits 10 n)

def text : VerifyError → String
  | ledgerSequenceGap seq => textOf "LEDGER_SEQUENCE_GAP" [seq]
  | previousHashMismatch seq => textOf "PREVIOUS_HASH_MISMATCH" [seq]
  | proposalHashMismatch seq => textOf "PROPOSAL_HASH_MISMATCH" [seq]
  | proposalSchemaInvalid seq => textOf "PROPOSAL_SCHEMA_INVALID" [seq]
  | ledgerEventSchemaInvalid seq => textOf "LEDGER_EVENT_SCHEMA_INVALID" [seq]
  | entryHashMismatch seq => textOf "ENTRY_HASH_MISMATCH" [seq]
  | predicateRegistryContentMismatch seq => textOf "PREDICATE_REGISTRY_CONTENT_MISMATCH" [seq]
  | ledgerDocumentMismatch seq => textOf "LEDGER_DOCUMENT_MISMATCH" [seq]
  | incompleteLedgerEntry seq => textOf "INCOMPLETE_LEDGER_ENTRY" [seq]
  | unsupportedLedgerSchema seq => textOf "UNSUPPORTED_LEDGER_SCHEMA" [seq]
  | malformedLedgerEntry seq => textOf "MALFORMED_LEDGER_ENTRY" [seq]
  | receiptDocumentMismatch id => textOf "RECEIPT_DOCUMENT_MISMATCH" [id]
  | acceptedReceiptCoverageMismatch seq count =>
    textOf "ACCEPTED_RECEIPT_COVERAGE_MISMATCH" [seq, count]

end VerifyError

/-- An error unless the condition holds. -/
def expect (c : Prop) [Decidable c] (e : VerifyError) : List VerifyError := if c then [] else [e]

@[simp] theorem expect_eq_nil {c : Prop} [Decidable c] {e : VerifyError} : expect c e = [] ↔ c := by
  rw [expect]
  split <;> simp_all

/-! ### Ledger rows -/

/-- The members of an event of schema 1.0.0, by its `type`. -/
def legacyEventKeys : String → Option (List String)
  | "CLAIM_ASSERTED" => some ["claim_id", "type"]
  | "EVIDENCE_ATTACHED" => some ["claim_id", "evidence_link_id", "type"]
  | "CLAIM_SUPERSEDED" => some ["claim_id", "replacement_claim_id", "type"]
  | "CONFLICT_OPENED" => some ["conflict_id", "kind", "members", "type"]
  | _ => none

/-- One event of schema 1.0.0; `none` when its `type` cannot be looked up. -/
def legacyEventWellFormed? (event : Json) : Option Bool :=
  match event with
  | .obj members =>
    match (event.get? "type").getD .null with
    | .str type => some ((legacyEventKeys type).any fun keys => members.map Prod.fst = keys)
    | .arr _ | .obj _ => none
    | _ => some false
  | _ => some false

/-- `_legacy_events_well_formed`, up to the first event that is not. -/
def legacyEventsWellFormed? (events : Json) : Option Bool :=
  match events with
  | .arr (e :: es) => (e :: es).foldl (fun ok event =>
      match ok with
      | some true => legacyEventWellFormed? event
      | _ => ok) (some true)
  | _ => some false

/-- `_legacy_ledger_envelope`. -/
def legacyLedgerEnvelope (row : LedgerRow) (events : Json) : Json :=
  .obj [("events", events), ("prev_hash", optText row.prevHash),
    ("proposal_hash", .str row.proposalHash), ("state_root", .str row.stateRoot)]

/-- The entry document a row stands for. -/
def expectedDocument (row : LedgerRow) (proposalId versions events : Json) : Json :=
  .obj [("committed_at", optText row.committedAt), ("entry_hash", .str row.entryHash),
    ("entry_id", .str (entryIdText row.seq)), ("events", events),
    ("object_type", .str "LEDGER_ENTRY"), ("post_state_root", .str row.stateRoot),
    ("pre_state_root", optText row.preStateRoot), ("prev_hash", optText row.prevHash),
    ("proposal_hash", .str row.proposalHash), ("proposal_id", proposalId),
    ("seq", intColumn row.seq), ("versions", versions)]

/-- The envelope a row stands for. -/
def expectedEnvelope (row : LedgerRow) (preStateRoot committedAt : String)
    (versions events : Json) : Json :=
  .obj [("committed_at", .str committedAt), ("events", events),
    ("post_state_root", .str row.stateRoot), ("pre_state_root", .str preStateRoot),
    ("prev_hash", optText row.prevHash), ("proposal_hash", .str row.proposalHash),
    ("seq", intColumn row.seq), ("versions", versions)]

/-- `not value`, of a text column. -/
def textMissing (s : Option String) : Bool := s.all fun t => t = ""

/-- The stored document is the canonical form of the expected one, and the contract
admits it; entries of schema 1.1.0 may have none. -/
def ledgerDocumentMatches (row : LedgerRow) (schema : String) (expected : Json) : Bool :=
  match row.document with
  | none => schema = "1.1.0"
  | some text =>
    match loads text with
    | none => false
    | some document => (LedgerEntry.codec.dec document).isSome && document.pyEq expected &&
        text = document.dumps

/-- A row of schema 1.0.0. -/
def verifyLegacyRow (row : LedgerRow) (events : Json) : List VerifyError :=
  match legacyEventsWellFormed? events with
  | none => [.malformedLedgerEntry row.seq]
  | some ok => expect (ok = true) (.ledgerEventSchemaInvalid row.seq) ++
      expect ((sha256Json (legacyLedgerEnvelope row events) : String) = row.entryHash)
        (.entryHashMismatch row.seq)

/-- The events are a list of events the contract admits, and not empty. -/
def eventsValid (events : Json) : Bool :=
  match events with
  | .arr es => !es.isEmpty && es.all fun e => (LedgerEvent.validCodec.dec e).isSome
  | _ => false

/-- A row of schema 1.1.0 or later. -/
def verifyCurrentRow (reg : Registry) (row : LedgerRow) (schema : String)
    (proposal versions events : Json) : List VerifyError :=
  expect ((versions.get? "predicate_registry_hash").bind JsonOf.str? = some (reg.hash : String))
    (.predicateRegistryContentMismatch row.seq) ++
  expect (eventsValid events = true) (.ledgerEventSchemaInvalid row.seq) ++
  match proposal.get? "proposal_id" with
  | none => [.malformedLedgerEntry row.seq]
  | some proposalId =>
    expect (ledgerDocumentMatches row schema
      (expectedDocument row proposalId versions events) = true) (.ledgerDocumentMismatch row.seq) ++
    match row.preStateRoot, row.committedAt with
    | some pre, some committedAt =>
      if pre = "" ∨ committedAt = "" then [.incompleteLedgerEntry row.seq]
      else expect ((sha256Json (expectedEnvelope row pre committedAt versions events) : String) =
        row.entryHash) (.entryHashMismatch row.seq)
    | _, _ => [.incompleteLedgerEntry row.seq]

/-- What the contents of a row say. -/
def verifyLedgerRow (reg : Registry) (row : LedgerRow) : List VerifyError :=
  match loads row.proposal, loads row.events with
  | some proposal, some events =>
    expect ((sha256Json proposal : String) = row.proposalHash) (.proposalHashMismatch row.seq) ++
    expect (isContractObject proposal = true) (.proposalSchemaInvalid row.seq) ++
    match proposal.get? "versions" with
    | none => [.malformedLedgerEntry row.seq]
    | some versions =>
      match versions.get? "schema" with
      | none | some (.arr _) | some (.obj _) => [.malformedLedgerEntry row.seq]
      | some (.str schema) =>
        if schema = "1.0.0" then verifyLegacyRow row events
        else if schema ∈ readableSchemas then
          verifyCurrentRow reg row schema proposal versions events
        else [.unsupportedLedgerSchema row.seq]
      | some _ => [.unsupportedLedgerSchema row.seq]
  | _, _ => [.malformedLedgerEntry row.seq]

/-- `_verify_ledger_rows` from the row at place `expectedSeq` on. -/
def verifyLedgerFrom (reg : Registry) (expectedSeq : Nat) (expectedPrev : Option String) :
    List LedgerRow → List VerifyError
  | [] => []
  | row :: rows =>
    expect (row.seq = expectedSeq) (.ledgerSequenceGap row.seq) ++
    expect (row.prevHash = expectedPrev) (.previousHashMismatch row.seq) ++
    verifyLedgerRow reg row ++ verifyLedgerFrom reg (expectedSeq + 1) (some row.entryHash) rows

/-- `_verify_ledger_rows`. -/
def verifyLedgerRows (reg : Registry) (rows : List LedgerRow) : List VerifyError :=
  verifyLedgerFrom reg 1 none rows

/-! ### Receipts -/

/-- `state_root_by_head`. -/
def stateRootByHead (db : Db) (head : Option String) : Option String :=
  match head with
  | none => some (match db.ledger with
    | [] => (stateRoot db : String)
    | row :: _ => row.preStateRoot.getD "None")
  | some h => (db.ledger.findRev? fun row => row.entryHash = h).map LedgerRow.stateRoot

/-- `_receipt_row_fingerprint`. -/
def receiptRowFingerprint (row : ReceiptRow) : Hash :=
  sha256Json (.obj [("conflict_ids", .str row.conflictIds), ("document", optText row.document),
    ("id", intColumn row.id), ("idempotency_key", .str row.idempotencyKey),
    ("ledger_seq", optColumn intColumn row.ledgerSeq), ("outcome", .str row.outcome),
    ("proposal_hash", .str row.proposalHash), ("proposal_id", .str row.proposalId),
    ("proposer", optText row.proposer), ("reason_codes", .str row.reasonCodes),
    ("schema_version", optText row.schemaVersion), ("state_root", .str row.stateRoot)])

/-- The strings of a list, when it is one of strings. -/
def stringList? (v : Json) : Option (List String) :=
  match v with
  | .arr items => items.mapM JsonOf.str?
  | _ => none

/-- `_pinned_legacy_receipt_hashes`. -/
def pinnedLegacyReceiptHashes (pin : Option String) : List String :=
  match pin.bind loads with
  | some (.obj [("ledger_schema_versions", versions), ("migration_origin", .str origin),
      ("receipt_hashes", hashes)]) =>
    match stringList? versions, stringList? hashes with
    | some versions, some hashes =>
      if (origin = "idempotency-key-primary-key" ∨
            origin = "receipt-order-boundary" ∧ versions ≠ []) ∧
          ∀ v ∈ versions, v ∈ readableSchemas then hashes
      else []
    | _, _ => []
  | _ => []

/-- The conflict an event opens, if any; `none` when the event is no dict. -/
def eventConflictIds (event : Json) : Option (List String) :=
  match event with
  | .obj _ =>
    let type := (event.get? "event_type").orElse fun _ => event.get? "type"
    if type.bind JsonOf.str? ≠ some "CONFLICT_OPENED" then some []
    else
      let id :=
        match event.get? "conflict" with
        | some (.obj members) => (JsonOf.obj members).get? "conflict_id"
        | _ => event.get? "conflict_id"
      some (id.bind JsonOf.str?).toList
  | _ => none

/-- `_conflict_ids_from_events`. -/
def conflictIdsFromEvents (events : Json) : Option (List String) :=
  match events with
  | .arr es => (es.mapM eventConflictIds).map fun found => sortedSet found.flatten
  | .obj [] => some []
  | .str "" => some []
  | _ => none

/-- What a receipt must agree with in the entry it names. -/
structure Linked where
  schema : Json
  conflictIds : List String
  proposer : Json
  proposalId : Json
  idempotencyKey : Json
  entryId : Json

/-- What the verifier reads from an entry; `none` when it raises. -/
def linked? (row : LedgerRow) : Option Linked := do
  let proposal ← loads row.proposal
  let events ← loads row.events
  let schema ← (← proposal.get? "versions").get? "schema"
  let conflictIds ← conflictIdsFromEvents events
  let proposalId ← proposal.get? "proposal_id"
  let idempotencyKey ← proposal.get? "idempotency_key"
  let document ← loads (← row.document)
  let entryId ← document.get? "entry_id"
  return {
    schema := schema
    conflictIds := conflictIds
    proposer := optColumn ActorRef.codec.enc ((proposal.get? "proposer").bind ActorRef.codec.dec)
    proposalId := proposalId
    idempotencyKey := idempotencyKey
    entryId := entryId }

/-- The outcome an entry's conflicts stand for. -/
def linkedOutcome (conflictIds : List String) : String :=
  if conflictIds = [] then Outcome.committed.text else Outcome.factConflict.text

def stringsJson (items : List String) : Json := .arr (items.map .str)

/-- `document.get(field) == value`, for every expected member. -/
def matchesAll (document : Json) (expected : List (String × Json)) : Bool :=
  expected.all fun m => ((document.get? m.1).getD .null).pyEq m.2

/-- `"proposer" in document`; `none` when the document is no container. -/
def hasProposer? (document : Json) : Option Bool :=
  match document with
  | .obj _ => some (document.get? "proposer").isSome
  | .arr items => some (items.any fun v => v.pyEq (.str "proposer"))
  | .str s => some (s.toList.tails.any fun t => "proposer".toList.isPrefixOf t)
  | _ => none

/-- The members of a receipt that its row alone decides. -/
def rowExpected (row : ReceiptRow) (reasonCodes conflictIds : Json) : List (String × Json) :=
  [("object_type", .str "DECISION_RECEIPT"), ("receipt_id", .str (receiptIdText row.id)),
    ("proposal_hash", .str row.proposalHash), ("outcome", .str row.outcome),
    ("reason_codes", reasonCodes), ("conflict_ids", conflictIds)]

/-- A text a pattern matches whole, or null. -/
def matchedColumn (p : Pattern) (s : String) : Json := if p.fullmatch s then .str s else .null

/-- The checks every receipt with a document passes. -/
def receiptDocumentMatches (row : ReceiptRow) (document : Json) (hasProposer : Bool)
    (storedProposer : Json) : Bool :=
  let current := (DecisionReceipt.codec.dec document).isSome
  (if row.schemaVersion = some supportedSchema then current
    else if row.schemaVersion = some "1.2.0" then
      if hasProposer then current
      else (DecisionReceiptV12.codec.dec document).isSome && storedProposer.pyEq .null
    else false) &&
  row.document = some document.dumps

/-- A rejection receipt against the head so far. -/
def rejectedMatches (db : Db) (head : Option String) (row : ReceiptRow) (document : Json)
    (hasProposer : Bool) (storedProposer reasonCodes conflictIds : Json) : Bool :=
  some row.stateRoot = stateRootByHead db head &&
  matchesAll document (rowExpected row reasonCodes conflictIds ++
    [("proposal_id", matchedColumn recordIdPattern row.proposalId),
      ("idempotency_key", matchedColumn idempotencyKeyPattern row.idempotencyKey),
      ("head_before", optText head), ("head_after", optText head), ("ledger_entry_id", .null)] ++
    if hasProposer then [("proposer", storedProposer)] else [])

/-- An accepted receipt against its entry. -/
def acceptedMatches (ledger : LedgerRow) (linked : Linked) (head : Option String) (row : ReceiptRow)
    (document : Json) (hasProposer : Bool) (storedProposer reasonCodes conflictIds : Json) : Bool :=
  linked.schema.pyEq (optText row.schemaVersion) &&
  (!hasProposer || storedProposer.pyEq linked.proposer) &&
  linked.proposalId.pyEq (.str row.proposalId) && row.proposalHash = ledger.proposalHash &&
  linked.idempotencyKey.pyEq (.str row.idempotencyKey) &&
  row.outcome = linkedOutcome linked.conflictIds && reasonCodes.pyEq (.arr []) &&
  conflictIds.pyEq (stringsJson linked.conflictIds) && row.stateRoot = ledger.stateRoot &&
  ledger.prevHash = head &&
  matchesAll document ([("object_type", .str "DECISION_RECEIPT"),
    ("receipt_id", .str (receiptIdText row.id)), ("proposal_id", linked.proposalId),
    ("proposal_hash", .str ledger.proposalHash), ("idempotency_key", linked.idempotencyKey),
    ("outcome", .str (linkedOutcome linked.conflictIds)), ("reason_codes", .arr []),
    ("conflict_ids", stringsJson linked.conflictIds), ("head_before", optText ledger.prevHash),
    ("head_after", .str ledger.entryHash), ("ledger_entry_id", linked.entryId),
    ("decided_at", optText ledger.committedAt)] ++
    if hasProposer then [("proposer", linked.proposer)] else [])

/-- What the verifier parses of a receipt before it looks at the ledger. -/
structure ReceiptTexts where
  document : Json
  storedProposer : Json
  hasProposer : Bool
  reasonCodes : Json
  conflictIds : Json

def receiptTexts? (row : ReceiptRow) (text : String) : Option ReceiptTexts := do
  let document ← loads text
  let storedProposer ←
    match row.proposer with
    | some p => loads p
    | none => some .null
  let hasProposer ← hasProposer? document
  let reasonCodes ← loads row.reasonCodes
  let conflictIds ← loads row.conflictIds
  return ⟨document, storedProposer, hasProposer, reasonCodes, conflictIds⟩

/-- A receipt without document, of a proposal that was rejected. -/
def legacyRejectedMatches (db : Db) (head : Option String) (row : ReceiptRow) : Bool :=
  let genesis : Json :=
    .obj [("claims", .arr []), ("conflicts", .arr []), ("evidence", .arr []), ("sources", .arr [])]
  let expected :=
    match head with
    | none => some (sha256Json genesis : String)
    | some _ => stateRootByHead db head
  (row.schemaVersion = none || row.schemaVersion = some "1.0.0" ||
    row.schemaVersion = some "1.1.0") &&
  (row.outcome = Outcome.validationError.text || row.outcome = Outcome.transactionConflict.text) &&
  row.proposer = none && some row.stateRoot = expected &&
  decide ((receiptRowFingerprint row : String) ∈ pinnedLegacyReceiptHashes db.legacyReceiptPin)

/-- A receipt without document, of the entry it names. -/
def legacyAcceptedMatches (ledger : LedgerRow) (head : Option String) (row : ReceiptRow) : Bool :=
  let parsed : Option Bool := do
    let proposal ← loads ledger.proposal
    let events ← loads ledger.events
    let conflictIds ← conflictIdsFromEvents events
    let proposalId ← proposal.get? "proposal_id"
    let idempotencyKey ← proposal.get? "idempotency_key"
    let reasonCodes ← loads row.reasonCodes
    let ids ← loads row.conflictIds
    return proposalId.pyEq (.str row.proposalId) && row.proposalHash = ledger.proposalHash &&
      idempotencyKey.pyEq (.str row.idempotencyKey) &&
      row.outcome = linkedOutcome conflictIds && reasonCodes.pyEq (.arr []) &&
      ids.pyEq (stringsJson conflictIds) && row.stateRoot = ledger.stateRoot &&
      ledger.prevHash = head
  parsed.getD false

def ledgerRow? (db : Db) (seq : Nat) : Option LedgerRow := db.ledger.find? fun r => r.seq = seq

/-- Whether a receipt agrees with what it names, and the head after it. -/
def verifyReceipt (db : Db) (head : Option String) (row : ReceiptRow) : Bool × Option String :=
  match row.document, row.ledgerSeq with
  | none, none => (legacyRejectedMatches db head row, head)
  | none, some seq =>
    match ledgerRow? db seq with
    | none => (false, head)
    | some ledger =>
      match proposalSchema? ledger.proposal with
      | some "1.0.0" | some "1.1.0" =>
        (legacyAcceptedMatches ledger head row, some ledger.entryHash)
      | _ => (false, head)
  | some text, none =>
    match receiptTexts? row text with
    | none => (false, head)
    | some r => (receiptDocumentMatches row r.document r.hasProposer r.storedProposer &&
        rejectedMatches db head row r.document r.hasProposer r.storedProposer r.reasonCodes
          r.conflictIds, head)
  | some text, some seq =>
    match receiptTexts? row text with
    | none => (false, head)
    | some r =>
      match ledgerRow? db seq with
      | none => (false, head)
      | some ledger =>
        if ledger.document = none then (false, some ledger.entryHash)
        else
          match linked? ledger with
          | none => (false, head)
          | some linked => (receiptDocumentMatches row r.document r.hasProposer r.storedProposer &&
              acceptedMatches ledger linked head row r.document r.hasProposer r.storedProposer
                r.reasonCodes r.conflictIds, some ledger.entryHash)

/-- `_verify_receipt_documents` from a head on. -/
def verifyReceiptsFrom (db : Db) (head : Option String) : List ReceiptRow → List VerifyError
  | [] => []
  | row :: rows =>
    expect ((verifyReceipt db head row).1 = true) (.receiptDocumentMismatch row.id) ++
      verifyReceiptsFrom db (verifyReceipt db head row).2 rows

/-- `_verify_receipt_documents`. -/
def verifyReceiptDocuments (db : Db) : List VerifyError := verifyReceiptsFrom db none db.receipts

/-! ### Coverage -/

/-- How many accepted receipts name an entry. -/
def receiptCount (receipts : List ReceiptRow) (seq : Nat) : Nat :=
  receipts.countP fun r => r.ledgerSeq = some seq ∧
    (r.outcome = Outcome.committed.text ∨ r.outcome = Outcome.factConflict.text)

/-- `_verify_accepted_receipt_coverage`. -/
def verifyAcceptedReceiptCoverage (db : Db) : List VerifyError :=
  db.ledger.flatMap fun row => expect (receiptCount db.receipts row.seq = 1)
    (.acceptedReceiptCoverageMismatch row.seq (receiptCount db.receipts row.seq))

end SharedMind
