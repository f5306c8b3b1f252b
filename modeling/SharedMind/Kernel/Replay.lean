import SharedMind.Kernel.Verify

/-!
# Replay

* `applyReplayEvent`: one event of a ledger, applied to the tables.
* `replayRow`, `replayRows`: the ledger of a database, entry by entry, into an empty one.
* `replay`: the same after the ledger and its receipts are verified.

Entries of schema 1.0.0, which replay by their operations, are not replayed here.
-/

namespace SharedMind

open Py

/-! ### Events -/

/-- `_apply_replay_event` raises the conflicts of `continuity.py` as failures. -/
def asValidationFailure : PyExc → PyExc
  | .transactionConflict code => .validationFailure code
  | e => e

/-- The family of a member of a conflict, under the predicate of the member. -/
def memberFamily (reg : Registry) (t : Tables) (id : RecordId) : Kernel Hash := do
  let claim ← orRaise t.claims[id]? (.validationFailure .conflictMemberNotFound)
  let predicate ← orRaise (reg.predicate? claim.proposition.predicate)
    (.validationFailure .unknownPredicate)
  return familyKey claim.proposition predicate

/-- What SQLite stores of a number in an INTEGER column. -/
def storedInt (n : PyNum) : Nat := (n.toInt?.getD 0).toNat

/-- The row a conflict document stands for, in the version after the one stored. -/
def ConflictDoc.row (conflict : ConflictDoc) (members : List RecordId)
    (existing : Option ConflictRow) : ConflictRow where
  familyKey := conflict.familyKey
  kind := conflict.kind
  memberDigest := conflict.memberDigest
  members := members
  status := conflict.status
  episode := storedInt conflict.episode
  version := existing.elim 1 fun row => row.version + 1
  resolution := conflict.resolution
  openedSeq := storedInt conflict.openedSeq

/-- `_replay_open_conflict`. -/
def replayOpenConflict (reg : Registry) (t : Tables) (conflict : ConflictDoc) : Kernel Tables := do
  let members := conflict.memberClaimIds.insertionSort (· ≤ ·)
  require (membersDigest members = conflict.memberDigest) .conflictMemberDigestMismatch
  let families ← members.mapM (memberFamily reg t)
  require (families ≠ [] ∧ ∀ f ∈ families, f = conflict.familyKey) .conflictFamilyKeyMismatch
  let row := conflict.row members t.conflicts[conflict.conflictId]?
  return { t with conflicts := t.conflicts.insert conflict.conflictId row }

section

variable [Host]

/-- `_replay_assert_claim`. -/
def replayAssertClaim (reg : Registry) (t : Tables) (claim : Claim)
    (evidence : List EvidenceLink) : Kernel Tables := do
  let _ ← validateClaim reg claim evidence
  insertClaim t claim evidence

/-- `_apply_replay_event`, for the events that are not those of `continuity.py`. -/
def applyMemoryEvent (reg : Registry) (t : Tables) : LedgerEvent → Kernel Tables
  | .sourceRevisionRegistered source => do
    return (← registerSourceRevision ⟨t, [], []⟩ source).tables
  | .claimAsserted claim evidence => replayAssertClaim reg t claim evidence
  | .evidenceAttached link => do return (← attachEvidence reg ⟨t, [], []⟩ link).tables
  | .claimSuperseded _ replacement target => do
    require (∃ row ∈ t.claims[target]?, row.status = .active) .replayEventPreconditionFailed
    return { t with claims := t.claims.modify target fun r => r.supersede replacement }
  | .claimRetracted _ _ _ target => do
    require (∃ row ∈ t.claims[target]?, row.status = .active) .replayEventPreconditionFailed
    return { t with claims := t.claims.modify target ClaimRow.retract }
  | .conflictOpened conflict => replayOpenConflict reg t conflict
  | .conflictResolved id resolution => do
    require (∃ row ∈ t.conflicts[id]?, row.status = .open) .replayEventPreconditionFailed
    return { t with conflicts := t.conflicts.modify id fun r => r.resolve resolution }
  | _ => .ok t

/-- `_apply_replay_event`. -/
def applyReplayEvent (reg : Registry) (t : Tables) (event : LedgerEvent) : Kernel Tables :=
  match applyContinuityEvent t event with
  | some run => run.mapError asValidationFailure
  | none => applyMemoryEvent reg t event

def replayEvents (reg : Registry) (t : Tables) (events : List LedgerEvent) : Kernel Tables :=
  events.foldlM (applyReplayEvent reg) t

end

/-! ### Entries -/

inductive ReplayError where
  | verification (error : VerifyError)
  | targetNotEmpty
  | preStateRootMismatch (seq : Nat)
  | event (code : ReasonCode) (seq : Nat)
  | eventInvalid (seq : Nat)
  | postStateRootMismatch (seq : Nat)
  | previousHashMismatch (seq : Nat)
  | legacyEntry (seq : Nat)
  | raised (e : PyExc)
  deriving DecidableEq

/-- The `except` clauses around the events of an entry. -/
def replayErrorOf (seq : Nat) : PyExc → ReplayError
  | .validationFailure code => .event code seq
  | .keyError | .typeError | .valueError => .eventInvalid seq
  | e => .raised e

/-- The code `replay` raises, unless it raises another exception again. -/
def ReplayError.text? : ReplayError → Option String
  | verification error => some error.text
  | targetNotEmpty => some "REPLAY_TARGET_NOT_EMPTY"
  | preStateRootMismatch seq => some (VerifyError.textOf "REPLAY_PRE_STATE_ROOT_MISMATCH" [seq])
  | event code seq => some (VerifyError.textOf code.text [seq])
  | eventInvalid seq => some (VerifyError.textOf "REPLAY_EVENT_INVALID" [seq])
  | postStateRootMismatch seq => some (VerifyError.textOf "REPLAY_POST_STATE_ROOT_MISMATCH" [seq])
  | previousHashMismatch seq => some (VerifyError.textOf "PREVIOUS_HASH_MISMATCH" [seq])
  | legacyEntry _ | raised _ => none

/-- The events of an entry, decoded. -/
def eventsOf? (events : Json) : Option (List LedgerEvent) :=
  match events with
  | .arr items => items.mapM LedgerEvent.codec.dec
  | _ => none

/-- A text column, or another value where it is empty. -/
def orText (column : Option String) (other : Except ReplayError String) :
    Except ReplayError String :=
  match column with
  | some s => if s = "" then other else .ok s
  | none => other

/-- What `_replay_rows` carries along the entries. -/
structure Replayed where
  tables : Tables
  ledger : List LedgerRow
  prev : Option String
  schema : Option String

def Replayed.start : Replayed := ⟨.empty, [], none, none⟩

section

variable [Host]

/-- What an entry does to the tables. -/
def replayEntry (reg : Registry) (t : Tables) (proposal events : Json) : Kernel Tables := do
  let p ← orRaise (Proposal.codec.dec proposal) .valueError
  validateContinuityReferences reg t p.operations.1
  let events ← orRaise (eventsOf? events) .valueError
  replayEvents reg t events

/-- The turn of `_replay_rows` for one entry. -/
def replayRow (reg : Registry) (r : Replayed) (row : LedgerRow) : Except ReplayError Replayed := do
  let proposal ← orRaise (loads row.proposal) (.raised .valueError)
  let schema ← orRaise ((proposal.get? "versions").bind fun v => (v.get? "schema").bind JsonOf.str?)
    (.raised .keyError)
  ensure (schema ≠ "1.0.0") (.legacyEntry row.seq)
  let preRoot := stateRootForSchema (r.schema.getD schema) r.tables
  ensure (∀ root ∈ row.preStateRoot, root = "" ∨ (preRoot : String) = root)
    (.preStateRootMismatch row.seq)
  let events ← orRaise (loads row.events) (.raised .valueError)
  let t ← (replayEntry reg r.tables proposal events).mapError (replayErrorOf row.seq)
  ensure ((stateRootForSchema schema t : String) = row.stateRoot) (.postStateRootMismatch row.seq)
  ensure (row.prevHash = r.prev) (.previousHashMismatch row.seq)
  let preStateRoot ← orText row.preStateRoot (.ok preRoot)
  let committedAt ← orText row.committedAt
    (orRaise ((proposal.get? "proposed_at").bind JsonOf.str?) (.raised .keyError))
  ensure (∀ other ∈ r.ledger, other.entryHash ≠ row.entryHash) (.raised (.integrityError .unique))
  return {
    tables := t
    ledger := r.ledger ++ [{ row with
      preStateRoot := some preStateRoot, committedAt := some committedAt }]
    prev := some row.entryHash
    schema := some schema }

/-- A database without rows. -/
def Db.isEmpty (db : Db) : Bool :=
  db.tables.sources.isEmpty && db.tables.claims.isEmpty && db.tables.evidence.isEmpty &&
    db.tables.conflicts.isEmpty && db.tables.decisionRecords.isEmpty &&
    db.tables.openQuestions.isEmpty && db.tables.workItems.isEmpty && db.ledger.isEmpty &&
    db.receipts.isEmpty

/-- `_replay_rows`; the receipts and the pin are copied. -/
def replayRows (reg : Registry) (db target : Db) : Except ReplayError Db := do
  ensure (target.isEmpty = true) .targetNotEmpty
  let r ← db.ledger.foldlM (replayRow reg) .start
  return ⟨r.tables, r.ledger, db.receipts, db.legacyReceiptPin.or target.legacyReceiptPin⟩

/-- `replay`, into a database that is opened beside this one. -/
def replay (reg : Registry) (db target : Db) : Except ReplayError Db :=
  match verifyLedgerRows reg db.ledger ++ verifyReceiptDocuments db ++
      verifyAcceptedReceiptCoverage db with
  | e :: _ => .error (.verification e)
  | [] => replayRows reg db target

end

end SharedMind
