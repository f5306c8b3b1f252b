import SharedMind.Kernel.Validate

/-!
# State roots and ledger documents

* `stateRootForSchema`, `stateRoot`: the hash of the materialized tables.  A text
  column holds the canonical form of a document; the continuity tables are hashed
  with their documents parsed.
* `ledgerEnvelope`, `ledgerDocument`: what an entry's hash covers, and the entry.
-/

namespace SharedMind

open Py

/-! ### Columns -/

/-- A TEXT column that holds the canonical form of a document. -/
def textColumn {α : Type} (c : Codec α) (a : α) : Json := .str (c.enc a).dumps

def optColumn {α : Type} (column : α → Json) (a : Option α) : Json := (a.map column).getD .null

def idColumn {p : String → Bool} (s : Text p) : Json := .str (s : String)

def intColumn (n : Nat) : Json := .num (.int n)

/-- The rows of a table in key order. -/
def tableRows {ρ : Type} (row : RecordId → ρ → Json) (table : Table RecordId ρ) : Json :=
  .arr (table.toList.map fun r => row r.1 r.2)

def SourceRow.json (id : RecordId) (r : SourceRow) : Json :=
  .obj [("content", idColumn (sha256Bytes r.content)), ("content_hash", idColumn r.contentHash),
    ("document", textColumn SourceRevision.codec r.document), ("revision_id", idColumn id)]

def ClaimRow.json (id : RecordId) (r : ClaimRow) : Json :=
  .obj [("claim_id", idColumn id), ("document", textColumn Claim.codec r.document),
    ("proposition", textColumn Proposition.codec r.proposition),
    ("proposition_hash", idColumn r.propositionHash), ("status", .str r.status.text),
    ("superseded_by", optColumn idColumn r.supersededBy), ("version", intColumn r.version)]

def EvidenceRow.json (id : RecordId) (r : EvidenceRow) : Json :=
  .obj [("claim_id", idColumn r.claimId), ("document", textColumn EvidenceLink.codec r.document),
    ("evidence_link_id", idColumn id), ("source_revision_id", idColumn r.sourceRevisionId)]

/-- The members of a conflict row, and those schema 1.0.0 leaves out when `legacy`. -/
def ConflictRow.json (legacy : Bool) (id : RecordId) (r : ConflictRow) : Json :=
  let current (members : List (String × Json)) := if legacy then [] else members
  .obj ([("conflict_id", idColumn id), ("episode", intColumn r.episode),
    ("family_key", idColumn r.familyKey), ("kind", .str r.kind.text),
    ("member_digest", idColumn r.memberDigest),
    ("members", textColumn Text.codec.list r.members)] ++
    current [("opened_seq", intColumn r.openedSeq),
      ("resolution", optColumn (textColumn Resolution.codec) r.resolution)] ++
    [("status", .str r.status.text)] ++ current [("version", intColumn r.version)])

def DecisionRow.json (id : RecordId) (r : DecisionRow) : Json :=
  .obj [("decision_id", idColumn id), ("document", DecisionDoc.codec.enc r.document),
    ("replaced_by_decision_id", optColumn idColumn r.replacedByDecisionId),
    ("status", .str r.status.text), ("version", intColumn r.version)]

def QuestionRow.json (id : RecordId) (r : QuestionRow) : Json :=
  .obj [("answer", optColumn QuestionAnswer.codec.enc r.answer),
    ("document", QuestionDoc.codec.enc r.document),
    ("drop", optColumn QuestionDrop.codec.enc r.dropRecord), ("question_id", idColumn id),
    ("status", .str r.status.text), ("version", intColumn r.version)]

def WorkItemRow.json (id : RecordId) (r : WorkItemRow) : Json :=
  .obj [("blocker", optColumn idColumn r.blocker), ("document", WorkItemDoc.codec.enc r.document),
    ("status", .str r.status.text), ("updated_at", .str r.updatedAt),
    ("version", intColumn r.version), ("work_item_id", idColumn id)]

/-! ### Roots -/

/-- `READABLE_SCHEMA_VERSIONS`. -/
def readableSchemas : List String := ["1.0.0", "1.1.0", "1.2.0", "1.3.0"]

/-- The state whose hash is the root. -/
def stateJson (schema : String) (t : Tables) : Json :=
  let legacy : Bool := schema = "1.0.0"
  let current (members : List (String × Json)) := if legacy then [] else members
  .obj ([("claims", tableRows ClaimRow.json t.claims),
    ("conflicts", tableRows (ConflictRow.json legacy) t.conflicts)] ++
    current [("decision_records", tableRows DecisionRow.json t.decisionRecords)] ++
    [("evidence", tableRows EvidenceRow.json t.evidence)] ++
    current [("open_questions", tableRows QuestionRow.json t.openQuestions)] ++
    [("sources", tableRows SourceRow.json t.sources)] ++
    current [("work_items", tableRows WorkItemRow.json t.workItems)])

/-- `_state_root_for_schema`. -/
def stateRootForSchema (schema : String) (t : Tables) : Hash := sha256Json (stateJson schema t)

/-- The schema a stored proposal names, when it names one. -/
def proposalSchema? (proposal : String) : Option String :=
  (loads proposal).bind fun v => (v.get? "versions").bind fun b => (b.get? "schema").bind
    JsonOf.str?

/-- The schema `state_root` hashes under: the one of the last entry. -/
def headSchema (ledger : List LedgerRow) : String :=
  match ledger.getLast?.bind fun r => proposalSchema? r.proposal with
  | some schema => if schema ∈ readableSchemas then schema else supportedSchema
  | none => supportedSchema

/-- `state_root`. -/
def stateRoot (db : Db) : Hash := stateRootForSchema (headSchema db.ledger) db.tables

/-! ### Ledger documents -/

/-- `n` in decimal, with zeros in front up to twenty digits. -/
def decimal20 (n : Nat) : List Char :=
  List.replicate (20 - (Nat.toDigits 10 n).length) '0' ++ Nat.toDigits 10 n

/-- `f"ledger_entry_{seq:020d}"`. -/
def entryIdText (seq : Nat) : String := String.ofList ("ledger_entry_".toList ++ decimal20 seq)

def optText (s : Option String) : Json := optColumn .str s

/-- The parts of an entry. -/
structure EntryParts where
  seq : Nat
  prevHash : Option String
  proposalHash : Hash
  preStateRoot : Hash
  postStateRoot : Hash
  versions : Json
  events : Json
  committedAt : String

/-- `_ledger_envelope`. -/
def ledgerEnvelope (e : EntryParts) : Json :=
  .obj [("committed_at", .str e.committedAt), ("events", e.events),
    ("post_state_root", idColumn e.postStateRoot), ("pre_state_root", idColumn e.preStateRoot),
    ("prev_hash", optText e.prevHash), ("proposal_hash", idColumn e.proposalHash),
    ("seq", intColumn e.seq), ("versions", e.versions)]

/-- `_ledger_document`, before it is checked. -/
def ledgerDocument (e : EntryParts) (entryHash : Hash) (proposalId : RecordId) : Json :=
  .obj [("committed_at", .str e.committedAt), ("entry_hash", idColumn entryHash),
    ("entry_id", .str (entryIdText e.seq)), ("events", e.events),
    ("object_type", .str "LEDGER_ENTRY"), ("post_state_root", idColumn e.postStateRoot),
    ("pre_state_root", idColumn e.preStateRoot), ("prev_hash", optText e.prevHash),
    ("proposal_hash", idColumn e.proposalHash), ("proposal_id", idColumn proposalId),
    ("seq", intColumn e.seq), ("versions", e.versions)]

end SharedMind
