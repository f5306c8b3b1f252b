import SharedMind.Kernel.StateRoot

/-!
# The projection

* `findObjectIds`, `HistoryEntry`: the ledger entries that name a record.
* `sourceRecord`, `claimRecord`, …: what is projected of a row.
* `buildProjection`, `projectJson`: the whole state.

`row.get("document")` of a table is the value of its text.
-/

namespace SharedMind.Projection

open Py

inductive ProjectionExc where
  | projectionError (message : String)
  | jsonDecodeError
  | keyError (key : String)
  | typeError
  | valueError (message : String)
  deriving DecidableEq

/-- `_load_json`. -/
def loadJson (value : Option String) (default : Json) : Json := (value.bind loads).getD default

/-- `isinstance(value, Mapping)`. -/
def isMapping : Json → Bool
  | .obj _ => true
  | _ => false

def isNone : Json → Bool
  | .null => true
  | _ => false

/-! ### History -/

def isIdKey (key : String) : Bool := key = "id" || "_id".toList.isSuffixOf key.toList

mutual

/-- `_find_object_ids`. -/
def findObjectIds : Json → List String
  | .obj members => findMemberIds members
  | .arr items => findItemIds items
  | _ => []

def findItemIds : List Json → List String
  | [] => []
  | item :: items => findObjectIds item ++ findItemIds items

def findMemberIds : List (String × Json) → List String
  | [] => []
  | (key, item) :: members =>
    if key = "versions" then findMemberIds members
    else (if isIdKey key then item.str?.toList else []) ++ findObjectIds item ++
      findMemberIds members

end

/-- An entry of the ledger, for the history of the records it names. -/
structure HistoryEntry where
  sequence : Nat
  reference : String
  ids : List String

/-- `f"project.json#/{section}/{index}"`. -/
def projectionRef («section» : String) (index : Nat) : String :=
  "project.json#/" ++ «section» ++ "/" ++ toString index

/-- `sorted(history_by_id.get(identifier, set()))`; the entries stand in the order of the ledger. -/
def historySequences (history : List HistoryEntry) (identifier : String) : Json :=
  .arr ((history.filter fun entry => identifier ∈ entry.ids).map fun entry =>
    intColumn entry.sequence)

/-- `_history_refs`. -/
def historyRefs (history : List HistoryEntry) (identifier : String) : Json :=
  .arr ((history.filter fun entry => identifier ∈ entry.ids).map fun entry =>
    .str entry.reference)

/-! ### The ledger -/

def legacySchemas : List String := ["1.0.0", "1.1.0"]

/-- What is projected of a row of the ledger. -/
def ledgerEntry (row : LedgerRow) (index : Nat) : Except ProjectionExc (Json × HistoryEntry) := do
  let proposal := loadJson (some row.proposal) (.obj [])
  let events := loadJson (some row.events) (.arr [])
  let document := loadJson row.document .null
  let schema := ((proposal.get? "versions").bind fun v => v.get? "schema").bind JsonOf.str?
  let legacy : Bool := decide (∃ s ∈ legacySchemas, schema = some s)
  ensure (legacy || isMapping document) (.projectionError
    ("ledger sequence " ++ toString row.seq ++ " has no canonical LedgerEntry document"))
  let reference := projectionRef "ledger/entries" index
  return (.obj [
    ("committed_at", optText row.committedAt),
    ("entry_hash", .str row.entryHash),
    ("events", events),
    ("ledger_entry", document),
    ("legacy_contract_incomplete", .bool (legacy && isNone document)),
    ("pre_state_root", optText row.preStateRoot),
    ("previous_hash", optText row.prevHash),
    ("projection_ref", .str reference),
    ("proposal", proposal),
    ("proposal_hash", .str row.proposalHash),
    ("sequence", intColumn row.seq),
    ("state_root", .str row.stateRoot)],
    ⟨row.seq, reference, findObjectIds events ++ findObjectIds proposal⟩)

/-! ### Sources, evidence, conflicts, claims -/

def sourceRecord (history : List HistoryEntry) (id : RecordId) (row : SourceRow) (index : Nat) :
    Json :=
  .obj [
    ("content_size_bytes", intColumn row.content.length),
    ("history_refs", historyRefs history id),
    ("history_sequences", historySequences history id),
    ("projection_ref", .str (projectionRef "sources" index)),
    ("source_revision", SourceRevision.codec.enc row.document),
    ("verified_content_hash", idColumn (sha256Bytes row.content))]

def evidenceRecord (history : List HistoryEntry) (id : RecordId) (row : EvidenceRow)
    (index : Nat) : Json :=
  .obj [
    ("claim_id", idColumn row.claimId),
    ("evidence_link", EvidenceLink.codec.enc row.document),
    ("evidence_link_id", idColumn id),
    ("history_refs", historyRefs history id),
    ("history_sequences", historySequences history id),
    ("projection_ref", .str (projectionRef "evidence" index)),
    ("source_revision_id", idColumn row.sourceRevisionId)]

/-- The texts in order, as an array. -/
def sortedTexts (texts : List RecordId) : Json :=
  .arr ((texts.insertionSort (· ≤ ·)).map idColumn)

def conflictRecord (history : List HistoryEntry) (id : RecordId) (row : ConflictRow)
    (index : Nat) : Json :=
  .obj [
    ("conflict_id", idColumn id),
    ("episode", intColumn row.episode),
    ("family_key", idColumn row.familyKey),
    ("history_refs", historyRefs history id),
    ("history_sequences", historySequences history id),
    ("kind", .str row.kind.text),
    ("member_digest", idColumn row.memberDigest),
    ("members", sortedTexts row.members),
    ("opened_sequence", intColumn row.openedSeq),
    ("projection_ref", .str (projectionRef "conflicts" index)),
    ("resolution", optColumn Resolution.codec.enc row.resolution),
    ("status", .str row.status.text),
    ("version", intColumn row.version)]

/-- The conflicts of a claim, once for each time they list it. -/
def conflictIdsOf (t : Tables) (claimId : RecordId) : List RecordId :=
  t.conflicts.toList.flatMap fun c =>
    (c.2.members.filter fun member => member = claimId).map fun _ => c.1

def evidenceIdsOf (t : Tables) (claimId : RecordId) : List RecordId :=
  (t.evidence.toList.filter fun e => e.2.claimId = claimId).map Prod.fst

def claimRecord (history : List HistoryEntry) (t : Tables) (id : RecordId) (row : ClaimRow)
    (index : Nat) : Json :=
  .obj [
    ("claim", Claim.codec.enc row.document),
    ("conflict_ids", sortedTexts (conflictIdsOf t id)),
    ("evidence_link_ids", sortedTexts (evidenceIdsOf t id)),
    ("history_refs", historyRefs history id),
    ("history_sequences", historySequences history id),
    ("projection_ref", .str (projectionRef "claims" index)),
    ("proposition", Proposition.codec.enc row.proposition),
    ("proposition_hash", idColumn row.propositionHash),
    ("status", .str row.status.text),
    ("superseded_by", optColumn idColumn row.supersededBy),
    ("version", intColumn row.version)]

/-- An open conflict has all its members. -/
def checkOpenConflict (t : Tables) (id : RecordId) (row : ConflictRow) :
    Except ProjectionExc Unit :=
  if row.status = .open then do
    let claimIds := t.claims.toList.map fun c => c.2.document.claimId
    let missing := (sortedSet row.members).filter fun member => member ∉ claimIds
    ensure (missing = []) (.projectionError ("open conflict " ++ (id : String) ++
      " has missing member claim(s): " ++ ", ".intercalate (missing.map Text.text)))
  else .ok ()

/-! ### Continuity -/

/-- A record of the projection, with the columns of its row where it shows them. -/
structure ProjectedRecord where
  json : Json
  columns : List (String × Json) := []

/-- A row of a continuity table, column by column. -/
def decisionColumns (id : RecordId) (row : DecisionRow) : List (String × Json) :=
  [("decision_id", idColumn id),
    ("status", .str row.status.text),
    ("version", intColumn row.version),
    ("replaced_by_decision_id", optColumn idColumn row.replacedByDecisionId),
    ("document", textColumn DecisionDoc.codec row.document)]

def questionColumns (id : RecordId) (row : QuestionRow) : List (String × Json) :=
  [("question_id", idColumn id),
    ("status", .str row.status.text),
    ("version", intColumn row.version),
    ("answer", optColumn (textColumn QuestionAnswer.codec) row.answer),
    ("drop_record", optColumn (textColumn QuestionDrop.codec) row.dropRecord),
    ("document", textColumn QuestionDoc.codec row.document)]

def workItemColumns (id : RecordId) (row : WorkItemRow) : List (String × Json) :=
  [("work_item_id", idColumn id),
    ("status", .str row.status.text),
    ("version", intColumn row.version),
    ("blocker", optColumn idColumn row.blocker),
    ("updated_at", .str row.updatedAt),
    ("document", textColumn WorkItemDoc.codec row.document)]

/-- What `_optional_records` makes of a row, without its `projection_ref`. -/
structure OptionalRecord where
  table : String
  columns : List (String × Json)
  document : Json
  historySequences : Json
  historyRefs : Json

namespace OptionalRecord

def row (r : OptionalRecord) : Json := .obj (dictOf r.columns)

def json (r : OptionalRecord) : Json :=
  .obj [("document", r.document), ("history_refs", r.historyRefs),
    ("history_sequences", r.historySequences), ("row", r.row), ("table", .str r.table)]

/-- The record with its `projection_ref`. -/
def placed («section» : String) (r : OptionalRecord) (index : Nat) : ProjectedRecord where
  json := .obj [("document", r.document), ("history_refs", r.historyRefs),
    ("history_sequences", r.historySequences),
    ("projection_ref", .str (projectionRef («section») index)), ("row", r.row),
    ("table", .str r.table)]
  columns := r.columns

end OptionalRecord

/-- `_optional_records`: the rows of a table, by the canonical form of what is made of them. -/
def optionalRecords {ρ : Type} (history : List HistoryEntry) (table : String)
    (columns : RecordId → ρ → List (String × Json)) (document : ρ → Json)
    (rows : Table RecordId ρ) : List OptionalRecord :=
  (rows.toList.map fun r => ⟨table, columns r.1 r.2, document r.2,
    historySequences history r.1, historyRefs history r.1⟩).insertionSort
    fun r s => r.json.dumps ≤ s.json.dumps

/-- `_validate_continuity_statuses` of one section. -/
def validateStatuses (recordKind : String) (known : List String) (records : List OptionalRecord) :
    Except ProjectionExc Unit :=
  records.forM fun r =>
    let status := (r.row.get? "status").bind JsonOf.str?
    ensure (∃ s ∈ known, status = some s)
      (.projectionError ("unknown " ++ recordKind ++ " status: " ++ status.getD "<missing>"))

/-! ### The state -/

def projectionVersion : String := "markdown-projection@3"

/-- `_state_root`. -/
def projectedStateRoot (db : Db) : Hash :=
  let schema := db.ledger.getLast?.bind fun r => proposalSchema? r.proposal
  stateRootForSchema (schema.getD "") db.tables

/-- It is the root of the kernel. -/
theorem projectedStateRoot_eq (db : Db) : projectedStateRoot db = stateRoot db := by
  have hlegacy {schema schema' : String} (h : schema = "1.0.0" ↔ schema' = "1.0.0") :
      stateRootForSchema schema db.tables = stateRootForSchema schema' db.tables := by
    rw [stateRootForSchema, stateRootForSchema, stateJson, stateJson]
    simp only [h]
  rw [projectedStateRoot, stateRoot, headSchema]
  apply hlegacy
  cases db.ledger.getLast?.bind fun r => proposalSchema? r.proposal with
  | none => decide
  | some schema =>
    show schema = "1.0.0" ↔ (if schema ∈ readableSchemas then schema else supportedSchema) = "1.0.0"
    by_cases hreadable : schema ∈ readableSchemas
    · rw [if_pos hreadable]
    · rw [if_neg hreadable]
      constructor
      · intro h
        exact absurd (h ▸ by decide) hreadable
      · intro h
        exact absurd h (by decide)

structure ProjectedState where
  sources : List ProjectedRecord
  claims : List ProjectedRecord
  evidence : List ProjectedRecord
  conflicts : List ProjectedRecord
  decisions : List ProjectedRecord
  questions : List ProjectedRecord
  workItems : List ProjectedRecord
  entries : List ProjectedRecord
  stateRoot : Hash

namespace ProjectedState

def head (p : ProjectedState) : Option Json := p.entries.getLast?.map ProjectedRecord.json

def headSequence (p : ProjectedState) : Json :=
  (p.head.bind fun entry => entry.get? "sequence").getD (intColumn 0)

def headEntryHash (p : ProjectedState) : Json :=
  (p.head.bind fun entry => entry.get? "entry_hash").getD .null

def json (p : ProjectedState) : Json :=
  let records (rs : List ProjectedRecord) : Json := .arr (rs.map ProjectedRecord.json)
  .obj [
    ("claims", records p.claims),
    ("conflicts", records p.conflicts),
    ("continuity", .obj [
      ("decisions", records p.decisions),
      ("questions", records p.questions),
      ("work_items", records p.workItems)]),
    ("evidence", records p.evidence),
    ("ledger", .obj [
      ("entries", records p.entries),
      ("head_entry_hash", p.headEntryHash),
      ("head_sequence", p.headSequence)]),
    ("projection_version", .str projectionVersion),
    ("sources", records p.sources),
    ("state_root", idColumn p.stateRoot)]

end ProjectedState

/-- `_build_projection`. -/
def buildProjection (db : Db) : Except ProjectionExc ProjectedState := do
  let t := db.tables
  let ledgerEntries ← db.ledger.zipIdx.mapM fun r => ledgerEntry r.1 r.2
  let history := ledgerEntries.map Prod.snd
  t.conflicts.toList.forM fun c => checkOpenConflict t c.1 c.2
  let decisions := optionalRecords history "decision_records" decisionColumns
    (fun r => DecisionDoc.codec.enc r.document) t.decisionRecords
  let questions := optionalRecords history "open_questions" questionColumns
    (fun r => QuestionDoc.codec.enc r.document) t.openQuestions
  let workItems := optionalRecords history "work_items" workItemColumns
    (fun r => WorkItemDoc.codec.enc r.document) t.workItems
  validateStatuses "decision" ["ACTIVE", "SUPERSEDED", "REVERSED"] decisions
  validateStatuses "question" ["OPEN", "ANSWERED", "DROPPED"] questions
  validateStatuses "work item" ["TODO", "DOING", "BLOCKED", "DONE", "DROPPED"] workItems
  let placed («section» : String) (records : List OptionalRecord) : List ProjectedRecord :=
    records.zipIdx.map fun r => r.1.placed («section») r.2
  return {
    sources := t.sources.toList.zipIdx.map fun s => { json := sourceRecord history s.1.1 s.1.2 s.2 }
    claims := t.claims.toList.zipIdx.map fun c => { json := claimRecord history t c.1.1 c.1.2 c.2 }
    evidence := t.evidence.toList.zipIdx.map fun e =>
      { json := evidenceRecord history e.1.1 e.1.2 e.2 }
    conflicts := t.conflicts.toList.zipIdx.map fun c =>
      { json := conflictRecord history c.1.1 c.1.2 c.2 }
    decisions := placed "continuity/decisions" decisions
    questions := placed "continuity/questions" questions
    workItems := placed "continuity/work_items" workItems
    entries := ledgerEntries.map fun e => { json := e.1 }
    stateRoot := projectedStateRoot db }

/-- `project_json`. -/
def projectJson (db : Db) : Except ProjectionExc String := do
  return (← buildProjection db).json.dumps ++ "\n"

end SharedMind.Projection
