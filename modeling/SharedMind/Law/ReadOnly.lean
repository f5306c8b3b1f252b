import SharedMind.Kernel.PublicConnection
import SharedMind.Kernel.Commit

/-!
# What callers may execute

The authorizer is asked when a text is compiled, and the statements of the kernel stay compiled.

* `public_connection_reads`: callers leave the rows as long as no statement they execute was
  compiled for a write method of the kernel, and nothing was written in what they roll back.
* `kept_insert_runs`: after one commit the insertion of receipts runs for every caller.
-/

namespace SharedMind.PublicConnection

open Py.Sqlite

variable {δ π : Type} {e : Engine δ π}

/-- What a caller executes was not compiled for a write method, and every state it may roll back to
is the current one. -/
structure State.Unprivileged (s : State e) (text : String) (inUse : Bool) : Prop where
  kept : inUse = false → ∀ st depth, s.connection.cache text = some (st, depth) → depth = 0
  rollback : ∀ st, s.connection.statement? authorizeSql 0 text inUse = some st →
    (∃ r ∈ e.requests st, r.RollsBack) →
      ∀ d ∈ s.connection.store.snapshots, d = s.connection.store.rows

/-- One statement of a caller. -/
theorem Step.reads {s t : State e} {text : String} {params : π} {inUse : Bool}
    (hdoc : e.Documented) (hasked : s.connection.Asked authorizeSql)
    (h : Step s (.execute .caller text params inUse) t) (hs : s.Unprivileged text inUse) :
    t.connection.store.rows = s.connection.store.rows := by
  cases h with
  | execute who text params inUse hdepth =>
    rw [hdepth rfl]
    refine Connection.execute_rows hdoc (fun st hst => ?_) hs.rollback
    apply statement_not_changes hdoc
    rcases Connection.statement?_allowed hasked hst with hallowed | ⟨hfresh, kept, hkept, hallowed⟩
    · exact hallowed
    · rw [hs.kept hfresh st kept hkept] at hallowed
      exact hallowed

namespace ReceiptTable

/-- The statements of a commit that is rejected before its transaction, and a rollback. -/
inductive Statement where
  | insertReceipt
  | beginImmediate
  | commit
  | rollback
  | query
  deriving DecidableEq

/-- The text `_insert_receipt` executes. -/
def insertText : String :=
"INSERT INTO receipts(
                 idempotency_key, proposal_hash, proposal_id, outcome,
                 reason_codes, ledger_seq, state_root, conflict_ids, proposer,
                 document, schema_version
               ) VALUES (?, ?, ?, ?, ?, ?, ?, ?, ?, ?, ?)"

/-- The queries of `_head_entry_hash`, of `state_root` and of `_insert_receipt`. -/
def queryTexts : List String := [
"SELECT entry_hash FROM ledger ORDER BY seq DESC LIMIT 1",
"SELECT proposal FROM ledger ORDER BY seq DESC LIMIT 1",
"SELECT * FROM sources ORDER BY revision_id",
"SELECT * FROM claims ORDER BY claim_id",
"SELECT * FROM evidence ORDER BY evidence_link_id",
"SELECT * FROM conflicts ORDER BY conflict_id",
"
        SELECT decision_id, status, version, replaced_by_decision_id, document
        FROM decision_records ORDER BY decision_id
        ",
"
        SELECT question_id, status, version, answer, drop_record, document
        FROM open_questions ORDER BY question_id
        ",
"
        SELECT work_item_id, status, version, blocker, updated_at, document
        FROM work_items ORDER BY work_item_id
        ",
"SELECT COALESCE(MAX(id), 0) + 1 FROM receipts",
"SELECT * FROM receipts WHERE id = ?"]

/-- The rows of `receipts`, without their ids. -/
abbrev Rows := List (List (Option String))

def run (st : Statement) (params : List (Option String)) (s : Store Rows) : Store Rows :=
  match st with
  | .insertReceipt => { s with rows := s.rows ++ [params] }
  | .beginImmediate => { s with snapshots := if s.snapshots = [] then [s.rows] else s.snapshots }
  | .commit => { s with snapshots := [] }
  | .rollback => ⟨s.snapshots.headD s.rows, []⟩
  | .query => s

def requests (st : Statement) : List Request :=
  match st with
  | .insertReceipt => [⟨.insert, some "receipts", none⟩]
  | .beginImmediate => [⟨.transaction, some "BEGIN", none⟩]
  | .commit => [⟨.transaction, some "COMMIT", none⟩]
  | .rollback => [⟨.transaction, some "ROLLBACK", none⟩]
  | .query => [⟨.select, none, none⟩]

def statement? (text : String) : Option Statement :=
  if text = insertText then some .insertReceipt
  else if text = "BEGIN IMMEDIATE" then some .beginImmediate
  else if text = "COMMIT" then some .commit
  else if text = "ROLLBACK" then some .rollback
  else if text ∈ queryTexts then some .query
  else none

/-- The engine on these texts. -/
def engine : Engine Rows (List (Option String)) where
  Statement := Statement
  compile _ := statement?
  requests := requests
  run := run

instance : DecidableEq engine.Statement := inferInstanceAs (DecidableEq Statement)

theorem engine_documented : engine.Documented where
  leaves st params s hchanges hrolls := by
    cases st with
    | insertReceipt => exact absurd trivial (hchanges _ (List.mem_singleton_self _))
    | rollback => exact absurd ⟨Or.inl rfl, rfl⟩ (hrolls _ (List.mem_singleton_self _))
    | beginImmediate => rfl
    | commit => rfl
    | query => rfl
  restores st params s hchanges := by
    cases st with
    | insertReceipt => exact absurd trivial (hchanges _ (List.mem_singleton_self _))
    | rollback =>
      cases hsnapshots : s.snapshots with
      | nil => exact Or.inl (congrArg (fun l => List.headD l s.rows) hsnapshots)
      | cons d rest =>
        refine Or.inr ?_
        rw [List.mem_cons]
        exact Or.inl (congrArg (fun l => List.headD l s.rows) hsnapshots)
    | beginImmediate => exact Or.inl rfl
    | commit => exact Or.inl rfl
    | query => exact Or.inl rfl
  vtable st hvtable := by
    obtain ⟨r, hr, haction⟩ := hvtable
    cases st <;> obtain rfl := List.mem_singleton.mp hr <;>
      exact absurd haction (by decide)

/-! ### A commit, and its insertion again -/

/-- The parameters of the insertion, for a row. -/
def insertParameters (row : ReceiptRow) : List (Option String) :=
  [row.idempotencyKey, row.proposalHash, row.proposalId, row.outcome, row.reasonCodes,
    row.ledgerSeq.map fun seq => String.ofList (Nat.toDigits 10 seq), row.stateRoot,
    row.conflictIds, row.proposer, row.document, row.schemaVersion]

/-- `commit("\ud800")`, which is no text that can be encoded. -/
def call : Call := ⟨.str ⟨[0xD800]⟩, "2026-01-01T00:00:00Z"⟩

/-- The receipt it is refused with. -/
def refusal : ReceiptInput :=
  Rejection.input ⟨sha256Json (.obj [("idempotency_key", .str ""),
    ("malformed_proposal_type", .str (typeName call.proposal)), ("proposal_id", .str "")]),
    .validationError, .malformedProposal, none⟩ none (stateRoot Db.empty)

/-- What `commit` executes on an empty database to refuse the call. -/
def commitStatements : List (String × List (Option String)) :=
  (queryTexts.take 9).map (·, []) ++
  [("BEGIN IMMEDIATE", []), ("SELECT entry_hash FROM ledger ORDER BY seq DESC LIMIT 1", []),
    ("SELECT COALESCE(MAX(id), 0) + 1 FROM receipts", []),
    (insertText, insertParameters (receiptColumns call refusal 1 "" ""
      (receiptDocument call refusal ⟨none, none, .null⟩ 1 call.now))),
    ("SELECT * FROM receipts WHERE id = ?", [some "1"]), ("COMMIT", [])]

/-- The row a caller writes: an accepted proposal that never was. -/
def forged : List (Option String) :=
  [some "key", some "", some "proposal", some "COMMITTED", some "[]", some "1", some "",
    some "[]", none, none, some "3.0.0"]

/-- An empty database that was just opened. -/
def opened : State engine := ⟨⟨⟨[], []⟩, fun _ => none⟩, 0⟩

theorem opened_opened : opened.Opened := ⟨rfl, fun _ _ _ h => nomatch h⟩

/-- The kernel executes statements in a write method. -/
def executeAll (s : State engine) (statements : List (String × List (Option String))) :
    State engine :=
  statements.foldl (fun s st =>
    { s with connection := s.connection.execute authorizeSql s.depth st.1 st.2 false }) s

theorem run_executeAll {steps : List (Taken engine)} {s : State engine} (run : Run engine steps s)
    (statements : List (String × List (Option String))) :
    ∃ steps', Run engine steps' (executeAll s statements) := by
  induction statements generalizing steps s with
  | nil => exact ⟨steps, run⟩
  | cons st rest ih => exact ih (run.snoc (.execute .kernel st.1 st.2 false nofun))

/-- A caller executes the insertion. -/
theorem step_forged {s : State engine} (h : s.depth = 0) :
    Step s (.execute .caller insertText forged false) { s with
      connection := s.connection.execute authorizeSql s.depth insertText forged false } :=
  .execute .caller insertText forged false fun _ => h

/-- The database after the commit. -/
def committed : State engine :=
  { executeAll { opened with depth := 1 } commitStatements with depth := 0 }

theorem run_committed : ∃ steps, Run engine steps committed := by
  obtain ⟨steps, run⟩ := run_executeAll ((Run.opened opened_opened).snoc .enterWrite)
    commitStatements
  exact ⟨_, run.snoc (.leaveWrite (by decide))⟩

theorem committed_depth : committed.depth = 0 := rfl

/-- The insertion is kept, as it was compiled for the commit. -/
theorem committed_cache : committed.connection.cache insertText = some (.insertReceipt, 1) := by
  decide +kernel

/-- After the commit the insertion runs for a caller too. -/
theorem committed_execute (params : List (Option String)) :
    (committed.connection.execute authorizeSql committed.depth insertText params
      false).store.rows = committed.connection.store.rows ++ [params] := by
  simp only [Connection.execute, Connection.statement?, committed_cache]
  rfl

end ReceiptTable

end SharedMind.PublicConnection
