import SharedMind.Kernel.Base

/-!
# Decisions, questions and work items: the reducers

`continuity.py`.  A reducer changes one table of `Tables` and appends one event;
`applyEvent` replays an event by running the reducer on the pre-event state and
comparing what it generates.
-/

namespace SharedMind

open Py

/-- The tables inside a transaction, the events so far, and the conflicts opened. -/
structure Txn where
  tables : Tables
  events : List LedgerEvent
  conflictIds : List RecordId

namespace Txn

def emit (w : Txn) (tables : Tables) (event : LedgerEvent) : Txn :=
  { w with tables := tables, events := w.events ++ [event] }

@[simp] theorem emit_tables (w : Txn) (t : Tables) (e : LedgerEvent) : (w.emit t e).tables = t := rfl

@[simp] theorem emit_events (w : Txn) (t : Tables) (e : LedgerEvent) :
    (w.emit t e).events = w.events ++ [e] := rfl

@[simp] theorem emit_conflictIds (w : Txn) (t : Tables) (e : LedgerEvent) :
    (w.emit t e).conflictIds = w.conflictIds := rfl

end Txn

/-- What SQLite stores of a number in an INTEGER column. -/
def AtLeast.toNat {lo : Int} (n : AtLeast lo) : Nat := (n.1.toInt?.getD 0).toNat

/-- `previous_version + 1` as the version of a document. -/
def nextVersion (version : Nat) : AtLeast 1 := AtLeast.ofInt (version + 1) (by omega)

/-! ### Reads and guards -/

/-- `validate_read`, on the versions of the aggregate's table. -/
def validateVersion (version : Option Nat) (expected : PyNum) (code : ReasonCode) : Kernel Unit :=
  requireNow (∃ v ∈ version, expected.pyEq (.int v) = true) code

/-- `validate_guard`, on a column of the row. -/
def validateColumn {α : Type} [DecidableEq α] (column : Option α) (expected : α)
    (code : ReasonCode) : Kernel Unit :=
  requireNow (column = some expected) code

/-! ### Decisions -/

/-- `_ensure_available`. -/
def ensureAvailable {ρ : Type} (table : Table RecordId ρ) (id : RecordId) : Kernel Unit :=
  require (table.contains id = false) .duplicateObjectId

def DecisionDoc.row (d : DecisionDoc) : DecisionRow :=
  ⟨d.status, d.version.toNat, d.replacedByDecisionId, d⟩

/-- `_validate_new_decision`: the decision as a new one. -/
def validateNewDecision (d : DecisionDoc) : Kernel NewDecisionRecord :=
  if h : d.IsNew then .ok ⟨d, h⟩ else .error (.validationFailure .invalidNewDecisionState)

def recordDecision (w : Txn) (decision : DecisionDoc) : Kernel Txn := do
  let snapshot ← validateNewDecision decision
  ensureAvailable w.tables.decisionRecords decision.decisionId
  return w.emit { w.tables with
      decisionRecords := w.tables.decisionRecords.insert decision.decisionId decision.row }
    (.decisionRecorded snapshot)

/-- The target's row once it is superseded. -/
def DecisionRow.supersede (row : DecisionRow) (disposition : Disposition) (by' : RecordId) :
    DecisionRow where
  status := disposition.status
  version := row.version + 1
  replacedByDecisionId := some by'
  document := { row.document with
    status := disposition.status, version := nextVersion row.version,
    replacedByDecisionId := some by' }

def supersedeDecision (w : Txn) (target : RecordId) (disposition : Disposition)
    (replacement : DecisionDoc) (rationale : String) : Kernel Txn := do
  let row ← orRaise w.tables.decisionRecords[target]? (.transactionConflict .decisionStatusMismatch)
  requireNow (row.status = .active) .decisionStatusMismatch
  let snapshot ← validateNewDecision replacement
  ensureAvailable w.tables.decisionRecords replacement.decisionId
  return w.emit { w.tables with
      decisionRecords := (w.tables.decisionRecords.insert replacement.decisionId
        replacement.row).modify target fun r => r.supersede disposition replacement.decisionId }
    (.decisionSuperseded {
      newVersion := .int (row.version + 1 : Nat), previousVersion := .int row.version,
      rationale := rationale, replacementDecision := snapshot, targetDecisionId := target,
      targetDisposition := disposition })

/-! ### Questions -/

/-- `_validate_new_question`: the question as a new one. -/
def validateNewQuestion (q : QuestionDoc) : Kernel NewOpenQuestion :=
  if h : q.IsNew then .ok ⟨q, h⟩ else .error (.validationFailure .invalidNewQuestionState)

def openQuestion (w : Txn) (question : QuestionDoc) : Kernel Txn := do
  let snapshot ← validateNewQuestion question
  ensureAvailable w.tables.openQuestions question.questionId
  return w.emit { w.tables with
      openQuestions := w.tables.openQuestions.insert question.questionId
        ⟨question.status, question.version.toNat, none, none, question⟩ }
    (.questionOpened snapshot)

/-- `_open_question_target`. -/
def openQuestionTarget (w : Txn) (target : RecordId) : Kernel QuestionRow := do
  let row ← orRaise w.tables.openQuestions[target]? (.transactionConflict .questionStatusMismatch)
  requireNow (row.status = .open) .questionStatusMismatch
  return row

/-- The row of a question once it is answered or dropped. -/
def QuestionRow.close (row : QuestionRow) (status : QuestionStatus) (answer : Option QuestionAnswer)
    (drop : Option QuestionDrop) : QuestionRow where
  status := status
  version := row.version + 1
  answer := answer
  dropRecord := drop
  document := { row.document with
    status := status, version := nextVersion row.version, answer := answer, drop := drop }

def answerQuestion (w : Txn) (target : RecordId) (answer : QuestionAnswer) : Kernel Txn := do
  let row ← openQuestionTarget w target
  return w.emit { w.tables with
      openQuestions := w.tables.openQuestions.modify target fun r => r.close .answered answer none }
    (.questionAnswered answer (.int (row.version + 1 : Nat)) (.int row.version) target)

def dropQuestion (w : Txn) (target : RecordId) (drop : QuestionDrop) : Kernel Txn := do
  let row ← openQuestionTarget w target
  return w.emit { w.tables with
      openQuestions := w.tables.openQuestions.modify target fun r => r.close .dropped none drop }
    (.questionDropped drop (.int (row.version + 1 : Nat)) (.int row.version) target)

/-! ### Work items -/

/-- `_validate_new_work_item`: the work item as a new one. -/
def validateNewWorkItem (i : WorkItemDoc) : Kernel NewWorkItem :=
  if h : i.IsNew then .ok ⟨i, h⟩ else .error (.validationFailure .invalidNewWorkItemState)

def createWorkItem (w : Txn) (workItem : WorkItemDoc) : Kernel Txn := do
  let snapshot ← validateNewWorkItem workItem
  ensureAvailable w.tables.workItems workItem.workItemId
  return w.emit { w.tables with
      workItems := w.tables.workItems.insert workItem.workItemId
        ⟨workItem.status, workItem.version.toNat, workItem.blocker, workItem.updatedAt, workItem⟩ }
    (.workItemCreated snapshot)

/-- The row of a work item once its status is updated. -/
def WorkItemRow.update (row : WorkItemRow) (newStatus : WorkItemStatus)
    (blocker : Option (Bounded 1 4096)) (updatedAt : String) : WorkItemRow where
  status := newStatus
  version := row.version + 1
  blocker := blocker
  updatedAt := updatedAt
  document := { row.document with
    status := newStatus, version := nextVersion row.version, blocker := blocker,
    updatedAt := updatedAt }

def updateWorkItemStatus (w : Txn) (target : RecordId) (newStatus : WorkItemStatus)
    (blocker : Option (Bounded 1 4096)) (rationale : String) (updatedBy : ActorRef)
    (updatedAt : String) : Kernel Txn := do
  require (newStatus = .blocked ↔ blocker.isSome = true) .invalidWorkItemBlocker
  let row ← orRaise w.tables.workItems[target]? (.transactionConflict .workItemStatusMismatch)
  return w.emit { w.tables with
      workItems := w.tables.workItems.modify target fun r => r.update newStatus blocker updatedAt }
    (.workItemStatusUpdated {
      blocker := blocker, newStatus := newStatus, newVersion := .int (row.version + 1 : Nat),
      previousStatus := row.status, previousVersion := .int row.version, rationale := rationale,
      targetWorkItemId := target, updatedAt := updatedAt, updatedBy := updatedBy })

/-! ### Dispatch -/

/-- `apply_operation`; `none` when the operation belongs to another reducer. -/
def applyContinuityOperation (w : Txn) : Operation → Option (Kernel Txn)
  | .recordDecision decision _ => some (recordDecision w decision.1)
  | .supersedeDecision op =>
    some (supersedeDecision w op.targetDecisionId op.targetDisposition op.replacementDecision.1
      op.rationale)
  | .openQuestion _ question => some (openQuestion w question.1)
  | .answerQuestion answer _ target => some (answerQuestion w target answer)
  | .dropQuestion drop _ target => some (dropQuestion w target drop)
  | .createWorkItem _ workItem => some (createWorkItem w workItem.1)
  | .updateWorkItemStatus op =>
    some (updateWorkItemStatus w op.1.targetWorkItemId op.1.newStatus op.1.blocker op.1.rationale
      op.1.updatedBy op.1.updatedAt)
  | _ => none

/-- The reducer an event replays through; `none` for the other events. -/
def continuityReducer (w : Txn) : LedgerEvent → Option (Kernel Txn)
  | .decisionRecorded decision => some (recordDecision w decision.1)
  | .decisionSuperseded e =>
    some (supersedeDecision w e.targetDecisionId e.targetDisposition e.replacementDecision.1
      e.rationale)
  | .questionOpened question => some (openQuestion w question.1)
  | .questionAnswered answer _ _ target => some (answerQuestion w target answer)
  | .questionDropped drop _ _ target => some (dropQuestion w target drop)
  | .workItemCreated workItem => some (createWorkItem w workItem.1)
  | .workItemStatusUpdated e =>
    some (updateWorkItemStatus w e.targetWorkItemId e.newStatus e.blocker e.rationale e.updatedBy
      e.updatedAt)
  | _ => none

/-- `generated == [event]`, on the events as JSON. -/
def sameEvents (generated : List LedgerEvent) (event : LedgerEvent) : Bool :=
  (JsonOf.arr (generated.map LedgerEvent.codec.enc)).pyEq (.arr [LedgerEvent.codec.enc event])

/-- `apply_event`. -/
def applyContinuityEvent (t : Tables) (event : LedgerEvent) : Option (Kernel Tables) :=
  (continuityReducer ⟨t, [], []⟩ event).map fun run => do
    let w ← run
    require (sameEvents w.events event = true) .replayEventTransitionMismatch
    return w.tables

end SharedMind
