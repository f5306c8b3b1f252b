import SharedMind.Kernel.System
import SharedMind.Projection.Query
import SharedMind.Py.TextLines

/-!
# Sessions that hand work over

`work_items.py`, and what `service.py` makes of a commit.  A session looks a work item up,
page by page, reads the state root and brings one proposal; after a transaction conflict
`progress` looks and proposes once more.

* `handoffRequest`, `progressRequest`: what the helpers check of their arguments.
* `handoffProposal`, `statusProposal`: the proposals they bring.
* `Session`: where a session stands between two accesses to the database, and what it does
  with what it read, or with the answer of the kernel.
* `Step`, `Run`: sessions among themselves and among any other callers of the kernel.
-/

namespace SharedMind

/-- The connection of an event. -/
def Event.conn {ι : Type} : Event ι → ι
  | .called i _ => i
  | .silent i => i
  | .ended i _ _ => i

end SharedMind

namespace SharedMind.Service

open Py

/-! ### Arguments -/

/-- The codes the helpers give a `WorkItemWriteError` themselves. -/
inductive WriteCode where
  | invalidActorId
  | invalidRelatedObjects
  | invalidWorkItemBlocker
  | invalidWorkItemId
  | invalidWorkItemPriority
  | invalidWorkItemStatus
  | invalidWorkItemText
  | workItemNotFound
  deriving DecidableEq

namespace WriteCode

def text : WriteCode → String
  | invalidActorId => "INVALID_ACTOR_ID"
  | invalidRelatedObjects => "INVALID_RELATED_OBJECTS"
  | invalidWorkItemBlocker => "INVALID_WORK_ITEM_BLOCKER"
  | invalidWorkItemId => "INVALID_WORK_ITEM_ID"
  | invalidWorkItemPriority => "INVALID_WORK_ITEM_PRIORITY"
  | invalidWorkItemStatus => "INVALID_WORK_ITEM_STATUS"
  | invalidWorkItemText => "INVALID_WORK_ITEM_TEXT"
  | workItemNotFound => "WORK_ITEM_NOT_FOUND"

end WriteCode

/-- `WORK_ITEM_STATUSES`. -/
def workItemStatuses : List WorkItemStatus := [.todo, .doing, .blocked, .done, .dropped]

/-- `WORK_ITEM_PRIORITIES`. -/
def workItemPriorities : List Priority := [.p0, .p1, .p2, .p3]

def maxDescription : Nat := 8192
def maxRationale : Nat := 4096
def maxBlocker : Nat := 4096

/-- `_clean_text`. -/
def cleanText (maximum : Nat) (value : String) : Except WriteCode (Bounded 1 maximum) :=
  orRaise (Text.of? (String.ofList (strip value.toList))) .invalidWorkItemText

/-- An identifier that `_SEMANTIC_ID` matches whole. -/
def semanticId? (value : String) : Option SemanticId :=
  if semanticIdPattern.fullmatch value = true then Text.of? value else none

/-- An identifier that `_RECORD_ID` matches whole. -/
def recordId? (value : String) : Option RecordId :=
  if recordIdPattern.fullmatch value = true then Text.of? value else none

/-- `_actor_ref`. -/
def actorRef (actor : String) : Except WriteCode ActorRef := do
  let actorId ← orRaise (semanticId? actor) .invalidActorId
  return ⟨actorId, .agent⟩

/-- An entry of `related`. -/
def relatedObject (entry : Json) : Except WriteCode RecordRef :=
  match entry with
  | .obj _ => do
    let recordType ← orRaise (((entry.get? "record_type").bind JsonOf.str?).bind fun s =>
      RecordType.all.find? fun t => t.text = s) .invalidRelatedObjects
    let recordId ← orRaise (((entry.get? "record_id").bind JsonOf.str?).bind recordId?)
      .invalidRelatedObjects
    return ⟨recordId, recordType⟩
  | _ => .error .invalidRelatedObjects

/-- `_related_objects`. -/
def relatedObjects (related : Option (List Json)) : Except WriteCode (List RecordRef) :=
  (related.getD []).foldlM (fun normalized entry => do
    let candidate ← relatedObject entry
    return if candidate ∈ normalized then normalized else normalized ++ [candidate]) []

/-- What `handoff` goes on with. -/
structure HandoffRequest where
  description : Bounded 1 8192
  actor : ActorRef
  priority : Priority
  related : List RecordRef
  deriving DecidableEq

structure HandoffArgs where
  description : String
  actor : String
  priority : String
  related : Option (List Json)

def handoffRequest (args : HandoffArgs) : Except WriteCode HandoffRequest := do
  let description ← cleanText maxDescription args.description
  let actor ← actorRef args.actor
  let priority ← orRaise (workItemPriorities.find? fun p => p.text = args.priority)
    .invalidWorkItemPriority
  let related ← relatedObjects args.related
  return ⟨description, actor, priority, related⟩

/-- What `progress` goes on with. -/
structure StatusRequest where
  workItemId : RecordId
  status : WorkItemStatus
  rationale : Bounded 1 4096
  blocker : Option (Bounded 1 4096)
  actor : ActorRef
  goes : status = .blocked ↔ blocker.isSome = true
  deriving DecidableEq

structure ProgressArgs where
  workItemId : String
  status : String
  rationale : String
  actor : String
  blocker : Option String

/-- A blocker is cleaned when one is given. -/
def cleanBlocker (value : Option String) :
    Except WriteCode {b : Option (Bounded 1 4096) // b.isSome = value.isSome} :=
  match value with
  | none => .ok ⟨none, rfl⟩
  | some text => do
    let blocker ← cleanText maxBlocker text
    return ⟨some blocker, rfl⟩

def progressRequest (args : ProgressArgs) : Except WriteCode StatusRequest := do
  let status ← orRaise (workItemStatuses.find? fun s => s.text = args.status) .invalidWorkItemStatus
  if h : status = .blocked ↔ args.blocker.isSome = true then do
    let blocker ← cleanBlocker args.blocker
    let rationale ← cleanText maxRationale args.rationale
    let actor ← actorRef args.actor
    let workItemId ← orRaise (recordId? args.workItemId) .invalidWorkItemId
    return ⟨workItemId, status, rationale, blocker.1, actor, by rw [blocker.2]; exact h⟩
  else .error .invalidWorkItemBlocker

/-! ### Proposals -/

/-- `current_version_bundle`. -/
def currentVersionBundle (reg : Registry) : Json :=
  .obj [("conflict_rules", .str "conflict-rules@1"), ("guard_dsl", idColumn reg.guardDslVersion),
    ("predicate_registry", idColumn reg.version),
    ("predicate_registry_hash", idColumn reg.hash),
    ("projection", .str "markdown-projection@3"), ("schema", .str supportedSchema)]

/-- A stem and the first digits of a fingerprint. -/
def named (stem : String) (fingerprint : List Char) (n : Nat) : String :=
  String.ofList (stem.toList ++ fingerprint.take n)

def proposalJson (reg : Registry) (proposalId idempotencyKey : String) (proposer : ActorRef)
    (proposedAt : String) (root : Hash) (reads guards operations : List Json) : Json :=
  .obj [("base_state_root", idColumn root), ("guards", .arr guards),
    ("idempotency_key", .str idempotencyKey), ("object_type", .str "PROPOSAL"),
    ("operations", .arr operations), ("proposal_id", .str proposalId),
    ("proposed_at", .str proposedAt), ("proposer", ActorRef.codec.enc proposer),
    ("reads", .arr reads), ("versions", currentVersionBundle reg)]

namespace HandoffRequest

variable (h : HandoffRequest)

def relatedJson : Json := .arr (h.related.map RecordRef.codec.enc)

/-- `fingerprint`. -/
def fingerprint : List Char :=
  (sha256Json (.obj [("actor", idColumn h.actor.actorId), ("description", idColumn h.description),
    ("kind", .str "CREATE_WORK_ITEM"), ("priority", .str h.priority.text),
    ("related_objects", h.relatedJson)])).digits

def workItemId : String := named "workitem_handoff_" h.fingerprint 32

def workItem (now : String) : Json :=
  .obj [("blocker", .null), ("created_at", .str now), ("created_by", ActorRef.codec.enc h.actor),
    ("description", idColumn h.description), ("object_type", .str "WORK_ITEM"),
    ("priority", .str h.priority.text), ("related_objects", h.relatedJson),
    ("status", .str WorkItemStatus.todo.text), ("updated_at", .str now), ("version", intColumn 1),
    ("work_item_id", .str h.workItemId)]

/-- The proposal of `handoff`. -/
def proposal (reg : Registry) (root : Hash) (now : String) : Json :=
  proposalJson reg (named "proposal_handoff_" h.fingerprint 32) (named "handoff-" h.fingerprint 48)
    h.actor now root [] [] [.obj [("op", .str "CREATE_WORK_ITEM"),
      ("op_id", .str (named "operation_handoff_" h.fingerprint 32)),
      ("work_item", h.workItem now)]]

end HandoffRequest

/-- What `progress` saw of the work item. -/
structure Seen where
  version : Int
  status : String
  deriving DecidableEq

namespace StatusRequest

variable (r : StatusRequest)

/-- `fingerprint`. -/
def fingerprint (expectedVersion : Int) : List Char :=
  (sha256Json (.obj [("actor", idColumn r.actor.actorId), ("blocker", optColumn idColumn r.blocker),
    ("expected_version", .num (.int expectedVersion)), ("kind", .str "UPDATE_WORK_ITEM_STATUS"),
    ("rationale", idColumn r.rationale), ("status", .str r.status.text),
    ("work_item_id", idColumn r.workItemId)])).digits

/-- `_status_proposal`. -/
def proposal (reg : Registry) (seen : Seen) (root : Hash) (proposedAt updatedAt : String) : Json :=
  let fingerprint := r.fingerprint seen.version
  proposalJson reg (named "proposal_progress_" fingerprint 32) (named "progress-" fingerprint 48)
    r.actor proposedAt root
    [.obj [("aggregate_id", idColumn r.workItemId), ("aggregate_type", .str "WORK_ITEM"),
      ("expected_version", .num (.int seen.version)), ("kind", .str "AGGREGATE")]]
    [.obj [("expected_status", .str seen.status), ("op", .str "WORK_ITEM_STATUS_EQ"),
      ("work_item_id", idColumn r.workItemId)],
    .obj [("expected_version", .num (.int seen.version)), ("op", .str "WORK_ITEM_VERSION_EQ"),
      ("work_item_id", idColumn r.workItemId)]]
    [.obj [("blocker", optColumn idColumn r.blocker), ("new_status", .str r.status.text),
      ("op", .str "UPDATE_WORK_ITEM_STATUS"),
      ("op_id", .str (named "operation_progress_" fingerprint 32)),
      ("rationale", idColumn r.rationale), ("target_work_item_id", idColumn r.workItemId),
      ("updated_at", .str updatedAt), ("updated_by", ActorRef.codec.enc r.actor)]]

end StatusRequest

/-! ### Looking a work item up -/

theorem pageLimit_pos : 1 ≤ 1000 := by omega

theorem pageLimit_le : 1000 ≤ 1000 := le_rfl

/-- The question for a page of work items. -/
def pageSpec (offset : Nat) : Projection.QuerySpec where
  kinds := [.workItem]
  ids := []
  titleContains := none
  predicates := []
  sourceIds := []
  sourceRevisionIds := []
  statuses := []
  limit := 1000
  offset := offset
  includeRecord := true
  limit_pos := pageLimit_pos
  limit_le := pageLimit_le

/-- The documents of a page. -/
def documentsOf (page : Projection.QueryResult) : List Json :=
  page.hits.filterMap fun hit =>
    (hit.record.bind fun r => r.get? "document").filter Projection.isMapping

/-- `_find_work_item`, among the documents read. -/
def findWorkItem (documents : List Json) (workItemId : String) : Option Json :=
  documents.find? fun d => (d.get? "work_item_id").bind JsonOf.str? = some workItemId

/-- `int(current["version"])` and `str(current["status"])`. -/
def seenOf (document : Json) : Except Projection.ProjectionExc Seen := do
  let version ← Projection.intOf (← Projection.item document "version")
  let status ← Projection.textAt document "status"
  return ⟨version, status⟩

/-! ### What the helpers come to -/

/-- How a helper fails: with a `WorkItemWriteError` of its own, for a query that is refused, or
for a proposal that is not committed; or with an exception from below. -/
inductive Failure where
  | refused (code : WriteCode)
  | queryInvalid (e : Projection.ProjectionExc)
  | notCommitted (receipt : Receipt)
  | reading (e : Projection.ProjectionExc)
  | kernel (e : PyExc)

/-- `query` of the service: a `TypeError` or a `ValueError` is an invalid query. -/
def queryFailure : Projection.ProjectionExc → Failure
  | .projectionError message => .reading (.projectionError message)
  | .keyError key => .reading (.keyError key)
  | .jsonDecodeError => .queryInvalid .jsonDecodeError
  | .typeError => .queryInvalid .typeError
  | .valueError message => .queryInvalid (.valueError message)

/-- What `progress` returns. -/
structure Progress where
  code : String
  workItemId : RecordId
  status : WorkItemStatus
  version : Int
  previousStatus : String
  blocker : Option (Bounded 1 4096)
  ledgerSequence : Option Nat
  stateRoot : String
  rebased : Bool

inductive Output where
  | item (workItemId : String)
  | progress (p : Progress)

/-- A helper at work, its arguments checked. -/
inductive Request where
  | handoff (h : HandoffRequest)
  | progress (r : StatusRequest)

/-- What a session brings to the kernel. -/
inductive Intent where
  | create (h : HandoffRequest)
  | update (r : StatusRequest) (seen : Seen) (attempt : Nat)

namespace Intent

def request : Intent → Request
  | create h => .handoff h
  | update r _ _ => .progress r

def proposal (reg : Registry) (root : Hash) (proposedAt updatedAt : String) : Intent → Json
  | create h => h.proposal reg root proposedAt
  | update r seen _ => r.proposal reg seen root proposedAt updatedAt

end Intent

/-! ### Sessions -/

/-- Where a session stands between two accesses to the database. -/
inductive Session where
  | out
  | finding (q : Request) (attempt : Nat) (documents : List Json) (offset : Nat)
  | rooting (intent : Intent) (reading : RootReading)
  | committing (intent : Intent) (proposal : Json)

/-- Where a session goes on, and what its helper comes to when that is the end. -/
structure Turn where
  session : Session
  ended : Option (Request × Except Failure Output)

namespace Turn

def goOn (session : Session) : Turn := ⟨session, none⟩

def done (q : Request) (result : Except Failure Output) : Turn := ⟨.out, some (q, result)⟩

end Turn

/-- `_MAX_REBASE_ATTEMPTS`. -/
def maxRebaseAttempts : Nat := 1

/-- All pages are read. -/
def Request.found (q : Request) (attempt : Nat) (documents : List Json) : Turn :=
  match q with
  | .handoff h =>
    if (findWorkItem documents h.workItemId).isSome then .done q (.ok (.item h.workItemId))
    else .goOn (.rooting (.create h) .start)
  | .progress r =>
    match findWorkItem documents r.workItemId with
    | none => .done q (.error (.refused .workItemNotFound))
    | some document =>
      match seenOf document with
      | .ok seen => .goOn (.rooting (.update r seen attempt) .start)
      | .error e => .done q (.error (.reading e))

/-- A page is read. -/
def Request.paged (q : Request) (attempt : Nat) (documents : List Json) (offset : Nat) :
    Except Projection.ProjectionExc Projection.QueryResult → Turn
  | .error e => .done q (.error (queryFailure e))
  | .ok page =>
    let documents := documents ++ documentsOf page
    if page.truncated then .goOn (.finding q attempt documents (offset + page.hits.length))
    else q.found attempt documents

/-- `ok` of `commit_proposal`. -/
def receiptOk (receipt : Receipt) : Bool :=
  receipt.outcome = Outcome.committed.text || receipt.outcome = Outcome.factConflict.text

namespace Intent

/-- What the helper returns for a proposal that is committed. -/
def output (receipt : Receipt) : Intent → Output
  | create h => .item h.workItemId
  | update r seen attempt => .progress {
      code := receipt.outcome
      workItemId := r.workItemId
      status := r.status
      version := seen.version + 1
      previousStatus := seen.status
      blocker := r.blocker
      ledgerSequence := receipt.ledgerSeq
      stateRoot := receipt.stateRoot
      rebased := decide (0 < attempt) }

/-- Whether the helper looks and proposes again for a proposal that is not committed. -/
def retries (receipt : Receipt) : Intent → Option (StatusRequest × Nat)
  | create _ => none
  | update r _ attempt =>
    if receipt.outcome ≠ Outcome.transactionConflict.text ∨ maxRebaseAttempts ≤ attempt then none
    else some (r, attempt + 1)

/-- The kernel has answered. -/
def answered (intent : Intent) : Result → Turn
  | .error e => .done intent.request (.error (.kernel e))
  | .ok receipt =>
    if receiptOk receipt then .done intent.request (.ok (intent.output receipt))
    else
      match intent.retries receipt with
      | some again => .goOn (.finding (.progress again.1) again.2 [] 0)
      | none => .done intent.request (.error (.notCommitted receipt))

end Intent

/-- The helper a session is in, while the database is read. -/
def Session.reads? : Session → Option Request
  | .finding q _ _ _ => some q
  | .rooting intent _ => some intent.request
  | _ => none

/-! ### Interleavings -/

/-- The kernel, and the session each connection serves. -/
structure World (ι : Type) where
  sys : Sys ι
  session : ι → Session

/-- What is seen of a step: an event of the kernel, and what a helper comes to. -/
structure Act (ι : Type) where
  conn : ι
  event : Option (Event ι)
  ended : Option (Request × Except Failure Output)

section

variable {ι : Type} [DecidableEq ι]

/-- The world with a session moved on. -/
def World.set (w : World ι) (sys : Sys ι) (i : ι) (session : Session) : World ι :=
  ⟨sys, Function.update w.session i session⟩

@[simp] theorem World.set_sys (w : World ι) (sys : Sys ι) (i : ι) (session : Session) :
    (w.set sys i session).sys = sys := rfl

theorem World.set_self (w : World ι) (sys : Sys ι) (i : ι) (session : Session) :
    (w.set sys i session).session i = session := by
  simp [World.set]

theorem World.set_of_ne (w : World ι) (sys : Sys ι) {i j : ι} (session : Session) (h : j ≠ i) :
    (w.set sys i session).session j = w.session j := by
  simp [World.set, h]

variable [Host]

/-- One step of one connection: of a caller that is in no session, or of a session.  A session
may also fail at any read of the database. -/
inductive Step (reg : Registry) (w : World ι) : Act ι → World ι → Prop
  | caller (i : ι) (ev : Event ι) (sys : Sys ι) : w.session i = .out → ev.conn = i →
      SharedMind.Step reg w.sys ev sys → Step reg w ⟨i, some ev, none⟩ (w.set sys i .out)
  | start (i : ι) (q : Request) : w.session i = .out → w.sys.phase i = .idle →
      Step reg w ⟨i, none, none⟩ (w.set w.sys i (.finding q 0 [] 0))
  | page (i : ι) (q : Request) (attempt offset : Nat) (documents : List Json) (turn : Turn) :
      w.session i = .finding q attempt documents offset →
      turn = q.paged attempt documents offset (Projection.query w.sys.db (pageSpec offset)) →
      Step reg w ⟨i, none, turn.ended⟩ (w.set w.sys i turn.session)
  | table (i : ι) (intent : Intent) (reading : RootReading) :
      w.session i = .rooting intent reading → reading.root? = none →
      Step reg w ⟨i, none, none⟩ (w.set w.sys i (.rooting intent (reading.next w.sys.db)))
  | ask (i : ι) (intent : Intent) (reading : RootReading) (root : Hash)
      (proposedAt updatedAt now : String) (proposal : Json) (sys : Sys ι) :
      w.session i = .rooting intent reading → reading.root? = some root →
      proposal = intent.proposal reg root proposedAt updatedAt →
      SharedMind.Step reg w.sys (.called i ⟨proposal.raw, now⟩) sys →
      Step reg w ⟨i, some (.called i ⟨proposal.raw, now⟩), none⟩
        (w.set sys i (.committing intent proposal))
  | silent (i : ι) (intent : Intent) (proposal : Json) (sys : Sys ι) :
      w.session i = .committing intent proposal → SharedMind.Step reg w.sys (.silent i) sys →
      Step reg w ⟨i, some (.silent i), none⟩ (w.set sys i (.committing intent proposal))
  | answer (i : ι) (intent : Intent) (proposal : Json) (c : Call) (result : Result) (turn : Turn)
      (sys : Sys ι) :
      w.session i = .committing intent proposal →
      SharedMind.Step reg w.sys (.ended i c result) sys → turn = intent.answered result →
      Step reg w ⟨i, some (.ended i c result), turn.ended⟩ (w.set sys i turn.session)
  | fail (i : ι) (q : Request) : (w.session i).reads? = some q →
      Step reg w ⟨i, none, some (q, .error (.kernel .operationalError))⟩ (w.set w.sys i .out)

/-- No connection is inside a call or a session. -/
def World.start (db : Db) : World ι := ⟨.start db, fun _ => .out⟩

/-- An interleaving with what is seen of it, in order, each step of which meets `P` on the world
before it. -/
inductive RunWhere (reg : Registry) (P : World ι → Act ι → Prop) (w : World ι) :
    List (Act ι) → World ι → Prop
  | nil : RunWhere reg P w [] w
  | snoc {acts : List (Act ι)} {v u : World ι} {act : Act ι} :
      RunWhere reg P w acts v → P v act → Step reg v act u → RunWhere reg P w (acts ++ [act]) u

/-- Any interleaving. -/
abbrev Run (reg : Registry) : World ι → List (Act ι) → World ι → Prop :=
  RunWhere reg fun _ _ => True

end

end SharedMind.Service
