import SharedMind.Kernel.Commit

/-!
# Connections on one database

Any number of connections, each inside a call of `commit`.  A transaction is one
step; so is each read outside one, and between two steps of a connection the others
may take theirs.

* `Phase`, `advance`: where a connection stands, and its next step.
* `Step`, `Run`: the interleavings, with the calls and results in order.
* `DbStep`: what a step can do to the database.
-/

namespace SharedMind

open Py

variable [Host]

/-! ### Reading a state root outside a transaction -/

/-- The tables `_state_root_for_schema` reads. -/
inductive StateTable where
  | sources
  | claims
  | evidence
  | conflicts
  | decisionRecords
  | openQuestions
  | workItems
  deriving DecidableEq

namespace StateTable

/-- In the order of the reads.  Schema 1.0.0 hashes the first four only. -/
def all : List StateTable :=
  [sources, claims, evidence, conflicts, decisionRecords, openQuestions, workItems]

/-- Read one table of `t` into `into`. -/
def read (k : StateTable) (t into : Tables) : Tables :=
  match k with
  | sources => { into with sources := t.sources }
  | claims => { into with claims := t.claims }
  | evidence => { into with evidence := t.evidence }
  | conflicts => { into with conflicts := t.conflicts }
  | decisionRecords => { into with decisionRecords := t.decisionRecords }
  | openQuestions => { into with openQuestions := t.openQuestions }
  | workItems => { into with workItems := t.workItems }

end StateTable

/-- `state_root` under way: the schema of the head once it is read, the tables read
so far, and those to read. -/
structure RootReading where
  schema : Option String
  tables : Tables
  left : List StateTable

namespace RootReading

def start : RootReading := ⟨none, .empty, StateTable.all⟩

/-- The root, once everything is read. -/
def root? (r : RootReading) : Option Hash :=
  match r.schema, r.left with
  | some schema, [] => some (stateRootForSchema schema r.tables)
  | _, _ => none

/-- The next read. -/
def next (r : RootReading) (db : Db) : RootReading :=
  match r.schema, r.left with
  | none, _ => { r with schema := some (headSchema db.ledger) }
  | some _, k :: ks => { r with tables := k.read db.tables r.tables, left := ks }
  | some _, [] => r

end RootReading

/-! ### A connection -/

/-- A rejection receipt to be written.  `retried` is the proposal's hash when the
receipt is written inside the `try` of `_commit`, so that its failure is handled. -/
structure Pending where
  rejection : Rejection
  head : Option String
  retried : Option Hash

inductive Phase where
  | idle
  | begun (c : Call)
  | ready (c : Call) (proposalHash : Hash) (value : Json)
  | rejecting (c : Call) (pending : Pending) (reading : RootReading)

/-- What a call comes to. -/
abbrev Result := Except PyExc Receipt

/-- The state after a step of a connection, and the result when the call ends. -/
structure Move where
  db : Db
  phase : Phase
  result : Option Result

namespace Phase

def call? : Phase → Option Call
  | idle => none
  | begun c => some c
  | ready c _ _ => some c
  | rejecting c _ _ => some c

/-- Read the state root for a rejection receipt. -/
def startReject (c : Call) (r : Rejection) (head : Option String) (retried : Option Hash) : Phase :=
  .rejecting c ⟨r, head, retried⟩ .start

/-- An exception inside the `try`: a rejection receipt, or raised again. -/
def handle (c : Call) (db : Db) (proposalHash : Hash) (head : Option String) (e : PyExc) : Move :=
  match rejectionOf c proposalHash e with
  | some r => ⟨db, startReject c r head none, none⟩
  | none => ⟨db, .idle, some (.error e)⟩

/-- The next step of a connection inside a call. -/
def advance (reg : Registry) (db : Db) : Phase → Option Move
  | .idle => none
  | .begun c =>
    match preflight c with
    | .error e => some ⟨db, .idle, some (.error e)⟩
    | .ok (.refuse r) => some ⟨db, startReject c r (headEntryHash db.ledger) none, none⟩
    | .ok (.evaluate hash value) => some ⟨db, .ready c hash value, none⟩
  | .ready c hash value =>
    match transaction reg c db hash value with
    | .ok (.replayed receipt) => some ⟨db, .idle, some (.ok receipt)⟩
    | .ok (.accepted receipt db') => some ⟨db', .idle, some (.ok receipt)⟩
    | .ok .keyReuse =>
      some ⟨db, startReject c (keyReuseRejection c hash) (headEntryHash db.ledger) (some hash), none⟩
    | .error e => some (handle c db hash (headEntryHash db.ledger) e)
  | .rejecting c pending reading =>
    match reading.root? with
    | none => some ⟨db, .rejecting c pending (reading.next db), none⟩
    | some root =>
      match insertReceipt c db (pending.rejection.input pending.head root), pending.retried with
      | .ok (receipt, db'), _ => some ⟨db', .idle, some (.ok receipt)⟩
      | .error e, none => some ⟨db, .idle, some (.error e)⟩
      | .error e, some hash => some (handle c db hash pending.head e)

end Phase

/-! ### Interleavings -/

/-- The database and where each connection stands. -/
structure Sys (ι : Type) where
  db : Db
  phase : ι → Phase

/-- What a caller sees: a call, and later its result. -/
inductive Event (ι : Type) where
  | called (i : ι) (c : Call)
  | silent (i : ι)
  | ended (i : ι) (c : Call) (result : Result)

section

variable {ι : Type} [DecidableEq ι]

/-- One step of one connection.  A connection may also fail outside a transaction,
as one does that waits too long for the lock. -/
inductive Step (reg : Registry) (s : Sys ι) : Event ι → Sys ι → Prop
  | call (i : ι) (c : Call) : s.phase i = .idle →
      Step reg s (.called i c) ⟨s.db, Function.update s.phase i (.begun c)⟩
  | move (i : ι) (m : Move) : (s.phase i).advance reg s.db = some m → m.result = none →
      Step reg s (.silent i) ⟨m.db, Function.update s.phase i m.phase⟩
  | finish (i : ι) (c : Call) (m : Move) (result : Result) :
      (s.phase i).advance reg s.db = some m → m.result = some result →
      (s.phase i).call? = some c →
      Step reg s (.ended i c result) ⟨m.db, Function.update s.phase i m.phase⟩
  | fail (i : ι) (c : Call) : (s.phase i).call? = some c →
      Step reg s (.ended i c (.error .operationalError))
        ⟨s.db, Function.update s.phase i .idle⟩

/-- No connection is inside a call. -/
def Sys.start (db : Db) : Sys ι := ⟨db, fun _ => .idle⟩

/-- An interleaving from `s` with its events in order, each step of which meets `P`
on the state before it. -/
inductive RunWhere (reg : Registry) (P : Sys ι → Event ι → Prop) (s : Sys ι) :
    List (Event ι) → Sys ι → Prop
  | nil : RunWhere reg P s [] s
  | snoc {es : List (Event ι)} {t u : Sys ι} {e : Event ι} :
      RunWhere reg P s es t → P t e → Step reg t e u → RunWhere reg P s (es ++ [e]) u

theorem RunWhere.trans {reg : Registry} {P : Sys ι → Event ι → Prop} {s t u : Sys ι}
    {es es' : List (Event ι)} (h : RunWhere reg P s es t) (h' : RunWhere reg P t es' u) :
    RunWhere reg P s (es ++ es') u := by
  induction h' with
  | nil => rwa [List.append_nil]
  | snoc _ hp hs ih => exact List.append_assoc _ _ _ ▸ ih.snoc hp hs

/-- Any interleaving. -/
abbrev Run (reg : Registry) : Sys ι → List (Event ι) → Sys ι → Prop :=
  RunWhere reg fun _ _ => True

end

end SharedMind
