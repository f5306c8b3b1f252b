import SharedMind.Product.Store

/-!
# Connections on one product store

Any number of connections, each inside a call of `commit_product_proposal`.  A transaction is one
step; so is each `SELECT` outside one.

* `Phase`, `advance`: where a connection stands, and its next step.
* `Step`, `Run`: the interleavings, with what other operations do to the other tables.
* `PhaseOk`, `Run.phaseOk`: what a connection knows where it stands.
-/

namespace SharedMind.Product

open Py

/-! ### A connection -/

/-- A call: the proposal, a dict of strings that encode, and what `utc_now` answers. -/
structure ProductCall where
  document : Json
  sorted : document.Sorted
  now : String

/-- The rows a connection has read, by table. -/
abbrev RowsRead := ProductTable → List Json

inductive Phase where
  | idle
  /-- `product_state_hash`, with the tables that are left to read. -/
  | hashing (c : ProductCall) (rows : RowsRead) (left : List ProductTable)
  /-- The proposal is valid; its key is looked up next. -/
  | hashed (c : ProductCall) (p : ProductProposal) (rows : RowsRead)
  /-- The transaction is next. -/
  | ready (c : ProductCall) (p : ProductProposal) (rows : RowsRead)
  /-- `_persist_product_rejection`, which looks the key up again. -/
  | rejecting (c : ProductCall) (p : ProductProposal) (rows : RowsRead) (reason : ProductReason)
  | persisting (c : ProductCall) (p : ProductProposal) (receipt : ProductReceipt)

/-- What a call raises. -/
inductive CallExc where
  | proposalInvalid
  | raised (e : StoreExc)
  | operationalError

abbrev Result := Except CallExc ProductReceipt

/-- The state after a step of a connection, and the result when the call ends. -/
structure Move where
  db : ProductDb
  phase : Phase
  result : Option Result

/-- The outcome of the receipt for a `ProductStoreError`. -/
def rejectionOutcome : ProductReason → ProductOutcome
  | .skillVersionMismatch | .skillStatusMismatch | .stateHashMismatch => .transactionConflict
  | _ => .validationError

/-- The answer to another proposal under a used key. -/
def keyReuseReceipt (prior : ProductReceipt) (before : Hash) : ProductReceipt :=
  { prior with
    outcome := .validationError
    reason := some .idempotencyKeyReuse
    productStateHashBefore := before
    productStateHashAfter := before }

namespace Phase

def call? : Phase → Option ProductCall
  | idle => none
  | hashing c _ _ | hashed c _ _ | ready c _ _ | rejecting c _ _ _ | persisting c _ _ => some c

/-- The next step of a connection inside a call. -/
def advance (db : ProductDb) : Phase → Option Move
  | .idle => none
  | .hashing c rows (table :: left) =>
    some ⟨db, .hashing c (Function.update rows table (db.tables.rows table)) left, none⟩
  | .hashing c rows [] =>
    match ProductProposal.codec.dec c.document with
    | none => some ⟨db, .idle, some (.error .proposalInvalid)⟩
    | some p => some ⟨db, .hashed c p rows, none⟩
  | .hashed c p rows =>
    match receiptByKey db p.idempotencyKey with
    | some prior =>
      if prior.proposalHash = p.hash then some ⟨db, .idle, some (.ok prior)⟩
      else some ⟨db, .idle, some (.ok (keyReuseReceipt prior (productStateHash rows)))⟩
    | none =>
      if ∀ expected ∈ p.expectedProductStateHash, expected = productStateHash rows then
        some ⟨db, .ready c p rows, none⟩
      else some ⟨db, .rejecting c p rows .stateHashMismatch, none⟩
  | .ready c p rows =>
    match commitTransaction c.now p (productStateHash rows) db with
    | .ok (receipt, db') => some ⟨db', .idle, some (.ok receipt)⟩
    | .error (.store reason) => some ⟨db, .rejecting c p rows reason, none⟩
    | .error e => some ⟨db, .idle, some (.error (.raised e))⟩
  | .rejecting c p rows reason =>
    match receiptByKey db p.idempotencyKey with
    | some prior => some ⟨db, .idle, some (.ok prior)⟩
    | none =>
      let before := productStateHash rows
      let receipt := productReceipt p (rejectionOutcome reason) (some reason) before before
      some ⟨db, .persisting c p receipt, none⟩
  | .persisting _ p receipt =>
    match rejectTransaction p receipt db with
    | .ok db' => some ⟨db', .idle, some (.ok receipt)⟩
    | .error e => some ⟨db, .idle, some (.error (.raised e))⟩

end Phase

/-! ### Interleavings -/

/-- The store and where each connection stands. -/
structure Sys (ι : Type) where
  db : ProductDb
  phase : ι → Phase

/-- A call, a step inside it, its end, or another operation of the product layer. -/
inductive Event (ι : Type) where
  | called (i : ι) (c : ProductCall)
  | silent (i : ι)
  | ended (i : ι) (c : ProductCall) (result : Result)
  | others

section

variable {ι : Type} [DecidableEq ι]

/-- One step of one connection.  A call may also raise, with its transaction rolled back, as one
does that waits too long for the lock.  What stages drafts or builds views and indexes writes the
other tables and leaves skills, proposals and receipts alone. -/
inductive Step (s : Sys ι) : Event ι → Sys ι → Prop
  | call (i : ι) (c : ProductCall) : s.phase i = .idle →
      Step s (.called i c)
        ⟨s.db, Function.update s.phase i (.hashing c (fun _ => []) ProductTable.all)⟩
  | move (i : ι) (m : Move) : (s.phase i).advance s.db = some m → m.result = none →
      Step s (.silent i) ⟨m.db, Function.update s.phase i m.phase⟩
  | finish (i : ι) (c : ProductCall) (m : Move) (result : Result) :
      (s.phase i).advance s.db = some m → m.result = some result → (s.phase i).call? = some c →
      Step s (.ended i c result) ⟨m.db, Function.update s.phase i m.phase⟩
  | fail (i : ι) (c : ProductCall) : (s.phase i).call? = some c →
      Step s (.ended i c (.error .operationalError)) ⟨s.db, Function.update s.phase i .idle⟩
  | others (tables : OtherTable → List Json) :
      Step s .others ⟨{ s.db with tables := { s.db.tables with others := tables } }, s.phase⟩

/-- A step that was taken. -/
structure Taken (ι : Type) where
  before : Sys ι
  event : Event ι
  after : Sys ι

/-- No connection is inside a call, and nothing is stored. -/
def Sys.start : Sys ι := ⟨.empty, fun _ => .idle⟩

/-- An interleaving, with its steps in order. -/
inductive Run : List (Taken ι) → Sys ι → Prop
  | nil : Run [] .start
  | snoc {steps : List (Taken ι)} {s t : Sys ι} {e : Event ι} (run : Run steps s)
      (h : Step s e t) : Run (steps ++ [⟨s, e, t⟩]) t

end

/-! ### What a connection knows -/

/-- The proposal is the one the call was given, and the check against the rows was passed. -/
def PhaseOk : Phase → Prop
  | .hashed c p _ | .rejecting c p _ _ => ProductProposal.codec.dec c.document = some p
  | .ready c p rows => ProductProposal.codec.dec c.document = some p ∧
      ∀ expected ∈ p.expectedProductStateHash, expected = productStateHash rows
  | .persisting c p receipt => ProductProposal.codec.dec c.document = some p ∧
      receipt.outcome ≠ .committed ∧ receipt.proposalHash = p.hash
  | _ => True

theorem hash_of_dec {c : ProductCall} {p : ProductProposal}
    (h : ProductProposal.codec.dec c.document = some p) : p.hash = sha256Json c.document := by
  rw [ProductProposal.hash, ProductProposal.codec.enc_dec h]

theorem rejectionOutcome_ne (reason : ProductReason) : rejectionOutcome reason ≠ .committed := by
  cases reason <;> decide

/-- What a step of a connection is, by where it stands. -/
theorem advance_phaseOk {db : ProductDb} {phase : Phase} {m : Move}
    (h : phase.advance db = some m) (hok : PhaseOk phase) : PhaseOk m.phase := by
  cases phase with
  | idle => exact nomatch h
  | hashing c rows left =>
    cases left with
    | cons table left =>
      obtain rfl := Option.some.inj h
      trivial
    | nil =>
      simp only [Phase.advance] at h
      split at h
      · obtain rfl := Option.some.inj h
        trivial
      · next p hp =>
        obtain rfl := Option.some.inj h
        exact hp
  | hashed c p rows =>
    simp only [Phase.advance] at h
    split at h
    · split at h <;> (obtain rfl := Option.some.inj h; trivial)
    · split at h
      · next hexpected =>
        obtain rfl := Option.some.inj h
        exact ⟨hok, hexpected⟩
      · obtain rfl := Option.some.inj h
        exact hok
  | ready c p rows =>
    simp only [Phase.advance] at h
    split at h
    · obtain rfl := Option.some.inj h
      trivial
    · obtain rfl := Option.some.inj h
      exact hok.1
    · obtain rfl := Option.some.inj h
      trivial
  | rejecting c p rows reason =>
    simp only [Phase.advance] at h
    split at h
    · obtain rfl := Option.some.inj h
      trivial
    · obtain rfl := Option.some.inj h
      exact ⟨hok, rejectionOutcome_ne reason, rfl⟩
  | persisting c p receipt =>
    simp only [Phase.advance] at h
    split at h <;> (obtain rfl := Option.some.inj h; trivial)

section

variable {ι : Type} [DecidableEq ι]

theorem Step.phaseOk {s t : Sys ι} {e : Event ι} (h : Step s e t)
    (hok : ∀ i, PhaseOk (s.phase i)) : ∀ i, PhaseOk (t.phase i) := by
  have hupdate : ∀ (i : ι) (phase : Phase), PhaseOk phase →
      ∀ j, PhaseOk (Function.update s.phase i phase j) := by
    intro i phase hphase j
    by_cases hj : j = i
    · rw [hj, Function.update_self]
      exact hphase
    · rw [Function.update_of_ne hj]
      exact hok j
  cases h with
  | call i c _ => exact hupdate i _ trivial
  | move i m h _ => exact hupdate i _ (advance_phaseOk h (hok i))
  | finish i c m result h _ _ => exact hupdate i _ (advance_phaseOk h (hok i))
  | fail i c _ => exact hupdate i _ trivial
  | others tables => exact hok

/-- Every connection of a run knows what it should. -/
theorem Run.phaseOk {steps : List (Taken ι)} {s : Sys ι} (run : Run steps s) :
    ∀ i, PhaseOk (s.phase i) := by
  induction run with
  | nil => exact fun _ => trivial
  | snoc run h ih => exact h.phaseOk ih

end

end SharedMind.Product
