import SharedMind.Contract.Text
import SharedMind.Gen.HashChain
import SharedMind.Kernel.StateRoot
import SharedMind.Py.JsonRoundTrip

/-!
# The product audit log

* `AuditCall`, `appendRow`: the arguments of `append_audit`, and its insert on a head that was
  read before.
* `appendAudit`: `append_audit` in a transaction, where nothing comes between the two.
* `verifyAudit`: `verify_audit`.
* `verifyAudit_valid_iff`: rows that were inserted verify exactly when they are a hash chain.
-/

namespace SharedMind.Product

open Py

/-! ### Rows -/

/-- The arguments of `append_audit`, and what `utc_now` answers it.  The payload is a dict. -/
structure AuditCall where
  eventType : String
  payload : List (String × Json)
  sorted : (JsonOf.obj payload).Sorted
  objectId : Option String
  occurredAt : Option String
  now : String

/-- `occurred_at or utc_now()`. -/
def AuditCall.timestamp (call : AuditCall) : String :=
  match call.occurredAt with
  | none => call.now
  | some t => if t = "" then call.now else t

/-- A row of `product_audit`, its payload the text that is stored. -/
structure AuditRow where
  seq : Nat
  prevHash : Option String
  eventHash : String
  eventType : String
  objectId : Option String
  occurredAt : String
  payload : String
  deriving DecidableEq

/-- The document an event hash is taken of. -/
def auditEvent (eventType : String) (objectId : Option String) (occurredAt : String)
    (payload : Json) (prevHash : Option String) : Json :=
  .obj [("event_type", .str eventType), ("object_id", optText objectId),
    ("occurred_at", .str occurredAt), ("payload", payload), ("prev_hash", optText prevHash)]

/-- `SELECT seq, event_hash FROM product_audit ORDER BY seq DESC LIMIT 1`. -/
def auditHead (audit : List AuditRow) : Option String := audit.getLast?.map AuditRow.eventHash

/-- The row a call inserts after a head.  Rows are never deleted, so `AUTOINCREMENT` counts them. -/
def auditRow (audit : List AuditRow) (prevHash : Option String) (call : AuditCall) : AuditRow where
  seq := audit.length + 1
  prevHash := prevHash
  eventHash := (sha256Json
    (auditEvent call.eventType call.objectId call.timestamp (.obj call.payload) prevHash)).text
  eventType := call.eventType
  objectId := call.objectId
  occurredAt := call.timestamp
  payload := (JsonOf.obj call.payload).dumps

/-- The insert of `append_audit`; `none` is the `IntegrityError` of a second equal event hash. -/
def appendRow (audit : List AuditRow) (prevHash : Option String) (call : AuditCall) :
    Option (List AuditRow) :=
  let row := auditRow audit prevHash call
  if row.eventHash ∈ audit.map AuditRow.eventHash then none else some (audit ++ [row])

/-- `append_audit`, with nothing between its two statements. -/
def appendAudit (audit : List AuditRow) (call : AuditCall) : Option (List AuditRow) :=
  appendRow audit (auditHead audit) call

theorem appendRow_eq_some {audit audit' : List AuditRow} {prevHash : Option String}
    {call : AuditCall} : appendRow audit prevHash call = some audit' ↔
      (auditRow audit prevHash call).eventHash ∉ audit.map AuditRow.eventHash ∧
        audit' = audit ++ [auditRow audit prevHash call] := by
  rw [appendRow]
  split
  · next h => simp [h]
  · next h => simp [h, eq_comm]

/-! ### Verifying -/

/-- What `verify_audit` returns. -/
inductive AuditVerdict where
  | valid (count : Nat) (headHash : Option String)
  | invalid (count : Nat) (firstInvalidSeq : Nat)
  deriving DecidableEq

/-- The loop of `verify_audit`; `none` when a payload does not load. -/
def verifyFrom (previous : Option String) (count : Nat) : List AuditRow → Option AuditVerdict
  | [] => some (.valid count previous)
  | row :: rows => do
    let payload ← loads row.payload
    let expected := sha256Json
      (auditEvent row.eventType row.objectId row.occurredAt payload previous)
    if row.prevHash ≠ previous ∨ row.eventHash ≠ expected.text then
      return .invalid count row.seq
    verifyFrom (some row.eventHash) (count + 1) rows

/-- `verify_audit`. -/
def verifyAudit (audit : List AuditRow) : Option AuditVerdict := verifyFrom none 0 audit

/-- Where a row keeps its place and its hashes. -/
def auditLinks : HashChain.Links AuditRow String where
  seq := AuditRow.seq
  prev := AuditRow.prevHash
  hash := AuditRow.eventHash

/-- The payload loads, and the event hash is that of the event after the hash the row names. -/
def AuditRow.Hashed (row : AuditRow) : Prop :=
  ∃ payload, loads row.payload = some payload ∧ row.eventHash =
    (sha256Json (auditEvent row.eventType row.objectId row.occurredAt payload row.prevHash)).text

/-- Rows in the order of `seq`, each of them hashed. -/
structure Inserted (audit : List AuditRow) : Prop where
  seq : audit.map AuditRow.seq = List.range' 1 audit.length
  hashed : ∀ row ∈ audit, row.Hashed

theorem auditRow_hashed (audit : List AuditRow) (prevHash : Option String) (call : AuditCall) :
    (auditRow audit prevHash call).Hashed :=
  ⟨_, loads_dumps call.sorted, rfl⟩

theorem inserted_nil : Inserted [] := ⟨rfl, by simp⟩

theorem Inserted.concat {audit : List AuditRow} (h : Inserted audit) (prevHash : Option String)
    (call : AuditCall) : Inserted (audit ++ [auditRow audit prevHash call]) := by
  refine ⟨?_, fun row hrow => ?_⟩
  · rw [List.map_append, h.seq, List.length_append, List.length_singleton, List.range'_concat]
    simp [auditRow, Nat.add_comm]
  · rcases List.mem_append.mp hrow with hrow | hrow
    · exact h.hashed row hrow
    · rw [List.mem_singleton.mp hrow]
      exact auditRow_hashed audit prevHash call

section

variable {previous : Option String} {count : Nat} {row : AuditRow} {rows audit : List AuditRow}

theorem verifyFrom_linked (h : row.Hashed) (hprev : row.prevHash = previous) :
    verifyFrom previous count (row :: rows) =
      verifyFrom (some row.eventHash) (count + 1) rows := by
  obtain ⟨payload, hload, hhash⟩ := h
  rw [hprev] at hhash
  rw [verifyFrom, hload]
  exact if_neg (by simp [hprev, hhash])

theorem verifyFrom_unlinked (h : row.Hashed) (hprev : row.prevHash ≠ previous) :
    verifyFrom previous count (row :: rows) = some (.invalid count row.seq) := by
  obtain ⟨payload, hload, -⟩ := h
  rw [verifyFrom, hload]
  exact if_pos (Or.inl hprev)

/-- The loop gets through the rows exactly when each names the hash before it. -/
theorem verifyFrom_valid_iff {start n : Nat} {headHash : Option String}
    (hseq : rows.map AuditRow.seq = List.range' start rows.length)
    (h : ∀ row ∈ rows, row.Hashed) :
    verifyFrom previous count rows = some (.valid n headHash) ↔
      HashChain.Chained auditLinks start previous rows ∧ n = count + rows.length ∧
        headHash = HashChain.head auditLinks previous rows := by
  induction rows generalizing previous count start with
  | nil => simp [verifyFrom, HashChain.Chained, HashChain.head, eq_comm]
  | cons row rows ih =>
    rw [List.map_cons, List.length_cons, List.range'_succ, List.cons.injEq] at hseq
    have hrow := h row List.mem_cons_self
    by_cases hprev : row.prevHash = previous
    · rw [verifyFrom_linked hrow hprev,
        ih hseq.2 fun row hrow => h row (List.mem_cons_of_mem _ hrow), HashChain.Chained,
        HashChain.head, List.length_cons]
      constructor
      · rintro ⟨hchain, hn, hhead⟩
        exact ⟨⟨hseq.1, hprev, hchain⟩, by omega, hhead⟩
      · rintro ⟨⟨_, _, hchain⟩, hn, hhead⟩
        exact ⟨hchain, by omega, hhead⟩
    · rw [verifyFrom_unlinked hrow hprev]
      refine iff_of_false (by simp) ?_
      rintro ⟨⟨_, hlink, _⟩, _⟩
      exact hprev hlink

theorem auditHead_eq : auditHead audit = HashChain.head auditLinks none audit :=
  (HashChain.head_eq_getLast? (L := auditLinks)).symm

/-- **When the log verifies.**  Inserted rows verify exactly when they are a hash chain, and
then every row is counted. -/
theorem verifyAudit_valid_iff (h : Inserted audit) :
    verifyAudit audit = some (.valid audit.length (auditHead audit)) ↔
      HashChain.Chained auditLinks 1 none audit := by
  rw [verifyAudit, verifyFrom_valid_iff h.seq h.hashed, auditHead_eq]
  simp

end

end SharedMind.Product
