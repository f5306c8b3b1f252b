import SharedMind.Kernel.System
import SharedMind.Kernel.Reducers
import SharedMind.Py.JsonRoundTrip

/-!
# What one step does to the database

A step accepts a proposal, writes a rejection receipt, or leaves the database as it
is (`Step.db_cases`).  `Accepts` and `Rejects` say all there is to know about the
first two, so that a proof about runs looks at nothing below them.
-/

namespace SharedMind

open Py

variable {reg : Registry} {c : Call} {db db' : Db} {hash : Hash} {value : Json}
  {receipt : Receipt}

theorem contractProposal_eq_ok {p : Proposal} :
    contractProposal reg value = .ok p ↔ value = Proposal.codec.enc p := by
  rw [← Proposal.codec.dec_eq_some_iff]
  unfold contractProposal
  cases hp : Proposal.codec.dec value with
  | some q => simp
  | none =>
    cases LedgerEntry.codec.dec value with
    | some entry => simp
    | none => by_cases hc : isContractObject value = true <;> simp [hc]

/-- The database after an acceptance. -/
def Evaluation.accept (e : Evaluation) (db : Db) (row : ReceiptRow) : Db :=
  { e.apply db with receipts := db.receipts ++ [row] }

@[simp] theorem Evaluation.accept_tables (e : Evaluation) (row : ReceiptRow) :
    (e.accept db row).tables = e.txn.tables := rfl

@[simp] theorem Evaluation.accept_ledger (e : Evaluation) (row : ReceiptRow) :
    (e.accept db row).ledger = db.ledger ++ [e.row] := rfl

@[simp] theorem Evaluation.accept_receipts (e : Evaluation) (row : ReceiptRow) :
    (e.accept db row).receipts = db.receipts ++ [row] := rfl

@[simp] theorem Evaluation.accept_legacyReceiptPin (e : Evaluation) (row : ReceiptRow) :
    (e.accept db row).legacyReceiptPin = db.legacyReceiptPin := rfl

theorem handle_db {head : Option String} {e : PyExc} :
    (Phase.handle c db hash head e).db = db := by
  unfold Phase.handle
  split <;> rfl

variable [Host]

/-! ### The functions of a commit -/

theorem insertReceipt_eq_ok {input : ReceiptInput} :
    insertReceipt c db input = .ok (receipt, db') ↔
      ∃ row, receiptRow c db input = .ok row ∧ rowToReceipt row = .ok receipt ∧
      db' = { db with receipts := db.receipts ++ [row] } := by
  simp only [insertReceipt, bind_eq_ok, pure_eq_ok, Prod.mk.injEq]
  constructor
  · rintro ⟨row, hrow, r, hr, rfl, rfl⟩
    exact ⟨row, hrow, hr, rfl⟩
  · rintro ⟨row, hrow, hr, rfl⟩
    exact ⟨row, hrow, receipt, hr, rfl, rfl⟩

theorem evaluate_eq_ok {e : Evaluation} :
    evaluate reg db value hash = .ok e ↔
      value = Proposal.codec.enc e.proposal ∧
      validateProposal reg db.tables e.proposal = .ok () ∧
      applyOperations reg e.proposal.proposer (nextLedgerSeq db.ledger) db.tables
        e.proposal.operations.1 = .ok e.txn ∧
      e.parts = entryParts db e.proposal hash e.txn ∧
      e.row = ledgerRow e.parts value e.proposal.proposalId ∧
      (LedgerEntry.codec.dec (ledgerDocument e.parts (sha256Json (ledgerEnvelope e.parts))
        e.proposal.proposalId)).isSome = true ∧
      e.parts.seq ≤ maxRowId ∧ ∀ r ∈ db.ledger, r.entryHash ≠ e.row.entryHash := by
  simp only [evaluate, bind_eq_ok, pure_eq_ok, ensure_eq_ok, contractProposal_eq_ok]
  constructor
  · rintro ⟨p, hp, _, hv, w, hw, _, hd, _, hs, _, hu, rfl⟩
    exact ⟨hp, hv, hw, rfl, rfl, hd, hs, hu⟩
  · obtain ⟨p, w, parts, row⟩ := e
    rintro ⟨hp, hv, hw, hparts, hrow, hd, hs, hu⟩
    dsimp only at hp hv hw hparts hrow hd hs hu
    subst hparts hrow
    exact ⟨p, hp, (), hv, w, hw, (), hd, (), hs, (), hu, rfl⟩

/-! ### Accepting and rejecting -/

/-- The call's proposal is applied: no receipt has its key, it passes every check, and
its entry and its receipt are appended. -/
structure Accepts (reg : Registry) (c : Call) (hash : Hash) (value : Json) (db : Db)
    (e : Evaluation) (row : ReceiptRow) : Prop where
  first : ∃ key, columnText c.idempotencyKey = .ok key ∧ prior? db.receipts key = none
  evaluated : evaluate reg db value hash = .ok e
  receipted : receiptRow c (e.apply db) (e.receiptInput hash) = .ok row

theorem transaction_accepted :
    transaction reg c db hash value = .ok (.accepted receipt db') ↔
      ∃ e row, Accepts reg c hash value db e row ∧ rowToReceipt row = .ok receipt ∧
        db' = e.accept db row := by
  rw [transaction, bind_eq_ok]
  constructor
  · rintro ⟨key, hkey, h⟩
    cases hp : prior? db.receipts key with
    | some r =>
      simp only [hp] at h
      split at h
      · cases h
      · obtain ⟨_, _, h⟩ := bind_eq_ok.mp h
        cases h
    | none =>
      simp only [hp, bind_eq_ok, pure_eq_ok, Prod.exists] at h
      obtain ⟨e, he, r, d, hr, h⟩ := h
      obtain ⟨row, hrow, hrec, rfl⟩ := insertReceipt_eq_ok.mp hr
      cases h
      exact ⟨e, row, ⟨⟨key, hkey, hp⟩, he, hrow⟩, hrec, rfl⟩
  · rintro ⟨e, row, ⟨⟨key, hkey, hp⟩, he, hrow⟩, hrec, rfl⟩
    refine ⟨key, hkey, ?_⟩
    simp only [hp, bind_eq_ok, pure_eq_ok, Prod.exists]
    exact ⟨e, he, receipt, _, insertReceipt_eq_ok.mpr ⟨row, hrow, hrec, rfl⟩, rfl⟩

/-- A rejection receipt is appended, with the head and the root it was given. -/
def Rejects (c : Call) (r : Rejection) (head : Option String) (root : Hash) (db : Db)
    (row : ReceiptRow) : Prop :=
  receiptRow c db (r.input head root) = .ok row

/-- The database after a receipt is appended. -/
def Db.addReceipt (db : Db) (row : ReceiptRow) : Db := { db with receipts := db.receipts ++ [row] }

/-! ### Steps -/

variable {m : Move} {p : Phase}

/-- What the next step of a connection does to the database: it accepts a proposal or
writes a rejection receipt, and the call returns, or it leaves the database as it is. -/
theorem Phase.advance_db (h : p.advance reg db = some m) :
    m.db = db ∨
    (∃ c hash value e row receipt, p = .ready c hash value ∧ Accepts reg c hash value db e row ∧
      rowToReceipt row = .ok receipt ∧ m = ⟨e.accept db row, .idle, some (.ok receipt)⟩) ∨
    (∃ c pending reading root row receipt, p = .rejecting c pending reading ∧
      reading.root? = some root ∧ Rejects c pending.rejection pending.head root db row ∧
      rowToReceipt row = .ok receipt ∧ m = ⟨db.addReceipt row, .idle, some (.ok receipt)⟩) := by
  cases p with
  | idle => exact nomatch h
  | begun c =>
    left
    simp only [Phase.advance] at h
    split at h <;> (cases h; rfl)
  | ready c hash value =>
    simp only [Phase.advance] at h
    split at h
    · cases h; exact Or.inl rfl
    · next receipt db' ht =>
      cases h
      obtain ⟨e, row, hacc, hrec, rfl⟩ := transaction_accepted.mp ht
      exact Or.inr (Or.inl ⟨c, hash, value, e, row, receipt, rfl, hacc, hrec, rfl⟩)
    · cases h; exact Or.inl rfl
    · cases h; exact Or.inl handle_db
  | rejecting c pending reading =>
    simp only [Phase.advance] at h
    split at h
    · cases h; exact Or.inl rfl
    · next root hroot =>
      split at h
      · next receipt db' hi =>
        cases h
        obtain ⟨row, hrow, hrec, rfl⟩ := insertReceipt_eq_ok.mp hi
        exact Or.inr (Or.inr ⟨c, pending, reading, root, row, receipt, rfl, hroot, hrow, hrec, rfl⟩)
      · cases h; exact Or.inl rfl
      · cases h; exact Or.inl handle_db

section

variable {ι : Type} [DecidableEq ι] {s u : Sys ι} {ev : Event ι}

/-- A step that accepts the proposal of connection `i`. -/
structure Step.Accepting (reg : Registry) (s : Sys ι) (ev : Event ι) (u : Sys ι) (i : ι) (c : Call)
    (hash : Hash) (value : Json) (e : Evaluation) (row : ReceiptRow) : Prop where
  phase : s.phase i = .ready c hash value
  accepts : Accepts reg c hash value s.db e row
  after : u = ⟨e.accept s.db row, Function.update s.phase i .idle⟩
  ended : ∃ receipt, rowToReceipt row = .ok receipt ∧ ev = .ended i c (.ok receipt)

/-- A step that writes a rejection receipt of connection `i`. -/
structure Step.Rejecting (s : Sys ι) (ev : Event ι) (u : Sys ι) (i : ι) (c : Call)
    (pending : Pending) (reading : RootReading) (root : Hash) (row : ReceiptRow) : Prop where
  phase : s.phase i = .rejecting c pending reading
  read : reading.root? = some root
  rejects : Rejects c pending.rejection pending.head root s.db row
  after : u = ⟨s.db.addReceipt row, Function.update s.phase i .idle⟩
  ended : ∃ receipt, rowToReceipt row = .ok receipt ∧ ev = .ended i c (.ok receipt)

/-- A step accepts a proposal, writes a rejection receipt, or leaves the database as
it is. -/
theorem Step.db_cases (h : Step reg s ev u) :
    u.db = s.db ∨ (∃ i c hash value e row, Step.Accepting reg s ev u i c hash value e row) ∨
      (∃ i c pending reading root row, Step.Rejecting s ev u i c pending reading root row) := by
  cases h with
  | call i c hi => exact Or.inl rfl
  | fail i c hi => exact Or.inl rfl
  | move i m hm hr =>
    rcases Phase.advance_db hm with h | ⟨_, _, _, _, _, _, _, _, _, rfl⟩ |
        ⟨_, _, _, _, _, _, _, _, _, _, rfl⟩
    · exact Or.inl h
    · exact nomatch hr
    · exact nomatch hr
  | finish i c m result hm hr hc =>
    rcases Phase.advance_db hm with h | ⟨c', hash, value, e, row, receipt, hp, hacc, hrec, rfl⟩ |
        ⟨c', pending, reading, root, row, receipt, hp, hroot, hrej, hrec, rfl⟩
    · exact Or.inl h
    · obtain rfl := Option.some.inj hr
      rw [hp] at hc
      obtain rfl := Option.some.inj hc
      exact Or.inr (Or.inl ⟨i, c', hash, value, e, row, hp, hacc, rfl, receipt, hrec, rfl⟩)
    · obtain rfl := Option.some.inj hr
      rw [hp] at hc
      obtain rfl := Option.some.inj hc
      exact Or.inr (Or.inr ⟨i, c', pending, reading, root, row, hp, hroot, hrej, rfl, receipt, hrec,
        rfl⟩)

/-- The proposal is appended to the ledger. -/
def Commits (db db' : Db) (p : Proposal) : Prop :=
  ∃ row, db'.ledger = db.ledger ++ [row] ∧ row.proposal = (Proposal.codec.enc p).dumps

/-- A step that appends a proposal to the ledger accepts it. -/
theorem Step.accepts_of_commits (h : Step reg s ev u) {p : Proposal} (hp : Commits s.db u.db p) :
    ∃ i c hash value e row, s.phase i = .ready c hash value ∧
      Accepts reg c hash value s.db e row ∧ e.proposal = p ∧ u.db = e.accept s.db row := by
  obtain ⟨row, hledger, htext⟩ := hp
  have hne : u.db.ledger ≠ s.db.ledger := by
    rw [hledger]
    simp
  rcases h.db_cases with h | ⟨i, c, hash, value, e, r, hphase, hacc, hafter, _⟩ |
      ⟨_, _, _, _, _, _, _, _, _, hafter, _⟩
  · exact absurd (congrArg Db.ledger h) hne
  · have hdb := congrArg Sys.db hafter
    refine ⟨i, c, hash, value, e, r, hphase, hacc, ?_, hdb⟩
    obtain ⟨hvalue, _, _, hparts, hrow, _⟩ := evaluate_eq_ok.mp hacc.evaluated
    rw [hdb, Evaluation.accept_ledger] at hledger
    have heq : e.row = row := List.singleton_injective (List.append_cancel_left hledger)
    rw [← heq, hrow] at htext
    have hdumps : value.dumps = (Proposal.codec.enc p).dumps := htext
    rw [hvalue] at hdumps
    exact Proposal.codec.enc_injective
      (dumps_injective (Proposal.codec.sorted _) (Proposal.codec.sorted _) hdumps)
  · exact absurd (congrArg (fun u => u.db.ledger) hafter) hne

/-- What every step preserves holds after every run. -/
theorem RunWhere.inv {P : Sys ι → Event ι → Prop} {Q : Sys ι → Prop} {es : List (Event ι)}
    (hrun : RunWhere reg P s es u) (h0 : Q s)
    (hstep : ∀ s ev u, P s ev → Q s → Step reg s ev u → Q u) : Q u := by
  induction hrun with
  | nil => exact h0
  | snoc _ hp hs ih => exact hstep _ _ _ hp ih hs

end

end SharedMind
