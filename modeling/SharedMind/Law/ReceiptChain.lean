import SharedMind.Kernel.Audit
import SharedMind.Kernel.Phases
import SharedMind.Law.LedgerChain

/-!
# What `commit` writes, the verifier accepts

* `Verifiable`: the three passes report nothing, the receipts end at the head of the
  ledger, and the root of the head is that of the tables.
* `Verifiable.accept`, `Verifiable.reject`: an acceptance keeps it, and so does a
  rejection receipt that names the head and its root.
* `verified_after_calls`: the law for one connection.
-/

namespace SharedMind

open Py HashChain

/-! ### Receipts in order -/

/-- The head after some receipts. -/
def receiptHead (db : Db) (head : Option String) (rows : List ReceiptRow) : Option String :=
  rows.foldl (fun h r => (verifyReceipt db h r).2) head

theorem verifyReceiptsFrom_append {db : Db} {head : Option String} {rows later : List ReceiptRow} :
    verifyReceiptsFrom db head (rows ++ later) =
      verifyReceiptsFrom db head rows ++ verifyReceiptsFrom db (receiptHead db head rows) later := by
  induction rows generalizing head with
  | nil => rfl
  | cons r rows ih =>
    simp only [List.cons_append, verifyReceiptsFrom, ih, List.append_assoc]
    rfl

theorem KnownHead.verifyReceipt {db : Db} {head : Option String} (h : KnownHead db head)
    (row : ReceiptRow) : KnownHead db (verifyReceipt db head row).2 := by
  have hentry : ∀ {seq : ℕ} {r : LedgerRow}, ledgerRow? db seq = some r →
      KnownHead db (some r.entryHash) := by
    intro seq r hr x hx
    exact ⟨r, List.mem_of_find?_eq_some hr, Option.some.inj hx⟩
  unfold SharedMind.verifyReceipt
  split
  · exact h
  · next seq _ _ =>
    split
    · exact h
    · next r hr =>
      split
      · exact hentry hr
      · exact hentry hr
      · exact h
  · split <;> exact h
  · split
    · exact h
    · split
      · exact h
      · next r hr =>
        split
        · exact hentry hr
        · split
          · exact h
          · exact hentry hr

/-- What a later state of the database must keep for the receipts of an earlier one to
verify in it. -/
structure Db.Continues (db db' : Db) : Prop where
  rows : ∀ seq r, ledgerRow? db seq = some r → ledgerRow? db' seq = some r
  roots : ∀ head, KnownHead db head → stateRootByHead db' head = stateRootByHead db head
  pin : db'.legacyReceiptPin = db.legacyReceiptPin

theorem Db.Continues.verifyReceipt {db db' : Db} (h : db.Continues db') {head : Option String}
    (hknown : KnownHead db head) {row : ReceiptRow} (hrow : (verifyReceipt db head row).1 = true) :
    verifyReceipt db' head row = verifyReceipt db head row := by
  have hroot := h.roots head hknown
  cases hdoc : row.document with
  | none =>
    cases hseq : row.ledgerSeq with
    | none =>
      simp only [SharedMind.verifyReceipt, hdoc, hseq, legacyRejectedMatches, h.pin, hroot]
    | some seq =>
      simp only [SharedMind.verifyReceipt, hdoc, hseq] at hrow ⊢
      cases hl : ledgerRow? db seq with
      | none =>
        rw [hl] at hrow
        cases hrow
      | some ledger => rw [h.rows seq ledger hl]
  | some text =>
    cases hseq : row.ledgerSeq with
    | none => simp only [SharedMind.verifyReceipt, hdoc, hseq, rejectedMatches, hroot]
    | some seq =>
      simp only [SharedMind.verifyReceipt, hdoc, hseq] at hrow ⊢
      cases ht : receiptTexts? row text with
      | none => rfl
      | some t =>
        simp only [ht] at hrow ⊢
        cases hl : ledgerRow? db seq with
        | none =>
          rw [hl] at hrow
          cases hrow
        | some ledger => rw [h.rows seq ledger hl]

theorem Db.Continues.verifyReceiptsFrom {db db' : Db} (h : db.Continues db') {head : Option String}
    (hknown : KnownHead db head) {rows : List ReceiptRow}
    (hrows : verifyReceiptsFrom db head rows = []) :
    verifyReceiptsFrom db' head rows = [] ∧ receiptHead db' head rows = receiptHead db head rows := by
  induction rows generalizing head with
  | nil => exact ⟨rfl, rfl⟩
  | cons r rows ih =>
    simp only [SharedMind.verifyReceiptsFrom, List.append_eq_nil_iff, expect_eq_nil] at hrows ⊢
    obtain ⟨hr, hrows⟩ := hrows
    have hsame := h.verifyReceipt hknown hr
    obtain ⟨hnil, hhead⟩ := ih (hknown.verifyReceipt r) hrows
    rw [hsame]
    refine ⟨⟨hr, hnil⟩, ?_⟩
    rw [receiptHead, List.foldl_cons, hsame]
    exact hhead

/-! ### The invariant -/

/-- The verifier reports nothing, and the receipts end where the ledger does. -/
structure Verifiable (reg : Registry) (db : Db) : Prop where
  ledger : verifyLedgerRows reg db.ledger = []
  receipts : verifyReceiptDocuments db = []
  coverage : verifyAcceptedReceiptCoverage db = []
  head : receiptHead db none db.receipts = headEntryHash db.ledger
  root : stateRootByHead db (headEntryHash db.ledger) = some (stateRoot db : String)
  named : ∀ r ∈ db.receipts, ∀ seq, r.ledgerSeq = some seq → seq < nextLedgerSeq db.ledger

theorem Verifiable.empty (reg : Registry) : Verifiable reg .empty :=
  ⟨rfl, rfl, rfl, rfl, rfl, fun _ h => absurd h List.not_mem_nil⟩

theorem verifyAcceptedReceiptCoverage_eq_nil {db : Db} :
    verifyAcceptedReceiptCoverage db = [] ↔ ∀ r ∈ db.ledger, receiptCount db.receipts r.seq = 1 := by
  simp [verifyAcceptedReceiptCoverage]

/-- The last place is the number of entries. -/
theorem nextLedgerSeq_of_chained {rows : List LedgerRow} (h : Chained ledgerLinks 1 none rows) :
    nextLedgerSeq rows = 1 + rows.length := by
  have hseq : rows.map LedgerRow.seq = List.range' 1 rows.length := h.seq_eq
  have hmax : ∀ n, (List.range' 1 n).foldl max 0 = n := by
    intro n
    induction n with
    | zero => rfl
    | succ n ih => rw [List.range'_concat, List.foldl_append, ih]; simp; omega
  rw [nextLedgerSeq, hseq, hmax, Nat.add_comm]

theorem continues_addReceipt (db : Db) (row : ReceiptRow) : db.Continues (db.addReceipt row) :=
  ⟨fun _ _ h => h, fun _ _ => rfl, rfl⟩

section

variable [Host] {reg : Registry} {c : Call} {db : Db} {hash : Hash} {value : Json}

/-- A rejection receipt that names the head and its root keeps the invariant. -/
theorem Verifiable.reject {r : Rejection} {head : Option String} {row : ReceiptRow}
    (hdb : Verifiable reg db) (hrej : Rejects c r head (stateRoot db) db row)
    (hkey : ¬c.NumberKey) (hhead : Rejection.namedHead head db = headEntryHash db.ledger) :
    Verifiable reg (db.addReceipt row) := by
  have hseq : row.ledgerSeq = none := by
    obtain ⟨_, _, _, _, _, _, _, _, _, rfl⟩ := receiptRow_rejection.mp hrej
    rfl
  have hnone : KnownHead db none := fun _ h => nomatch h
  obtain ⟨hreceipts, hold⟩ := (continues_addReceipt db row).verifyReceiptsFrom hnone hdb.receipts
  rw [hdb.head] at hold
  have hnew : verifyReceipt (db.addReceipt row) (headEntryHash db.ledger) row =
      (true, headEntryHash db.ledger) :=
    verifyReceipt_rejected hrej hkey hhead
      (((continues_addReceipt db row).roots _ knownHead_headEntryHash).trans hdb.root)
  have happend : (db.addReceipt row).receipts = db.receipts ++ [row] := rfl
  refine ⟨hdb.ledger, ?_, ?_, ?_, hdb.root, ?_⟩
  · rw [verifyReceiptDocuments, happend, verifyReceiptsFrom_append, hreceipts, hold]
    simp [verifyReceiptsFrom, hnew]
  · refine verifyAcceptedReceiptCoverage_eq_nil.mpr fun r hr => ?_
    have hcount := verifyAcceptedReceiptCoverage_eq_nil.mp hdb.coverage r hr
    rw [receiptCount] at hcount ⊢
    rw [happend, List.countP_append, hcount]
    simp [hseq]
  · rw [receiptHead, happend, List.foldl_append]
    change (verifyReceipt _ (receiptHead (db.addReceipt row) none db.receipts) row).2 = _
    rw [hold, hnew]
    rfl
  · intro r hr seq hs
    rcases List.mem_append.mp hr with hr | hr
    · exact hdb.named r hr seq hs
    · obtain rfl := List.mem_singleton.mp hr
      rw [hseq] at hs
      exact nomatch hs

variable {e : Evaluation} {row : ReceiptRow}

theorem Evaluation.preStateRoot_row (h : evaluate reg db value hash = .ok e) :
    e.row.preStateRoot = some (stateRoot db : String) := by
  obtain ⟨_, _, _, hparts, hrow, _⟩ := evaluate_eq_ok.mp h
  rw [hrow, hparts]
  rfl

/-- An acceptance keeps what the receipts before it rest on. -/
theorem continues_accept (h : evaluate reg db value hash = .ok e) (row : ReceiptRow) :
    db.Continues (e.accept db row) := by
  obtain ⟨_, _, _, _, _, _, _, hunique⟩ := evaluate_eq_ok.mp h
  refine ⟨fun seq r hr => ?_, fun head hknown => ?_, rfl⟩
  · rw [ledgerRow?] at hr ⊢
    rw [Evaluation.accept_ledger, List.find?_append, hr]
    rfl
  · cases head with
    | none =>
      simp only [stateRootByHead, Evaluation.accept_ledger]
      cases hl : db.ledger with
      | nil => simp [Evaluation.preStateRoot_row h]
      | cons r rows => rfl
    | some x =>
      obtain ⟨r, hr, rfl⟩ := hknown x rfl
      simp only [stateRootByHead, Evaluation.accept_ledger, List.findRev?_eq_find?_reverse,
        List.reverse_append, List.reverse_singleton, List.singleton_append]
      rw [List.find?_cons_of_neg]
      simpa using Ne.symm (hunique r hr)

theorem headSchema_accept (h : evaluate reg db value hash = .ok e) :
    headSchema (db.ledger ++ [e.row]) = supportedSchema := by
  simp only [headSchema, List.getLast?_concat, Option.bind_some, Evaluation.proposalSchema?_row h]
  rw [if_pos (by decide)]

theorem stateRoot_accept_eq (h : evaluate reg db value hash = .ok e) (row : ReceiptRow) :
    stateRoot (e.accept db row) = stateRootForSchema supportedSchema e.txn.tables := by
  rw [stateRoot, Evaluation.accept_ledger, headSchema_accept h, Evaluation.accept_tables]

/-- The root of the head is that of the tables. -/
theorem stateRoot_accept (h : evaluate reg db value hash = .ok e) (row : ReceiptRow) :
    stateRootByHead (e.accept db row) (some e.row.entryHash) =
      some (stateRoot (e.accept db row) : String) := by
  obtain ⟨_, _, _, hparts, hrow, _⟩ := evaluate_eq_ok.mp h
  have hroot : e.row.stateRoot = (stateRootForSchema supportedSchema e.txn.tables : String) := by
    rw [hrow, hparts, ← (Evaluation.versions_eq h).1]
    rfl
  rw [stateRoot_accept_eq h]
  simp only [stateRootByHead, Evaluation.accept_ledger, List.findRev?_eq_find?_reverse,
    List.reverse_append, List.reverse_singleton, List.singleton_append]
  rw [List.find?_cons_of_pos (by simp), Option.map_some, hroot]

omit [Host] in
theorem nextLedgerSeq_concat {ledger : List LedgerRow} {r : LedgerRow}
    (h : r.seq = nextLedgerSeq ledger) : nextLedgerSeq (ledger ++ [r]) = r.seq + 1 := by
  have hmax : ((ledger.map LedgerRow.seq).foldl max 0) + 1 = r.seq := h.symm
  rw [nextLedgerSeq, List.map_append, List.foldl_append]
  simp
  omega

/-- An accepted proposal keeps the invariant, unless its time is empty. -/
theorem Verifiable.accept (hdb : Verifiable reg db)
    (hpre : preflight c = .ok (.evaluate hash value)) (hacc : Accepts reg c hash value db e row)
    (htime : e.proposal.proposedAt ≠ "") : Verifiable reg (e.accept db row) := by
  have h := hacc.evaluated
  obtain ⟨_, _, _, hparts, hrow, _⟩ := evaluate_eq_ok.mp h
  have hplace : e.row.seq = e.parts.seq := by rw [hrow]; rfl
  have hseq := Evaluation.row_seq h
  have hcolumns : row.ledgerSeq = some e.row.seq ∧ row.outcome = e.outcome.text := by
    obtain ⟨_, _, _, _, _, _, _, _, _, _, _, rfl⟩ := receiptRow_eq_ok.mp hacc.receipted
    rw [hplace]
    exact ⟨rfl, rfl⟩
  obtain ⟨hchain, hrows⟩ := verifyLedgerFrom_eq_nil.mp hdb.ledger
  have hfind : ledgerRow? (e.accept db row) e.parts.seq = some e.row := by
    rw [ledgerRow?, Evaluation.accept_ledger, ← hplace]
    exact find?_nextLedgerSeq hseq
  have hnone : KnownHead db none := fun _ hh => nomatch hh
  obtain ⟨hreceipts, hold⟩ := (continues_accept h row).verifyReceiptsFrom hnone hdb.receipts
  rw [hdb.head] at hold
  have hnew := @verifyReceipt_accepted _ _ _ _ _ _ _ _ (e.accept db row) hpre hacc htime hfind
  refine ⟨?_, ?_, ?_, ?_, ?_, ?_⟩
  · refine verifyLedgerFrom_eq_nil.mpr ⟨?_, ?_⟩
    · refine chained_append.mpr ⟨hchain, ?_, ?_⟩
      · exact hseq.trans (nextLedgerSeq_of_chained hchain)
      · rw [head_ledgerLinks]
        show e.row.prevHash = _
        rw [hrow, hparts]
        rfl
    · intro r hr
      rcases List.mem_append.mp hr with hr | hr
      · exact hrows r hr
      · obtain rfl := List.mem_singleton.mp hr
        exact verifyLedgerRow_accepted hpre hacc htime
  · rw [verifyReceiptDocuments, Evaluation.accept_receipts, verifyReceiptsFrom_append, hreceipts,
      hold]
    simp [verifyReceiptsFrom, hnew]
  · refine verifyAcceptedReceiptCoverage_eq_nil.mpr fun r hr => ?_
    rw [receiptCount, Evaluation.accept_receipts, List.countP_append]
    rcases List.mem_append.mp hr with hr | hr
    · have hcount := verifyAcceptedReceiptCoverage_eq_nil.mp hdb.coverage r hr
      have hlt := seq_lt_nextLedgerSeq hr
      rw [receiptCount] at hcount
      rw [hcount, List.countP_eq_zero.mpr]
      intro x hx
      obtain rfl := List.mem_singleton.mp hx
      simp only [hcolumns.1, Option.some.injEq, decide_eq_true_eq]
      omega
    · obtain rfl := List.mem_singleton.mp hr
      have hzero : db.receipts.countP (fun x => x.ledgerSeq = some e.row.seq ∧
          (x.outcome = Outcome.committed.text ∨ x.outcome = Outcome.factConflict.text)) = 0 := by
        refine List.countP_eq_zero.mpr fun x hx => ?_
        simp only [decide_eq_true_eq, not_and]
        intro hs
        have := hdb.named x hx _ hs
        omega
      have houtcome : e.outcome.text = Outcome.committed.text ∨
          e.outcome.text = Outcome.factConflict.text :=
        (Evaluation.outcome_accepted (e := e)).imp (congrArg _) (congrArg _)
      rw [hzero]
      simp [hcolumns.1, hcolumns.2, houtcome]
  · rw [receiptHead, Evaluation.accept_receipts, List.foldl_append]
    change (verifyReceipt _ (receiptHead (e.accept db row) none db.receipts) row).2 = _
    rw [hold, hnew, headEntryHash_accept]
  · rw [headEntryHash_accept]
    exact stateRoot_accept h row
  · intro r hr seq hs
    rw [Evaluation.accept_ledger, nextLedgerSeq_concat hseq]
    rcases List.mem_append.mp hr with hr | hr
    · have := hdb.named r hr seq hs
      omega
    · obtain rfl := List.mem_singleton.mp hr
      rw [hcolumns.1, Option.some.injEq] at hs
      omega

/-! ### One connection -/

/-- What a call must not do to what the verifier reads: bring a number for a key, or have
a proposal applied that names no time. -/
structure Call.Auditable (reg : Registry) (db : Db) (c : Call) : Prop where
  key : ¬c.NumberKey
  time : ∀ hash value e row, preflight c = .ok (.evaluate hash value) →
    Accepts reg c hash value db e row → e.proposal.proposedAt ≠ ""

theorem Verifiable.committed {receipt : Receipt} {db' : Db} (hdb : Verifiable reg db)
    (hc : c.Auditable reg db) (h : Committed reg c db receipt db') : Verifiable reg db' := by
  cases h with
  | replayed => exact hdb
  | accepted hash value e row receipt hpre hacc =>
    exact hdb.accept hpre hacc (hc.time hash value e row hpre hacc)
  | rejected r row receipt _ hrej =>
    refine hdb.reject hrej hc.key ?_
    cases hh : headEntryHash db.ledger <;> simp [Rejection.namedHead, hh]

/-- **What one connection commits verifies.**  After every sequence of calls on the empty
database, each with a key that is no number and none of which has a proposal without a
time applied, the verifier reports no error. -/
theorem verified_after_calls (reg : Registry) (calls : List Call)
    (hcalls : ∀ earlier c later, calls = earlier ++ c :: later →
      c.Auditable reg (runFrom reg .empty earlier)) :
    verifyLedgerRows reg (runFrom reg .empty calls).ledger = [] ∧
      verifyReceiptDocuments (runFrom reg .empty calls) = [] ∧
      verifyAcceptedReceiptCoverage (runFrom reg .empty calls) = [] := by
  have hverifiable : Verifiable reg (runFrom reg .empty calls) := by
    induction calls using List.reverseRecOn with
    | nil => exact .empty reg
    | append_singleton earlier c ih =>
      have hdb := ih fun before d later h => hcalls before d (later ++ [c]) (by simp [h])
      rw [runFrom_append, runFrom_cons]
      rcases @dbAfter_cases reg c (runFrom reg .empty earlier) _ with
        h | ⟨receipt, h⟩
      · rw [h]
        exact hdb
      · exact hdb.committed (hcalls earlier c [] rfl) h
  exact ⟨hverifiable.ledger, hverifiable.receipts, hverifiable.coverage⟩

/-- A rejection receipt of a call whose key is a number never verifies: its row has the
key, and its document has none. -/
theorem verifyReceipt_of_numberKey {db' : Db} {r : Rejection} {head h : Option String} {root : Hash}
    {row : ReceiptRow} (hrej : Rejects c r head root db row) (hkey : c.NumberKey) :
    (verifyReceipt db' h row).1 = false := by
  obtain ⟨n, t, hn, ht, hmatch⟩ := hkey
  obtain ⟨decidedAt, key, proposalId, d, _, hcol, _, hd, _, rfl⟩ := receiptRow_rejection.mp hrej
  rw [hn, ht] at hcol
  obtain rfl := Option.some.inj (Except.ok.inj hcol)
  rw [verifyReceipt_unlinked rfl rfl (receiptTexts?_columns hd), hd,
    receiptDocumentMatches_columns, Bool.true_and, ← hd, ← Bool.not_eq_true]
  intro htrue
  simp only [rejectedMatches, matchesAll, Bool.and_eq_true, List.all_eq_true] at htrue
  have hkeyMember := htrue.2 ("idempotency_key", .str t) (by
    simp [receiptColumns, matchedColumn, hmatch])
  simp [receiptDocument, JsonOf.get?, hn, matchedText, JsonOf.str?, optText, optColumn,
    JsonOf.pyEq] at hkeyMember

end

/-! ### A number for a key -/

/-- A call whose key is a number. -/
def numberKeyCall : Call where
  proposal := .obj [(.ofString "idempotency_key", .num (.int 12345678))]
  now := "2026-01-01T00:00:00Z"

def numberKeyValue : Json := .obj [("idempotency_key", .num (.int 12345678))]

section

attribute [local instance] Host.utc

theorem numberKeyCall_numberKey : numberKeyCall.NumberKey :=
  ⟨.int 12345678, "12345678", rfl, by decide, by decide⟩

/-- One call with the key `12345678` leaves a receipt that does not verify. -/
theorem number_key_not_verified :
    ¬∀ (reg : Registry) (calls : List Call),
      verifyLedgerRows reg (runFrom reg .empty calls).ledger = [] ∧
      verifyReceiptDocuments (runFrom reg .empty calls) = [] ∧
      verifyAcceptedReceiptCoverage (runFrom reg .empty calls) = [] := by
  intro h
  have hpre : preflight numberKeyCall =
      .ok (.evaluate (sha256Json numberKeyValue) numberKeyValue) :=
    preflight_evaluate.mpr ⟨by decide, rfl, by decide, by decide, rfl⟩
  have hkey : columnText numberKeyCall.idempotencyKey = .ok (some "12345678") := by decide
  obtain ⟨receipt, row, hcommit, _⟩ :=
    @commit_of_invalid ownerRegistry _ .empty _ _ _ "12345678" "" "2026-01-01T00:00:00Z" hpre hkey
      rfl rfl rfl (by decide) hashText_none (by decide)
  have hrejects : ∃ r head root, Rejects numberKeyCall r head root .empty row := by
    have hnone : prior? Db.empty.receipts (some "12345678") = none := rfl
    rw [commit_of_error hpre (transaction_of_invalid hkey hnone (by decide)) rfl] at hcommit
    obtain ⟨row', hrow', _, hdb⟩ := reject_eq_ok.mp hcommit
    obtain rfl : row = row' := by simpa [Db.addReceipt, Db.empty] using congrArg Db.receipts hdb
    exact ⟨_, _, _, hrow'⟩
  obtain ⟨r, head, root, hrej⟩ := hrejects
  have hrun : runFrom ownerRegistry .empty [numberKeyCall] = Db.empty.addReceipt row := by
    rw [runFrom_cons, dbAfter_of_ok hcommit]
    rfl
  have hverify := (h ownerRegistry [numberKeyCall]).2.1
  rw [hrun] at hverify
  have hone : (verifyReceipt (Db.empty.addReceipt row) none row).1 = true := by
    simpa [verifyReceiptDocuments, verifyReceiptsFrom, Db.addReceipt, Db.empty] using hverify
  rw [verifyReceipt_of_numberKey hrej numberKeyCall_numberKey] at hone
  exact nomatch hone

/-- A call with a text for a key, on the empty database. -/
theorem verified_after_calls_of_text :
    verifyLedgerRows ownerRegistry (runFrom ownerRegistry .empty [⟨.null, ""⟩]).ledger = [] ∧
      verifyReceiptDocuments (runFrom ownerRegistry .empty [⟨.null, ""⟩]) = [] ∧
      verifyAcceptedReceiptCoverage (runFrom ownerRegistry .empty [⟨.null, ""⟩]) = [] := by
  refine verified_after_calls ownerRegistry [⟨.null, ""⟩] ?_
  intro earlier c later hcalls
  obtain ⟨rfl, rfl, rfl⟩ : earlier = [] ∧ c = ⟨.null, ""⟩ ∧ later = [] := by
    cases earlier with
    | nil => simpa [eq_comm] using hcalls
    | cons a earlier => simp at hcalls
  refine ⟨?_, ?_⟩
  · rintro ⟨n, t, hn, _⟩
    exact nomatch hn
  · intro hash value e row hpre hacc
    obtain ⟨_, hjson, _⟩ := preflight_evaluate.mp hpre
    obtain ⟨hvalue, _⟩ := evaluate_eq_ok.mp hacc.evaluated
    obtain rfl := Option.some.inj hjson
    exact nomatch hvalue

end

end SharedMind
