import SharedMind.Kernel.Receipts

/-!
# One writer

What a call of `commit` can do when nobody else writes (`commit_cases`), and what it
does where the answer is known beforehand: to a proposal already answered, and to one
that is rejected.
-/

namespace SharedMind

open Py

variable {reg : Registry} {c : Call} {db db' : Db} {hash : Hash} {value : Json}
  {receipt : Receipt}

/-! ### Rejections -/

/-- No exception is answered with an accepted outcome. -/
theorem rejectionOf_not_accepted {e : PyExc} {r : Rejection} (h : rejectionOf c hash e = some r) :
    ¬r.outcome.Accepted := by
  cases e <;> simp only [rejectionOf, handled, Option.map_some, Option.map_none, Option.some.injEq,
    reduceCtorEq] at h <;> (subst h; simp [Outcome.Accepted])

theorem keyReuseRejection_not_accepted : ¬(keyReuseRejection c hash).outcome.Accepted := by
  show ¬Outcome.Accepted .validationError
  decide

variable [Host]

theorem preflight_not_accepted {r : Rejection} (h : preflight c = .ok (.refuse r)) :
    ¬r.outcome.Accepted := by
  have hve : ¬Outcome.Accepted .validationError := by decide
  unfold preflight at h
  simp only at h
  split at h
  · obtain ⟨_, _, h⟩ := bind_eq_ok.mp h
    cases h
    exact hve
  · split at h
    · obtain ⟨_, _, h⟩ := bind_eq_ok.mp h
      cases h
      exact hve
    · split at h
      · cases h
        exact hve
      · split at h <;> cases h
        exact hve

/-- What passes the preflight: what encodes within the limits. -/
theorem preflight_evaluate :
    preflight c = .ok (.evaluate hash value) ↔
      c.proposal.depth ≤ Host.recursionLimit ∧ c.proposal.toJson? = some value ∧
      c.proposal.depth ≤ maxProposalDepth ∧ (utf8 value.dumps).length ≤ maxProposalBytes ∧
      hash = sha256Json value := by
  unfold preflight
  by_cases hrec : Host.recursionLimit < c.proposal.depth
  · rw [if_pos hrec]
    refine ⟨fun h => ?_, fun h => absurd h.1 (not_le.mpr hrec)⟩
    obtain ⟨_, _, h⟩ := bind_eq_ok.mp h
    cases h
  · rw [if_neg hrec]
    cases hj : c.proposal.toJson? with
    | none =>
      refine ⟨fun h => ?_, fun h => nomatch h.2.1⟩
      obtain ⟨_, _, h⟩ := bind_eq_ok.mp h
      cases h
    | some v =>
      simp only
      by_cases hdeep : maxProposalDepth < c.proposal.depth
      · rw [if_pos hdeep]
        exact ⟨fun h => (nomatch h), fun h => absurd h.2.2.1 (not_le.mpr hdeep)⟩
      · rw [if_neg hdeep]
        by_cases hsize : maxProposalBytes < (utf8 v.dumps).length
        · rw [if_pos hsize]
          refine ⟨fun h => (nomatch h), fun ⟨_, hv, _, hle, _⟩ => ?_⟩
          obtain rfl := Option.some.inj hv
          exact absurd hle (not_le.mpr hsize)
        · rw [if_neg hsize]
          constructor
          · intro h
            cases h
            exact ⟨not_lt.mp hrec, rfl, not_lt.mp hdeep, not_lt.mp hsize, rfl⟩
          · rintro ⟨_, hv, _, _, rfl⟩
            obtain rfl := Option.some.inj hv
            rfl

theorem reject_eq_ok {r : Rejection} :
    reject c db r = .ok (receipt, db') ↔
      ∃ row, Rejects c r (headEntryHash db.ledger) (stateRoot db) db row ∧
      rowToReceipt row = .ok receipt ∧ db' = db.addReceipt row := insertReceipt_eq_ok

/-! ### The cases of a commit -/

/-- What an answered call leaves behind. -/
inductive Committed (reg : Registry) (c : Call) (db : Db) : Receipt → Db → Prop
  | replayed (hash : Hash) (value : Json) (key : String) (row : ReceiptRow) (receipt : Receipt) :
      preflight c = .ok (.evaluate hash value) → columnText c.idempotencyKey = .ok (some key) →
      prior? db.receipts (some key) = some row → row.proposalHash = hash →
      rowToReceipt row = .ok receipt → Committed reg c db receipt db
  | accepted (hash : Hash) (value : Json) (e : Evaluation) (row : ReceiptRow) (receipt : Receipt) :
      preflight c = .ok (.evaluate hash value) → Accepts reg c hash value db e row →
      rowToReceipt row = .ok receipt → Committed reg c db receipt (e.accept db row)
  | rejected (r : Rejection) (row : ReceiptRow) (receipt : Receipt) : ¬r.outcome.Accepted →
      Rejects c r (headEntryHash db.ledger) (stateRoot db) db row →
      rowToReceipt row = .ok receipt → Committed reg c db receipt (db.addReceipt row)

theorem rejectFor_cases {e : PyExc} (h : rejectFor c db hash e = .ok (receipt, db')) :
    Committed reg c db receipt db' := by
  unfold rejectFor at h
  split at h
  · next r hr =>
    obtain ⟨row, hrow, hrec, rfl⟩ := reject_eq_ok.mp h
    exact .rejected r row receipt (rejectionOf_not_accepted hr) hrow hrec
  · exact nomatch h

theorem transaction_of_prior {key : String} {row : ReceiptRow}
    (hkey : columnText c.idempotencyKey = .ok (some key))
    (hprior : prior? db.receipts (some key) = some row) :
    transaction reg c db hash value =
      if row.proposalHash ≠ hash then .ok .keyReuse
      else do return .replayed (← rowToReceipt row) := by
  simp only [transaction, hkey, ok_bind, hprior]
  rfl

theorem transaction_replayed (h : transaction reg c db hash value = .ok (.replayed receipt)) :
    ∃ key row, columnText c.idempotencyKey = .ok (some key) ∧
      prior? db.receipts (some key) = some row ∧ row.proposalHash = hash ∧
      rowToReceipt row = .ok receipt := by
  have h' := h
  rw [transaction, bind_eq_ok] at h
  obtain ⟨key, hkey, h⟩ := h
  cases hp : prior? db.receipts key with
  | none =>
    simp only [hp, bind_eq_ok, Prod.exists] at h
    obtain ⟨_, _, _, _, _, h⟩ := h
    cases h
  | some row =>
    cases key with
    | none => exact nomatch hp
    | some key =>
      rw [transaction_of_prior hkey hp] at h'
      split at h'
      · cases h'
      · next hhash =>
        obtain ⟨r, hr, h'⟩ := bind_eq_ok.mp h'
        cases h'
        exact ⟨key, row, hkey, hp, not_not.mp hhash, hr⟩

/-- A call that returns replays a receipt, accepts the proposal or rejects it. -/
theorem commit_cases (h : commit reg db c = .ok (receipt, db')) :
    Committed reg c db receipt db' := by
  unfold commit at h
  split at h
  · exact nomatch h
  · next r hpre =>
    obtain ⟨row, hrow, hrec, rfl⟩ := reject_eq_ok.mp h
    exact .rejected r row receipt (preflight_not_accepted hpre) hrow hrec
  · next hash value hpre =>
    unfold answer at h
    split at h
    · next r ht =>
      obtain ⟨key, row, hkey, hp, hhash, hrec⟩ := transaction_replayed ht
      cases h
      exact .replayed hash value key row receipt hpre hkey hp hhash hrec
    · next r d ht =>
      obtain ⟨e, row, hacc, hrec, rfl⟩ := transaction_accepted.mp ht
      cases h
      exact .accepted hash value e row receipt hpre hacc hrec
    · split at h
      · next result hres =>
        cases h
        obtain ⟨row, hrow, hrec, rfl⟩ := reject_eq_ok.mp hres
        exact .rejected _ row receipt keyReuseRejection_not_accepted hrow hrec
      · exact rejectFor_cases h
    · exact rejectFor_cases h

/-- The database after a call: as it was, or as an answered call leaves it. -/
theorem dbAfter_cases :
    dbAfter reg db c = db ∨ ∃ receipt, Committed reg c db receipt (dbAfter reg db c) := by
  rw [dbAfter]
  cases h : commit reg db c with
  | error e => exact Or.inl rfl
  | ok result =>
    obtain ⟨receipt, db'⟩ := result
    exact Or.inr ⟨receipt, commit_cases h⟩

theorem dbAfter_of_ok (h : commit reg db c = .ok (receipt, db')) : dbAfter reg db c = db' := by
  rw [dbAfter, h]

/-! ### Runs -/

theorem runFrom_append (calls later : List Call) :
    runFrom reg db (calls ++ later) = runFrom reg (runFrom reg db calls) later := by
  rw [runFrom, List.foldl_append]
  rfl

theorem runFrom_cons (calls : List Call) :
    runFrom reg db (c :: calls) = runFrom reg (dbAfter reg db c) calls := rfl

/-- What every call preserves holds after every run. -/
theorem runFrom_inv {P : Db → Prop} {calls : List Call} (h0 : P db)
    (hstep : ∀ db c receipt db', c ∈ calls → P db → Committed reg c db receipt db' → P db') :
    P (runFrom reg db calls) := by
  induction calls generalizing db with
  | nil => exact h0
  | cons c calls ih =>
    rw [runFrom_cons]
    refine ih ?_ fun db d receipt db' hd => hstep db d receipt db' (List.mem_cons_of_mem _ hd)
    rcases @dbAfter_cases reg c db _ with h | ⟨receipt, h⟩
    · rw [h]
      exact h0
    · exact hstep db c receipt _ List.mem_cons_self h0 h

/-! ### Known answers -/

theorem commit_evaluate (hpre : preflight c = .ok (.evaluate hash value)) :
    commit reg db c = answer c db hash (transaction reg c db hash value) := by
  rw [commit, hpre]

/-- A proposal whose first receipt carries its hash is answered with that receipt. -/
theorem commit_of_prior {key : String} {row : ReceiptRow}
    (hpre : preflight c = .ok (.evaluate hash value))
    (hkey : columnText c.idempotencyKey = .ok (some key))
    (hprior : prior? db.receipts (some key) = some row) (hhash : row.proposalHash = hash)
    (hrec : rowToReceipt row = .ok receipt) : commit reg db c = .ok (receipt, db) := by
  have ht : transaction reg c db hash value = .ok (.replayed receipt) := by
    rw [transaction_of_prior hkey hprior, if_neg (not_not.mpr hhash), hrec]
    rfl
  rw [commit_evaluate hpre, ht]
  rfl

/-- A proposal whose key has the receipt of another payload is refused. -/
theorem commit_of_reuse {key : String} {row : ReceiptRow}
    (hpre : preflight c = .ok (.evaluate hash value))
    (hkey : columnText c.idempotencyKey = .ok (some key))
    (hprior : prior? db.receipts (some key) = some row) (hhash : row.proposalHash ≠ hash)
    (h : commit reg db c = .ok (receipt, db')) :
    reject c db (keyReuseRejection c hash) = .ok (receipt, db') := by
  rw [commit_evaluate hpre, transaction_of_prior hkey hprior, if_pos hhash] at h
  cases hrej : reject c db (keyReuseRejection c hash) with
  | ok result =>
    simp only [answer, hrej] at h
    exact congrArg Except.ok (Except.ok.inj h)
  | error e =>
    -- the second receipt would differ in its reason only
    simp only [answer, hrej, rejectFor] at h
    cases hr : rejectionOf c hash e with
    | none =>
      rw [hr] at h
      exact nomatch h
    | some r =>
      rw [hr] at h
      obtain ⟨row', hrow', _⟩ := reject_eq_ok.mp h
      have hdec : (keyReuseRejection c hash).decidedAt = r.decidedAt := by
        rw [rejectionOf, Option.map_eq_some_iff] at hr
        obtain ⟨_, _, rfl⟩ := hr
        rfl
      obtain ⟨row'', hrow''⟩ :=
        receiptRow_rejection_congr hrow' keyReuseRejection_not_accepted hdec
      obtain ⟨receipt'', hreceipt''⟩ := rowToReceipt_of_receiptRow hrow''
      have hok := reject_eq_ok.mpr ⟨row'', hrow'', hreceipt'', rfl⟩
      rw [hrej] at hok
      exact nomatch hok

/-- A call whose transaction raises what `_commit` handles. -/
theorem commit_of_error {e : PyExc} {r : Rejection}
    (hpre : preflight c = .ok (.evaluate hash value))
    (ht : transaction reg c db hash value = .error e) (hr : rejectionOf c hash e = some r) :
    commit reg db c = reject c db r := by
  rw [commit_evaluate hpre, ht, answer, rejectFor, hr]

/-- A value of no shape of the contract, under a new key. -/
theorem transaction_of_invalid {key : Option String} (hkey : columnText c.idempotencyKey = .ok key)
    (hprior : prior? db.receipts key = none) (hinvalid : isContractObject value = false) :
    transaction reg c db hash value =
      .error (.validationFailure .schemaValidationFailed) := by
  have hcontract : contractProposal reg value =
      .error (.validationFailure .schemaValidationFailed) := by
    have hnone := hinvalid
    simp only [isContractObject, Bool.or_eq_false_iff, Option.isSome_eq_false_iff,
      Option.isNone_iff_eq_none] at hnone
    obtain ⟨⟨⟨⟨⟨_, hp⟩, _⟩, he⟩, _⟩, _⟩ := hnone
    rw [contractProposal, hp]
    simp only [he, hinvalid, Bool.false_eq_true, if_false]
  simp only [transaction, hkey, ok_bind, hprior, evaluate, hcontract, error_bind]

/-- Such a value is answered with `SCHEMA_VALIDATION_FAILED`. -/
theorem commit_of_invalid {key proposalId decidedAt : String}
    (hpre : preflight c = .ok (.evaluate hash value))
    (hkey : columnText c.idempotencyKey = .ok (some key))
    (hpid : columnText c.proposalId = .ok (some proposalId))
    (hdec : (decidedAtText c (some (proposalDecidedAt c))).toString? = some decidedAt)
    (hprior : prior? db.receipts (some key) = none) (hinvalid : isContractObject value = false)
    (hhead : HashText (headEntryHash db.ledger)) (hid : nextReceiptId db.receipts ≤ maxRowId) :
    ∃ receipt row, commit reg db c = .ok (receipt, db.addReceipt row) ∧
      rowToReceipt row = .ok receipt ∧ row.idempotencyKey = key ∧ row.proposalHash = hash ∧
      row.outcome = Outcome.validationError.text := by
  have hnamed : Rejection.namedHead (headEntryHash db.ledger) db = headEntryHash db.ledger := by
    cases hl : headEntryHash db.ledger <;> simp [Rejection.namedHead, hl]
  rw [commit_of_error hpre (transaction_of_invalid hkey hprior hinvalid) rfl]
  obtain ⟨row, hrow⟩ := @receiptRow_rejection_ok _ c db ⟨hash, .validationError,
    .schemaValidationFailed, some (proposalDecidedAt c)⟩ _ (stateRoot db) _ _ _
    (by show ¬Outcome.Accepted .validationError; decide) (by rw [hnamed]; exact hhead) hdec hkey
    hpid hid
  obtain ⟨receipt, hrec⟩ := rowToReceipt_of_receiptRow hrow
  refine ⟨receipt, row, reject_eq_ok.mpr ⟨row, hrow, hrec, rfl⟩, hrec, ?_⟩
  obtain ⟨_, key', _, _, _, hkey', _, _, _, rfl⟩ := receiptRow_rejection.mp hrow
  rw [hkey] at hkey'
  exact ⟨(Option.some.inj (Except.ok.inj hkey')).symm, rfl, rfl⟩

end SharedMind
