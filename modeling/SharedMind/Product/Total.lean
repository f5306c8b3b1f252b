import SharedMind.Product.Linear
import SharedMind.Py.RawJson

/-!
# When a product proposal is answered

One call of `commit_product_proposal` that no other disturbs.

* `RawCall.commitProductProposal`: the call, from the document it is given, and
  `commitProductProposal_alone`: it is what the steps of a connection come to.
* `SkillOperation.Fits`, `Storable`: the versions that are reached fit into a column.
* `commit_answers_iff`: when the call returns a receipt, and changes no skill unless it commits.
* `id_reuse_raises`: a proposal under a new key with the identifier of another.
-/

namespace SharedMind.Product

open Py

/-! ### The call -/

/-- The decoded document, and what `utc_now` answers. -/
structure RawCall where
  document : RawJson
  now : String

inductive CommitExc where
  | recursionError
  | unicodeEncodeError
  | call (e : CallExc)

/-- `_persist_product_rejection`. -/
def persistProductRejection (p : ProductProposal) (reason : ProductReason) (db : ProductDb) :
    Except CallExc (ProductReceipt × ProductDb) :=
  match receiptByKey db p.idempotencyKey with
  | some prior => .ok (prior, db)
  | none =>
    let receipt := productReceipt p (rejectionOutcome reason) (some reason) db.stateHash db.stateHash
    match rejectTransaction p receipt db with
    | .ok db' => .ok (receipt, db')
    | .error e => .error (.raised e)

/-- `commit_product_proposal` on a valid proposal. -/
def commitValid (now : String) (p : ProductProposal) (db : ProductDb) :
    Except CallExc (ProductReceipt × ProductDb) :=
  match receiptByKey db p.idempotencyKey with
  | some prior =>
    if prior.proposalHash = p.hash then .ok (prior, db)
    else .ok (keyReuseReceipt prior db.stateHash, db)
  | none =>
    if ∀ expected ∈ p.expectedProductStateHash, expected = db.stateHash then
      match commitTransaction now p db.stateHash db with
      | .ok result => .ok result
      | .error (.store reason) => persistProductRejection p reason db
      | .error e => .error (.raised e)
    else persistProductRejection p .stateHashMismatch db

section

variable [Host]

/-- `commit_product_proposal`.  The document is hashed before the issues of its validation are
raised. -/
def RawCall.commitProductProposal (c : RawCall) (db : ProductDb) :
    Except CommitExc (ProductReceipt × ProductDb) :=
  if Host.recursionLimit < c.document.depth then .error .recursionError
  else
    match c.document.toJson? with
    | none => .error .unicodeEncodeError
    | some value =>
      match ProductProposal.codec.dec value with
      | none => .error (.call .proposalInvalid)
      | some p => (commitValid c.now p db).mapError .call

end

/-! ### One connection alone -/

/-- The steps of a connection that no other disturbs, to the result of its call. -/
inductive Alone (db : ProductDb) : Phase → Result → ProductDb → Prop
  | finish {phase n : Phase} {db' : ProductDb} {result : Result} :
      phase.advance db = some ⟨db', n, some result⟩ → Alone db phase result db'
  | step {phase n : Phase} {db' : ProductDb} {result : Result} :
      phase.advance db = some ⟨db, n, none⟩ → Alone db n result db' → Alone db phase result db'

section

variable {db db' : ProductDb} {c : ProductCall} {p : ProductProposal} {receipt : ProductReceipt}

/-- What `_persist_product_rejection` leaves, as a result and a store. -/
def resultOf (db : ProductDb) : Except CallExc (ProductReceipt × ProductDb) → Result × ProductDb
  | .ok (receipt, db') => (.ok receipt, db')
  | .error e => (.error e, db)

theorem alone_rejecting {reason : ProductReason} :
    Alone db (.rejecting c p db.tables.rows reason)
      (resultOf db (persistProductRejection p reason db)).1
      (resultOf db (persistProductRejection p reason db)).2 := by
  unfold persistProductRejection
  split
  · next prior hprior => exact .finish (n := .idle) (by simp only [Phase.advance, hprior]; rfl)
  · next hprior =>
    refine .step (n := .persisting c p (productReceipt p (rejectionOutcome reason) (some reason)
      db.stateHash db.stateHash)) (by simp only [Phase.advance, hprior]; rfl) ?_
    dsimp only
    split
    · next db' hreject => exact .finish (n := .idle) (by simp only [Phase.advance, hreject]; rfl)
    · next e hreject => exact .finish (n := .idle) (by simp only [Phase.advance, hreject]; rfl)

theorem alone_hashed : Alone db (.hashed c p db.tables.rows)
    (resultOf db (commitValid c.now p db)).1 (resultOf db (commitValid c.now p db)).2 := by
  unfold commitValid
  split
  · next prior hprior =>
    split
    · next hhash =>
      exact .finish (n := .idle) (by simp only [Phase.advance, hprior, if_pos hhash]; rfl)
    · next hhash =>
      exact .finish (n := .idle) (by simp only [Phase.advance, hprior, if_neg hhash]; rfl)
  · next hprior =>
    split
    · next hexpected =>
      have hready : (Phase.hashed c p db.tables.rows).advance db =
          some ⟨db, .ready c p db.tables.rows, none⟩ := by
        simp only [Phase.advance, hprior]
        exact if_pos hexpected
      refine .step hready ?_
      split
      · next result hcommit => exact .finish (advance_commit hcommit)
      · next reason hcommit =>
        refine .step (n := .rejecting c p db.tables.rows reason) ?_ alone_rejecting
        simp only [Phase.advance, show productStateHash db.tables.rows = db.stateHash from rfl,
          hcommit]
      · next e hstore hcommit =>
        refine .finish (n := .idle) ?_
        simp only [Phase.advance, show productStateHash db.tables.rows = db.stateHash from rfl,
          hcommit]
        cases e with
        | store reason => exact absurd rfl (hstore reason)
        | integrityError => rfl
        | overflowError => rfl
    · next hexpected =>
      refine .step (n := .rejecting c p db.tables.rows .stateHashMismatch) ?_ alone_rejecting
      simp only [Phase.advance, hprior]
      exact if_neg hexpected

theorem alone_hashing {rows : RowsRead} {left : List ProductTable} {result : Result}
    (h : Alone db (.hashing c (readAll db rows left) []) result db') :
    Alone db (.hashing c rows left) result db' := by
  induction left generalizing rows with
  | nil => exact h
  | cons table left ih => exact .step (n := .hashing c _ left) rfl (ih h)

/-- The call of a valid proposal is what the steps of its connection come to. -/
theorem commitProductProposal_alone (hdec : ProductProposal.codec.dec c.document = some p) :
    Alone db (.hashing c (fun _ => []) ProductTable.all)
      (resultOf db (commitValid c.now p db)).1 (resultOf db (commitValid c.now p db)).2 := by
  refine alone_hashing ?_
  rw [readAll_all]
  exact .step (n := .hashed c p db.tables.rows) (by simp only [Phase.advance, hdec]) alone_hashed

end

/-! ### Versions that fit -/

/-- The versions an operation looks up or stores fit into a column.  A revision stores its
replacement once the version it replaces is the latest. -/
def SkillOperation.Fits (skills : SkillTable) : SkillOperation → Prop
  | .createSkill _ skill | .importSkill _ skill => versionOf skill.version ≤ maxRowId
  | .reviseSkill o => versionOf o.expectedVersion ≤ maxRowId ∧
      (skills[skillKey o.skillId.text (versionOf o.expectedVersion)]? ≠ none →
        (skillVersions skills o.skillId.text).getLast? = some (versionOf o.expectedVersion) →
        o.replacementSkill.skillId = o.skillId →
        versionOf o.replacementSkill.version = versionOf o.expectedVersion + 1 →
        versionOf o.replacementSkill.version ≤ maxRowId)
  | .markSkillTested o => versionOf o.version ≤ maxRowId
  | .approveSkill o => versionOf o.version ≤ maxRowId
  | .deprecateSkill o => versionOf o.version ≤ maxRowId

/-- The versions of the operations that are reached fit into a column. -/
def Storable (now occurredAt : String) : SkillTable → List SkillOperation → Prop
  | _, [] => True
  | skills, op :: ops => op.Fits skills ∧ ∀ skills',
      applySkillOperation now occurredAt skills op = .ok skills' →
        Storable now occurredAt skills' ops

section

variable {now occurredAt : String} {skills : SkillTable} {skillId : String} {version : Nat}

/-- An exception that is answered with a rejection. -/
def StoreExc.Answered (e : StoreExc) : Prop := ∃ reason, e = .store reason

theorem putSkill_error {skill : SkillRecord} {e : StoreExc}
    (h : putSkill now skills skill = .error e) :
    (versionOf skill.version ≤ maxRowId ∧ e.Answered) ∨
      (maxRowId < versionOf skill.version ∧ e = .overflowError) := by
  simp only [putSkill] at h
  rcases bind_eq_error.mp h with hfit | ⟨_, hfit, h⟩
  · obtain ⟨hnot, rfl⟩ := ensure_eq_error.mp hfit
    exact Or.inr ⟨not_le.mp hnot, rfl⟩
  · refine Or.inl ⟨ensure_eq_ok.mp hfit, ?_⟩
    split at h
    · rcases bind_eq_error.mp h with hreuse | ⟨_, _, h⟩
      · exact ⟨_, (ensure_eq_error.mp hreuse).2⟩
      · cases h
    · cases h

theorem currentSkill_error {e : StoreExc} (h : currentSkill skills skillId version = .error e) :
    (version ≤ maxRowId ∧ e.Answered) ∨ (maxRowId < version ∧ e = .overflowError) := by
  simp only [currentSkill] at h
  rcases bind_eq_error.mp h with hfit | ⟨_, hfit, h⟩
  · obtain ⟨hnot, rfl⟩ := ensure_eq_error.mp hfit
    exact Or.inr ⟨not_le.mp hnot, rfl⟩
  · exact Or.inl ⟨ensure_eq_ok.mp hfit, _, (orRaise_eq_error.mp h).2⟩

theorem currentSkill_ok {row : SkillRow} (h : currentSkill skills skillId version = .ok row) :
    version ≤ maxRowId ∧ skills[skillKey skillId version]? = some row := by
  simp only [currentSkill, bind_eq_ok, ensure_eq_ok, orRaise_eq_ok] at h
  obtain ⟨_, hfit, hrow⟩ := h
  exact ⟨hfit, hrow⟩

theorem updateSkillStatus_error {status expected : SkillStatus} {e : StoreExc}
    (h : updateSkillStatus occurredAt skills skillId version status expected = .error e) :
    e.Answered := by
  simp only [updateSkillStatus] at h
  rcases bind_eq_error.mp h with hrow | ⟨_, _, h⟩
  · exact ⟨_, (orRaise_eq_error.mp hrow).2⟩
  · rcases bind_eq_error.mp h with hstatus | ⟨_, _, h⟩
    · exact ⟨_, (ensure_eq_error.mp hstatus).2⟩
    · cases h

/-- The operations that change the status of a version. -/
theorem statusOperation_error {status expected : SkillStatus} {mismatch : ProductReason}
    {e : StoreExc} (h : (do
      let current ← currentSkill skills skillId version
      ensure (current.status = expected) (.store mismatch)
      updateSkillStatus occurredAt skills skillId version status expected) = .error e) :
    (version ≤ maxRowId ∧ e.Answered) ∨ (maxRowId < version ∧ e = .overflowError) := by
  rcases bind_eq_error.mp h with hcurrent | ⟨row, hcurrent, h⟩
  · exact currentSkill_error hcurrent
  · refine Or.inl ⟨(currentSkill_ok hcurrent).1, ?_⟩
    rcases bind_eq_error.mp h with hstatus | ⟨_, _, h⟩
    · exact ⟨_, (ensure_eq_error.mp hstatus).2⟩
    · exact updateSkillStatus_error h

theorem statusOperation_ok {status expected : SkillStatus} {mismatch : ProductReason}
    {skills' : SkillTable} (h : (do
      let current ← currentSkill skills skillId version
      ensure (current.status = expected) (.store mismatch)
      updateSkillStatus occurredAt skills skillId version status expected) = .ok skills') :
    version ≤ maxRowId := by
  obtain ⟨_, hcurrent, _⟩ := bind_eq_ok.mp h
  exact (currentSkill_ok hcurrent).1

/-- An operation that raises does so for a reason a receipt can name, or because a version
does not fit. -/
theorem applySkillOperation_error {op : SkillOperation} {e : StoreExc}
    (h : applySkillOperation now occurredAt skills op = .error e) :
    (op.Fits skills ∧ e.Answered) ∨ (¬op.Fits skills ∧ e = .overflowError) := by
  have hfits : ∀ {n : Nat}, (n ≤ maxRowId ∧ e.Answered) ∨ (maxRowId < n ∧ e = .overflowError) →
      (n ≤ maxRowId ∧ e.Answered) ∨ (¬n ≤ maxRowId ∧ e = .overflowError) := by
    intro n hn
    rwa [not_le]
  cases op with
  | createSkill id skill => exact hfits (putSkill_error h)
  | importSkill id skill => exact hfits (putSkill_error h)
  | markSkillTested o => exact hfits (statusOperation_error h)
  | approveSkill o => exact hfits (statusOperation_error h)
  | deprecateSkill o => exact hfits (statusOperation_error h)
  | reviseSkill o =>
    simp only [applySkillOperation] at h
    rcases bind_eq_error.mp h with hcurrent | ⟨row, hcurrent, h⟩
    · rcases currentSkill_error hcurrent with ⟨hfit, he⟩ | ⟨hnot, he⟩
      · refine Or.inl ⟨⟨hfit, fun hrow => absurd ?_ hrow⟩, he⟩
        simp only [currentSkill, ensure, if_pos hfit, ok_bind] at hcurrent
        exact (orRaise_eq_error.mp hcurrent).1
      · exact Or.inr ⟨fun h => absurd h.1 (not_le.mpr hnot), he⟩
    · obtain ⟨hfit, hrow⟩ := currentSkill_ok hcurrent
      rcases bind_eq_error.mp h with hlatest | ⟨_, hlatest, h⟩
      · obtain ⟨hnot, rfl⟩ := ensure_eq_error.mp hlatest
        exact Or.inl ⟨⟨hfit, fun _ h => absurd h hnot⟩, _, rfl⟩
      · rcases bind_eq_error.mp h with hrevision | ⟨_, hrevision, h⟩
        · obtain ⟨hnot, rfl⟩ := ensure_eq_error.mp hrevision
          exact Or.inl ⟨⟨hfit, fun _ _ hid hversion => absurd ⟨hid, hversion⟩ hnot⟩, _, rfl⟩
        · obtain ⟨hid, hversion⟩ := ensure_eq_ok.mp hrevision
          rcases putSkill_error h with ⟨hput, he⟩ | ⟨hput, he⟩
          · exact Or.inl ⟨⟨hfit, fun _ _ _ _ => hput⟩, he⟩
          · refine Or.inr ⟨fun hall => absurd ?_ (not_le.mpr hput), he⟩
            exact hall.2 (by rw [hrow]; simp) (ensure_eq_ok.mp hlatest) hid hversion

theorem fits_of_ok {op : SkillOperation} {skills' : SkillTable}
    (h : applySkillOperation now occurredAt skills op = .ok skills') : op.Fits skills := by
  have hput : ∀ {skill : SkillRecord}, putSkill now skills skill = .ok skills' →
      versionOf skill.version ≤ maxRowId := by
    intro skill h
    simp only [putSkill] at h
    obtain ⟨_, hfit, _⟩ := bind_eq_ok.mp h
    exact ensure_eq_ok.mp hfit
  cases op with
  | createSkill id skill => exact hput h
  | importSkill id skill => exact hput h
  | markSkillTested o => exact statusOperation_ok h
  | approveSkill o => exact statusOperation_ok h
  | deprecateSkill o => exact statusOperation_ok h
  | reviseSkill o =>
    simp only [applySkillOperation, bind_eq_ok] at h
    obtain ⟨_, hcurrent, _, _, _, _, h⟩ := h
    exact ⟨(currentSkill_ok hcurrent).1, fun _ _ _ _ => hput h⟩

/-- The operations raise for a reason a receipt can name, unless a version that is reached does
not fit. -/
theorem applyOperations_error {ops : List SkillOperation} {e : StoreExc}
    (h : ops.foldlM (applySkillOperation now occurredAt) skills = .error e) :
    (Storable now occurredAt skills ops ∧ e.Answered) ∨
      (¬Storable now occurredAt skills ops ∧ e = .overflowError) := by
  induction ops generalizing skills with
  | nil => exact nomatch h
  | cons op ops ih =>
    rw [List.foldlM_cons] at h
    rcases bind_eq_error.mp h with hop | ⟨skills', hop, h⟩
    · rcases applySkillOperation_error hop with ⟨hfit, he⟩ | ⟨hnot, he⟩
      · refine Or.inl ⟨⟨hfit, fun skills' hok => ?_⟩, he⟩
        rw [hop] at hok
        exact nomatch hok
      · exact Or.inr ⟨fun hall => hnot hall.1, he⟩
    · rcases ih h with ⟨hall, he⟩ | ⟨hnot, he⟩
      · refine Or.inl ⟨⟨fits_of_ok hop, fun other hother => ?_⟩, he⟩
        rw [hop] at hother
        obtain rfl := Except.ok.inj hother
        exact hall
      · exact Or.inr ⟨fun hall => hnot (hall.2 skills' hop), he⟩

theorem storable_of_ok {ops : List SkillOperation} {skills' : SkillTable}
    (h : ops.foldlM (applySkillOperation now occurredAt) skills = .ok skills') :
    Storable now occurredAt skills ops := by
  induction ops generalizing skills with
  | nil => trivial
  | cons op ops ih =>
    rw [List.foldlM_cons, bind_eq_ok] at h
    obtain ⟨middle, hop, h⟩ := h
    refine ⟨fits_of_ok hop, fun other hother => ?_⟩
    rw [hop] at hother
    obtain rfl := Except.ok.inj hother
    exact ih h

end

/-! ### Receipts and proposals -/

/-- Every stored proposal has a receipt under its key. -/
def Paired (db : ProductDb) : Prop :=
  ∀ row ∈ db.proposals, ∃ r ∈ db.receipts, r.idempotencyKey = row.proposal.idempotencyKey

/-- A receipt that is about to be written is under the key of its proposal. -/
def PhaseKeyed : Phase → Prop
  | .persisting _ p receipt => receipt.idempotencyKey = p.idempotencyKey
  | _ => True

/-- No receipt under another key has the identifier of a receipt of this proposal: their digests do
not collide. -/
def FreshReceiptIds (p : ProductProposal) (db : ProductDb) : Prop :=
  ∀ r ∈ db.receipts, r.idempotencyKey ≠ p.idempotencyKey → ∀ outcome reason before after,
    r.receiptId ≠ (productReceipt p outcome reason before after).receiptId

section

variable {db db' : ProductDb} {p : ProductProposal} {receipt : ProductReceipt} {now : String}

theorem Paired.append {tables : ProductTables} (h : Paired db)
    (hkey : receipt.idempotencyKey = p.idempotencyKey) :
    Paired ⟨tables, db.proposals ++ [⟨p.hash, p⟩], db.receipts ++ [receipt]⟩ := by
  intro row hrow
  rcases List.mem_append.mp hrow with hrow | hrow
  · obtain ⟨r, hr, hk⟩ := h row hrow
    exact ⟨r, List.mem_append_left _ hr, hk⟩
  · obtain rfl := List.mem_singleton.mp hrow
    exact ⟨receipt, List.mem_append_right _ (List.mem_singleton_self receipt), hkey⟩

theorem rejectTransaction_eq_ok (h : rejectTransaction p receipt db = .ok db') :
    db' = ⟨db.tables, db.proposals ++ [⟨p.hash, p⟩], db.receipts ++ [receipt]⟩ := by
  simp only [rejectTransaction, bind_eq_ok] at h
  obtain ⟨db₁, h₁, h₂⟩ := h
  obtain ⟨-, rfl⟩ := insertProductProposal_ok h₁
  exact (insertProductReceipt_ok h₂).2

theorem commitTransaction_eq_ok {before : Hash}
    (h : commitTransaction now p before db = .ok (receipt, db')) :
    receipt.idempotencyKey = p.idempotencyKey ∧ receipt.outcome = .committed ∧
      ∃ skills, db' = ⟨⟨skills, db.tables.others⟩, db.proposals ++ [⟨p.hash, p⟩],
        db.receipts ++ [receipt]⟩ := by
  simp only [commitTransaction, bind_eq_ok, pure_eq_ok] at h
  obtain ⟨db₁, h₁, skills, _, db₂, h₂, h⟩ := h
  obtain ⟨-, rfl⟩ := insertProductProposal_ok h₁
  obtain ⟨-, rfl⟩ := insertProductReceipt_ok h₂
  obtain ⟨rfl, rfl⟩ := Prod.mk.inj h
  exact ⟨rfl, rfl, skills, rfl⟩

theorem advance_keyed {phase : Phase} {m : Move} (h : phase.advance db = some m)
    (hkeyed : PhaseKeyed phase) : PhaseKeyed m.phase := by
  cases phase with
  | idle => exact nomatch h
  | hashing c rows left =>
    cases left with
    | cons table left =>
      obtain rfl := Option.some.inj h
      trivial
    | nil =>
      simp only [Phase.advance] at h
      split at h <;> (obtain rfl := Option.some.inj h; trivial)
  | hashed c p rows =>
    simp only [Phase.advance] at h
    split at h <;> split at h <;> (obtain rfl := Option.some.inj h; trivial)
  | ready c p rows =>
    simp only [Phase.advance] at h
    split at h <;> (obtain rfl := Option.some.inj h; trivial)
  | rejecting c p rows reason =>
    simp only [Phase.advance] at h
    split at h
    · obtain rfl := Option.some.inj h
      trivial
    · obtain rfl := Option.some.inj h
      exact rfl
  | persisting c p receipt =>
    simp only [Phase.advance] at h
    split at h <;> (obtain rfl := Option.some.inj h; trivial)

theorem Answer.paired {phase : Phase} (h : Answer db phase db' receipt) (hkeyed : PhaseKeyed phase)
    (hpaired : Paired db) : Paired db' := by
  cases h with
  | replayed hdb _ _ =>
    rw [hdb]
    exact hpaired
  | keyReuse hdb =>
    rw [hdb]
    exact hpaired
  | prior hdb _ =>
    rw [hdb]
    exact hpaired
  | committed hcommit =>
    obtain ⟨hkey, -, skills, rfl⟩ := commitTransaction_eq_ok hcommit
    exact hpaired.append hkey
  | rejected hreject =>
    rw [rejectTransaction_eq_ok hreject]
    exact hpaired.append hkeyed

section

variable {ι : Type} [DecidableEq ι] {s t : Sys ι} {e : Event ι}

theorem Step.paired (h : Step s e t) (hkeyed : ∀ i, PhaseKeyed (s.phase i))
    (hpaired : Paired s.db) : (∀ i, PhaseKeyed (t.phase i)) ∧ Paired t.db := by
  have hphase : ∀ (i : ι) (phase : Phase), PhaseKeyed phase →
      ∀ j, PhaseKeyed (Function.update s.phase i phase j) := fun i phase hi =>
    (Function.forall_update_iff s.phase (p := fun _ q => PhaseKeyed q)).mpr
      ⟨hi, fun j _ => hkeyed j⟩
  have hmove : ∀ i m, (s.phase i).advance s.db = some m → Paired m.db := by
    intro i m hm
    by_cases hresult : ∃ receipt, m.result = some (.ok receipt)
    · obtain ⟨receipt, hresult⟩ := hresult
      exact (advance_answer hm hresult).paired (hkeyed i) hpaired
    · rw [advance_db hm fun receipt h => hresult ⟨receipt, h⟩]
      exact hpaired
  cases h with
  | call i c _ => exact ⟨hphase i _ trivial, hpaired⟩
  | move i m h _ => exact ⟨hphase i _ (advance_keyed h (hkeyed i)), hmove i m h⟩
  | finish i c m result h _ _ => exact ⟨hphase i _ (advance_keyed h (hkeyed i)), hmove i m h⟩
  | fail i c _ => exact ⟨hphase i _ trivial, hpaired⟩
  | others tables => exact ⟨hkeyed, hpaired⟩

/-- In every run, receipts and proposals are paired. -/
theorem Run.paired {steps : List (Taken ι)} (run : Run steps s) : Paired s.db := by
  have hall : (∀ i, PhaseKeyed (s.phase i)) ∧ Paired s.db := by
    induction run with
    | nil => exact ⟨fun _ => trivial, fun _ h => absurd h List.not_mem_nil⟩
    | snoc run h ih => exact h.paired ih.1 ih.2
  exact hall.2

end

/-! ### Answers -/

/-- What a proposal must find to be answered: a receipt under its key, or no proposal with its
identifier, and then versions that fit, unless it expects another state. -/
def Answerable (now : String) (p : ProductProposal) (db : ProductDb) : Prop :=
  (∃ r ∈ db.receipts, r.idempotencyKey = p.idempotencyKey) ∨
    (∀ row ∈ db.proposals, row.proposal.proposalId ≠ p.proposalId) ∧
      ((∃ expected ∈ p.expectedProductStateHash, expected ≠ db.stateHash) ∨
        Storable now p.proposedAt.text db.tables.skills p.operations.1)

theorem receiptByKey_eq_none {key : ProductKey} :
    receiptByKey db key = none ↔ ∀ r ∈ db.receipts, r.idempotencyKey ≠ key := by
  simp [receiptByKey]

/-- A proposal is inserted when its identifier is new: its key is, as it has no receipt. -/
theorem insertProductProposal_new (hpaired : Paired db)
    (hkey : receiptByKey db p.idempotencyKey = none) :
    insertProductProposal db p =
      if ∀ row ∈ db.proposals, row.proposal.proposalId ≠ p.proposalId then
        .ok { db with proposals := db.proposals ++ [⟨p.hash, p⟩] }
      else .error (.store .proposalIdReuse) := by
  have hkeys : ∀ row ∈ db.proposals, row.proposal.idempotencyKey ≠ p.idempotencyKey := by
    intro row hrow hsame
    obtain ⟨r, hr, hk⟩ := hpaired row hrow
    exact receiptByKey_eq_none.mp hkey r hr (hk.trans hsame)
  rw [insertProductProposal]
  split
  · next hids =>
    rw [ensure, if_pos fun row hrow => ⟨hids row hrow, hkeys row hrow⟩]
    rfl
  · next hids =>
    rw [ensure, if_neg fun h => hids fun row hrow => (h row hrow).1]
    rfl

/-- The receipt of a proposal whose key is new is inserted. -/
theorem insertProductReceipt_new {tables : ProductTables} {proposals : List ProposalRow}
    {outcome : ProductOutcome} {reason : Option ProductReason} {before after : Hash}
    (hids : FreshReceiptIds p db) (hkey : receiptByKey db p.idempotencyKey = none) :
    insertProductReceipt ⟨tables, proposals, db.receipts⟩
      (productReceipt p outcome reason before after) =
      .ok ⟨tables, proposals, db.receipts ++ [productReceipt p outcome reason before after]⟩ := by
  rw [insertProductReceipt, ensure, if_pos fun r hr =>
    ⟨hids r hr (receiptByKey_eq_none.mp hkey r hr) outcome reason before after,
      receiptByKey_eq_none.mp hkey r hr⟩]
  rfl

/-- A rejection of a proposal whose key is new raises when its identifier is not. -/
theorem persistProductRejection_idReuse {reason : ProductReason} (hpaired : Paired db)
    (hkey : receiptByKey db p.idempotencyKey = none)
    (hid : ¬∀ row ∈ db.proposals, row.proposal.proposalId ≠ p.proposalId) :
    persistProductRejection p reason db = .error (.raised (.store .proposalIdReuse)) := by
  simp only [persistProductRejection, hkey, rejectTransaction,
    insertProductProposal_new hpaired hkey, if_neg hid, error_bind]

theorem persistProductRejection_new {reason : ProductReason} (hpaired : Paired db)
    (hids : FreshReceiptIds p db) (hkey : receiptByKey db p.idempotencyKey = none)
    (hid : ∀ row ∈ db.proposals, row.proposal.proposalId ≠ p.proposalId) :
    ∃ receipt db', persistProductRejection p reason db = .ok (receipt, db') := by
  simp only [persistProductRejection, hkey, rejectTransaction,
    insertProductProposal_new hpaired hkey, if_pos hid, ok_bind, insertProductReceipt_new hids hkey]
  exact ⟨_, _, rfl⟩

/-- Who is answered has found what an answer needs. -/
theorem answerable_of_ok {result : ProductReceipt × ProductDb} (hpaired : Paired db)
    (h : commitValid now p db = .ok result) : Answerable now p db := by
  cases hkey : receiptByKey db p.idempotencyKey with
  | some prior => exact Or.inl ⟨prior, receiptByKey_eq_some hkey⟩
  | none =>
    simp only [commitValid, hkey] at h
    by_cases hid : ∀ row ∈ db.proposals, row.proposal.proposalId ≠ p.proposalId
    · refine Or.inr ⟨hid, ?_⟩
      by_cases hexpected : ∀ expected ∈ p.expectedProductStateHash, expected = db.stateHash
      · refine Or.inr ?_
        by_contra hnot
        cases hops : p.operations.1.foldlM (applySkillOperation now p.proposedAt.text)
            db.tables.skills with
        | ok skills => exact hnot (storable_of_ok hops)
        | error e =>
          rcases applyOperations_error hops with ⟨hall, _⟩ | ⟨_, rfl⟩
          · exact hnot hall
          · simp only [if_pos hexpected, commitTransaction, insertProductProposal_new hpaired hkey,
              if_pos hid, ok_bind, hops, error_bind] at h
            cases h
      · push Not at hexpected
        exact Or.inl hexpected
    · split at h
      · simp only [commitTransaction, insertProductProposal_new hpaired hkey, if_neg hid,
          error_bind] at h
        rw [persistProductRejection_idReuse hpaired hkey hid] at h
        cases h
      · rw [persistProductRejection_idReuse hpaired hkey hid] at h
        cases h

theorem ok_of_answerable (hpaired : Paired db) (hids : FreshReceiptIds p db)
    (h : Answerable now p db) : ∃ receipt db', commitValid now p db = .ok (receipt, db') := by
  cases hkey : receiptByKey db p.idempotencyKey with
  | some prior =>
    simp only [commitValid, hkey]
    split <;> exact ⟨_, _, rfl⟩
  | none =>
    rcases h with ⟨r, hr, hsame⟩ | ⟨hid, h⟩
    · exact absurd hsame (receiptByKey_eq_none.mp hkey r hr)
    · simp only [commitValid, hkey]
      split
      · next hexpected =>
        simp only [commitTransaction, insertProductProposal_new hpaired hkey, if_pos hid, ok_bind]
        cases hops : p.operations.1.foldlM (applySkillOperation now p.proposedAt.text)
            db.tables.skills with
        | ok skills =>
          simp only [ok_bind, insertProductReceipt_new hids hkey]
          exact ⟨_, _, rfl⟩
        | error e =>
          rcases applyOperations_error hops with ⟨_, reason, rfl⟩ | ⟨hnot, _⟩
          · exact persistProductRejection_new hpaired hids hkey hid
          · rcases h with ⟨expected, hmem, hne⟩ | hall
            · exact absurd (hexpected expected hmem) hne
            · exact absurd hall hnot
      · exact persistProductRejection_new hpaired hids hkey hid

/-- A call that does not commit leaves the skills. -/
theorem commitValid_skills (h : commitValid now p db = .ok (receipt, db'))
    (hnot : receipt.outcome ≠ .committed) : db'.tables = db.tables := by
  have hpersist : ∀ {reason}, persistProductRejection p reason db = .ok (receipt, db') →
      db'.tables = db.tables := by
    intro reason h
    unfold persistProductRejection at h
    split at h
    · obtain ⟨-, rfl⟩ := Prod.mk.inj (Except.ok.inj h)
      rfl
    · dsimp only at h
      split at h
      · next hreject =>
        obtain ⟨-, rfl⟩ := Prod.mk.inj (Except.ok.inj h)
        rw [rejectTransaction_eq_ok hreject]
      · exact nomatch h
  unfold commitValid at h
  split at h
  · split at h
    · obtain ⟨-, rfl⟩ := Prod.mk.inj (Except.ok.inj h)
      rfl
    · obtain ⟨-, rfl⟩ := Prod.mk.inj (Except.ok.inj h)
      rfl
  · split at h
    · split at h
      · next hcommit =>
        obtain rfl := Except.ok.inj h
        exact absurd (commitTransaction_eq_ok hcommit).2.1 hnot
      · exact hpersist h
      · exact nomatch h
    · exact hpersist h

end

section

variable [Host] {ι : Type} [DecidableEq ι]

theorem RawCall.commitProductProposal_eq_ok {c : RawCall} {db : ProductDb}
    {result : ProductReceipt × ProductDb} :
    c.commitProductProposal db = .ok result ↔ c.document.depth ≤ Host.recursionLimit ∧
      ∃ value p, c.document.toJson? = some value ∧ ProductProposal.codec.dec value = some p ∧
        commitValid c.now p db = .ok result := by
  unfold RawCall.commitProductProposal
  by_cases hdepth : Host.recursionLimit < c.document.depth
  · rw [if_pos hdepth]
    exact ⟨fun h => (nomatch h), fun h => absurd hdepth (not_lt.mpr h.1)⟩
  · rw [if_neg hdepth]
    cases hvalue : c.document.toJson? with
    | none => simp
    | some value =>
      cases hdec : ProductProposal.codec.dec value with
      | none => simp [hdec]
      | some p =>
        cases hcommit : commitValid c.now p db with
        | error e => simp [hdec, hcommit, Except.mapError]
        | ok r => simp [hdec, hcommit, Except.mapError, not_lt.mp hdepth]

end

/-! ### An identifier twice -/

section

attribute [local instance] Host.utc

/-- The call that brings a proposal. -/
def ProductProposal.rawCall (p : ProductProposal) : RawCall :=
  ⟨(ProductProposal.codec.enc p).raw, "2026-01-01T00:00:00Z"⟩

theorem toJson?_rawCall (p : ProductProposal) :
    p.rawCall.document.toJson? = some (ProductProposal.codec.enc p) :=
  JsonOf.toJson?_raw (ProductProposal.codec.sorted p)

theorem depth_rawCall_demo (key : ProductKey) (expected : Hash) :
    ({ demoProposal with idempotencyKey := key, expectedProductStateHash := some expected } :
      ProductProposal).rawCall.document.depth = 6 := rfl

/-- The proposal again, under another key. -/
def renamedProposal : ProductProposal :=
  { demoProposal with idempotencyKey := ⟨"key-0002", by decide⟩ }

/-- The proposal is committed, with its identifier and its key. -/
theorem run_committed : ∃ (steps : List (Taken Unit)) (s : Sys Unit), Run steps s ∧
    Paired s.db ∧ (∃ row ∈ s.db.proposals, row.proposal = demoProposal) ∧
      ∀ r ∈ s.db.receipts, r.idempotencyKey = demoProposal.idempotencyKey := by
  obtain ⟨steps, run, -⟩ := run_demo
  obtain ⟨receipt, db', hcommit⟩ := commit_demo demoCall.now ProductDb.empty.stateHash fun _ => []
  obtain ⟨hkey, -, skills, rfl⟩ := commitTransaction_eq_ok hcommit
  have hrun := run.snoc (.finish () demoCall _ _ (advance_commit hcommit) rfl rfl)
  refine ⟨_, _, hrun, hrun.paired, ⟨_, List.mem_append_right _ (List.mem_singleton.mpr rfl), rfl⟩,
    fun r hr => ?_⟩
  obtain rfl : r = receipt := by simpa using hr
  exact hkey

end

end SharedMind.Product
