import SharedMind.Product.System

/-!
# Linearizable product proposals

* `Taken.Linear`: what a step of linearizable calls keeps to.
* `Taken.Undisturbed`: when a transaction begins, the tables are as the call read them, and when a
  call turns to its rejection no other proposal was committed under its key.
* `product_linearizable`: a run of undisturbed steps is linearizable.
* `stale_hash_commits`: a proposal is committed on a state that is not the one it expects.
-/

namespace SharedMind.Product

open Py

variable {ι : Type} [DecidableEq ι]

/-! ### Steps -/

/-- The connection whose step it is. -/
def Event.connection? : Event ι → Option ι
  | .called i _ | .silent i | .ended i _ _ => some i
  | .others => none

namespace Taken

/-- The transaction of a call that commits its proposal. -/
def Commits (st : Taken ι) (p : ProductProposal) (receipt : ProductReceipt) : Prop :=
  ∃ i c rows, st.before.phase i = .ready c p rows ∧ st.event = .ended i c (.ok receipt)

/-- A proposal is committed on the state it expects, its receipt names the states around its
transaction, and a committed receipt is returned for its own proposal only. -/
structure Linear (st : Taken ι) : Prop where
  expected : ∀ p receipt, st.Commits p receipt → ∀ h ∈ p.expectedProductStateHash,
    h = st.before.db.stateHash
  around : ∀ p receipt, st.Commits p receipt → receipt.outcome = .committed ∧
    receipt.productStateHashBefore = st.before.db.stateHash ∧
    receipt.productStateHashAfter = st.after.db.stateHash
  returned : ∀ i c receipt, st.event = .ended i c (.ok receipt) → receipt.outcome = .committed →
    receipt.proposalHash = sha256Json c.document

/-- The tables hold what was read of them when a transaction begins, and a call that is about to be
rejected finds no proposal but its own committed under its key. -/
structure Undisturbed (st : Taken ι) : Prop where
  tables : ∀ i c p rows, st.event.connection? = some i → st.before.phase i = .ready c p rows →
    rows = st.before.db.tables.rows
  key : ∀ i c p rows reason, st.event.connection? = some i →
    st.before.phase i = .rejecting c p rows reason → ∀ receipt ∈ st.before.db.receipts,
      receipt.idempotencyKey = p.idempotencyKey → receipt.outcome = .committed →
        receipt.proposalHash = p.hash

end Taken

/-! ### Transactions -/

section

variable {db db' : ProductDb} {p : ProductProposal} {receipt : ProductReceipt}

theorem receiptByKey_eq_some {key : ProductKey} (h : receiptByKey db key = some receipt) :
    receipt ∈ db.receipts ∧ receipt.idempotencyKey = key :=
  ⟨List.mem_of_find?_eq_some h, by simpa using List.find?_some h⟩

theorem insertProductProposal_ok (h : insertProductProposal db p = .ok db') :
    (∀ row ∈ db.proposals, row.proposal.proposalId ≠ p.proposalId ∧
      row.proposal.idempotencyKey ≠ p.idempotencyKey) ∧
      db' = { db with proposals := db.proposals ++ [⟨p.hash, p⟩] } := by
  simp only [insertProductProposal, bind_eq_ok, ensure_eq_ok, pure_eq_ok] at h
  obtain ⟨_, hnew, rfl⟩ := h
  exact ⟨hnew, rfl⟩

theorem insertProductReceipt_ok (h : insertProductReceipt db receipt = .ok db') :
    (∀ row ∈ db.receipts, row.receiptId ≠ receipt.receiptId ∧
      row.idempotencyKey ≠ receipt.idempotencyKey) ∧
      db' = { db with receipts := db.receipts ++ [receipt] } := by
  simp only [insertProductReceipt, bind_eq_ok, ensure_eq_ok, pure_eq_ok] at h
  obtain ⟨_, hnew, rfl⟩ := h
  exact ⟨hnew, rfl⟩

/-- What the transaction of a commit leaves. -/
theorem commitTransaction_ok {now : String} {before : Hash}
    (h : commitTransaction now p before db = .ok (receipt, db')) :
    receipt = productReceipt p .committed none before db'.stateHash ∧
      db'.receipts = db.receipts ++ [receipt] := by
  simp only [commitTransaction, bind_eq_ok, pure_eq_ok] at h
  obtain ⟨db₁, h₁, skills, _, db₂, h₂, h⟩ := h
  obtain ⟨-, rfl⟩ := insertProductProposal_ok h₁
  obtain ⟨-, rfl⟩ := insertProductReceipt_ok h₂
  obtain ⟨rfl, rfl⟩ := Prod.mk.inj h
  exact ⟨rfl, rfl⟩

/-- What the transaction of a rejection leaves. -/
theorem rejectTransaction_ok (h : rejectTransaction p receipt db = .ok db') :
    db'.receipts = db.receipts ++ [receipt] := by
  simp only [rejectTransaction, bind_eq_ok] at h
  obtain ⟨db₁, h₁, h₂⟩ := h
  obtain ⟨-, rfl⟩ := insertProductProposal_ok h₁
  obtain ⟨-, rfl⟩ := insertProductReceipt_ok h₂
  rfl

/-- Where the receipt that ends a call comes from. -/
inductive Answer (db : ProductDb) : Phase → ProductDb → ProductReceipt → Prop
  | replayed {c p rows receipt db'} : db' = db → receiptByKey db p.idempotencyKey = some receipt →
      receipt.proposalHash = p.hash → Answer db (.hashed c p rows) db' receipt
  | keyReuse {c p rows prior db'} : db' = db → Answer db (.hashed c p rows) db'
      (keyReuseReceipt prior (productStateHash rows))
  | committed {c p rows receipt db'} :
      commitTransaction c.now p (productStateHash rows) db = .ok (receipt, db') →
      Answer db (.ready c p rows) db' receipt
  | prior {c p rows reason receipt db'} : db' = db →
      receiptByKey db p.idempotencyKey = some receipt →
      Answer db (.rejecting c p rows reason) db' receipt
  | rejected {c p receipt db'} : rejectTransaction p receipt db = .ok db' →
      Answer db (.persisting c p receipt) db' receipt

theorem advance_answer {phase : Phase} {m : Move} (h : phase.advance db = some m)
    (hresult : m.result = some (.ok receipt)) : Answer db phase m.db receipt := by
  cases phase with
  | idle => cases h
  | hashing c rows left =>
    cases left with
    | cons table left =>
      obtain rfl := Option.some.inj h
      cases hresult
    | nil =>
      simp only [Phase.advance] at h
      split at h <;> (obtain rfl := Option.some.inj h; cases hresult)
  | hashed c p rows =>
    simp only [Phase.advance] at h
    split at h
    · next prior hprior =>
      split at h
      · next hhash =>
        obtain rfl := Option.some.inj h
        obtain rfl := Except.ok.inj (Option.some.inj hresult)
        exact .replayed rfl hprior hhash
      · obtain rfl := Option.some.inj h
        obtain rfl := Except.ok.inj (Option.some.inj hresult)
        exact .keyReuse rfl
    · split at h <;> (obtain rfl := Option.some.inj h; cases hresult)
  | ready c p rows =>
    simp only [Phase.advance] at h
    split at h
    · next hcommit =>
      obtain rfl := Option.some.inj h
      obtain rfl := Except.ok.inj (Option.some.inj hresult)
      exact .committed hcommit
    · obtain rfl := Option.some.inj h
      cases hresult
    · obtain rfl := Option.some.inj h
      cases hresult
  | rejecting c p rows reason =>
    simp only [Phase.advance] at h
    split at h
    · next hprior =>
      obtain rfl := Option.some.inj h
      obtain rfl := Except.ok.inj (Option.some.inj hresult)
      exact .prior rfl hprior
    · obtain rfl := Option.some.inj h
      cases hresult
  | persisting c p r =>
    simp only [Phase.advance] at h
    split at h
    · next hreject =>
      obtain rfl := Option.some.inj h
      obtain rfl := Except.ok.inj (Option.some.inj hresult)
      exact .rejected hreject
    · obtain rfl := Option.some.inj h
      cases hresult

/-- A step that returns no receipt leaves the store. -/
theorem advance_db {phase : Phase} {m : Move} (h : phase.advance db = some m)
    (hresult : ∀ receipt, m.result ≠ some (.ok receipt)) : m.db = db := by
  cases phase with
  | idle => exact nomatch h
  | hashing c rows left =>
    cases left with
    | cons table left =>
      obtain rfl := Option.some.inj h
      rfl
    | nil =>
      simp only [Phase.advance] at h
      split at h <;> (obtain rfl := Option.some.inj h; rfl)
  | _ =>
    simp only [Phase.advance] at h
    repeat' split at h
    all_goals obtain rfl := Option.some.inj h
    all_goals first | rfl | exact absurd rfl (hresult _)

end

/-! ### Runs -/

section

variable {s t : Sys ι} {e : Event ι}

/-- The end of a call with a receipt. -/
theorem Step.ended_ok {i : ι} {c : ProductCall} {receipt : ProductReceipt}
    (h : Step s (.ended i c (.ok receipt)) t) :
    (s.phase i).call? = some c ∧ Answer s.db (s.phase i) t.db receipt := by
  cases h with
  | finish _ _ m _ h hresult hcall => exact ⟨hcall, advance_answer h hresult⟩

/-- A step of undisturbed calls. -/
theorem Step.linear (h : Step s e t) (hok : ∀ i, PhaseOk (s.phase i))
    (hund : Taken.Undisturbed ⟨s, e, t⟩) : Taken.Linear ⟨s, e, t⟩ := by
  have hcommit : ∀ p receipt, Taken.Commits ⟨s, e, t⟩ p receipt → ∃ rows,
      rows = s.db.tables.rows ∧ (∀ h ∈ p.expectedProductStateHash, h = productStateHash rows) ∧
        receipt = productReceipt p .committed none (productStateHash rows) t.db.stateHash := by
    rintro p receipt ⟨i, c, rows, hphase, hevent⟩
    obtain rfl : e = .ended i c (.ok receipt) := hevent
    have hrows := hund.tables i c p rows rfl hphase
    obtain ⟨-, hanswer⟩ := h.ended_ok
    have hready := hok i
    replace hphase : s.phase i = .ready c p rows := hphase
    rw [hphase] at hanswer hready
    cases hanswer with
    | committed hcommit => exact ⟨rows, hrows, hready.2, (commitTransaction_ok hcommit).1⟩
  refine ⟨?_, ?_, ?_⟩
  · intro p receipt hc
    obtain ⟨rows, rfl, hexpected, -⟩ := hcommit p receipt hc
    exact hexpected
  · intro p receipt hc
    obtain ⟨rows, rfl, -, rfl⟩ := hcommit p receipt hc
    exact ⟨rfl, rfl, rfl⟩
  · intro i c receipt hevent houtcome
    obtain rfl : e = .ended i c (.ok receipt) := hevent
    obtain ⟨hcall, hanswer⟩ := h.ended_ok
    have hphase := hok i
    have hkey := hund.key i
    cases hp : s.phase i with
    | idle =>
      rw [hp] at hcall
      exact nomatch hcall
    | hashing c' rows left =>
      rw [hp] at hanswer
      exact nomatch hanswer
    | hashed c' p rows =>
      rw [hp] at hanswer hphase hcall
      obtain rfl := Option.some.inj hcall
      cases hanswer with
      | replayed _ _ hhash => rw [hhash, hash_of_dec hphase]
      | keyReuse _ => exact nomatch houtcome
    | ready c' p rows =>
      rw [hp] at hanswer hphase hcall
      obtain rfl := Option.some.inj hcall
      cases hanswer with
      | committed hcommit =>
        rw [(commitTransaction_ok hcommit).1]
        exact hash_of_dec hphase.1
    | rejecting c' p rows reason =>
      rw [hp] at hanswer hphase hcall
      obtain rfl := Option.some.inj hcall
      cases hanswer with
      | prior _ hprior =>
        obtain ⟨hmem, hk⟩ := receiptByKey_eq_some hprior
        rw [hkey _ p rows reason rfl hp receipt hmem hk houtcome, hash_of_dec hphase]
    | persisting c' p r =>
      rw [hp] at hanswer hphase
      cases hanswer with
      | rejected _ => exact absurd houtcome hphase.2.1

/-- A committed receipt in the store was there before, or is that of the step. -/
theorem Step.committed_receipt (h : Step s e t) (hok : ∀ i, PhaseOk (s.phase i))
    {receipt : ProductReceipt} (hmem : receipt ∈ t.db.receipts) (hc : receipt.outcome = .committed) :
    receipt ∈ s.db.receipts ∨ ∃ p, Taken.Commits ⟨s, e, t⟩ p receipt := by
  cases h with
  | call i c _ => exact Or.inl hmem
  | move i m h hresult =>
    rw [advance_db h (by simp [hresult])] at hmem
    exact Or.inl hmem
  | fail i c _ => exact Or.inl hmem
  | others tables => exact Or.inl hmem
  | finish i c m result h hresult hcall =>
    cases result with
    | error exc =>
      rw [advance_db h (by simp [hresult])] at hmem
      exact Or.inl hmem
    | ok r =>
      have hanswer := advance_answer h hresult
      have hphase := hok i
      cases hp : s.phase i with
      | idle =>
        rw [hp] at hcall
        exact nomatch hcall
      | hashing c' rows left =>
        rw [hp] at hanswer
        exact nomatch hanswer
      | hashed c' p rows =>
        rw [hp] at hanswer
        have hdb : m.db = s.db := by cases hanswer <;> assumption
        rw [hdb] at hmem
        exact Or.inl hmem
      | rejecting c' p rows reason =>
        rw [hp] at hanswer
        have hdb : m.db = s.db := by cases hanswer; assumption
        rw [hdb] at hmem
        exact Or.inl hmem
      | ready c' p rows =>
        rw [hp] at hanswer hcall
        obtain rfl := Option.some.inj hcall
        cases hanswer with
        | committed hcommit =>
          rw [(commitTransaction_ok hcommit).2, List.mem_append, List.mem_singleton] at hmem
          refine hmem.imp_right fun hr => ⟨p, i, c', rows, hp, ?_⟩
          rw [hr]
      | persisting c' p r' =>
        rw [hp] at hanswer hphase
        cases hanswer with
        | rejected hreject =>
          rw [rejectTransaction_ok hreject, List.mem_append, List.mem_singleton] at hmem
          refine hmem.imp_right fun hr => ?_
          rw [hr] at hc
          exact absurd hc hphase.2.1

/-- **Product proposals are linearizable while undisturbed.**  In a run of any number of connections
whose steps are all undisturbed, every commit is on the state the proposal expects, every committed
receipt names the states around its transaction, and no call is answered with the committed receipt
of another proposal. -/
theorem product_linearizable {steps : List (Taken ι)} (run : Run steps s)
    (h : ∀ st ∈ steps, st.Undisturbed) :
    (∀ st ∈ steps, st.Linear) ∧ ∀ receipt ∈ s.db.receipts, receipt.outcome = .committed →
      ∃ st ∈ steps, ∃ p, st.Commits p receipt := by
  induction run with
  | nil => exact ⟨by simp, by simp [Sys.start, ProductDb.empty]⟩
  | snoc run hstep ih =>
    rw [List.forall_mem_append, List.forall_mem_singleton] at h
    obtain ⟨hlinear, hreceipts⟩ := ih h.1
    refine ⟨?_, fun receipt hmem hc => ?_⟩
    · rw [List.forall_mem_append, List.forall_mem_singleton]
      exact ⟨hlinear, hstep.linear run.phaseOk h.2⟩
    · rcases hstep.committed_receipt run.phaseOk hmem hc with hmem | ⟨p, hp⟩
      · obtain ⟨st, hst, p, hp⟩ := hreceipts receipt hmem hc
        exact ⟨st, List.mem_append_left _ hst, p, hp⟩
      · exact ⟨_, List.mem_append_right _ (List.mem_singleton_self _), p, hp⟩

end

/-! ### A call up to its transaction -/

section

variable {s : Sys ι} {steps : List (Taken ι)} {i : ι} {c : ProductCall} {p : ProductProposal}

omit [DecidableEq ι] in
/-- A step of a connection that neither begins a transaction nor turns to a rejection. -/
theorem undisturbed_of_phase {s t : Sys ι} {e : Event ι} {phase : Phase}
    (hi : e.connection? = some i) (hphase : s.phase i = phase)
    (hready : ∀ c p rows, phase ≠ .ready c p rows)
    (hrejecting : ∀ c p rows reason, phase ≠ .rejecting c p rows reason) :
    Taken.Undisturbed ⟨s, e, t⟩ := by
  refine ⟨fun j c p rows hj h => ?_, fun j c p rows reason hj h => ?_⟩
  · obtain rfl := Option.some.inj (hi.symm.trans hj)
    exact absurd (hphase.symm.trans h) (hready c p rows)
  · obtain rfl := Option.some.inj (hi.symm.trans hj)
    exact absurd (hphase.symm.trans h) (hrejecting c p rows reason)

/-- Steps of an undisturbed run that go on from `s` to `t`. -/
def Continues (s t : Sys ι) : Prop :=
  ∀ steps, Run steps s → (∀ st ∈ steps, st.Undisturbed) →
    ∃ steps', Run steps' t ∧ ∀ st ∈ steps', st.Undisturbed

theorem Continues.trans {s t u : Sys ι} (h : Continues s t) (h' : Continues t u) :
    Continues s u := by
  intro steps run hund
  obtain ⟨steps', run', hund'⟩ := h steps run hund
  exact h' steps' run' hund'

theorem Step.continues {t : Sys ι} {e : Event ι} (h : Step s e t)
    (hund : Taken.Undisturbed ⟨s, e, t⟩) : Continues s t := by
  intro steps run hsteps
  refine ⟨_, run.snoc h, ?_⟩
  rw [List.forall_mem_append, List.forall_mem_singleton]
  exact ⟨hsteps, hund⟩

/-- A silent step of a connection whose phase is known. -/
theorem continues_silent {db : ProductDb} {phases : ι → Phase} {phase next : Phase}
    (h : phase.advance db = some ⟨db, next, none⟩)
    (hready : ∀ c p rows, phase ≠ .ready c p rows)
    (hrejecting : ∀ c p rows reason, phase ≠ .rejecting c p rows reason) :
    Continues (⟨db, Function.update phases i phase⟩ : Sys ι)
      ⟨db, Function.update phases i next⟩ := by
  have hphase : Function.update phases i phase i = phase := Function.update_self ..
  have hstep : Step (⟨db, Function.update phases i phase⟩ : Sys ι) (.silent i)
      ⟨db, Function.update (Function.update phases i phase) i next⟩ :=
    .move i ⟨db, next, none⟩ ((congrArg (Phase.advance db) hphase).trans h) rfl
  rw [Function.update_idem] at hstep
  exact hstep.continues (undisturbed_of_phase rfl hphase hready hrejecting)

/-- The rows once the tables that were left are read. -/
def readAll (db : ProductDb) (rows : RowsRead) (left : List ProductTable) : RowsRead :=
  left.foldl (fun rows table => Function.update rows table (db.tables.rows table)) rows

theorem readAll_all (db : ProductDb) (rows : RowsRead) :
    readAll db rows ProductTable.all = db.tables.rows := by
  funext table
  rcases table with _ | table
  · rfl
  · cases table <;> rfl

theorem continues_hashing {db : ProductDb} {phases : ι → Phase} {rows : RowsRead}
    {left : List ProductTable} :
    Continues (⟨db, Function.update phases i (.hashing c rows left)⟩ : Sys ι)
      ⟨db, Function.update phases i (.hashing c (readAll db rows left) [])⟩ := by
  induction left generalizing rows with
  | nil => exact fun steps run hund => ⟨steps, run, hund⟩
  | cons table left ih =>
    exact (continues_silent rfl (by simp) (by simp)).trans ih

/-- A call whose key is new and that expects the state it finds comes to its transaction. -/
theorem continues_ready (hidle : s.phase i = .idle)
    (hdec : ProductProposal.codec.dec c.document = some p)
    (hkey : receiptByKey s.db p.idempotencyKey = none)
    (hexpected : ∀ expected ∈ p.expectedProductStateHash, expected = s.db.stateHash) :
    Continues s ⟨s.db, Function.update s.phase i (.ready c p s.db.tables.rows)⟩ := by
  have hund : Taken.Undisturbed ⟨s, .called i c,
      ⟨s.db, Function.update s.phase i (.hashing c (fun _ => []) ProductTable.all)⟩⟩ :=
    undisturbed_of_phase rfl hidle (by simp) (by simp)
  have hcall := (Step.call i c hidle).continues hund
  refine (hcall.trans continues_hashing).trans ?_
  rw [readAll_all]
  have hhashed : Phase.advance s.db (.hashing c s.db.tables.rows []) =
      some ⟨s.db, .hashed c p s.db.tables.rows, none⟩ := by
    simp only [Phase.advance, hdec]
  have hready : Phase.advance s.db (.hashed c p s.db.tables.rows) =
      some ⟨s.db, .ready c p s.db.tables.rows, none⟩ := by
    simp only [Phase.advance, hkey]
    exact if_pos hexpected
  exact (continues_silent hhashed (by simp) (by simp)).trans
    (continues_silent hready (by simp) (by simp))

end

/-! ### A proposal -/

def zeroDigest : Hash :=
  ⟨"sha256:0000000000000000000000000000000000000000000000000000000000000000", by decide +kernel⟩

def demoMoment : Timestamp := ⟨"2026-01-01T00:00:00Z", by decide +kernel⟩

def demoSkill : SkillRecord where
  contentHash := zeroDigest
  createdAt := demoMoment
  document := .empty
  expectedOutputs := []
  preconditions := []
  provenance := .empty
  purpose := ⟨"p", by decide⟩
  resources := []
  skillId := ⟨"skill:s", by decide⟩
  status := .draft
  steps := ⟨[⟨"s", by decide⟩], by decide⟩
  triggers := ⟨[⟨"t", by decide⟩], by decide⟩
  updatedAt := demoMoment
  validationRules := ⟨[.empty], by simp⟩
  version := .first

/-- A skill is created in an empty store. -/
def demoProposal : ProductProposal where
  expectedProductStateHash := some ProductDb.empty.stateHash
  idempotencyKey := ⟨"key-0001", by decide +kernel⟩
  operations := ⟨[.createSkill ⟨"product_op_000000000000000000000000", by decide +kernel⟩ demoSkill],
    by simp⟩
  proposalId := ⟨"product_proposal_000000000000000000000000", by decide +kernel⟩
  proposedAt := demoMoment
  proposer := ⟨"user:ada", by decide +kernel⟩

def demoCall : ProductCall :=
  ⟨ProductProposal.codec.enc demoProposal, ProductProposal.codec.sorted _, "2026-01-01T00:00:00Z"⟩

theorem putSkill_demo (now : String) : ∃ skills, putSkill now ∅ demoSkill = .ok skills := by
  have hversion : versionOf demoSkill.version ≤ maxRowId := by
    simp [demoSkill, AtLeast.first, AtLeast.ofInt, versionOf, maxRowId]
  cases hput : putSkill now ∅ demoSkill with
  | ok skills => exact ⟨skills, rfl⟩
  | error e =>
    simp only [putSkill, Table.get_empty, bind_eq_error, ensure_eq_error] at hput
    rcases hput with ⟨h, _⟩ | ⟨_, _, h⟩
    · exact absurd hversion h
    · cases h

/-- What commits in a store that holds nothing of proposals. -/
theorem commitTransaction_fresh {now : String} {p : ProductProposal} {skills : SkillTable}
    (before : Hash) (others : OtherTable → List Json)
    (hops : p.operations.1.foldlM (applySkillOperation now p.proposedAt.text) ∅ = .ok skills) :
    ∃ receipt db', commitTransaction now p before ⟨⟨∅, others⟩, [], []⟩ = .ok (receipt, db') ∧
      receipt.outcome = .committed ∧ db'.tables.skills = skills := by
  let proposed : ProductDb := ⟨⟨∅, others⟩, [⟨p.hash, p⟩], []⟩
  have hproposed : insertProductProposal ⟨⟨∅, others⟩, [], []⟩ p = .ok proposed :=
    bind_eq_ok.mpr ⟨(), ensure_eq_ok.mpr (by simp), rfl⟩
  let applied : ProductDb := { proposed with tables := ⟨skills, others⟩ }
  let receipt := productReceipt p .committed none before applied.stateHash
  have hreceipt : insertProductReceipt applied receipt =
      .ok { applied with receipts := [receipt] } :=
    bind_eq_ok.mpr ⟨(), ensure_eq_ok.mpr (by simp [applied, proposed]), rfl⟩
  exact ⟨receipt, _, bind_eq_ok.mpr ⟨_, hproposed, bind_eq_ok.mpr ⟨_, hops,
    bind_eq_ok.mpr ⟨_, hreceipt, rfl⟩⟩⟩, rfl, rfl⟩

/-- The proposal commits in a store without skills. -/
theorem commit_demo (now : String) (before : Hash) (others : OtherTable → List Json) :
    ∃ receipt db', commitTransaction now demoProposal before ⟨⟨∅, others⟩, [], []⟩ =
      .ok (receipt, db') := by
  obtain ⟨skills, hskills⟩ := putSkill_demo now
  have hops : demoProposal.operations.1.foldlM
      (applySkillOperation now demoProposal.proposedAt.text) ∅ = .ok skills :=
    bind_eq_ok.mpr ⟨skills, hskills, rfl⟩
  obtain ⟨receipt, db', hcommit, -⟩ := commitTransaction_fresh before others hops
  exact ⟨receipt, db', hcommit⟩

theorem advance_commit {db db' : ProductDb} {c : ProductCall} {p : ProductProposal}
    {rows : RowsRead} {receipt : ProductReceipt}
    (h : commitTransaction c.now p (productStateHash rows) db = .ok (receipt, db')) :
    (Phase.ready c p rows).advance db = some ⟨db', .idle, some (.ok receipt)⟩ := by
  simp only [Phase.advance, h]

/-- One connection that has read an empty store and is about to commit, over some other tables. -/
def demoReady (others : OtherTable → List Json) : Sys Unit :=
  ⟨⟨⟨∅, others⟩, [], []⟩, fun _ => .ready demoCall demoProposal ProductDb.empty.tables.rows⟩

theorem step_demo (others : OtherTable → List Json) : ∃ receipt t,
    Step (demoReady others) (.ended () demoCall (.ok receipt)) t ∧ receipt ∈ t.db.receipts ∧
      receipt.productStateHashBefore = ProductDb.empty.stateHash := by
  obtain ⟨receipt, db', hcommit⟩ := commit_demo demoCall.now ProductDb.empty.stateHash others
  obtain ⟨hreceipt, hreceipts⟩ := commitTransaction_ok hcommit
  have hadvance : ((demoReady others).phase ()).advance (demoReady others).db =
      some ⟨db', .idle, some (.ok receipt)⟩ := advance_commit hcommit
  refine ⟨receipt, _, .finish () demoCall _ _ hadvance rfl rfl, ?_, ?_⟩
  · show receipt ∈ db'.receipts
    rw [hreceipts]
    simp
  · rw [hreceipt]
    rfl

theorem run_demo : ∃ steps, Run steps (demoReady fun _ => []) ∧
    ∀ st ∈ steps, st.Undisturbed := by
  have h : Continues (Sys.start : Sys Unit) _ := continues_ready (i := ()) (c := demoCall) rfl
    (ProductProposal.codec.dec_enc demoProposal) rfl fun _ h => (Option.some.inj h).symm
  obtain ⟨steps, run, hund⟩ := h [] .nil (by simp)
  have hphase : Function.update (Sys.start : Sys Unit).phase ()
      (.ready demoCall demoProposal (Sys.start : Sys Unit).db.tables.rows) =
      fun _ => .ready demoCall demoProposal ProductDb.empty.tables.rows := by
    funext i
    exact Function.update_self ..
  rw [hphase] at run
  exact ⟨steps, run, hund⟩

/-- One connection alone: its commit is linear. -/
theorem product_linearizable_demo : ∃ (steps : List (Taken Unit)) (s : Sys Unit),
    s.db.receipts ≠ [] ∧ (∀ st ∈ steps, st.Linear) ∧
      ∀ receipt ∈ s.db.receipts, receipt.outcome = .committed →
        ∃ st ∈ steps, ∃ p, st.Commits p receipt := by
  obtain ⟨steps, run, hund⟩ := run_demo
  obtain ⟨receipt, t, hstep, hmem, -⟩ := step_demo fun _ => []
  have hlast : Taken.Undisturbed ⟨demoReady fun _ => [], .ended () demoCall (.ok receipt), t⟩ := by
    refine ⟨fun i c p rows _ hphase => ?_, fun i c p rows reason _ hphase => nomatch hphase⟩
    obtain ⟨-, -, rfl⟩ := Phase.ready.inj hphase
    rfl
  refine ⟨_, t, List.ne_nil_of_mem hmem, product_linearizable (run.snoc hstep) ?_⟩
  rw [List.forall_mem_append, List.forall_mem_singleton]
  exact ⟨hund, hlast⟩

/-! ### A stale state -/

/-- `links` with one row, the other tables empty. -/
def oneLink : OtherTable → List Json
  | .links => [.obj [("metadata", .str "{}"), ("relation", .str "r"), ("source_id", .str "a"),
      ("target_id", .str "b")]]
  | _ => []

theorem rows_noSkills (others : OtherTable → List Json) :
    (⟨∅, others⟩ : ProductTables).rows .skills = [] := by
  have hempty : (∅ : SkillTable).toList = [] := by
    rw [List.eq_nil_iff_forall_not_mem]
    rintro ⟨key, row⟩ h
    exact absurd (Table.mem_toList.mp h) (by rw [Table.get_empty]; exact nofun)
  rw [ProductTables.rows, hempty]
  rfl

theorem oneLink_hash : ProductDb.empty.stateHash ≠ (demoReady oneLink).db.stateHash := by
  intro h
  have hdigits := congrArg Hash.digits h
  rw [ProductDb.stateHash, ProductDb.stateHash, productStateHash, productStateHash] at hdigits
  have hempty : ProductDb.empty.tables.rows .skills = [] := rows_noSkills _
  have hlinked : (demoReady oneLink).db.tables.rows .skills = [] := rows_noSkills _
  rw [hempty, hlinked, sha256Json, sha256Json, sha256Bytes_digits, sha256Bytes_digits,
    JsonOf.dumps, JsonOf.dumps, utf8_ofList, utf8_ofList] at hdigits
  revert hdigits
  decide +kernel

/-- **A proposal is committed on a state it does not expect.**  Links are rebuilt after the state
was hashed and before the transaction; the proposal commits, and its receipt names the old state. -/
theorem stale_hash_commits : ∃ (steps : List (Taken Unit)) (s : Sys Unit), Run steps s ∧
    ∃ st ∈ steps, ∃ receipt, st.Commits demoProposal receipt ∧
      (∀ h ∈ demoProposal.expectedProductStateHash, h ≠ st.before.db.stateHash) ∧
      receipt.productStateHashBefore ≠ st.before.db.stateHash := by
  obtain ⟨steps, run, -⟩ := run_demo
  obtain ⟨receipt, t, hstep, -, hbefore⟩ := step_demo oneLink
  have hlinks : Step (demoReady fun _ => []) .others (demoReady oneLink) := .others oneLink
  refine ⟨_, t, (run.snoc hlinks).snoc hstep, ⟨_, _, t⟩,
    List.mem_append_right _ (List.mem_singleton_self _), receipt, ⟨(), _, _, rfl, rfl⟩, ?_, ?_⟩
  · intro h hh
    rw [← Option.some.inj hh]
    exact oneLink_hash
  · rw [hbefore]
    exact oneLink_hash

end SharedMind.Product
