import SharedMind.Kernel.Accepting
import SharedMind.Law.Total
import SharedMind.Law.EventsValid
import SharedMind.Law.NoLostUpdate
import SharedMind.Law.OneOutcome
import SharedMind.Service.WorkItems

/-!
# What the kernel makes of a status proposal

A work item once had the row that a session saw.

* `Had`: since then it has that row, or one of a larger version.
* `StatusRequest.typed`: the proposal of a session is one the contract admits.
* `status_accepted`: **as long as the work item has that row the proposal is accepted**.
* `status_conflicts`: **once the work item has another row it meets a transaction conflict**.
-/

namespace SharedMind.Service

open Py

/-! ### Rows that were seen -/

/-- What a session sees of a row. -/
def seenRow (row : WorkItemRow) : Seen := ⟨row.version, row.status.text⟩

/-- A row a work item had, and what it has now. -/
structure Had (t : Tables) (id : RecordId) (row : WorkItemRow) : Prop where
  sound : row.Sound id
  now : ∃ row', t.workItems[id]? = some row' ∧ (row' = row ∨ row.version < row'.version)

theorem Had.advance {t u : Tables} {id : RecordId} {row : WorkItemRow} (h : Had t id row)
    (hadv : t.Advance u) : Had u id row := by
  obtain ⟨mid, hmid, hrow⟩ := h.now
  obtain ⟨row', hrow', hkept⟩ := hadv.workItems id mid hmid
  refine ⟨h.sound, row', hrow', ?_⟩
  rcases hkept with rfl | hlt
  · exact hrow
  · rcases hrow with rfl | hlt'
    · exact Or.inr hlt
    · exact Or.inr (lt_trans hlt' hlt)

theorem version_pos {id : RecordId} {row : WorkItemRow} (h : row.Sound id) : 1 ≤ row.version := by
  have hversion := h.version
  rw [AtLeast.eqInt, PyNum.pyEq_int_iff] at hversion
  have hleast := row.document.version.2
  rw [atLeast, hversion] at hleast
  simp only [Option.any_some, decide_eq_true_eq] at hleast
  omega

/-! ### The proposal -/

section

variable {stem : String} {value : Json} {n : Nat}

theorem length_take_digits (hn : n ≤ 64) : ((sha256Json value).digits.take n).length = n := by
  rw [List.length_take, sha256Json, sha256Bytes_digits, sha256Hex_length]
  omega

theorem isHexChar_of_digits : ∀ c ∈ (sha256Json value).digits.take n, isHexChar c = true := by
  intro c hc
  rw [sha256Json, sha256Bytes_digits] at hc
  exact sha256Hex_digit _ c (List.mem_of_mem_take hc)

/-- A stem and some digits of a fingerprint are a record identifier. -/
theorem named_recordId (hstem : matchPieces recordIdStem stem.toList = true) (hlo : 8 ≤ n)
    (hhi : n ≤ 64) : recordIdPattern.fullmatch (named stem (sha256Json value).digits n) = true := by
  have hlength := @length_take_digits value n hhi
  apply recordId_admitted hstem
  · omega
  · omega
  · exact fun c hc => alnumChar_of_isHexChar (isHexChar_of_digits c hc)

/-- A stem and some digits of a fingerprint are an idempotency key. -/
theorem named_key (hstem : stem.toList.all (orElse lowerChar (oneOf "._:-")) = true)
    (hlength : stem.toList.length ≤ 64) (hlo : 8 ≤ n) (hhi : n ≤ 64) :
    idempotencyKeyPattern.fullmatch (named stem (sha256Json value).digits n) = true := by
  rw [Pattern.fullmatch, named, String.toList_ofList, Pattern.matches_, idempotencyKeyPattern,
    List.any_cons, Bool.or_eq_true]
  left
  have htake := @length_take_digits value n hhi
  apply matchPieces_singleton
  · rw [List.length_append, htake]
    simp only [Piece.admits, Bool.and_eq_true, decide_eq_true_eq, Option.all_some]
    omega
  · rw [List.all_append, Bool.and_eq_true, List.all_eq_true, List.all_eq_true]
    refine ⟨fun c hc => ?_, fun c hc => ?_⟩
    · have hstem := List.all_eq_true.mp hstem c hc
      simp only [orElse, Bool.or_eq_true] at hstem ⊢
      tauto
    · have halnum := alnumChar_of_isHexChar (isHexChar_of_digits c hc)
      simp only [alnumChar, orElse, Bool.or_eq_true] at halnum ⊢
      tauto

end

section

variable (reg : Registry) (r : StatusRequest) (row : WorkItemRow) (root : Hash)
  (proposedAt updatedAt : String)

theorem conflictRules_search : ruleVersionPattern.search "conflict-rules@1" = true := by decide

theorem projection_search : ruleVersionPattern.search "markdown-projection@3" = true := by decide

theorem schema_search : semVerPattern.search "1.3.0" = true := by decide

/-- `current_version_bundle`, as the contract reads it. -/
def currentVersions : VersionBundle :=
  ⟨⟨⟨"conflict-rules@1", conflictRules_search⟩, reg.guardDslVersion, reg.version, some reg.hash,
    ⟨"markdown-projection@3", projection_search⟩, ⟨"1.3.0", schema_search⟩⟩, fun _ => rfl⟩

theorem currentVersions_enc :
    VersionBundle.codec.enc (currentVersions reg) = currentVersionBundle reg := rfl

theorem validateVersions_current : validateVersions reg (currentVersions reg) = .ok () := by
  simp only [validateVersions, bind_eq_ok, require_eq_ok]
  exact ⟨(), rfl, (), rfl, (), rfl, (), rfl, (), rfl, rfl⟩

namespace StatusRequest

/-- The operation of a session that saw a row. -/
def operation : UpdateWorkItemStatus :=
  ⟨{ blocker := r.blocker
     newStatus := r.status
     opId := ⟨named "operation_progress_" (r.fingerprint row.version) 32,
       Pattern.search_of_fullmatch (named_recordId (by decide) (by omega) (by omega))⟩
     rationale := r.rationale
     targetWorkItemId := r.workItemId
     updatedAt := updatedAt
     updatedBy := r.actor }, r.goes⟩

def guards (hpos : 1 ≤ (row.version : Int)) : List Guard :=
  [.workItemStatusEq row.status r.workItemId,
    .workItemVersionEq (AtLeast.ofInt row.version hpos) r.workItemId]

theorem guards_unique (hpos : 1 ≤ (row.version : Int)) :
    Guard.codec.UniqueItems (r.guards row hpos) := by
  refine List.pairwise_pair.mpr ?_
  rfl

/-- The proposal of a session that saw a row, as the contract reads it. -/
def typed (hpos : 1 ≤ (row.version : Int)) : Proposal where
  baseStateRoot := some root
  guards := ⟨r.guards row hpos, r.guards_unique row hpos⟩
  idempotencyKey := ⟨named "progress-" (r.fingerprint row.version) 48,
    Pattern.search_of_fullmatch (named_key (by decide) (by decide) (by omega) (by omega))⟩
  operations := ⟨[.updateWorkItemStatus (r.operation row updatedAt)], by simp⟩
  proposalId := ⟨named "proposal_progress_" (r.fingerprint row.version) 32,
    Pattern.search_of_fullmatch (named_recordId (by decide) (by omega) (by omega))⟩
  proposedAt := proposedAt
  proposer := r.actor
  reads := ⟨[.aggregate ⟨r.workItemId, .workItem, AtLeast.ofInt row.version (by omega)⟩],
    List.pairwise_singleton _ _⟩
  versions := currentVersions reg

theorem typed_enc (hpos : 1 ≤ (row.version : Int)) :
    Proposal.codec.enc (r.typed reg row root proposedAt updatedAt hpos) =
      r.proposal reg (seenRow row) root proposedAt updatedAt := by
  obtain ⟨_, _, _, blocker, _, _⟩ := r
  cases blocker <;> rfl

end StatusRequest

end

/-! ### What becomes of it -/

section

variable [Host] {reg : Registry} {r : StatusRequest} {row : WorkItemRow} {root : Hash}
  {proposedAt updatedAt : String} {hpos : 1 ≤ (row.version : Int)} {t : Tables}

omit [Host] in
theorem validateVersion_eq_ok {version : Option Nat} {n : Nat} {code : ReasonCode} :
    validateVersion version (.int n) code = .ok () ↔ version = some n := by
  rw [validateVersion, requireNow_eq_ok]
  constructor
  · intro h
    obtain ⟨v, hv, hpy⟩ := h
    rw [PyNum.pyEq_int_iff, PyNum.toInt?_int, Option.some.injEq] at hpy
    rw [Option.mem_def.mp hv, Int.ofNat.inj hpy]
  · intro h
    refine ⟨n, Option.mem_def.mpr h, ?_⟩
    rw [PyNum.pyEq_int_iff, PyNum.toInt?_int]

/-- The proposal passes the checks as long as the work item has the row that was seen. -/
theorem typed_checked (hrow : t.workItems[r.workItemId]? = some row) :
    validateProposal reg t (r.typed reg row root proposedAt updatedAt hpos) = .ok () := by
  have hversion : t.workItems[r.workItemId]?.map WorkItemRow.version = some row.version := by
    rw [hrow]
    rfl
  have hstatus : t.workItems[r.workItemId]?.map WorkItemRow.status = some row.status := by
    rw [hrow]
    rfl
  simp only [validateProposal, bind_eq_ok]
  refine ⟨(), validateVersions_current reg, (), ?_, (), ?_, ?_⟩
  · rw [validateRequiredOperationReads, forM_eq_ok]
    intro op hop
    obtain rfl := List.mem_singleton.mp hop
    exact require_eq_ok.mpr (List.mem_singleton_self _)
  · simp only [validateReadsAndGuards, bind_eq_ok, forM_eq_ok]
    refine ⟨(), fun read hread => ?_, fun g hg => ?_⟩
    · obtain rfl := List.mem_singleton.mp hread
      exact validateVersion_eq_ok.mpr hversion
    · rcases List.mem_pair.mp hg with rfl | rfl
      · exact requireNow_eq_ok.mpr hstatus
      · exact validateVersion_eq_ok.mpr hversion
  · rfl

/-- It does not pass them once the work item has another row. -/
theorem typed_refused {row' : WorkItemRow} (hrow : t.workItems[r.workItemId]? = some row')
    (hlt : row.version < row'.version) :
    validateProposal reg t (r.typed reg row root proposedAt updatedAt hpos) =
      .error (.transactionConflict .workItemVersionMismatch) := by
  have hreads : validateRequiredOperationReads
      (r.typed reg row root proposedAt updatedAt hpos) = .ok () := by
    rw [validateRequiredOperationReads, forM_eq_ok]
    intro op hop
    obtain rfl := List.mem_singleton.mp hop
    exact require_eq_ok.mpr (List.mem_singleton_self _)
  have hread : validateRead reg t (.aggregate ⟨r.workItemId, .workItem,
      AtLeast.ofInt row.version (by omega)⟩) =
      .error (.transactionConflict .workItemVersionMismatch) := by
    refine ensure_eq_error.mpr ⟨fun h => ?_, rfl⟩
    obtain ⟨v, hv, hpy⟩ := h
    have hv : t.workItems[r.workItemId]?.map WorkItemRow.version = some v := hv
    rw [hrow] at hv
    obtain rfl : row'.version = v := Option.some.inj hv
    have hpy : (PyNum.int row.version).pyEq (.int row'.version) = true := hpy
    rw [PyNum.pyEq_int_iff, PyNum.toInt?_int, Option.some.injEq] at hpy
    omega
  have hall : validateReadsAndGuards reg t (r.typed reg row root proposedAt updatedAt hpos) =
      .error (.transactionConflict .workItemVersionMismatch) := by
    show ((validateRead reg t _ >>= fun _ => _) >>= fun _ => _) = _
    rw [hread]
    rfl
  rw [validateProposal, hreads, hall]
  show (validateVersions reg (currentVersions reg) >>= fun _ => _) = _
  rw [validateVersions_current]
  rfl

/-- What the operation makes of the tables, and its event. -/
theorem typed_applies {n : Nat} (hrow : t.workItems[r.workItemId]? = some row) :
    ∃ w, applyOperations reg (r.typed reg row root proposedAt updatedAt hpos).proposer n t
      (r.typed reg row root proposedAt updatedAt hpos).operations.1 = .ok w ∧ w.conflictIds = [] ∧
      w.events ≠ [] := by
  obtain ⟨w, hw⟩ : ∃ w, updateWorkItemStatus ⟨t, [], []⟩ r.workItemId r.status r.blocker
      r.rationale r.actor updatedAt = .ok w :=
    ⟨_, updateWorkItemStatus_eq_ok.mpr ⟨r.goes, row, hrow, rfl⟩⟩
  have happly : applyOperations reg r.actor n t
      [.updateWorkItemStatus (r.operation row updatedAt)] = .ok w := by
    rw [applyOperations, List.foldlM_cons, bind_eq_ok]
    exact ⟨w, hw, rfl⟩
  obtain ⟨_, _, _, rfl⟩ := updateWorkItemStatus_eq_ok.mp hw
  exact ⟨_, happly, rfl, List.cons_ne_nil _ _⟩

end

/-! ### The transaction -/

/-- A database that takes a proposal under a new key: numbers are left, no receipt has the key,
and no entry has the hash of the proposal's entry. -/
structure Open [Host] (reg : Registry) (db : Db) (hash : Hash) (value : Json) : Prop where
  numbers : db.HasNumbers
  unused : ∀ row ∈ db.receipts, value.get? "idempotency_key" ≠ some (.str row.idempotencyKey)
  unique : evaluate reg db value hash ≠ .error (.integrityError .unique)

section

variable [Host] {reg : Registry} {r : StatusRequest} {row : WorkItemRow} {root : Hash}
  {proposedAt updatedAt : String} {c : Call} {db : Db} {value : Json}

/-- The key of a proposal that is read from its call, and nobody has brought. -/
theorem unused_key {p : Proposal} (hjson : c.proposal.toJson? = some (Proposal.codec.enc p))
    (hopen : Open reg db (sha256Json (Proposal.codec.enc p)) (Proposal.codec.enc p)) :
    columnText c.idempotencyKey = .ok (some (p.idempotencyKey : String)) ∧
      ∀ row ∈ db.receipts, row.idempotencyKey ≠ p.idempotencyKey := by
  refine ⟨by rw [idempotencyKey_of_toJson? hjson, columnText_str], fun row hrow heq => ?_⟩
  refine hopen.unused row hrow ?_
  rw [heq]
  rfl

/-- An entry that does not meet an older one. -/
theorem entry_new {p : Proposal} {w : Txn} (hroom : db.HasRoom)
    (hchecked : validateProposal reg db.tables p = .ok ())
    (happly : applyOperations reg p.proposer (nextLedgerSeq db.ledger) db.tables p.operations.1 =
      .ok w)
    (hevents : w.events ≠ []) (hvalid : ∀ ev ∈ w.events, ev.Valid)
    (hunique : evaluate reg db (Proposal.codec.enc p) (sha256Json (Proposal.codec.enc p)) ≠
      .error (.integrityError .unique)) :
    ∀ l ∈ db.ledger, l.entryHash ≠ (p.evaluation db w).row.entryHash := by
  by_contra hmet
  apply hunique
  have hcontract : contractProposal reg (Proposal.codec.enc p) = .ok p :=
    contractProposal_eq_ok.mpr rfl
  rw [evaluate, hcontract, ok_bind, hchecked, ok_bind, happly, ok_bind]
  show (ensure _ _ >>= fun _ => ensure _ _ >>= fun _ => ensure _ _ >>= fun _ => _) = _
  have hseq : (entryParts db p (sha256Json (Proposal.codec.enc p)) w).seq ≤ maxRowId := hroom.seq
  rw [(ensure_eq_ok (u := ())).mpr (ledgerDocument_valid hevents hvalid hroom.head hroom.seq),
    ok_bind, (ensure_eq_ok (u := ())).mpr hseq, ok_bind]
  show (ensure (∀ l ∈ db.ledger, l.entryHash ≠ (p.evaluation db w).row.entryHash) _ >>=
    fun _ => _) = _
  rw [ensure_eq_error.mpr ⟨hmet, rfl⟩]
  rfl

/-- **As long as the work item has the row that was seen, the proposal is accepted.** -/
theorem status_accepted (hvalue : value = r.proposal reg (seenRow row) root proposedAt updatedAt)
    (hjson : c.proposal.toJson? = some value) (hsound : row.Sound r.workItemId)
    (hrow : db.tables.workItems[r.workItemId]? = some row) (hkept : db.Kept) (hlogs : db.Logs reg)
    (hopen : Open reg db (sha256Json value) value) :
    ∃ receipt db', transaction reg c db (sha256Json value) value = .ok (.accepted receipt db') ∧
      receiptOk receipt = true := by
  have hpos : 1 ≤ (row.version : Int) := by
    have hversion := version_pos hsound
    omega
  rw [← r.typed_enc reg row root proposedAt updatedAt hpos] at hvalue
  subst hvalue
  set p := r.typed reg row root proposedAt updatedAt hpos with hp
  obtain ⟨w, happly, hconflicts, hevents⟩ : ∃ w, applyOperations reg p.proposer
      (nextLedgerSeq db.ledger) db.tables p.operations.1 = .ok w ∧ w.conflictIds = [] ∧
      w.events ≠ [] := typed_applies hrow
  obtain ⟨-, hunused⟩ := unused_key hjson hopen
  have hchecked : validateProposal reg db.tables p = .ok () := typed_checked hrow
  have hvalid := (hlogs.applyOperations (Nat.le_add_left 1 _) happly).valid
  have hroom : db.HasRoom := ⟨hkept.head, hopen.numbers.seq, hopen.numbers.id⟩
  have hunique := entry_new hroom hchecked happly hevents hvalid hopen.unique
  obtain ⟨row', hacc⟩ := accepts_of_checks hroom hjson
    (named_recordId (by decide) (by omega) (by omega))
    (named_key (by decide) (by decide) (by omega) (by omega)) hunused hchecked happly hevents
    hvalid hunique
  obtain ⟨receipt, hreceipt⟩ := rowToReceipt_of_receiptRow hacc.receipted
  refine ⟨receipt, (p.evaluation db w).accept db row',
    transaction_accepted.mpr ⟨_, row', hacc, hreceipt, rfl⟩, ?_⟩
  have houtcome : (p.evaluation db w).outcome = .committed := by
    rw [Evaluation.outcome, Evaluation.conflictIds]
    show (if sortedSet w.conflictIds = [] then _ else _) = _
    rw [hconflicts]
    rfl
  obtain ⟨_, _, _, _, _, _, _, _, _, _, _, rfl⟩ := receiptRow_eq_ok.mp hacc.receipted
  have htext := rowToReceipt_outcome hreceipt
  simp only [receiptOk, Bool.or_eq_true, decide_eq_true_eq]
  left
  rw [htext]
  exact congrArg Outcome.text houtcome

/-- **Once the work item has another row, the proposal meets a transaction conflict.** -/
theorem status_conflicts (hvalue : value = r.proposal reg (seenRow row) root proposedAt updatedAt)
    (hjson : c.proposal.toJson? = some value) (hsound : row.Sound r.workItemId)
    {row' : WorkItemRow} (hrow : db.tables.workItems[r.workItemId]? = some row')
    (hlt : row.version < row'.version) (hopen : Open reg db (sha256Json value) value) :
    transaction reg c db (sha256Json value) value =
      .error (.transactionConflict .workItemVersionMismatch) := by
  have hpos : 1 ≤ (row.version : Int) := by
    have hversion := version_pos hsound
    omega
  rw [← r.typed_enc reg row root proposedAt updatedAt hpos] at hvalue
  subst hvalue
  obtain ⟨hkey, hunused⟩ := unused_key hjson hopen
  have hprior : prior? db.receipts (some
      ((r.typed reg row root proposedAt updatedAt hpos).idempotencyKey : String)) = none := by
    simpa [prior?] using hunused
  have hcontract : contractProposal reg (Proposal.codec.enc (r.typed reg row root proposedAt
      updatedAt hpos)) = .ok (r.typed reg row root proposedAt updatedAt hpos) :=
    contractProposal_eq_ok.mpr rfl
  have hevaluate : evaluate reg db (Proposal.codec.enc (r.typed reg row root proposedAt updatedAt
      hpos)) (sha256Json (Proposal.codec.enc (r.typed reg row root proposedAt updatedAt hpos))) =
      .error (.transactionConflict .workItemVersionMismatch) := by
    rw [evaluate, hcontract, ok_bind, typed_refused hrow hlt]
    rfl
  rw [transaction, hkey, ok_bind]
  simp only [hprior]
  rw [hevaluate]
  rfl

end

end SharedMind.Service
