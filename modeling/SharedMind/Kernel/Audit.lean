import SharedMind.Kernel.Events
import SharedMind.Kernel.Sequential
import SharedMind.Kernel.Verify

/-!
# The verifier on what `commit` writes

* `verifyLedgerRow_accepted`: the entry of an accepted proposal verifies.
* `verifyReceipt_accepted`, `verifyReceipt_rejected`: so does its receipt after the
  entry before it, and a rejection receipt that names the head.
* `Call.NumberKey`: the keys for which the receipt and the verifier disagree.
-/

namespace SharedMind

open Py

/-! ### Events -/

theorem eventConflictIds_enc (e : LedgerEvent) :
    eventConflictIds (LedgerEvent.codec.enc e) = some (e.opened?.map Text.text).toList := by
  cases e <;> rfl

/-- The conflicts the verifier finds in stored events. -/
theorem conflictIdsFromEvents_eventsJson (events : List LedgerEvent) :
    conflictIdsFromEvents (eventsJson events) =
      some ((sortedSet (openedIds events)).map Text.text) := by
  have hmap : (events.map LedgerEvent.codec.enc).mapM eventConflictIds =
      some (events.map fun e => (e.opened?.map Text.text).toList) := by
    induction events with
    | nil => rfl
    | cons e events ih =>
      rw [List.map_cons, List.mapM_cons, eventConflictIds_enc, ih]
      rfl
  have hflat : (events.map fun e => (e.opened?.map Text.text).toList).flatten =
      (openedIds events).map Text.text := by
    clear hmap
    induction events with
    | nil => rfl
    | cons e events ih =>
      rw [List.map_cons, List.flatten_cons, ih, openedIds, openedIds, List.filterMap_cons]
      cases e.opened? <;> rfl
  show ((events.map LedgerEvent.codec.enc).mapM eventConflictIds).map _ = _
  rw [hmap, Option.map_some, hflat]
  exact congrArg some (sortedSet_map (f := (Text.text : RecordId → String)) (fun _ _ h => h) _).symm

/-! ### The texts of numbers -/

theorem fullmatch_recordId_head {s : String} (h : recordIdPattern.fullmatch s = true) :
    ∃ c r, s.toList = c :: r ∧ lowerChar c = true := by
  rw [Pattern.fullmatch, Pattern.matches_, recordIdPattern, List.any_cons, List.any_nil,
    Bool.or_false] at h
  exact matchPieces_head h

theorem intText_head (i : Int) : ∃ c r, intText i = c :: r ∧ lowerChar c = false := by
  rw [intText]
  split
  · exact ⟨'-', _, rfl, by decide⟩
  · cases hd : Nat.toDigits 10 i.natAbs with
    | nil =>
      have := Nat.length_toDigits_pos (b := 10) (n := i.natAbs)
      rw [hd] at this
      exact absurd this (by simp)
    | cons c r =>
      refine ⟨c, r, rfl, lowerChar_of_isDigit ?_⟩
      exact Nat.isDigit_of_mem_toDigits (b := 10) (n := i.natAbs) (by decide) (by decide)
        (by rw [hd]; exact List.mem_cons_self)

variable [Host] {reg : Registry} {c : Call} {db : Db} {hash : Hash} {value : Json}

theorem columnText_int {i : Int} {t : String} (h : columnText (.num (.int i)) = .ok (some t)) :
    t = String.ofList (intText i) := by
  simp only [columnText, bind_eq_ok, pure_eq_ok] at h
  obtain ⟨_, _, h⟩ := h
  exact (Option.some.inj h).symm

/-- The text of a number is no record identifier. -/
theorem not_fullmatch_number {n : PyNum} {t : String} (h : columnText (.num n) = .ok (some t)) :
    recordIdPattern.fullmatch t = false := by
  rw [← Bool.not_eq_true]
  intro hmatch
  obtain ⟨c, r, ht, hc⟩ := fullmatch_recordId_head hmatch
  cases n with
  | int i =>
    obtain ⟨d, s, hd, hlow⟩ := intText_head i
    rw [columnText_int h, String.toList_ofList, hd] at ht
    obtain ⟨rfl, -⟩ := List.cons_eq_cons.mp ht
    rw [hlow] at hc
    exact nomatch hc
  | float f =>
    rw [Host.realText_head (Except.ok.inj h) ht] at hc
    exact nomatch hc

/-- A key that is a number whose text is an idempotency key.  The receipt of such a call
names no key, and its row has one. -/
def Call.NumberKey (c : Call) : Prop :=
  ∃ n t, c.idempotencyKey = .num n ∧ columnText (.num n) = .ok (some t) ∧
    idempotencyKeyPattern.fullmatch t = true

/-- What the verifier expects of a stored text is what the receipt names. -/
theorem matchedColumn_eq {p : Pattern} {v : RawJson} {t : String}
    (hcol : columnText v = .ok (some t)) (hbool : p.fullmatch "1" = false ∧ p.fullmatch "0" = false)
    (hnum : ∀ n, v = .num n → p.fullmatch t = false) :
    matchedColumn p t = optText (matchedText p v) := by
  have hnone : p.fullmatch t = false → matchedColumn p t = optText none := by
    intro h
    rw [matchedColumn, h]
    rfl
  cases v with
  | null => cases Except.ok.inj hcol
  | bool b =>
    obtain rfl := Option.some.inj (Except.ok.inj hcol)
    refine hnone ?_
    cases b
    · exact hbool.2
    · exact hbool.1
  | num n => exact hnone (hnum n rfl)
  | str s =>
    simp only [columnText, Except.map] at hcol
    cases hs : s.toString? with
    | none => rw [hs] at hcol; cases hcol
    | some u =>
      rw [hs] at hcol
      obtain rfl := Option.some.inj (Except.ok.inj hcol)
      cases hm : p.fullmatch u <;> simp [matchedColumn, matchedText, JsonOf.str?, hs, hm,
        Option.filter, optText, optColumn]
  | arr items => cases hcol
  | obj members => cases hcol

theorem matchedColumn_proposalId {t : String} (h : columnText c.proposalId = .ok (some t)) :
    matchedColumn recordIdPattern t = optText (matchedText recordIdPattern c.proposalId) :=
  matchedColumn_eq h (by decide) fun _ hn => not_fullmatch_number (hn ▸ h)

theorem matchedColumn_idempotencyKey {t : String} (h : columnText c.idempotencyKey = .ok (some t))
    (hkey : ¬c.NumberKey) :
    matchedColumn idempotencyKeyPattern t =
      optText (matchedText idempotencyKeyPattern c.idempotencyKey) :=
  matchedColumn_eq h (by decide) fun n hn =>
    Bool.not_eq_true _ ▸ fun hm => hkey ⟨n, t, hn, hn ▸ h, hm⟩

/-! ### Receipts -/

omit [Host] in
/-- What the verifier reads back of a written row. -/
theorem receiptTexts?_columns {input : ReceiptInput} {links : ReceiptLinks} {id : ℕ}
    {decidedAt key proposalId : String} {d : DecisionReceipt}
    (hd : receiptDocument c input links id decidedAt = DecisionReceipt.codec.enc d) :
    receiptTexts? (receiptColumns c input id key proposalId (DecisionReceipt.codec.enc d))
      (DecisionReceipt.codec.enc d).dumps =
      some ⟨receiptDocument c input links id decidedAt,
        optColumn ActorRef.codec.enc c.representableProposer, true,
        .arr (input.reasons.map fun r => .str r.text), .arr (input.conflicts.map idColumn)⟩ := by
  have hreasons : (JsonOf.arr (input.reasons.map fun r => (JsonOf.str r.text : Json))).Sorted := by
    refine .arr fun v hv => ?_
    obtain ⟨_, _, rfl⟩ := List.mem_map.mp hv
    exact .str _
  have hconflicts : (JsonOf.arr (input.conflicts.map idColumn)).Sorted := by
    refine .arr fun v hv => ?_
    obtain ⟨_, _, rfl⟩ := List.mem_map.mp hv
    exact .str _
  rw [receiptTexts?, loads_dumps (DecisionReceipt.codec.sorted d), ← hd]
  cases hp : c.representableProposer with
  | none =>
    simp only [receiptColumns, hp, Option.map_none, loads_dumps hreasons, loads_dumps hconflicts]
    rfl
  | some a =>
    simp only [receiptColumns, hp, Option.map_some, loads_dumps hreasons, loads_dumps hconflicts,
      loads_dumps (ActorRef.codec.sorted a)]
    rfl

omit [Host] in
/-- The checks on the document itself. -/
theorem receiptDocumentMatches_columns {input : ReceiptInput} {id : ℕ} {key proposalId : String}
    {d : DecisionReceipt} {stored : Json} :
    receiptDocumentMatches
      (receiptColumns c input id key proposalId (DecisionReceipt.codec.enc d))
      (DecisionReceipt.codec.enc d) true stored = true := by
  simp [receiptDocumentMatches, receiptColumns, DecisionReceipt.codec.dec_enc]

omit [Host] in
theorem verifyReceipt_unlinked {head : Option String} {row : ReceiptRow} {text : String}
    {t : ReceiptTexts} (hdoc : row.document = some text) (hseq : row.ledgerSeq = none)
    (ht : receiptTexts? row text = some t) :
    verifyReceipt db head row =
      (receiptDocumentMatches row t.document t.hasProposer t.storedProposer &&
        rejectedMatches db head row t.document t.hasProposer t.storedProposer t.reasonCodes
          t.conflictIds, head) := by
  simp only [verifyReceipt, hdoc, hseq, ht]

omit [Host] in
theorem verifyReceipt_linked {head : Option String} {row : ReceiptRow} {text : String} {seq : ℕ}
    {t : ReceiptTexts} {ledger : LedgerRow} {linked : Linked} (hdoc : row.document = some text)
    (hseq : row.ledgerSeq = some seq) (ht : receiptTexts? row text = some t)
    (hrow : ledgerRow? db seq = some ledger) (hstored : ledger.document ≠ none)
    (hlinked : linked? ledger = some linked) :
    verifyReceipt db head row =
      (receiptDocumentMatches row t.document t.hasProposer t.storedProposer &&
        acceptedMatches ledger linked head row t.document t.hasProposer t.storedProposer
          t.reasonCodes t.conflictIds, some ledger.entryHash) := by
  simp only [verifyReceipt, hdoc, hseq, ht, hrow, hstored, hlinked, if_false]

/-- **A rejection receipt that names the head and its root verifies.** -/
theorem verifyReceipt_rejected {db' : Db} {r : Rejection} {head : Option String} {root : Hash}
    {row : ReceiptRow} (hrej : Rejects c r head root db row) (hkey : ¬c.NumberKey)
    (hhead : Rejection.namedHead head db = headEntryHash db.ledger)
    (hroot : stateRootByHead db' (headEntryHash db.ledger) = some (root : String)) :
    verifyReceipt db' (headEntryHash db.ledger) row = (true, headEntryHash db.ledger) := by
  obtain ⟨decidedAt, key, proposalId, d, _, hcolKey, hcolId, hd, _, rfl⟩ :=
    receiptRow_rejection.mp hrej
  rw [verifyReceipt_unlinked rfl rfl (receiptTexts?_columns hd), hd,
    receiptDocumentMatches_columns, Bool.true_and, ← hd, Prod.mk.injEq]
  refine ⟨?_, rfl⟩
  simp only [rejectedMatches, receiptColumns, Rejection.input, hroot, decide_true, Bool.true_and,
    rowExpected, matchedColumn_proposalId hcolId, matchedColumn_idempotencyKey hcolKey hkey]
  simp [matchesAll, receiptDocument, JsonOf.get?, hhead, idColumn]

/-! ### The entry of an accepted proposal -/

omit [Host] in
theorem le_foldl_max {ns : List ℕ} {m : ℕ} :
    m ≤ ns.foldl max m ∧ ∀ n ∈ ns, n ≤ ns.foldl max m := by
  induction ns generalizing m with
  | nil => simp
  | cons k ns ih =>
    obtain ⟨hm, hall⟩ := ih (m := max m k)
    rw [List.foldl_cons, List.forall_mem_cons]
    exact ⟨(le_max_left m k).trans hm, (le_max_right m k).trans hm, hall⟩

omit [Host] in
theorem seq_lt_nextLedgerSeq {ledger : List LedgerRow} {r : LedgerRow} (h : r ∈ ledger) :
    r.seq < nextLedgerSeq ledger :=
  Nat.lt_succ_of_le (le_foldl_max.2 _ (List.mem_map_of_mem h))

omit [Host] in
/-- The entry appended next is the one of its place. -/
theorem find?_nextLedgerSeq {ledger : List LedgerRow} {row : LedgerRow}
    (h : row.seq = nextLedgerSeq ledger) :
    (ledger ++ [row]).find? (fun r => r.seq = row.seq) = some row := by
  have hnone : ledger.find? (fun r => r.seq = row.seq) = none := by
    refine List.find?_eq_none.mpr fun r hr => ?_
    have := seq_lt_nextLedgerSeq hr
    simp only [decide_eq_true_eq]
    omega
  rw [List.find?_append, hnone]
  simp

namespace Evaluation

variable {e : Evaluation}

theorem row_seq (h : evaluate reg db value hash = .ok e) : e.row.seq = nextLedgerSeq db.ledger := by
  obtain ⟨_, _, _, hparts, hrow, _⟩ := evaluate_eq_ok.mp h
  rw [hrow, hparts]
  rfl

/-- The document of the entry is one the contract admits. -/
theorem document_eq (h : evaluate reg db value hash = .ok e) :
    ∃ entry : LedgerEntry, ledgerDocument e.parts (sha256Json (ledgerEnvelope e.parts))
      e.proposal.proposalId = LedgerEntry.codec.enc entry := by
  obtain ⟨_, _, _, _, _, hdoc, _⟩ := evaluate_eq_ok.mp h
  obtain ⟨entry, hentry⟩ := Option.isSome_iff_exists.mp hdoc
  exact ⟨entry, LedgerEntry.codec.dec_eq_some_iff.mp hentry⟩

/-- The stored document reads back. -/
theorem loads_document (h : evaluate reg db value hash = .ok e) :
    e.row.document = some (ledgerDocument e.parts (sha256Json (ledgerEnvelope e.parts))
        e.proposal.proposalId).dumps ∧
      loads (ledgerDocument e.parts (sha256Json (ledgerEnvelope e.parts))
        e.proposal.proposalId).dumps = some (ledgerDocument e.parts
          (sha256Json (ledgerEnvelope e.parts)) e.proposal.proposalId) := by
  obtain ⟨_, _, _, _, hrow, _⟩ := evaluate_eq_ok.mp h
  obtain ⟨entry, hentry⟩ := document_eq h
  refine ⟨by rw [hrow]; rfl, ?_⟩
  rw [hentry]
  exact loads_dumps (LedgerEntry.codec.sorted entry)

theorem loads_proposal (h : evaluate reg db value hash = .ok e) :
    loads e.row.proposal = some (Proposal.codec.enc e.proposal) := by
  obtain ⟨hvalue, _, _, _, hrow, _⟩ := evaluate_eq_ok.mp h
  rw [hrow, hvalue]
  exact loads_dumps (Proposal.codec.sorted e.proposal)

omit [Host] in
theorem sorted_eventsJson (events : List LedgerEvent) : (eventsJson events).Sorted := by
  refine .arr fun v hv => ?_
  obtain ⟨ev, _, rfl⟩ := List.mem_map.mp hv
  exact LedgerEvent.codec.sorted ev

theorem loads_events (h : evaluate reg db value hash = .ok e) :
    loads e.row.events = some (eventsJson e.txn.events) := by
  obtain ⟨_, _, _, hparts, hrow, _⟩ := evaluate_eq_ok.mp h
  rw [hrow, hparts]
  exact loads_dumps (sorted_eventsJson e.txn.events)

/-- The conflicts of the receipt are those of the events. -/
theorem conflictIds_eq (h : evaluate reg db value hash = .ok e) :
    e.conflictIds = sortedSet (openedIds e.txn.events) := by
  obtain ⟨_, _, happly, _⟩ := evaluate_eq_ok.mp h
  rw [conflictIds, applyOperations_emits happly]

/-- What the versions of an applied proposal say. -/
theorem versions_eq (h : evaluate reg db value hash = .ok e) :
    (e.proposal.versions.1.schema : String) = supportedSchema ∧
      e.proposal.versions.1.predicateRegistryHash = some reg.hash := by
  obtain ⟨_, hvalid, _⟩ := evaluate_eq_ok.mp h
  simp only [validateProposal, bind_eq_ok] at hvalid
  obtain ⟨_, hversions, _⟩ := hvalid
  simp only [validateVersions, bind_eq_ok, require_eq_ok] at hversions
  obtain ⟨_, hschema, _, _, _, hhash, _⟩ := hversions
  exact ⟨hschema, hhash⟩

omit [Host] in
theorem versions_get? {v : VersionBundle} {h : Hash} (hh : v.1.predicateRegistryHash = some h) :
    (VersionBundle.codec.enc v).get? "schema" = some (.str (v.1.schema : String)) ∧
      (VersionBundle.codec.enc v).get? "predicate_registry_hash" = some (.str (h : String)) := by
  obtain ⟨⟨rules, guard, registry, registryHash, projection, schema⟩, hwf⟩ := v
  dsimp only at hh
  subst hh
  exact ⟨rfl, rfl⟩

/-- An accepted proposal is of the schema the kernel supports. -/
theorem proposalSchema?_row (h : evaluate reg db value hash = .ok e) :
    proposalSchema? e.row.proposal = some supportedSchema := by
  obtain ⟨hschema, hregistry⟩ := versions_eq h
  have hget := (versions_get? hregistry).1
  rw [hschema] at hget
  have hversions : (Proposal.codec.enc e.proposal).get? "versions" =
      some (VersionBundle.codec.enc e.proposal.versions) := rfl
  simp [proposalSchema?, loads_proposal h, hversions, hget, JsonOf.str?]

/-- What the verifier reads of the entry. -/
theorem linked?_row (h : evaluate reg db value hash = .ok e) :
    linked? e.row = some {
      schema := .str supportedSchema
      conflictIds := e.conflictIds.map Text.text
      proposer := ActorRef.codec.enc e.proposal.proposer
      proposalId := idColumn e.proposal.proposalId
      idempotencyKey := idColumn e.proposal.idempotencyKey
      entryId := .str (entryIdText e.parts.seq) } := by
  obtain ⟨hdoc, hloads⟩ := loads_document h
  have hproposer : (Proposal.codec.enc e.proposal).get? "proposer" =
      some (ActorRef.codec.enc e.proposal.proposer) := rfl
  have hversions : (Proposal.codec.enc e.proposal).get? "versions" =
      some (VersionBundle.codec.enc e.proposal.versions) := rfl
  have hid : (Proposal.codec.enc e.proposal).get? "proposal_id" =
      some (idColumn e.proposal.proposalId) := rfl
  have hkey : (Proposal.codec.enc e.proposal).get? "idempotency_key" =
      some (idColumn e.proposal.idempotencyKey) := rfl
  have hentry : (ledgerDocument e.parts (sha256Json (ledgerEnvelope e.parts))
      e.proposal.proposalId).get? "entry_id" = some (.str (entryIdText e.parts.seq)) := rfl
  have hschema := (versions_get? (versions_eq h).2).1
  rw [(versions_eq h).1] at hschema
  simp only [linked?, Option.bind_eq_bind, loads_proposal h, loads_events h, hdoc, hloads,
    hversions, hschema, conflictIdsFromEvents_eventsJson, conflictIds_eq h, hid, hkey, hentry,
    hproposer, Option.bind_some, ActorRef.codec.dec_enc]
  rfl

/-- Where the receipt of an accepted proposal stands. -/
theorem receiptLinks_accepted (h : evaluate reg db value hash = .ok e) :
    receiptLinks (e.apply db) (e.receiptInput hash) =
      .ok ⟨headEntryHash db.ledger, some e.row.entryHash, .str (entryIdText e.parts.seq)⟩ := by
  obtain ⟨hdoc, hloads⟩ := loads_document h
  obtain ⟨_, _, _, hparts, hrow, _⟩ := evaluate_eq_ok.mp h
  have hseq : e.row.seq = e.parts.seq := by rw [hrow]; rfl
  have hprev : e.row.prevHash = headEntryHash db.ledger := by rw [hrow, hparts]; rfl
  have hfind : (e.apply db).ledger.find? (fun r => r.seq = e.parts.seq) = some e.row := by
    rw [← hseq]
    exact find?_nextLedgerSeq (row_seq h)
  have hentry : (ledgerDocument e.parts (sha256Json (ledgerEnvelope e.parts))
      e.proposal.proposalId).get? "entry_id" = some (.str (entryIdText e.parts.seq)) := rfl
  simp only [receiptLinks, receiptInput, hfind, hdoc, hloads, hentry, orRaise, ok_bind, hprev]
  rfl

/-- The events of an entry are some, and each is one the contract admits. -/
theorem eventsValid_row (h : evaluate reg db value hash = .ok e) :
    eventsValid (eventsJson e.txn.events) = true := by
  obtain ⟨entry, hentry⟩ := document_eq h
  obtain ⟨_, _, _, hparts, _⟩ := evaluate_eq_ok.mp h
  have hevents : some e.parts.events =
      some (JsonOf.arr (entry.events.1.map LedgerEvent.validCodec.enc)) :=
    congrArg (fun v => v.get? "events") hentry
  have hjson : eventsJson e.txn.events =
      .arr (entry.events.1.map LedgerEvent.validCodec.enc) := by
    rw [← Option.some.inj hevents, hparts]
    rfl
  rw [hjson, eventsValid, Bool.and_eq_true]
  refine ⟨?_, List.all_eq_true.mpr fun v hv => ?_⟩
  · simp [entry.events.2]
  · obtain ⟨ev, _, rfl⟩ := List.mem_map.mp hv
    rw [LedgerEvent.validCodec.dec_enc]
    rfl

end Evaluation

/-! ### Accepted proposals -/

variable {e : Evaluation} {row : ReceiptRow}

omit [Host] in
/-- The receipt and the proposal name the same proposer. -/
theorem representableProposer_of_toJson? {p : Proposal}
    (h : c.proposal.toJson? = some (Proposal.codec.enc p)) :
    c.representableProposer = some p.proposer := by
  have hget : (Proposal.codec.enc p).get? "proposer" = some (ActorRef.codec.enc p.proposer) := rfl
  obtain ⟨w, hw, hjson⟩ := JsonOf.get?_of_toJson? h hget
  rw [Call.representableProposer, hw, Option.bind_some, hjson, Option.bind_some,
    ActorRef.codec.dec_enc]

/-- **The entry of an accepted proposal verifies**, unless its time is empty. -/
theorem verifyLedgerRow_accepted (hpre : preflight c = .ok (.evaluate hash value))
    (hacc : Accepts reg c hash value db e row) (htime : e.proposal.proposedAt ≠ "") :
    verifyLedgerRow reg e.row = [] := by
  have h := hacc.evaluated
  obtain ⟨_, _, _, _, hhash⟩ := preflight_evaluate.mp hpre
  obtain ⟨hvalue, _, _, hparts, hrow, _⟩ := evaluate_eq_ok.mp h
  obtain ⟨hdoc, hloads⟩ := Evaluation.loads_document h
  obtain ⟨entry, hentry⟩ := Evaluation.document_eq h
  obtain ⟨hschema, hregistry⟩ := Evaluation.versions_eq h
  obtain ⟨hgetSchema, hgetRegistry⟩ := Evaluation.versions_get? hregistry
  rw [hschema] at hgetSchema
  have hproposalHash : e.row.proposalHash = (sha256Json (Proposal.codec.enc e.proposal) : String) := by
    rw [hrow, hparts, ← hvalue, ← hhash]
    rfl
  have hcontract : isContractObject (Proposal.codec.enc e.proposal) = true := by
    simp [isContractObject, Proposal.codec.dec_enc]
  have hversions : (Proposal.codec.enc e.proposal).get? "versions" =
      some (VersionBundle.codec.enc e.proposal.versions) := rfl
  have hid : (Proposal.codec.enc e.proposal).get? "proposal_id" =
      some (idColumn e.proposal.proposalId) := rfl
  have hdocument : expectedDocument e.row (idColumn e.proposal.proposalId)
      (VersionBundle.codec.enc e.proposal.versions) (eventsJson e.txn.events) =
      ledgerDocument e.parts (sha256Json (ledgerEnvelope e.parts)) e.proposal.proposalId := by
    rw [hrow, hparts]
    rfl
  have hpreRoot : e.row.preStateRoot = some (e.parts.preStateRoot : String) := by rw [hrow]; rfl
  have hcommitted : e.row.committedAt = some e.proposal.proposedAt := by rw [hrow, hparts]; rfl
  have henvelope : e.row.entryHash = (sha256Json (expectedEnvelope e.row e.parts.preStateRoot
      e.proposal.proposedAt (VersionBundle.codec.enc e.proposal.versions)
      (eventsJson e.txn.events)) : String) := by
    rw [hrow, hparts]
    rfl
  have hne : ((e.parts.preStateRoot : Hash) : String) ≠ "" := by
    intro hempty
    have := e.parts.preStateRoot.2
    rw [hempty] at this
    exact absurd this (by decide)
  have hmatches : ledgerDocumentMatches e.row supportedSchema
      (expectedDocument e.row (idColumn e.proposal.proposalId)
        (VersionBundle.codec.enc e.proposal.versions) (eventsJson e.txn.events)) = true := by
    rw [hdocument, ledgerDocumentMatches, hdoc, hentry]
    simp only [loads_dumps (LedgerEntry.codec.sorted entry), LedgerEntry.codec.dec_enc,
      JsonOf.pyEq_refl, Option.isSome_some, Bool.and_self, decide_true]
  have hcurrent : verifyCurrentRow reg e.row supportedSchema (Proposal.codec.enc e.proposal)
      (VersionBundle.codec.enc e.proposal.versions) (eventsJson e.txn.events) = [] := by
    simp only [verifyCurrentRow, hgetRegistry, hid, hmatches, hpreRoot, hcommitted, hne, htime,
      Evaluation.eventsValid_row h, or_self, if_false, List.append_eq_nil_iff, expect_eq_nil,
      Option.bind_some, JsonOf.str?, true_and]
    exact henvelope.symm
  simp only [verifyLedgerRow, Evaluation.loads_proposal h, Evaluation.loads_events h, hversions,
    hgetSchema, List.append_eq_nil_iff, expect_eq_nil]
  refine ⟨⟨hproposalHash.symm, hcontract⟩, ?_⟩
  rw [if_neg (by decide), if_pos (by decide)]
  exact hcurrent

omit [Host] in
theorem Evaluation.outcome_accepted : e.outcome.Accepted := by
  rw [Evaluation.outcome]
  split
  · exact Or.inl rfl
  · exact Or.inr rfl

omit [Host] in
theorem linkedOutcome_conflictIds :
    linkedOutcome (e.conflictIds.map Text.text) = e.outcome.text := by
  rw [linkedOutcome, Evaluation.outcome]
  by_cases h : e.conflictIds = []
  · rw [if_pos h, if_pos (by rw [h]; rfl)]
  · rw [if_neg h, if_neg fun hm => h (List.map_eq_nil_iff.mp hm)]

omit [Host] in
theorem matchedText_ofString {p : Pattern} {s : String}
    (h : (matchedText p (.str (PyStr.ofString s))).isSome = true) :
    matchedText p (.str (PyStr.ofString s)) = some s := by
  obtain ⟨t, ht⟩ := Option.isSome_iff_exists.mp h
  have hs := (Option.filter_eq_some_iff.mp ht).1
  rw [JsonOf.str?, Option.bind_some, PyStr.toString?_ofString] at hs
  rw [ht, hs]

/-- **The receipt of an accepted proposal verifies** after the entry before it. -/
theorem verifyReceipt_accepted {db' : Db} (hpre : preflight c = .ok (.evaluate hash value))
    (hacc : Accepts reg c hash value db e row) (htime : e.proposal.proposedAt ≠ "")
    (hrow : ledgerRow? db' e.parts.seq = some e.row) :
    verifyReceipt db' (headEntryHash db.ledger) row = (true, some e.row.entryHash) := by
  have h := hacc.evaluated
  obtain ⟨_, hjson, _⟩ := preflight_evaluate.mp hpre
  obtain ⟨hvalue, _, _, hparts, hledger, _⟩ := evaluate_eq_ok.mp h
  rw [hvalue] at hjson
  obtain ⟨links, decidedAt, key, proposalId, d, hlinks, hdec, hkey, hpid, hd, _, rfl⟩ :=
    receiptRow_eq_ok.mp hacc.receipted
  rw [Evaluation.receiptLinks_accepted h] at hlinks
  obtain rfl := Except.ok.inj hlinks
  obtain ⟨hidMatched, hkeyMatched⟩ := named_of_receiptDocument hd Evaluation.outcome_accepted
  rw [idempotencyKey_of_toJson? hjson] at hkey hkeyMatched
  rw [proposalId_of_toJson? hjson] at hpid hidMatched
  rw [columnText_str] at hkey hpid
  obtain rfl := Option.some.inj (Except.ok.inj hkey)
  obtain rfl := Option.some.inj (Except.ok.inj hpid)
  have hcommitted : e.parts.committedAt = e.proposal.proposedAt := by rw [hparts]; rfl
  -- the time of the receipt is that of the proposal
  obtain rfl : e.proposal.proposedAt = decidedAt := by
    have hpoints : (PyStr.ofString e.parts.committedAt).points ≠ [] := by
      rw [hcommitted]
      simpa [PyStr.ofString] using htime
    rw [Evaluation.receiptInput, decidedAtText, if_neg hpoints, PyStr.toString?_ofString,
      hcommitted] at hdec
    exact Option.some.inj hdec
  have hproposer := representableProposer_of_toJson? hjson
  rw [@verifyReceipt_linked _ _ _ ((DecisionReceipt.codec.enc d).dumps) e.parts.seq _ _ _ rfl rfl
    (receiptTexts?_columns hd) hrow (by rw [(Evaluation.loads_document h).1]; simp)
    (Evaluation.linked?_row h), hd, receiptDocumentMatches_columns, Bool.true_and, ← hd,
    Prod.mk.injEq]
  refine ⟨?_, rfl⟩
  have hfields : e.row.proposalHash = (hash : String) ∧ e.row.stateRoot = e.parts.postStateRoot ∧
      e.row.prevHash = headEntryHash db.ledger ∧
      e.row.committedAt = some e.proposal.proposedAt := by
    rw [hledger, hparts]
    exact ⟨rfl, rfl, rfl, rfl⟩
  obtain ⟨hphash, hroot, hprev, hcommittedAt⟩ := hfields
  have hconflicts : stringsJson (e.conflictIds.map Text.text) =
      .arr (e.conflictIds.map idColumn) := by
    rw [stringsJson, List.map_map]
    rfl
  simp only [acceptedMatches, receiptColumns, Evaluation.receiptInput, hproposer, hphash, hroot,
    hprev, hcommittedAt, linkedOutcome_conflictIds, hconflicts, optColumn, idColumn,
    JsonOf.pyEq_refl, matchesAll, optText]
  simp [receiptDocument, JsonOf.get?, idColumn, optText, optColumn, hproposer,
    matchedText_ofString hidMatched, matchedText_ofString hkeyMatched, idempotencyKey_of_toJson? hjson,
    proposalId_of_toJson? hjson]

end SharedMind
