import SharedMind.Kernel.Replay
import SharedMind.Law.EventsValid
import SharedMind.Law.ReceiptChain

/-!
# Replay simulates commit

* `Txn.Replays`: the events that are appended replay to the new tables.
* `applyOperation_replays`: every operation appends such events.
* `replayRow_accept`: the entry of an accepted proposal replays to what the proposal did.
* `events_replay`, `ledger_replays`: so do the events and the ledger of every run.
-/

namespace SharedMind

open Py

theorem require_of {c : Prop} [Decidable c] {code : ReasonCode} (h : c) :
    require c code = .ok () :=
  require_eq_ok.mpr h

/-! ### What is appended -/

section

variable [Host] {reg : Registry} {u v w : Txn}

/-- The events of `w` after those of `v` replay to its tables. -/
def Txn.Replays (reg : Registry) (v w : Txn) : Prop :=
  ∃ es, w.events = v.events ++ es ∧ replayEvents reg v.tables es = .ok w.tables

namespace Txn.Replays

theorem refl (w : Txn) : Replays reg w w := ⟨[], (List.append_nil _).symm, rfl⟩

theorem trans (h : Replays reg u v) (h' : Replays reg v w) : Replays reg u w := by
  obtain ⟨es, he, hes⟩ := h
  obtain ⟨fs, hf, hfs⟩ := h'
  refine ⟨es ++ fs, by rw [hf, he, List.append_assoc], ?_⟩
  rw [replayEvents, List.foldlM_append]
  rw [replayEvents] at hes hfs
  rw [hes, ok_bind, hfs]

theorem of_event {event : LedgerEvent} (hevents : w.events = v.events ++ [event])
    (h : applyReplayEvent reg v.tables event = .ok w.tables) : Replays reg v w := by
  refine ⟨[event], hevents, ?_⟩
  rw [replayEvents, List.foldlM_cons, h]
  rfl

theorem emit {t : Tables} {event : LedgerEvent}
    (h : applyReplayEvent reg w.tables event = .ok t) : Replays reg w (w.emit t event) :=
  of_event rfl h

/-- An event of `continuity.py`, which its reducer makes again. -/
theorem continuity {t : Tables} {event : LedgerEvent} {run : Kernel Txn}
    (hreducer : continuityReducer ⟨w.tables, [], []⟩ event = some run)
    (hrun : run = .ok (Txn.emit ⟨w.tables, [], []⟩ t event)) :
    Replays reg w (w.emit t event) := by
  apply emit
  have hsame : sameEvents [event] event = true := JsonOf.pyEq_refl _
  have happly : applyContinuityEvent w.tables event = some (.ok t) := by
    rw [applyContinuityEvent, hreducer, hrun, Option.map_some, ok_bind]
    show some (do
      require (sameEvents [event] event = true) .replayEventTransitionMismatch
      return t) = _
    rw [require_of hsame]
    rfl
  rw [applyReplayEvent, happly]
  rfl

end Txn.Replays

end

/-! ### Conflicts -/

section

variable {reg : Registry} {s t : Tables}

theorem familyInputs_mono (h : s.Grows t) : familyInputs reg s ⊆ familyInputs reg t := by
  intro v hv
  obtain ⟨id, row, p, hrow, hp, rfl⟩ := hv
  obtain ⟨row', hrow', hproposition⟩ := h.claims id row hrow
  exact ⟨id, row', p, hrow', hp, by rw [hproposition]⟩

/-- The row a contradiction leaves behind is the one its document stands for. -/
theorem conflictDocument_row {family : Hash} {kind : ConflictKind} {members : List RecordId}
    {openedSeq : Nat} {c : RecordId × ConflictRow}
    (h : conflictRowFor t family kind members openedSeq = .ok c) :
    (conflictDocument c.1 c.2).row c.2.members t.conflicts[c.1]? = c.2 := by
  have hrow (existing : Option ConflictRow)
      (hversion : c.2.version = existing.elim 1 fun row => row.version + 1) :
      (conflictDocument c.1 c.2).row c.2.members existing = c.2 := by
    unfold ConflictDoc.row
    rw [← hversion]
    simp only [conflictDocument, storedInt, PyNum.toInt?_int, Option.getD_some, Int.toNat_natCast]
  apply hrow
  obtain ⟨b, hb, rfl⟩ | ⟨-, b, hb, rfl⟩ | ⟨-, -, hid, rfl⟩ := conflictRowFor_eq_ok.mp h
  · rw [(openConflict?_eq_some hb).1]
    rfl
  · rw [(resolvedConflict?_eq_some hb).1]
    rfl
  · rw [hid]
    rfl

theorem memberFamily_eq_ok {id : RecordId} {claim : ClaimRow} {predicate : PredicateDefinition}
    (hclaim : t.claims[id]? = some claim)
    (hpredicate : reg.predicate? claim.proposition.predicate = some predicate) :
    memberFamily reg t id = .ok (familyKey claim.proposition predicate) := by
  simp only [memberFamily, hclaim, orRaise, ok_bind, hpredicate]
  rfl

theorem mapM_const {α β ε : Type} {f : α → Except ε β} {b : β} {as : List α}
    (h : ∀ a ∈ as, f a = .ok b) : as.mapM f = .ok (as.map fun _ => b) := by
  induction as with
  | nil => rfl
  | cons a as ih =>
    obtain ⟨ha, has⟩ := List.forall_mem_cons.mp h
    rw [List.mapM_cons, ha, ok_bind, ih has]
    rfl

/-- A conflict of claims of its own family is opened again. -/
theorem replayOpenConflict_eq_ok {family : Hash} {kind : ConflictKind} {members : List RecordId}
    {openedSeq : Nat} {c : RecordId × ConflictRow}
    (h : conflictRowFor t family kind members openedSeq = .ok c) (hsound : c.2.Sound)
    (hfamily : ∀ m ∈ c.2.members, memberFamily reg t m = .ok c.2.familyKey) :
    replayOpenConflict reg t (conflictDocument c.1 c.2) =
      .ok { t with conflicts := t.conflicts.insert c.1 c.2 } := by
  have hsorted : (conflictDocument c.1 c.2).memberClaimIds.insertionSort (· ≤ ·) = c.2.members :=
    (hsound.sorted.imp le_of_lt).insertionSort_eq
  have hdigest : membersDigest c.2.members = (conflictDocument c.1 c.2).memberDigest :=
    hsound.digest.symm
  have hne : c.2.members.map (fun _ => c.2.familyKey) ≠ [] := by
    intro hnil
    have htwo := hsound.two
    rw [List.map_eq_nil_iff.mp hnil] at htwo
    exact absurd htwo (by decide)
  have hall : ∀ f ∈ c.2.members.map (fun _ => c.2.familyKey),
      f = (conflictDocument c.1 c.2).familyKey := by
    intro f hf
    obtain ⟨_, _, rfl⟩ := List.mem_map.mp hf
    rfl
  have hrow : (conflictDocument c.1 c.2).row c.2.members
      t.conflicts[(conflictDocument c.1 c.2).conflictId]? = c.2 := conflictDocument_row h
  simp only [replayOpenConflict, hsorted, require_of hdigest, ok_bind, mapM_const hfamily,
    require_of (And.intro hne hall), hrow]
  rfl

end

/-! ### Operations -/

section

variable [Host] {reg : Registry} {w w' : Txn} {hist : List LedgerEvent} {openedSeq : Nat}

omit [Host] in
theorem conflictTable_families (h : ConflictTable reg w.tables hist)
    (hreg : reg.FamiliesNamePredicate) (hapart : Set.InjOn sha256Json (familyInputs reg w.tables))
    {id : RecordId} {row : ConflictRow} (hrow : w.tables.conflicts[id]? = some row) :
    ∀ m ∈ row.members, memberFamily reg w.tables m = .ok row.familyKey := by
  intro m hm
  obtain ⟨claim, predicate, hclaim, hpredicate, hfamily⟩ := (h.members id row hrow m hm).own hreg hapart
  rw [memberFamily_eq_ok hclaim hpredicate, hfamily]

theorem openConflictOf_replays {incoming : Claim} {predicate : PredicateDefinition}
    {kind : ConflictKind} {found : List (RecordId × ConflictKind)}
    (h : openConflictOf w incoming (familyKey incoming.proposition predicate) kind found openedSeq =
      .ok w')
    (hin : Incoming reg w.tables incoming predicate found)
    (hI : ConflictTable reg w.tables (hist ++ w.events)) (hreg : reg.FamiliesNamePredicate)
    (hapart : Set.InjOn sha256Json (familyInputs reg w'.tables)) : Txn.Replays reg w w' := by
  have hI' := (openConflictOf_table h hin hI).1
  obtain ⟨_, rfl⟩ | ⟨_, c, hc, rfl⟩ := openConflictOf_eq_ok.mp h
  · exact .refl _
  · have hrow : (w.tables.conflicts.insert c.1 c.2)[c.1]? = some c.2 := by
      rw [Table.get_insert, if_pos rfl]
    apply Txn.Replays.of_event rfl
    -- no member's family depends on the conflicts
    exact replayOpenConflict_eq_ok hc (hI'.sound c.1 c.2 hrow)
      (conflictTable_families hI' hreg hapart hrow)

variable {claim : Claim} {evidence : List EvidenceLink} {ignored : List RecordId}

theorem assertClaim_replays (h : assertClaim reg w claim evidence ignored openedSeq = .ok w')
    (hI : ConflictTable reg w.tables (hist ++ w.events)) (hreg : reg.FamiliesNamePredicate)
    (hapart : Set.InjOn sha256Json (familyInputs reg w'.tables)) : Txn.Replays reg w w' := by
  obtain ⟨predicate, t, hvalid, hins, hopen⟩ := assertClaim_eq_ok.mp h
  obtain ⟨found, v, hfound, hv, hw⟩ := openConflicts_eq_ok.mp hopen
  have hin := incoming_of_inserted hvalid hins hfound
  obtain ⟨hIv, hinv⟩ := openConflictOf_table hv hin (insertClaim_table hins hI)
  have hgrows : v.tables.Grows w'.tables := by
    rw [(openConflictOf_frame hw).1]
    exact .of_eq rfl rfl rfl
  have hfirst : Txn.Replays reg w (w.emit t (.claimAsserted claim evidence)) := by
    apply Txn.Replays.emit
    show replayAssertClaim reg w.tables claim evidence = .ok t
    rw [replayAssertClaim, hvalid, ok_bind, hins]
  refine hfirst.trans ((openConflictOf_replays hv hin (insertClaim_table hins hI) hreg ?_).trans
    (openConflictOf_replays hw hinv hIv hreg hapart))
  exact hapart.mono (familyInputs_mono hgrows)

theorem assertClaim_grows (h : assertClaim reg w claim evidence ignored openedSeq = .ok w') :
    w.tables.Grows w'.tables := by
  obtain ⟨_, t, _, hins, hs, hc, he⟩ := assertClaim_tables h
  exact (insertClaim_grows hins).trans (.of_eq hs hc he)

variable {proposer : ActorRef} {op : Operation}

theorem applyOperation_grows (h : applyOperation reg proposer openedSeq w op = .ok w') :
    w.tables.Grows w'.tables := by
  cases op with
  | registerSourceRevision _ source => exact registerSourceRevision_grows h
  | assertClaim claim evidence _ => exact assertClaim_grows h
  | attachEvidence link _ =>
    obtain ⟨_, _, t, _, _, _, _, ht, rfl⟩ := attachEvidence_eq_ok.mp h
    exact (validateAndInsertEvidence_grows ht).trans (.modify_claim link.claimId fun _ => rfl)
  | supersedeClaim op =>
    obtain ⟨_, v, _, _, hv, rfl⟩ := supersedeClaim_eq_ok.mp h
    exact (assertClaim_grows hv).trans (.modify_claim op.targetClaimId fun _ => rfl)
  | retractClaim op =>
    obtain ⟨_, _, _, _, _, rfl⟩ := retractClaim_eq_ok.mp h
    exact .modify_claim op.targetClaimId fun _ => rfl
  | resolveConflict op =>
    obtain ⟨_, _, _, rfl⟩ := resolveConflict_eq_ok.mp h
    exact .of_eq rfl rfl rfl
  | recordDecision | supersedeDecision | openQuestion | answerQuestion | dropQuestion
  | createWorkItem | updateWorkItemStatus =>
    have hkeep := applyOperation_keepsMemory h (by simp [applyContinuityOperation])
    exact .of_eq hkeep.sources hkeep.claims hkeep.evidence

theorem applyOperations_grows {t : Tables} {ops : List Operation}
    (h : applyOperations reg proposer openedSeq t ops = .ok w) : t.Grows w.tables :=
  foldlM_inv (P := fun w : Txn => t.Grows w.tables)
    (fun _ _ _ _ hv hop => hv.trans (applyOperation_grows hop)) (.refl t) h

/-- Every operation appends events that replay to what it did. -/
theorem applyOperation_replays (h : applyOperation reg proposer openedSeq w op = .ok w')
    (hI : ConflictTable reg w.tables (hist ++ w.events)) (hreg : reg.FamiliesNamePredicate)
    (hapart : Set.InjOn sha256Json (familyInputs reg w'.tables)) : Txn.Replays reg w w' := by
  cases op with
  | registerSourceRevision _ source =>
    obtain ⟨row, hrow, hsame, hhash, rfl⟩ | ⟨hrow, content, hcontent, hhash, rfl⟩ :=
      registerSourceRevision_eq_ok.mp h
    · apply Txn.Replays.emit
      have hagain := registerSourceRevision_eq_ok (w := ⟨w.tables, [], []⟩).mpr
        (Or.inl ⟨row, hrow, hsame, hhash, rfl⟩)
      simp only [applyReplayEvent, applyContinuityEvent, continuityReducer, Option.map_none,
        applyMemoryEvent, hagain, ok_bind]
      rfl
    · apply Txn.Replays.emit
      have hagain := registerSourceRevision_eq_ok (w := ⟨w.tables, [], []⟩).mpr
        (Or.inr ⟨hrow, content, hcontent, hhash, rfl⟩)
      simp only [applyReplayEvent, applyContinuityEvent, continuityReducer, Option.map_none,
        applyMemoryEvent, hagain, ok_bind]
      rfl
  | assertClaim claim evidence _ => exact assertClaim_replays h hI hreg hapart
  | attachEvidence link _ =>
    obtain ⟨row, predicate, t, hrow, hactive, hp, hi, ht, rfl⟩ := attachEvidence_eq_ok.mp h
    apply Txn.Replays.emit
    have hagain := attachEvidence_eq_ok (w := ⟨w.tables, [], []⟩).mpr
      ⟨row, predicate, t, hrow, hactive, hp, hi, ht, rfl⟩
    simp only [applyReplayEvent, applyContinuityEvent, continuityReducer, Option.map_none,
      applyMemoryEvent, hagain, ok_bind]
    rfl
  | supersedeClaim op =>
    obtain ⟨row, v, hrow, hactive, hv, rfl⟩ := supersedeClaim_eq_ok.mp h
    refine (assertClaim_replays hv hI hreg (hapart.mono ?_)).trans (Txn.Replays.emit ?_)
    · exact familyInputs_mono (.modify_claim op.targetClaimId fun _ => rfl)
    -- the claim that is asserted is another one
    obtain ⟨hnone, hclaims, _⟩ := assertClaim_frame hv
    have hne : op.targetClaimId ≠ op.replacementClaim.claimId := by
      intro heq
      rw [heq, hnone] at hrow
      cases hrow
    have hstill : ∃ row ∈ v.tables.claims[op.targetClaimId]?, row.status = .active := by
      rw [hclaims, Table.get_insert, if_neg hne]
      exact ⟨row, hrow, hactive⟩
    simp only [applyReplayEvent, applyContinuityEvent, continuityReducer, Option.map_none,
      applyMemoryEvent, require_of hstill, ok_bind]
    rfl
  | retractClaim op =>
    obtain ⟨row, hrow, hactive, _, _, rfl⟩ := retractClaim_eq_ok.mp h
    apply Txn.Replays.emit
    have hstill : ∃ row ∈ w.tables.claims[op.targetClaimId]?, row.status = .active :=
      ⟨row, hrow, hactive⟩
    simp only [applyReplayEvent, applyContinuityEvent, continuityReducer, Option.map_none,
      applyMemoryEvent, require_of hstill, ok_bind]
    rfl
  | resolveConflict op =>
    obtain ⟨row, hrow, hres, rfl⟩ := resolveConflict_eq_ok.mp h
    apply Txn.Replays.emit
    have hstill : ∃ row ∈ w.tables.conflicts[op.conflictId]?, row.status = .open :=
      ⟨row, hrow, hres.status⟩
    simp only [applyReplayEvent, applyContinuityEvent, continuityReducer, Option.map_none,
      applyMemoryEvent, require_of hstill, ok_bind]
    rfl
  | recordDecision decision _ =>
    obtain ⟨hid, rfl⟩ := recordDecision_eq_ok.mp h
    exact .continuity rfl (recordDecision_eq_ok.mpr ⟨hid, rfl⟩)
  | supersedeDecision op =>
    obtain ⟨row, hrow, hactive, hid, rfl⟩ := supersedeDecision_eq_ok.mp h
    exact .continuity rfl (supersedeDecision_eq_ok.mpr ⟨row, hrow, hactive, hid, rfl⟩)
  | openQuestion _ question =>
    obtain ⟨hid, rfl⟩ := openQuestion_eq_ok.mp h
    exact .continuity rfl (openQuestion_eq_ok.mpr ⟨hid, rfl⟩)
  | answerQuestion answer _ target =>
    obtain ⟨row, hrow, hopen, rfl⟩ := answerQuestion_eq_ok.mp h
    exact .continuity rfl (answerQuestion_eq_ok.mpr ⟨row, hrow, hopen, rfl⟩)
  | dropQuestion drop _ target =>
    obtain ⟨row, hrow, hopen, rfl⟩ := dropQuestion_eq_ok.mp h
    exact .continuity rfl (dropQuestion_eq_ok.mpr ⟨row, hrow, hopen, rfl⟩)
  | createWorkItem _ workItem =>
    obtain ⟨hid, rfl⟩ := createWorkItem_eq_ok.mp h
    exact .continuity rfl (createWorkItem_eq_ok.mpr ⟨hid, rfl⟩)
  | updateWorkItemStatus op =>
    obtain ⟨hblocker, row, hrow, rfl⟩ := updateWorkItemStatus_eq_ok.mp h
    exact .continuity rfl (updateWorkItemStatus_eq_ok.mpr ⟨hblocker, row, hrow, rfl⟩)

/-- So does a list of operations. -/
theorem applyOperations_replays {t : Tables} {ops : List Operation}
    (h : applyOperations reg proposer openedSeq t ops = .ok w) (hI : ConflictTable reg t hist)
    (hreg : reg.FamiliesNamePredicate)
    (hapart : Set.InjOn sha256Json (familyInputs reg w.tables)) :
    replayEvents reg t w.events = .ok w.tables := by
  have hsteps := foldlM_inv (P := fun w : Txn => ConflictTable reg w.tables (hist ++ w.events) ∧
      (Set.InjOn sha256Json (familyInputs reg w.tables) → Txn.Replays reg ⟨t, [], []⟩ w)) ?_
    ⟨by simpa using hI, fun _ => .refl _⟩ h
  · obtain ⟨es, hevents, hes⟩ := hsteps.2 hapart
    rw [hevents]
    exact hes
  · intro v op v' _ hv hop
    refine ⟨applyOperation_table hop hv.1, fun hapart => ?_⟩
    exact (hv.2 (hapart.mono (familyInputs_mono (applyOperation_grows hop)))).trans
      (applyOperation_replays hop hv.1 hreg hapart)

end

/-! ### Entries -/

/-- The replay that has come as far as the database. -/
def Db.replayed (db : Db) : Replayed where
  tables := db.tables
  ledger := db.ledger
  prev := headEntryHash db.ledger
  schema := db.ledger.getLast?.map fun _ => supportedSchema

section

variable [Host] {reg : Registry} {db : Db} {hash : Hash} {value : Json} {e : Evaluation}

omit [Host] in
theorem eventsOf?_eventsJson (events : List LedgerEvent) :
    eventsOf? (eventsJson events) = some events := by
  show (events.map LedgerEvent.codec.enc).mapM LedgerEvent.codec.dec = some events
  induction events with
  | nil => rfl
  | cons event events ih =>
    rw [List.map_cons, List.mapM_cons, LedgerEvent.codec.dec_enc, ih]
    rfl

omit [Host] in
theorem orText_self (text : String) : orText (some text) (.ok text) = .ok text := by
  rw [orText]
  split <;> rfl

omit [Host] in
theorem ensure_of {ε : Type} {c : Prop} [Decidable c] {e : ε} (h : c) : ensure c e = .ok () :=
  ensure_eq_ok.mpr h

omit [Host] in
/-- Both sides hash under the schema that is supported. -/
theorem Db.replayed_root (hhead : headSchema db.ledger = supportedSchema) :
    stateRootForSchema (db.replayed.schema.getD supportedSchema) db.replayed.tables =
      stateRoot db := by
  have hschema : db.replayed.schema.getD supportedSchema = supportedSchema := by
    rw [Db.replayed]
    cases db.ledger.getLast? <;> rfl
  rw [hschema, stateRoot, hhead]
  rfl

theorem replayEntry_accept (h : evaluate reg db value hash = .ok e)
    (hevents : replayEvents reg db.tables e.txn.events = .ok e.txn.tables) :
    replayEntry reg db.tables (Proposal.codec.enc e.proposal) (eventsJson e.txn.events) =
      .ok e.txn.tables := by
  obtain ⟨_, hvalid, _⟩ := evaluate_eq_ok.mp h
  simp only [validateProposal, bind_eq_ok] at hvalid
  obtain ⟨_, _, _, _, _, _, hreferences⟩ := hvalid
  rw [replayEntry, Proposal.codec.dec_enc, eventsOf?_eventsJson]
  simp only [orRaise, ok_bind, hreferences, hevents]

/-- The entry of an accepted proposal replays to what the proposal did. -/
theorem replayRow_accept (h : evaluate reg db value hash = .ok e)
    (hhead : headSchema db.ledger = supportedSchema)
    (hevents : replayEvents reg db.tables e.txn.events = .ok e.txn.tables) (row : ReceiptRow) :
    replayRow reg db.replayed e.row = .ok (e.accept db row).replayed := by
  obtain ⟨_, _, _, hparts, hrow, _, _, hunique⟩ := evaluate_eq_ok.mp h
  have hschema : (((Proposal.codec.enc e.proposal).get? "versions").bind fun v =>
      (v.get? "schema").bind JsonOf.str?) = some supportedSchema := by
    have := Evaluation.proposalSchema?_row h
    rw [proposalSchema?, Evaluation.loads_proposal h] at this
    exact this
  have hproposed : ((Proposal.codec.enc e.proposal).get? "proposed_at").bind JsonOf.str? =
      some e.proposal.proposedAt := rfl
  have hpre : e.row.preStateRoot = some (stateRoot db : String) := Evaluation.preStateRoot_row h
  have hpreText : orText e.row.preStateRoot (.ok (stateRoot db : String)) =
      .ok (stateRoot db : String) := by rw [hpre, orText_self]
  have hcommitted : e.row.committedAt = some e.proposal.proposedAt := by
    rw [hrow, hparts]
    rfl
  have hcommittedText : orText e.row.committedAt (.ok e.proposal.proposedAt) =
      .ok e.proposal.proposedAt := by rw [hcommitted, orText_self]
  -- neither column changes
  have hsame : { e.row with
      preStateRoot := some (stateRoot db : String)
      committedAt := some e.proposal.proposedAt } = e.row := by rw [← hpre, ← hcommitted]
  have hpost : (stateRootForSchema supportedSchema e.txn.tables : String) = e.row.stateRoot := by
    rw [hrow, hparts, ← (Evaluation.versions_eq h).1]
    rfl
  have hprev : e.row.prevHash = db.replayed.prev := by
    rw [hrow, hparts]
    rfl
  have hroots : ∀ root ∈ e.row.preStateRoot, root = "" ∨ (stateRoot db : String) = root := by
    intro root hroot
    rw [hpre] at hroot
    exact .inr (Option.some.inj hroot)
  have hentry : replayEntry reg db.replayed.tables (Proposal.codec.enc e.proposal)
      (eventsJson e.txn.events) = .ok e.txn.tables := replayEntry_accept h hevents
  have hfresh : ∀ other ∈ db.replayed.ledger, other.entryHash ≠ e.row.entryHash := hunique
  have hcurrent : supportedSchema ≠ "1.0.0" := by decide
  have hafter : (e.accept db row).replayed = ⟨e.txn.tables, db.ledger ++ [e.row],
      some e.row.entryHash, some supportedSchema⟩ := by
    rw [Db.replayed, Evaluation.accept_ledger, headEntryHash, List.getLast?_concat]
    rfl
  rw [hafter, replayRow, Evaluation.loads_proposal h, Evaluation.loads_events h]
  simp only [orRaise, ok_bind, hschema, hproposed, ensure_of hcurrent, Db.replayed_root hhead,
    ensure_of hroots, hentry, Except.mapError, ensure_of hpost, ensure_of hprev, hpreText,
    hcommittedText, ensure_of hfresh, hsame]
  rfl

end

/-! ### Runs -/

section

variable [Host] {ι : Type} [DecidableEq ι] {reg : Registry}

/-- **The events of a proposal replay to what it did**, in every state of every interleaving, where
no two families that occur have one hash. -/
theorem events_replay (hreg : reg.FamiliesNamePredicate) (es : List (Event ι)) (u : Sys ι)
    (hrun : Run reg (.start .empty) es u) (proposer : ActorRef) (openedSeq : Nat)
    (ops : List Operation) (w : Txn)
    (happly : applyOperations reg proposer openedSeq u.db.tables ops = .ok w)
    (hapart : Set.InjOn sha256Json (familyInputs reg w.tables)) :
    replayEvents reg u.db.tables w.events = .ok w.tables := by
  have htable : ConflictTable reg u.db.tables u.db.events :=
    hrun.history .empty fun _ _ _ _ _ _ h => applyOperation_table h
  exact applyOperations_replays happly htable hreg hapart

/-- What replays the ledger of a database, and each ledger before it. -/
structure Db.Replays (reg : Registry) (db : Db) : Prop where
  all : db.ledger.foldlM (replayRow reg) .start = .ok db.replayed
  prefixes : ∀ rows, rows <+: db.ledger → ∃ r : Replayed,
    rows.foldlM (replayRow reg) .start = .ok r ∧ r.ledger = rows ∧
      ∀ row ∈ rows.getLast?, (stateRootForSchema supportedSchema r.tables : String) = row.stateRoot

theorem Db.Replays.empty : Db.Replays reg .empty := by
  refine ⟨rfl, fun rows h => ?_⟩
  obtain rfl := List.prefix_nil.mp h
  exact ⟨.start, rfl, rfl, fun row hrow => by cases hrow⟩

theorem Db.Replays.accept {db : Db} {hash : Hash} {value : Json} {e : Evaluation}
    (hdb : db.Replays reg) (h : evaluate reg db value hash = .ok e)
    (hhead : headSchema db.ledger = supportedSchema)
    (hevents : replayEvents reg db.tables e.txn.events = .ok e.txn.tables) (row : ReceiptRow) :
    (e.accept db row).Replays reg := by
  have hall : (db.ledger ++ [e.row]).foldlM (replayRow reg) .start =
      .ok (e.accept db row).replayed := by
    rw [List.foldlM_append, hdb.all, ok_bind, List.foldlM_cons,
      replayRow_accept h hhead hevents row]
    rfl
  refine ⟨hall, fun rows hrows => ?_⟩
  rw [Evaluation.accept_ledger] at hrows
  obtain rfl | hrows := List.prefix_concat_iff.mp hrows
  · refine ⟨_, hall, rfl, fun last hlast => ?_⟩
    rw [List.getLast?_concat] at hlast
    obtain rfl := Option.some.inj hlast
    obtain ⟨_, _, _, hparts, hrow, _⟩ := evaluate_eq_ok.mp h
    rw [hrow, hparts, ← (Evaluation.versions_eq h).1]
    rfl
  · exact hdb.prefixes rows hrows

/-- What every call keeps: the ledger replays where no two families that occur have one hash. -/
structure Db.Replayable (reg : Registry) (db : Db) : Prop where
  head : headSchema db.ledger = supportedSchema
  logs : db.Logs reg
  replays : Set.InjOn sha256Json (familyInputs reg db.tables) → db.Replays reg

theorem Db.Replayable.empty : Db.Replayable reg .empty := ⟨rfl, .empty, fun _ => .empty⟩

theorem Db.Replayable.addReceipt {db : Db} (h : db.Replayable reg) (row : ReceiptRow) :
    (db.addReceipt row).Replayable reg :=
  ⟨h.head, ⟨h.logs.table, h.logs.logged, h.logs.opened⟩, fun hapart =>
    ⟨(h.replays hapart).all, (h.replays hapart).prefixes⟩⟩

theorem Db.Replayable.accept {db : Db} {hash : Hash} {value : Json} {e : Evaluation}
    (hreg : reg.FamiliesNamePredicate) (hdb : db.Replayable reg)
    (h : evaluate reg db value hash = .ok e) (row : ReceiptRow) :
    (e.accept db row).Replayable reg := by
  obtain ⟨_, _, happly, _⟩ := evaluate_eq_ok.mp h
  refine ⟨headSchema_accept h, hdb.logs.accept h row, fun hapart => ?_⟩
  have hbefore := hapart.mono (familyInputs_mono (applyOperations_grows happly))
  exact (hdb.replays hbefore).accept h hdb.head
    (applyOperations_replays happly hdb.logs.table hreg hapart) row

theorem replayRows_eq_ok {db target : Db} (h : db.Replays reg) (htarget : target.isEmpty = true) :
    replayRows reg db target = .ok { db with
      legacyReceiptPin := db.legacyReceiptPin.or target.legacyReceiptPin } := by
  rw [replayRows, ensure_of htarget, ok_bind, h.all]
  rfl

end

/-! ### One connection -/

section

variable [Host] {reg : Registry} {c : Call} {db db' : Db} {receipt : Receipt}

theorem Db.Replayable.committed (hreg : reg.FamiliesNamePredicate) (hdb : db.Replayable reg)
    (h : Committed reg c db receipt db') : db'.Replayable reg := by
  cases h with
  | replayed => exact hdb
  | accepted hash value e row receipt hpre hacc => exact hdb.accept hreg hacc.evaluated row
  | rejected r row receipt _ hrej => exact hdb.addReceipt row

theorem Committed.legacyReceiptPin (h : Committed reg c db receipt db') :
    db'.legacyReceiptPin = db.legacyReceiptPin := by
  cases h <;> rfl

/-- What one connection keeps between its calls. -/
structure Db.Restorable (reg : Registry) (db : Db) : Prop where
  verifiable : Verifiable reg db
  replayable : db.Replayable reg
  pin : db.legacyReceiptPin = none

theorem Db.Restorable.committed (hreg : reg.FamiliesNamePredicate) (hdb : db.Restorable reg)
    (hc : c.Auditable reg db) (h : Committed reg c db receipt db') : db'.Restorable reg :=
  ⟨hdb.verifiable.committed hc h, hdb.replayable.committed hreg h,
    h.legacyReceiptPin.trans hdb.pin⟩

theorem Db.Restorable.runFrom (hreg : reg.FamiliesNamePredicate) (calls : List Call)
    (hcalls : ∀ earlier c later, calls = earlier ++ c :: later →
      c.Auditable reg (runFrom reg .empty earlier)) : (runFrom reg .empty calls).Restorable reg := by
  induction calls using List.reverseRecOn with
  | nil => exact ⟨.empty reg, .empty, rfl⟩
  | append_singleton earlier c ih =>
    have hdb := ih fun before d later h => hcalls before d (later ++ [c]) (by simp [h])
    rw [runFrom_append, runFrom_cons]
    obtain h | ⟨receipt, h⟩ := @dbAfter_cases reg c (SharedMind.runFrom reg .empty earlier) _
    · rw [h]
      exact hdb
    · exact hdb.committed hreg (hcalls earlier c [] rfl) h

end

/-! ### Two owners of one system -/

section

attribute [local instance] Host.utc

theorem rival_familyInputs {t : Tables} (ht : t.claims = rivalTables.claims) :
    Set.InjOn sha256Json (familyInputs ownerRegistry t) := by
  have hvalues : ∀ v ∈ familyInputs ownerRegistry t,
      v = familyValues ownerClaim.proposition ownerPredicate := by
    intro v hv
    obtain ⟨id, row, p, hrow, hp, rfl⟩ := hv
    obtain rfl := List.mem_singleton.mp hp
    rw [ht, rivalTables, rivalClaims, ownerTables, Table.get_insert, Table.get_insert] at hrow
    split at hrow
    · cases hrow
      rfl
    · split at hrow
      · cases hrow
        rfl
      · simp at hrow
  intro v hv w hw _
  rw [hvalues v hv, hvalues w hw]

/-- The events of its proposal replay. -/
theorem events_replay_of_rivals :
    replayEvents ownerRegistry .empty rivalTxn.events = .ok rivalTables := by
  obtain ⟨row, hacc⟩ := rivalAssertion_accepts
  obtain ⟨_, _, happly, _⟩ := evaluate_eq_ok.mp hacc.evaluated
  exact events_replay ownerRegistry_familiesNamePredicate [] (.start .empty : Sys Unit) .nil _ _ _ _
    happly (rival_familyInputs rfl)

theorem preflight_rivalAssertion : preflight rivalAssertion.call = .ok (.evaluate
    (sha256Json (Proposal.codec.enc rivalAssertion)) (Proposal.codec.enc rivalAssertion)) :=
  preflight_evaluate.mpr ⟨by decide, JsonOf.toJson?_raw (Proposal.codec.sorted _), by decide,
    JsonOf.length_utf8_dumps_le (by decide), rfl⟩

theorem rivalAssertion_auditable (db : Db) : rivalAssertion.call.Auditable ownerRegistry db := by
  refine ⟨?_, ?_⟩
  · intro hkey
    obtain ⟨n, t, hn, _⟩ := hkey
    cases hn
  · intro hash value e row hpre hacc
    rw [preflight_rivalAssertion] at hpre
    obtain ⟨-, rfl⟩ := Preflight.evaluate.inj (Except.ok.inj hpre)
    obtain ⟨hvalue, _⟩ := evaluate_eq_ok.mp hacc.evaluated
    rw [← Proposal.codec.enc_injective hvalue]
    decide

theorem commit_of_accepts {reg : Registry} {c : Call} {db : Db} {hash : Hash} {value : Json}
    {e : Evaluation} {row : ReceiptRow} (hpre : preflight c = .ok (.evaluate hash value))
    (hacc : Accepts reg c hash value db e row) : ∃ receipt,
      commit reg db c = .ok (receipt, e.accept db row) := by
  obtain ⟨receipt, hreceipt⟩ := rowToReceipt_of_receiptRow hacc.receipted
  refine ⟨receipt, ?_⟩
  rw [commit_evaluate hpre, transaction_accepted.mpr ⟨e, row, hacc, hreceipt, rfl⟩]
  rfl

end

end SharedMind
