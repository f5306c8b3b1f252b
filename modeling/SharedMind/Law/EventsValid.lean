import SharedMind.Kernel.Accepting
import SharedMind.Law.ConflictTable
import SharedMind.Law.Records

/-!
# The events of an entry

* `Txn.Logs`: what an operation keeps: the tables are as the events tell, and every event is
  one the contract admits.
* `entry_valid`: the contract admits the entry of every proposal whose operations apply.
-/

namespace SharedMind

open Py

theorem atLeast_nat {lo n : Nat} (h : lo ≤ n) : atLeast lo (.int n) = true := by
  rw [atLeast, PyNum.toInt?_int, Option.any_some, decide_eq_true_eq]
  exact_mod_cast h

theorem lengthIn_le {lo hi : Nat} {s : String} (h : lengthIn lo hi s = true) : lo ≤ s.length := by
  rw [lengthIn, Bool.and_eq_true, decide_eq_true_eq] at h
  exact h.1

/-! ### Conflicts -/

/-- The document of a conflict that is open. -/
theorem conflictDocument_wellFormed {id : RecordId} {row : ConflictRow} (h : row.Sound)
    (hepisode : 1 ≤ row.episode) (hopened : 1 ≤ row.openedSeq) :
    (conflictDocument id row).WellFormed := by
  refine ⟨atLeast_nat hepisode, atLeast_nat hopened, h.two, uniqueItems_of_sorted h.sorted, ?_⟩
  have hres := h.resolution
  show row.status = .resolved ↔ row.resolution.isSome = true
  cases hs : row.status with
  | «open» =>
    rw [hres.mp hs]
    exact ⟨fun h => (nomatch h), fun h => (nomatch h)⟩
  | resolved =>
    refine ⟨fun _ => Option.isSome_iff_ne_none.mpr fun hnone => ?_, fun _ => rfl⟩
    rw [hres.mpr hnone] at hs
    exact nomatch hs

/-! ### Transactions -/

/-- The tables are as the events tell, conflicts name the entry that opened them, and the
events are valid. -/
structure Txn.Logs (reg : Registry) (hist : List LedgerEvent) (w : Txn) : Prop where
  table : ConflictTable reg w.tables (hist ++ w.events)
  logged : RecordsLogged w.tables (hist ++ w.events)
  opened : ∀ (id : RecordId) (row : ConflictRow), w.tables.conflicts[id]? = some row →
    1 ≤ row.openedSeq
  valid : ∀ ev ∈ w.events, ev.Valid

section

variable {reg : Registry} {w w' : Txn} {hist : List LedgerEvent} {openedSeq : Nat}

theorem conflictRowFor_opened {t : Tables} {family : Hash} {kind : ConflictKind}
    {members : List RecordId} {c : RecordId × ConflictRow}
    (h : conflictRowFor t family kind members openedSeq = .ok c) (hseq : 1 ≤ openedSeq)
    (hopened : ∀ (id : RecordId) (row : ConflictRow), t.conflicts[id]? = some row →
      1 ≤ row.openedSeq) : 1 ≤ c.2.openedSeq := by
  rcases conflictRowFor_eq_ok.mp h with ⟨b, hb, rfl⟩ | ⟨_, b, _, rfl⟩ | ⟨_, _, _, rfl⟩
  · exact hopened b.1 b.2 (openConflict?_eq_some hb).1
  · exact hseq
  · exact hseq

/-- What opening a conflict keeps; `hI` is the table it leaves. -/
theorem openConflictOf_valid {incoming : Claim} {family : Hash} {kind : ConflictKind}
    {found : List (RecordId × ConflictKind)}
    (h : openConflictOf w incoming family kind found openedSeq = .ok w') (hseq : 1 ≤ openedSeq)
    (hI : ConflictTable reg w'.tables (hist ++ w'.events))
    (hopened : ∀ (id : RecordId) (row : ConflictRow), w.tables.conflicts[id]? = some row →
      1 ≤ row.openedSeq) (hvalid : ∀ ev ∈ w.events, ev.Valid) :
    (∀ (id : RecordId) (row : ConflictRow), w'.tables.conflicts[id]? = some row →
      1 ≤ row.openedSeq) ∧ ∀ ev ∈ w'.events, ev.Valid := by
  rcases openConflictOf_eq_ok.mp h with ⟨_, rfl⟩ | ⟨_, c, hc, rfl⟩
  · exact ⟨hopened, hvalid⟩
  have hnew := conflictRowFor_opened hc hseq hopened
  refine ⟨fun id row hrow => ?_, fun ev hev => ?_⟩
  · rw [Table.get_insert] at hrow
    split at hrow
    · exact Option.some.inj hrow ▸ hnew
    · exact hopened id row hrow
  · rcases List.mem_append.mp hev with hev | hev
    · exact hvalid ev hev
    · obtain rfl := List.mem_singleton.mp hev
      have hrow : (w.tables.conflicts.insert c.1 c.2)[c.1]? = some c.2 := by
        rw [Table.get_insert, if_pos rfl]
      have hepisode := (hI.counted c.1 c.2 hrow).episode_eq
      exact conflictDocument_wellFormed (hI.sound c.1 c.2 hrow) (by omega) hnew

variable [Host]

/-- What asserting a claim keeps of the conflicts and the events. -/
theorem assertClaim_valid {claim : Claim} {evidence : List EvidenceLink} {ignored : List RecordId}
    (h : assertClaim reg w claim evidence ignored openedSeq = .ok w') (hseq : 1 ≤ openedSeq)
    (hevidence : evidence ≠ []) (hw : w.Logs reg hist) :
    (∀ (id : RecordId) (row : ConflictRow), w'.tables.conflicts[id]? = some row →
      1 ≤ row.openedSeq) ∧ ∀ ev ∈ w'.events, ev.Valid := by
  obtain ⟨predicate, t, hvalid, hins, hopen⟩ := assertClaim_eq_ok.mp h
  obtain ⟨found, v, hfound, hv, hw'⟩ := openConflicts_eq_ok.mp hopen
  obtain ⟨hIv, hinv⟩ := openConflictOf_table hv (incoming_of_inserted hvalid hins hfound)
    (insertClaim_table hins hw.table)
  have hI := (openConflictOf_table hw' hinv hIv).1
  have hemit : ∀ ev ∈ (w.emit t (.claimAsserted claim evidence)).events, ev.Valid := by
    intro ev hev
    rw [Txn.emit_events] at hev
    rcases List.mem_append.mp hev with hev | hev
    · exact hw.valid ev hev
    · obtain rfl := List.mem_singleton.mp hev
      exact hevidence
  have hopened : ∀ (id : RecordId) (row : ConflictRow), t.conflicts[id]? = some row →
      1 ≤ row.openedSeq := by
    rw [insertClaim_frame hins]
    exact hw.opened
  obtain ⟨hopened, hvalid⟩ := openConflictOf_valid hv hseq hIv hopened hemit
  exact openConflictOf_valid hw' hseq hI hopened hvalid

variable {proposer : ActorRef} {op : Operation}

/-- Every operation emits. -/
theorem applyOperation_events_ne (h : applyOperation reg proposer openedSeq w op = .ok w') :
    w'.events ≠ [] := by
  have hemit : ∀ {v : Txn} {t : Tables} {ev : LedgerEvent}, (v.emit t ev).events ≠ [] := by
    intro v t ev
    rw [Txn.emit_events]
    exact List.append_ne_nil_of_right_ne_nil _ (List.cons_ne_nil _ _)
  cases op with
  | registerSourceRevision _ source =>
    rcases registerSourceRevision_eq_ok.mp h with ⟨_, _, _, _, rfl⟩ | ⟨_, _, _, _, rfl⟩
    · exact hemit
    · exact hemit
  | assertClaim claim evidence _ =>
    obtain ⟨_, _, _, _, es, hes, _⟩ := assertClaim_frame h
    rw [hes]
    exact List.append_ne_nil_of_right_ne_nil _ (List.cons_ne_nil _ _)
  | attachEvidence link _ =>
    obtain ⟨_, _, t, _, _, _, _, _, rfl⟩ := attachEvidence_eq_ok.mp h
    exact hemit
  | supersedeClaim op =>
    obtain ⟨_, v, _, _, _, rfl⟩ := supersedeClaim_eq_ok.mp h
    exact hemit
  | retractClaim op =>
    obtain ⟨_, _, _, _, _, rfl⟩ := retractClaim_eq_ok.mp h
    exact hemit
  | resolveConflict op =>
    obtain ⟨_, _, _, rfl⟩ := resolveConflict_eq_ok.mp h
    exact hemit
  | recordDecision decision _ =>
    obtain ⟨_, rfl⟩ := recordDecision_eq_ok.mp h
    exact hemit
  | supersedeDecision op =>
    obtain ⟨_, _, _, _, rfl⟩ := supersedeDecision_eq_ok.mp h
    exact hemit
  | openQuestion _ question =>
    obtain ⟨_, rfl⟩ := openQuestion_eq_ok.mp h
    exact hemit
  | answerQuestion answer _ target =>
    obtain ⟨_, _, _, rfl⟩ := answerQuestion_eq_ok.mp h
    exact hemit
  | dropQuestion drop _ target =>
    obtain ⟨_, _, _, rfl⟩ := dropQuestion_eq_ok.mp h
    exact hemit
  | createWorkItem _ workItem =>
    obtain ⟨_, rfl⟩ := createWorkItem_eq_ok.mp h
    exact hemit
  | updateWorkItemStatus op =>
    obtain ⟨_, _, _, rfl⟩ := updateWorkItemStatus_eq_ok.mp h
    exact hemit

/-- What an operation leaves of conflicts and events. -/
theorem applyOperation_valid (h : applyOperation reg proposer openedSeq w op = .ok w')
    (hseq : 1 ≤ openedSeq) (hw : w.Logs reg hist) :
    (∀ (id : RecordId) (row : ConflictRow), w'.tables.conflicts[id]? = some row →
      1 ≤ row.openedSeq) ∧ ∀ ev ∈ w'.events, ev.Valid := by
  have hemit : ∀ {v : Txn} {t : Tables} {ev : LedgerEvent}, (∀ ev ∈ v.events, ev.Valid) →
      ev.Valid → ∀ ev' ∈ (v.emit t ev).events, ev'.Valid := by
    intro v t ev hv hnew ev' hmem
    rw [Txn.emit_events] at hmem
    rcases List.mem_append.mp hmem with hmem | hmem
    · exact hv ev' hmem
    · exact List.mem_singleton.mp hmem ▸ hnew
  cases op with
  | registerSourceRevision _ source =>
    rcases registerSourceRevision_eq_ok.mp h with ⟨_, _, _, _, rfl⟩ | ⟨_, _, _, _, rfl⟩
    · exact ⟨hw.opened, hemit hw.valid trivial⟩
    · exact ⟨hw.opened, hemit hw.valid trivial⟩
  | assertClaim claim evidence _ => exact assertClaim_valid h hseq evidence.2.2 hw
  | attachEvidence link _ =>
    obtain ⟨_, _, t, _, _, _, _, ht, rfl⟩ := attachEvidence_eq_ok.mp h
    refine ⟨?_, hemit hw.valid trivial⟩
    rw [validateAndInsertEvidence_frame ht]
    exact hw.opened
  | supersedeClaim op =>
    obtain ⟨_, v, _, _, hv, rfl⟩ := supersedeClaim_eq_ok.mp h
    obtain ⟨hopened, hvalid⟩ := assertClaim_valid hv hseq op.initialEvidence.2.2 hw
    exact ⟨hopened, hemit hvalid (lengthIn_le op.rationale.2)⟩
  | retractClaim op =>
    obtain ⟨_, _, _, _, _, rfl⟩ := retractClaim_eq_ok.mp h
    exact ⟨hw.opened, hemit hw.valid (lengthIn_le op.rationale.2)⟩
  | resolveConflict op =>
    obtain ⟨row, hrow, _, rfl⟩ := resolveConflict_eq_ok.mp h
    refine ⟨fun id r hr => ?_, hemit hw.valid trivial⟩
    rw [Txn.emit_tables, Table.get_modify] at hr
    split at hr
    · obtain ⟨old, hold, rfl⟩ := Option.map_eq_some_iff.mp hr
      exact hw.opened id old hold
    · exact hw.opened id r hr
  | recordDecision decision _ =>
    obtain ⟨_, rfl⟩ := recordDecision_eq_ok.mp h
    exact ⟨hw.opened, hemit hw.valid trivial⟩
  | supersedeDecision op =>
    obtain ⟨row, hrow, _, _, rfl⟩ := supersedeDecision_eq_ok.mp h
    have hpos : 1 ≤ row.version := hw.logged.decisions.positive _ row hrow
    exact ⟨hw.opened, hemit hw.valid ⟨op.rationale.2, atLeast_nat hpos,
      atLeast_nat (Nat.succ_le_succ hpos)⟩⟩
  | openQuestion _ question =>
    obtain ⟨_, rfl⟩ := openQuestion_eq_ok.mp h
    exact ⟨hw.opened, hemit hw.valid trivial⟩
  | answerQuestion answer _ target =>
    obtain ⟨row, hrow, _, rfl⟩ := answerQuestion_eq_ok.mp h
    have hpos : 1 ≤ row.version := hw.logged.questions.positive _ row hrow
    exact ⟨hw.opened, hemit hw.valid ⟨atLeast_nat hpos, atLeast_nat (Nat.succ_le_succ hpos)⟩⟩
  | dropQuestion drop _ target =>
    obtain ⟨row, hrow, _, rfl⟩ := dropQuestion_eq_ok.mp h
    have hpos : 1 ≤ row.version := hw.logged.questions.positive _ row hrow
    exact ⟨hw.opened, hemit hw.valid ⟨atLeast_nat hpos, atLeast_nat (Nat.succ_le_succ hpos)⟩⟩
  | createWorkItem _ workItem =>
    obtain ⟨_, rfl⟩ := createWorkItem_eq_ok.mp h
    exact ⟨hw.opened, hemit hw.valid trivial⟩
  | updateWorkItemStatus op =>
    obtain ⟨hblocker, row, hrow, rfl⟩ := updateWorkItemStatus_eq_ok.mp h
    have hpos : 1 ≤ row.version := hw.logged.workItems.positive _ row hrow
    exact ⟨hw.opened, hemit hw.valid ⟨op.1.rationale.2, atLeast_nat hpos,
      atLeast_nat (Nat.succ_le_succ hpos), hblocker⟩⟩

theorem Txn.Logs.applyOperation (hw : w.Logs reg hist) (hseq : 1 ≤ openedSeq)
    (h : applyOperation reg proposer openedSeq w op = .ok w') : w'.Logs reg hist := by
  obtain ⟨hopened, hvalid⟩ := applyOperation_valid h hseq hw
  exact ⟨applyOperation_table h hw.table, applyOperation_logged h hw.logged, hopened, hvalid⟩

/-! ### Entries -/

/-- Tables and events that a transaction starts from. -/
structure Db.Logs (reg : Registry) (db : Db) : Prop where
  table : ConflictTable reg db.tables db.events
  logged : RecordsLogged db.tables db.events
  opened : ∀ (id : RecordId) (row : ConflictRow), db.tables.conflicts[id]? = some row →
    1 ≤ row.openedSeq

omit [Host] in
theorem Db.Logs.empty : Db.Logs reg .empty :=
  ⟨.empty, .empty, fun id row h => by simp [Db.empty, Tables.empty] at h⟩

omit [Host] in
theorem Db.Logs.start {db : Db} (h : db.Logs reg) : Txn.Logs reg db.events ⟨db.tables, [], []⟩ :=
  ⟨by simpa using h.table, by simpa using h.logged, h.opened, fun _ h => absurd h List.not_mem_nil⟩

theorem Db.Logs.applyOperations {db : Db} {ops : List Operation} (h : db.Logs reg)
    (hseq : 1 ≤ openedSeq)
    (happly : applyOperations reg proposer openedSeq db.tables ops = .ok w) :
    w.Logs reg db.events :=
  foldlM_inv (fun _ _ _ _ hw hop => hw.applyOperation hseq hop) h.start happly

theorem Db.Logs.accept {db : Db} {value : Json} {hash : Hash} {e : Evaluation} (h : db.Logs reg)
    (heval : evaluate reg db value hash = .ok e) (row : ReceiptRow) : (e.accept db row).Logs reg := by
  obtain ⟨_, _, happly, _⟩ := evaluate_eq_ok.mp heval
  have hw := h.applyOperations (Nat.le_add_left 1 _) happly
  refine ⟨?_, ?_, hw.opened⟩
  · rw [Evaluation.events_accept heval]
    exact hw.table
  · rw [Evaluation.events_accept heval]
    exact hw.logged

theorem RunWhere.logs {ι : Type} [DecidableEq ι] {P : Sys ι → Event ι → Prop}
    {es : List (Event ι)} {u : Sys ι} (hrun : RunWhere reg P (.start .empty) es u) :
    u.db.Logs reg := by
  refine hrun.accepted_inv (Q := fun db => db.Logs reg) .empty
    (fun _ _ h => ⟨h.table, h.logged, h.opened⟩) ?_
  intro s _ _ _ _ hash value e row _ hq hacc
  exact hq.accept hacc.accepts.evaluated row

/-- **The contract admits the entry** of a proposal whose operations apply. -/
theorem entry_valid {db : Db} {p : Proposal} {hash entryHash : Hash} (h : db.Logs reg)
    (hhead : HashText (headEntryHash db.ledger)) (hseq : nextLedgerSeq db.ledger ≤ maxRowId)
    (happly : applyOperations reg p.proposer (nextLedgerSeq db.ledger) db.tables p.operations.1 =
      .ok w) :
    (LedgerEntry.codec.dec (ledgerDocument (entryParts db p hash w) entryHash
      p.proposalId)).isSome = true := by
  have hw := h.applyOperations (Nat.le_add_left 1 _) happly
  have hne : w.events ≠ [] := by
    refine foldlM_prefix_inv (P := fun ops w => ops ≠ [] → w.events ≠ [])
      (fun hnil => absurd rfl hnil) (fun _ _ _ _ _ _ _ hop _ => applyOperation_events_ne hop)
      happly ?_
    exact p.operations.2.1
  exact ledgerDocument_valid hne hw.valid hhead hseq

end

end SharedMind
