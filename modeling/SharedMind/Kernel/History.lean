import SharedMind.Kernel.Accepting
import SharedMind.Kernel.Phases

/-!
# The history a ledger records

* `Db.events`: the events of the ledger, decoded, in order.
* `RunWhere.history`: what every operation preserves of the tables and of the events so
  far holds in every state.
* `applyOperation_keepsContinuity`, `applyOperation_keepsMemory`: an operation changes
  continuity records or the other tables, and emits events of that side only.
-/

namespace SharedMind

open Py

/-! ### Events of the ledger -/

/-- The events of an entry. -/
def LedgerRow.decodedEvents (r : LedgerRow) : List LedgerEvent :=
  match loads r.events with
  | some (.arr items) => items.filterMap LedgerEvent.codec.dec
  | _ => []

def Db.events (db : Db) : List LedgerEvent := db.ledger.flatMap LedgerRow.decodedEvents

@[simp] theorem Db.events_empty : Db.empty.events = [] := rfl

@[simp] theorem Db.events_addReceipt (db : Db) (row : ReceiptRow) :
    (db.addReceipt row).events = db.events := rfl

theorem decodedEvents_eventsJson {r : LedgerRow} {events : List LedgerEvent}
    (h : loads r.events = some (eventsJson events)) : r.decodedEvents = events := by
  rw [LedgerRow.decodedEvents, h, eventsJson]
  simp only [List.filterMap_map]
  induction events with
  | nil => rfl
  | cons e es ih => simp [LedgerEvent.codec.dec_enc]

/-! ### The two sides -/

/-- An event of a decision, a question or a work item. -/
def LedgerEvent.continuity : LedgerEvent → Bool
  | .decisionRecorded _ => true
  | .decisionSuperseded _ => true
  | .questionOpened _ => true
  | .questionAnswered .. => true
  | .questionDropped .. => true
  | .workItemCreated _ => true
  | .workItemStatusUpdated _ => true
  | _ => false

/-- The continuity records stay, and no event is of one. -/
structure Txn.KeepsContinuity (w w' : Txn) : Prop where
  decisionRecords : w'.tables.decisionRecords = w.tables.decisionRecords
  openQuestions : w'.tables.openQuestions = w.tables.openQuestions
  workItems : w'.tables.workItems = w.tables.workItems
  events : ∃ es, w'.events = w.events ++ es ∧ ∀ e ∈ es, e.continuity = false

/-- The sources, claims, evidence and conflicts stay, and every event is of a continuity
record. -/
structure Txn.KeepsMemory (w w' : Txn) : Prop where
  sources : w'.tables.sources = w.tables.sources
  claims : w'.tables.claims = w.tables.claims
  evidence : w'.tables.evidence = w.tables.evidence
  conflicts : w'.tables.conflicts = w.tables.conflicts
  events : ∃ es, w'.events = w.events ++ es ∧ ∀ e ∈ es, e.continuity = true

namespace Txn.KeepsContinuity

variable {u v w w' : Txn}

theorem refl (w : Txn) : KeepsContinuity w w := ⟨rfl, rfl, rfl, [], by simp, by simp⟩

theorem trans (h : KeepsContinuity u v) (h' : KeepsContinuity v w) : KeepsContinuity u w := by
  obtain ⟨es, he, hes⟩ := h.events
  obtain ⟨fs, hf, hfs⟩ := h'.events
  refine ⟨h'.decisionRecords.trans h.decisionRecords, h'.openQuestions.trans h.openQuestions,
    h'.workItems.trans h.workItems, es ++ fs, by rw [hf, he, List.append_assoc], ?_⟩
  intro e hmem
  rcases List.mem_append.mp hmem with hmem | hmem
  · exact hes e hmem
  · exact hfs e hmem

/-- One event, and tables that differ on the other side only. -/
theorem emit {t : Tables} {e : LedgerEvent} (he : e.continuity = false)
    (hd : t.decisionRecords = w.tables.decisionRecords)
    (hq : t.openQuestions = w.tables.openQuestions) (hi : t.workItems = w.tables.workItems) :
    KeepsContinuity w (w.emit t e) :=
  ⟨hd, hq, hi, [e], rfl, by simpa using he⟩

end Txn.KeepsContinuity

theorem Txn.KeepsMemory.emit {w : Txn} {t : Tables} {e : LedgerEvent} (he : e.continuity = true)
    (hs : t.sources = w.tables.sources) (hc : t.claims = w.tables.claims)
    (hv : t.evidence = w.tables.evidence) (hf : t.conflicts = w.tables.conflicts) :
    KeepsMemory w (w.emit t e) :=
  ⟨hs, hc, hv, hf, [e], rfl, by simpa using he⟩

section

variable {w w' : Txn} {reg : Registry}

theorem validateAndInsertEvidence_frame {t t' : Tables} {link : EvidenceLink} {claimId : RecordId}
    (h : validateAndInsertEvidence t link claimId = .ok t') :
    t' = { t with evidence := t'.evidence } := by
  obtain ⟨_, _, _, _, rfl⟩ := validateAndInsertEvidence_eq_ok.mp h
  rfl

/-- A claim that is inserted changes the claims and the evidence. -/
theorem insertClaim_frame {t t' : Tables} {claim : Claim} {evidence : List EvidenceLink}
    (h : insertClaim t claim evidence = .ok t') :
    t' = { t with claims := t.claims.insert claim.claimId claim.row, evidence := t'.evidence } := by
  obtain ⟨_, hfold⟩ := insertClaim_eq_ok.mp h
  refine foldlM_inv (P := fun s : Tables => s =
    { t with claims := t.claims.insert claim.claimId claim.row, evidence := s.evidence }) ?_ rfl hfold
  intro s link s' _ hs hlink
  rw [validateAndInsertEvidence_frame hlink, hs]

theorem openConflictOf_frame {incoming : Claim} {family : Hash} {kind : ConflictKind}
    {found : List (RecordId × ConflictKind)} {openedSeq : Nat}
    (h : openConflictOf w incoming family kind found openedSeq = .ok w') :
    w'.tables = { w.tables with conflicts := w'.tables.conflicts } ∧
      ∃ es, w'.events = w.events ++ es ∧ ∀ e ∈ es, ∃ c, e = .conflictOpened c := by
  rcases openConflictOf_eq_ok.mp h with ⟨_, rfl⟩ | ⟨_, c, _, rfl⟩
  · exact ⟨rfl, [], by simp, by simp⟩
  · exact ⟨rfl, [.conflictOpened (conflictDocument c.1 c.2)], rfl, by simp⟩

theorem openConflictOf_keepsContinuity {incoming : Claim} {family : Hash} {kind : ConflictKind}
    {found : List (RecordId × ConflictKind)} {openedSeq : Nat}
    (h : openConflictOf w incoming family kind found openedSeq = .ok w') :
    w.KeepsContinuity w' := by
  obtain ⟨ht, es, he, hes⟩ := openConflictOf_frame h
  refine ⟨by rw [ht], by rw [ht], by rw [ht], es, he, fun e hmem => ?_⟩
  obtain ⟨c, rfl⟩ := hes e hmem
  rfl

variable [Host]

theorem validateClaim_minimum {claim : Claim} {evidence : List EvidenceLink}
    {predicate : PredicateDefinition}
    (h : validateClaim reg claim evidence = .ok predicate) :
    reg.predicate? claim.proposition.predicate = some predicate ∧
      predicate.evidencePolicy.minimum ≤ evidence.length := by
  simp only [validateClaim, bind_eq_ok, pure_eq_ok, require_eq_ok, orRaise_eq_ok] at h
  obtain ⟨_, _, p, hp, _, _, _, _, _, hmin, rfl⟩ := h
  exact ⟨hp, hmin⟩

theorem validateClaim_predicate {claim : Claim} {evidence : List EvidenceLink}
    {predicate : PredicateDefinition} (h : validateClaim reg claim evidence = .ok predicate) :
    reg.predicate? claim.proposition.predicate = some predicate := (validateClaim_minimum h).1

theorem assertClaim_keepsContinuity {claim : Claim} {evidence : List EvidenceLink}
    {ignored : List RecordId} {openedSeq : Nat}
    (h : assertClaim reg w claim evidence ignored openedSeq = .ok w') : w.KeepsContinuity w' := by
  obtain ⟨_, t, _, ht, hopen⟩ := assertClaim_eq_ok.mp h
  obtain ⟨_, v, _, hv, hw⟩ := openConflicts_eq_ok.mp hopen
  have hframe := insertClaim_frame ht
  have hemit : w.KeepsContinuity (w.emit t (.claimAsserted claim evidence)) :=
    .emit rfl (by rw [hframe]) (by rw [hframe]) (by rw [hframe])
  exact hemit.trans ((openConflictOf_keepsContinuity hv).trans (openConflictOf_keepsContinuity hw))

/-- What asserting a claim does to all tables but that of the conflicts, and the events it
emits: its own, and one for each conflict. -/
theorem assertClaim_frame {claim : Claim} {evidence : List EvidenceLink} {ignored : List RecordId}
    {openedSeq : Nat} (h : assertClaim reg w claim evidence ignored openedSeq = .ok w') :
    w.tables.claims[claim.claimId]? = none ∧
    w'.tables.claims = w.tables.claims.insert claim.claimId claim.row ∧
    w'.tables.sources = w.tables.sources ∧
    insertClaim w.tables claim evidence = .ok { w'.tables with conflicts := w.tables.conflicts } ∧
    ∃ es, w'.events = w.events ++ .claimAsserted claim evidence :: es ∧
      ∀ e ∈ es, ∃ c, e = .conflictOpened c := by
  obtain ⟨_, t, _, ht, hopen⟩ := assertClaim_eq_ok.mp h
  obtain ⟨_, v, _, hv, hw⟩ := openConflicts_eq_ok.mp hopen
  obtain ⟨htables, es, he, hes⟩ := openConflictOf_frame hv
  obtain ⟨htables', fs, hf, hfs⟩ := openConflictOf_frame hw
  have hframe := insertClaim_frame ht
  have hsame : w'.tables = { t with conflicts := w'.tables.conflicts } := by
    rw [htables', htables]
    rfl
  have ht' : t = { w'.tables with conflicts := w.tables.conflicts } := by
    rw [hsame, hframe]
  refine ⟨(insertClaim_eq_ok.mp ht).1, ?_, ?_, ht' ▸ ht, es ++ fs, ?_, ?_⟩
  · rw [hsame, hframe]
  · rw [hsame, hframe]
  · rw [hf, he]
    simp
  · intro e hmem
    rcases List.mem_append.mp hmem with hmem | hmem
    · exact hes e hmem
    · exact hfs e hmem

variable {proposer : ActorRef} {openedSeq : Nat} {op : Operation}

/-- An operation that is none of `continuity.py` leaves its records. -/
theorem applyOperation_keepsContinuity (h : applyOperation reg proposer openedSeq w op = .ok w')
    (hop : applyContinuityOperation w op = none) : w.KeepsContinuity w' := by
  cases op with
  | registerSourceRevision _ source =>
    rcases registerSourceRevision_eq_ok.mp h with ⟨_, _, _, _, rfl⟩ | ⟨_, _, _, _, rfl⟩ <;>
      exact .emit rfl rfl rfl rfl
  | assertClaim claim evidence _ => exact assertClaim_keepsContinuity h
  | attachEvidence link _ =>
    obtain ⟨_, _, t, _, _, _, _, ht, rfl⟩ := attachEvidence_eq_ok.mp h
    have hframe := validateAndInsertEvidence_frame ht
    exact .emit rfl (by rw [hframe]) (by rw [hframe]) (by rw [hframe])
  | supersedeClaim op =>
    obtain ⟨_, v, _, _, hv, rfl⟩ := supersedeClaim_eq_ok.mp h
    exact (assertClaim_keepsContinuity hv).trans (.emit rfl rfl rfl rfl)
  | retractClaim op =>
    obtain ⟨_, _, _, _, _, rfl⟩ := retractClaim_eq_ok.mp h
    exact .emit rfl rfl rfl rfl
  | resolveConflict op =>
    obtain ⟨_, _, _, rfl⟩ := resolveConflict_eq_ok.mp h
    exact .emit rfl rfl rfl rfl
  | recordDecision | supersedeDecision | openQuestion | answerQuestion | dropQuestion
  | createWorkItem | updateWorkItemStatus => exact nomatch hop

/-- An operation of `continuity.py` leaves the other tables. -/
theorem applyOperation_keepsMemory (h : applyOperation reg proposer openedSeq w op = .ok w')
    (hop : applyContinuityOperation w op ≠ none) : w.KeepsMemory w' := by
  cases op with
  | registerSourceRevision | assertClaim | attachEvidence | supersedeClaim | retractClaim
  | resolveConflict => exact absurd rfl hop
  | recordDecision decision _ =>
    obtain ⟨_, rfl⟩ := recordDecision_eq_ok.mp h
    exact .emit rfl rfl rfl rfl rfl
  | supersedeDecision op =>
    obtain ⟨_, _, _, _, rfl⟩ := supersedeDecision_eq_ok.mp h
    exact .emit rfl rfl rfl rfl rfl
  | openQuestion _ question =>
    obtain ⟨_, rfl⟩ := openQuestion_eq_ok.mp h
    exact .emit rfl rfl rfl rfl rfl
  | answerQuestion answer _ target =>
    obtain ⟨_, _, _, rfl⟩ := answerQuestion_eq_ok.mp h
    exact .emit rfl rfl rfl rfl rfl
  | dropQuestion drop _ target =>
    obtain ⟨_, _, _, rfl⟩ := dropQuestion_eq_ok.mp h
    exact .emit rfl rfl rfl rfl rfl
  | createWorkItem _ workItem =>
    obtain ⟨_, rfl⟩ := createWorkItem_eq_ok.mp h
    exact .emit rfl rfl rfl rfl rfl
  | updateWorkItemStatus op =>
    obtain ⟨_, _, _, rfl⟩ := updateWorkItemStatus_eq_ok.mp h
    exact .emit rfl rfl rfl rfl rfl

end

/-! ### Histories of runs -/

section

variable [Host] {reg : Registry}

theorem Evaluation.decodedEvents_row {db : Db} {value : Json} {hash : Hash} {e : Evaluation}
    (h : evaluate reg db value hash = .ok e) : e.row.decodedEvents = e.txn.events :=
  decodedEvents_eventsJson (loads_events h)

theorem Evaluation.events_accept {db : Db} {value : Json} {hash : Hash} {e : Evaluation}
    (h : evaluate reg db value hash = .ok e) (row : ReceiptRow) :
    (e.accept db row).events = db.events ++ e.txn.events := by
  rw [Db.events, accept_ledger, List.flatMap_append, List.flatMap_singleton, decodedEvents_row h]
  rfl

variable {ι : Type} [DecidableEq ι] {u : Sys ι} {es : List (Event ι)}

/-- What an acceptance preserves, and what looks at no receipt, holds in every state. -/
theorem RunWhere.accepted_inv {P : Sys ι → Event ι → Prop} {Q : Db → Prop} {s : Sys ι}
    (hrun : RunWhere reg P s es u) (h0 : Q s.db)
    (hreceipt : ∀ db row, Q db → Q (db.addReceipt row))
    (haccept : ∀ s ev u i c hash value e row, P s ev → Q s.db →
      Step.Accepting reg s ev u i c hash value e row → Q (e.accept s.db row)) : Q u.db := by
  refine hrun.inv (Q := fun s => Q s.db) h0 ?_
  intro s ev u hp hq hstep
  rcases hstep.db_cases with h | ⟨i, c, hash, value, e, row, hacc⟩ |
      ⟨_, _, _, _, _, row, hrej⟩
  · rw [h]
    exact hq
  · rw [hacc.after]
    exact haccept s ev u i c hash value e row hp hq hacc
  · rw [hrej.after]
    exact hreceipt s.db row hq

/-- What every operation preserves of the tables and the events so far holds in every
state. -/
theorem RunWhere.history {P : Sys ι → Event ι → Prop} {I : Tables → List LedgerEvent → Prop}
    (hrun : RunWhere reg P (.start .empty) es u) (h0 : I .empty [])
    (hop : ∀ proposer openedSeq hist w op w', applyOperation reg proposer openedSeq w op = .ok w' →
      I w.tables (hist ++ w.events) → I w'.tables (hist ++ w'.events)) :
    I u.db.tables u.db.events := by
  refine hrun.accepted_inv (Q := fun db => I db.tables db.events) h0 (fun _ _ h => h) ?_
  intro s _ _ _ _ hash value e row _ hq hacc
  have heval := hacc.accepts.evaluated
  obtain ⟨_, _, happly, _⟩ := evaluate_eq_ok.mp heval
  rw [Evaluation.events_accept heval, Evaluation.accept_tables]
  refine foldlM_inv (P := fun w : Txn => I w.tables (s.db.events ++ w.events)) ?_ ?_ happly
  · intro w op w' _ hw happ
    exact hop _ _ _ w op w' happ hw
  · simpa using hq

end

section

attribute [local instance] Host.utc

/-- The run in which a question is opened. -/
theorem question_run : ∃ es u row, Run ownerRegistry (.start .empty : Sys Unit) es u ∧
    u.db = (questionProposal.evaluation .empty questionTxn).accept .empty row := by
  obtain ⟨row, hacc⟩ := questionProposal_accepts
  obtain ⟨es, hes⟩ := Run.accepted (s := (.start .empty : Sys Unit)) (i := ()) rfl
    preflight_question hacc
  exact ⟨es, _, row, hes, rfl⟩

end

end SharedMind
