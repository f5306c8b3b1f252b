import SharedMind.Gen.RecordLog
import SharedMind.Kernel.Accepting
import SharedMind.Kernel.History

/-!
# Decisions, questions and work items

A continuity record is stored twice, as columns and as a document, and the ledger tells
its versions.

* `DecisionRow.Sound`, `QuestionRow.Sound`, `WorkItemRow.Sound`: columns and document say
  the same, and the document is in a state the contract admits.
* `RecordsLogged`: so it is of every record, and the ledger tells its versions and what
  it was created with.
* `records_logged`: the law over every interleaving.
-/

namespace SharedMind

open Py RecordLog

/-! ### Columns and document -/

structure DecisionRow.Sound (id : RecordId) (r : DecisionRow) : Prop where
  id_eq : r.document.decisionId = id
  status : r.document.status = r.status
  version : r.document.version.eqInt r.version = true
  replaced : r.document.replacedByDecisionId = r.replacedByDecisionId
  active_iff : r.status = .active ↔ r.replacedByDecisionId = none

structure QuestionRow.Sound (id : RecordId) (r : QuestionRow) : Prop where
  id_eq : r.document.questionId = id
  status : r.document.status = r.status
  version : r.document.version.eqInt r.version = true
  answer : r.document.answer = r.answer
  drop : r.document.drop = r.dropRecord
  answered_iff : r.status = .answered ↔ r.answer.isSome = true ∧ r.dropRecord = none
  dropped_iff : r.status = .dropped ↔ r.dropRecord.isSome = true ∧ r.answer = none
  open_iff : r.status = .open ↔ r.answer = none ∧ r.dropRecord = none

structure WorkItemRow.Sound (id : RecordId) (r : WorkItemRow) : Prop where
  id_eq : r.document.workItemId = id
  status : r.document.status = r.status
  version : r.document.version.eqInt r.version = true
  blocker : r.document.blocker = r.blocker
  updatedAt : r.document.updatedAt = r.updatedAt
  blocked_iff : r.status = .blocked ↔ ∃ b, r.blocker = some b ∧ (b : String) ≠ ""

/-- The contract admits the document. -/
theorem DecisionRow.Sound.wellFormed {id : RecordId} {r : DecisionRow} (h : r.Sound id) :
    r.document.WellFormed := by
  rw [DecisionDoc.WellFormed, h.status, h.replaced]
  exact h.active_iff

theorem QuestionRow.Sound.wellFormed {id : RecordId} {r : QuestionRow} (h : r.Sound id) :
    r.document.WellFormed := by
  rw [QuestionDoc.WellFormed, h.status, h.answer, h.drop]
  refine ⟨h.answered_iff.trans ⟨And.left, fun ha => ⟨ha, ?_⟩⟩,
    h.dropped_iff.trans ⟨And.left, fun hd => ⟨hd, ?_⟩⟩⟩
  all_goals
    obtain ⟨status, version, answer, drop, doc⟩ := r
    have h1 := h.answered_iff
    have h2 := h.dropped_iff
    have h3 := h.open_iff
    cases status <;> cases answer <;> cases drop <;> simp_all

theorem text_ne_empty {lo hi : Nat} (h : 1 ≤ lo) (b : Bounded lo hi) : (b : String) ≠ "" := by
  obtain ⟨s, hs⟩ := b
  rintro rfl
  rw [lengthIn, Bool.and_eq_true, decide_eq_true_eq] at hs
  exact absurd (h.trans hs.1) (by decide)

theorem WorkItemRow.Sound.wellFormed {id : RecordId} {r : WorkItemRow} (h : r.Sound id) :
    r.document.WellFormed := by
  rw [WorkItemDoc.WellFormed, h.status, h.blocker, h.blocked_iff, Option.isSome_iff_exists]
  exact ⟨fun ⟨b, hb, _⟩ => ⟨b, hb⟩, fun ⟨b, hb⟩ => ⟨b, hb, text_ne_empty le_rfl b⟩⟩

/-! ### What the reducers make of a row -/

theorem nextVersion_eqInt (v : Nat) : (nextVersion v).eqInt (v + 1 : Nat) = true :=
  AtLeast.eqInt_ofInt.mpr (by push_cast; rfl)

theorem toNat_of_eqInt_one {v : AtLeast 1} (h : v.eqInt 1 = true) : v.toNat = 1 := by
  rw [AtLeast.eqInt, PyNum.pyEq_int_iff] at h
  rw [AtLeast.toNat, h]
  rfl

theorem NewDecisionRecord.sound_row (d : NewDecisionRecord) : d.1.row.Sound d.1.decisionId := by
  obtain ⟨hstatus, hversion, hreplaced⟩ := d.2
  refine ⟨rfl, rfl, ?_, rfl, ?_⟩
  · show d.1.version.eqInt (d.1.version.toNat : Nat) = true
    rw [toNat_of_eqInt_one hversion]
    exact hversion
  · exact ⟨fun _ => hreplaced, fun _ => hstatus⟩

theorem Disposition.status_ne_active (d : Disposition) : d.status ≠ .active := by
  cases d <;> decide

theorem DecisionRow.Sound.supersede {id by' : RecordId} {r : DecisionRow} {d : Disposition}
    (h : r.Sound id) : (r.supersede d by').Sound id where
  id_eq := h.id_eq
  status := rfl
  version := nextVersion_eqInt r.version
  replaced := rfl
  active_iff := ⟨fun hs => absurd hs d.status_ne_active, fun hn => nomatch hn⟩

theorem NewOpenQuestion.sound_row (q : NewOpenQuestion) :
    QuestionRow.Sound q.1.questionId ⟨q.1.status, q.1.version.toNat, none, none, q.1⟩ := by
  obtain ⟨hstatus, hversion, hanswer, hdrop⟩ := q.2
  refine ⟨rfl, rfl, ?_, hanswer, hdrop, ?_, ?_, ?_⟩
  · show q.1.version.eqInt (q.1.version.toNat : Nat) = true
    rw [toNat_of_eqInt_one hversion]
    exact hversion
  all_goals simp [hstatus]

theorem QuestionRow.Sound.answer_ {id : RecordId} {r : QuestionRow} {a : QuestionAnswer}
    (h : r.Sound id) : (r.close .answered a none).Sound id := by
  refine ⟨h.id_eq, rfl, nextVersion_eqInt r.version, rfl, rfl, ?_, ?_, ?_⟩ <;>
    simp [QuestionRow.close]

theorem QuestionRow.Sound.drop_ {id : RecordId} {r : QuestionRow} {d : QuestionDrop}
    (h : r.Sound id) : (r.close .dropped none d).Sound id := by
  refine ⟨h.id_eq, rfl, nextVersion_eqInt r.version, rfl, rfl, ?_, ?_, ?_⟩ <;>
    simp [QuestionRow.close]

theorem NewWorkItem.sound_row (i : NewWorkItem) :
    WorkItemRow.Sound i.1.workItemId
      ⟨i.1.status, i.1.version.toNat, i.1.blocker, i.1.updatedAt, i.1⟩ := by
  obtain ⟨hstatus, hversion, hblocker⟩ := i.2
  refine ⟨rfl, rfl, ?_, rfl, rfl, ?_⟩
  · show i.1.version.eqInt (i.1.version.toNat : Nat) = true
    rw [toNat_of_eqInt_one hversion]
    exact hversion
  · simp [hstatus, hblocker]

theorem WorkItemRow.Sound.update {id : RecordId} {r : WorkItemRow} {status : WorkItemStatus}
    {blocker : Option (Bounded 1 4096)} {updatedAt : String} (h : r.Sound id)
    (hb : status = .blocked ↔ blocker.isSome = true) :
    (r.update status blocker updatedAt).Sound id := by
  refine ⟨h.id_eq, rfl, nextVersion_eqInt r.version, rfl, rfl, ?_⟩
  show status = .blocked ↔ _
  rw [hb, Option.isSome_iff_exists]
  exact ⟨fun ⟨b, h⟩ => ⟨b, h, text_ne_empty le_rfl b⟩, fun ⟨b, h, _⟩ => ⟨b, h⟩⟩

/-! ### What the events tell -/

/-- The document a row was created with, with what the lifecycle operations name as it
is now. -/
def DecisionRow.spec : Spec RecordId DecisionRow DecisionDoc PyNum where
  version := DecisionRow.version
  stamp n := .int n
  sound id r := r.Sound id
  agrees d r := r.document = { d with
    status := r.document.status
    version := r.document.version
    replacedByDecisionId := r.document.replacedByDecisionId }

def QuestionRow.spec : Spec RecordId QuestionRow QuestionDoc PyNum where
  version := QuestionRow.version
  stamp n := .int n
  sound id r := r.Sound id
  agrees d r := r.document = { d with
    status := r.document.status
    version := r.document.version
    answer := r.document.answer
    drop := r.document.drop }

def WorkItemRow.spec : Spec RecordId WorkItemRow WorkItemDoc PyNum where
  version := WorkItemRow.version
  stamp n := .int n
  sound id r := r.Sound id
  agrees d r := r.document = { d with
    status := r.document.status
    version := r.document.version
    blocker := r.document.blocker
    updatedAt := r.document.updatedAt }

namespace LedgerEvent

/-- The decision an event creates. -/
def newDecision? : LedgerEvent → Option (RecordId × DecisionDoc)
  | .decisionRecorded d => some (d.1.decisionId, d.1)
  | .decisionSuperseded e => some (e.replacementDecision.1.decisionId, e.replacementDecision.1)
  | _ => none

def newQuestion? : LedgerEvent → Option (RecordId × QuestionDoc)
  | .questionOpened q => some (q.1.questionId, q.1)
  | _ => none

def newWorkItem? : LedgerEvent → Option (RecordId × WorkItemDoc)
  | .workItemCreated i => some (i.1.workItemId, i.1)
  | _ => none

/-- The record an event targets, with its previous and its new version. -/
def change? : LedgerEvent → Option ((RecordType × RecordId) × PyNum × PyNum)
  | .decisionSuperseded e =>
    some ((.decisionRecord, e.targetDecisionId), e.previousVersion, e.newVersion)
  | .questionAnswered _ new previous target => some ((.openQuestion, target), previous, new)
  | .questionDropped _ new previous target => some ((.openQuestion, target), previous, new)
  | .workItemStatusUpdated e =>
    some ((.workItem, e.targetWorkItemId), e.previousVersion, e.newVersion)
  | _ => none

theorem of_not_continuity {e : LedgerEvent} (h : e.continuity = false) :
    e.newDecision? = none ∧ e.newQuestion? = none ∧ e.newWorkItem? = none ∧ e.change? = none := by
  cases e <;> first | exact ⟨rfl, rfl, rfl, rfl⟩ | exact nomatch h

end LedgerEvent

/-- The changes of a record. -/
def changes (events : List LedgerEvent) (type : RecordType) (id : RecordId) : List (PyNum × PyNum) :=
  events.filterMap fun e => e.change?.bind fun c => if c.1 = (type, id) then some c.2 else none

theorem changes_append (es fs : List LedgerEvent) (type : RecordType) (id : RecordId) :
    changes (es ++ fs) type id = changes es type id ++ changes fs type id := List.filterMap_append

/-- Columns and document agree in every continuity record, and the events tell its
versions and what it was created with. -/
structure RecordsLogged (t : Tables) (events : List LedgerEvent) : Prop where
  decisions : Logged DecisionRow.spec t.decisionRecords (events.filterMap LedgerEvent.newDecision?)
    (changes events .decisionRecord)
  questions : Logged QuestionRow.spec t.openQuestions (events.filterMap LedgerEvent.newQuestion?)
    (changes events .openQuestion)
  workItems : Logged WorkItemRow.spec t.workItems (events.filterMap LedgerEvent.newWorkItem?)
    (changes events .workItem)

theorem RecordsLogged.empty : RecordsLogged .empty [] := ⟨.empty, .empty, .empty⟩

section

variable {w w' : Txn} {hist : List LedgerEvent}

/-- Events of the other tables tell nothing. -/
theorem RecordsLogged.keep (h : RecordsLogged w.tables (hist ++ w.events))
    (hk : w.KeepsContinuity w') : RecordsLogged w'.tables (hist ++ w'.events) := by
  obtain ⟨es, he, hes⟩ := hk.events
  have hnews : ∀ {β : Type} (f : LedgerEvent → Option β), (∀ e ∈ es, f e = none) →
      (hist ++ w'.events).filterMap f = (hist ++ w.events).filterMap f := by
    intro β f hf
    rw [he, ← List.append_assoc, List.filterMap_append, List.filterMap_eq_nil_iff.mpr hf,
      List.append_nil]
  have hchanges : ∀ type, changes (hist ++ w'.events) type = changes (hist ++ w.events) type := by
    intro type
    funext id
    refine hnews _ fun e hmem => ?_
    rw [(LedgerEvent.of_not_continuity (hes e hmem)).2.2.2]
    rfl
  refine ⟨?_, ?_, ?_⟩
  · rw [hk.decisionRecords, hchanges,
      hnews _ fun e hmem => (LedgerEvent.of_not_continuity (hes e hmem)).1]
    exact h.decisions
  · rw [hk.openQuestions, hchanges,
      hnews _ fun e hmem => (LedgerEvent.of_not_continuity (hes e hmem)).2.1]
    exact h.questions
  · rw [hk.workItems, hchanges,
      hnews _ fun e hmem => (LedgerEvent.of_not_continuity (hes e hmem)).2.2.1]
    exact h.workItems

variable {es : List LedgerEvent} {e : LedgerEvent}

theorem filterMap_concat_none {β : Type} {f : LedgerEvent → Option β} (h : f e = none) :
    (es ++ [e]).filterMap f = es.filterMap f := by
  simp [List.filterMap_append, h]

theorem filterMap_concat_some {β : Type} {f : LedgerEvent → Option β} {b : β} (h : f e = some b) :
    (es ++ [e]).filterMap f = es.filterMap f ++ [b] := by
  simp [List.filterMap_append, h]

/-- An event that targets no record of a type. -/
theorem changes_concat_other {type : RecordType}
    (h : ∀ c, e.change? = some c → c.1.1 ≠ type) : changes (es ++ [e]) type = changes es type := by
  funext id
  refine filterMap_concat_none ?_
  cases hc : e.change? with
  | none => rfl
  | some c =>
    have hne : c.1 ≠ (type, id) := fun heq => h c hc (by rw [heq])
    simp [hne]

/-- An event that targets a record. -/
theorem changes_concat_target {type : RecordType} {target : RecordId} {versions : PyNum × PyNum}
    (h : e.change? = some ((type, target), versions)) (id : RecordId) :
    changes (es ++ [e]) type id =
      changes es type id ++ if id = target then [versions] else [] := by
  by_cases hid : id = target
  · subst hid
    rw [changes_append, if_pos rfl]
    simp [changes, h]
  · have hne : target ≠ id := fun heq => hid heq.symm
    rw [changes_append, if_neg hid]
    simp [changes, h, hne]

section

variable {ρ δ : Type} {S : Spec RecordId ρ δ PyNum} {t : Table RecordId ρ} {type : RecordType}
  {f : LedgerEvent → Option (RecordId × δ)}

/-- An event about other records. -/
theorem logged_other (h : Logged S t (es.filterMap f) (changes es type)) (hf : f e = none)
    (hc : ∀ c, e.change? = some c → c.1.1 ≠ type) :
    Logged S t ((es ++ [e]).filterMap f) (changes (es ++ [e]) type) := by
  rw [changes_concat_other hc, filterMap_concat_none hf]
  exact h

/-- An event that creates a record. -/
theorem logged_new {k : RecordId} {r : ρ} {d : δ}
    (h : Logged S t (es.filterMap f) (changes es type)) (hk : t[k]? = none) (hf : f e = some (k, d))
    (hc : ∀ c, e.change? = some c → c.1.1 ≠ type) (hsound : S.sound k r) (hversion : S.version r = 1)
    (hagrees : S.agrees d r) :
    Logged S (t.insert k r) ((es ++ [e]).filterMap f) (changes (es ++ [e]) type) := by
  rw [changes_concat_other hc, filterMap_concat_some hf]
  exact h.insert hk hsound hversion hagrees

end

theorem recordDecision_logged {d : NewDecisionRecord} (h : recordDecision w d.1 = .ok w')
    (hI : RecordsLogged w.tables (hist ++ w.events)) :
    RecordsLogged w'.tables (hist ++ w'.events) := by
  obtain ⟨hid, rfl⟩ := recordDecision_eq_ok.mp h
  rw [Txn.emit_events, ← List.append_assoc]
  refine ⟨?_, logged_other hI.questions rfl (by rintro _ ⟨⟩), logged_other hI.workItems rfl
    (by rintro _ ⟨⟩)⟩
  exact logged_new hI.decisions hid rfl (by rintro _ ⟨⟩) d.sound_row (toNat_of_eqInt_one d.2.2.1) rfl

theorem supersedeDecision_logged {target : RecordId} {disposition : Disposition}
    {replacement : NewDecisionRecord} {rationale : String}
    (h : supersedeDecision w target disposition replacement.1 rationale = .ok w')
    (hI : RecordsLogged w.tables (hist ++ w.events)) :
    RecordsLogged w'.tables (hist ++ w'.events) := by
  obtain ⟨row, hrow, _, hid, rfl⟩ := supersedeDecision_eq_ok.mp h
  have hne : target ≠ replacement.1.decisionId := by
    rintro rfl
    rw [hid] at hrow
    exact nomatch hrow
  rw [Txn.emit_events, ← List.append_assoc]
  refine ⟨?_, logged_other hI.questions rfl (by rintro _ ⟨⟩; simp),
    logged_other hI.workItems rfl (by rintro _ ⟨⟩; simp)⟩
  rw [filterMap_concat_some (b := (replacement.1.decisionId, replacement.1)) rfl]
  -- the replacement is inserted, then the target changes
  have hinsert := hI.decisions.insert hid replacement.sound_row
    (toNat_of_eqInt_one replacement.2.2.1) rfl
  refine hinsert.modify (by rw [Table.get_insert, if_neg hne, hrow])
    (fun hs => DecisionRow.Sound.supersede hs) rfl ?_ (changes_concat_target rfl)
  intro d hd
  show (row.supersede disposition _).document = _
  rw [DecisionRow.supersede, show row.document = _ from hd]

theorem openQuestion_logged {q : NewOpenQuestion} (h : openQuestion w q.1 = .ok w')
    (hI : RecordsLogged w.tables (hist ++ w.events)) :
    RecordsLogged w'.tables (hist ++ w'.events) := by
  obtain ⟨hid, rfl⟩ := openQuestion_eq_ok.mp h
  rw [Txn.emit_events, ← List.append_assoc]
  refine ⟨logged_other hI.decisions rfl (by rintro _ ⟨⟩), ?_, logged_other hI.workItems rfl
    (by rintro _ ⟨⟩)⟩
  exact logged_new hI.questions hid rfl (by rintro _ ⟨⟩) q.sound_row (toNat_of_eqInt_one q.2.2.1) rfl

/-- A question that is closed, by an answer or a drop. -/
theorem closeQuestion_logged {target : RecordId} {row : QuestionRow} {status : QuestionStatus}
    {answer : Option QuestionAnswer} {drop : Option QuestionDrop} {ev : LedgerEvent}
    (hrow : w.tables.openQuestions[target]? = some row)
    (hsound : row.Sound target → (row.close status answer drop).Sound target)
    (hd : ev.newDecision? = none) (hq : ev.newQuestion? = none) (hi : ev.newWorkItem? = none)
    (hev : ev.change? = some ((.openQuestion, target), .int row.version,
      .int (row.version + 1 : Nat)))
    (hI : RecordsLogged w.tables (hist ++ w.events)) :
    RecordsLogged { w.tables with
        openQuestions := w.tables.openQuestions.modify target fun r => r.close status answer drop }
      (hist ++ w.events ++ [ev]) := by
  refine ⟨logged_other hI.decisions hd (by rw [hev]; rintro _ ⟨⟩; simp), ?_,
    logged_other hI.workItems hi (by rw [hev]; rintro _ ⟨⟩; simp)⟩
  rw [filterMap_concat_none hq]
  refine hI.questions.modify hrow hsound rfl ?_ (changes_concat_target hev)
  intro d hd
  show (row.close status answer drop).document = _
  rw [QuestionRow.close, show row.document = _ from hd]

theorem answerQuestion_logged {target : RecordId} {answer : QuestionAnswer}
    (h : answerQuestion w target answer = .ok w')
    (hI : RecordsLogged w.tables (hist ++ w.events)) :
    RecordsLogged w'.tables (hist ++ w'.events) := by
  obtain ⟨row, hrow, _, rfl⟩ := answerQuestion_eq_ok.mp h
  rw [Txn.emit_events, ← List.append_assoc]
  exact closeQuestion_logged hrow (fun hs => hs.answer_) rfl rfl rfl rfl hI

theorem dropQuestion_logged {target : RecordId} {drop : QuestionDrop}
    (h : dropQuestion w target drop = .ok w')
    (hI : RecordsLogged w.tables (hist ++ w.events)) :
    RecordsLogged w'.tables (hist ++ w'.events) := by
  obtain ⟨row, hrow, _, rfl⟩ := dropQuestion_eq_ok.mp h
  rw [Txn.emit_events, ← List.append_assoc]
  exact closeQuestion_logged hrow (fun hs => hs.drop_) rfl rfl rfl rfl hI

theorem createWorkItem_logged {i : NewWorkItem} (h : createWorkItem w i.1 = .ok w')
    (hI : RecordsLogged w.tables (hist ++ w.events)) :
    RecordsLogged w'.tables (hist ++ w'.events) := by
  obtain ⟨hid, rfl⟩ := createWorkItem_eq_ok.mp h
  rw [Txn.emit_events, ← List.append_assoc]
  refine ⟨logged_other hI.decisions rfl (by rintro _ ⟨⟩), logged_other hI.questions rfl
    (by rintro _ ⟨⟩), ?_⟩
  exact logged_new hI.workItems hid rfl (by rintro _ ⟨⟩) i.sound_row (toNat_of_eqInt_one i.2.2.1) rfl

theorem updateWorkItemStatus_logged {target : RecordId} {status : WorkItemStatus}
    {blocker : Option (Bounded 1 4096)} {rationale : String} {updatedBy : ActorRef}
    {updatedAt : String}
    (h : updateWorkItemStatus w target status blocker rationale updatedBy updatedAt = .ok w')
    (hI : RecordsLogged w.tables (hist ++ w.events)) :
    RecordsLogged w'.tables (hist ++ w'.events) := by
  obtain ⟨hb, row, hrow, rfl⟩ := updateWorkItemStatus_eq_ok.mp h
  rw [Txn.emit_events, ← List.append_assoc]
  refine ⟨logged_other hI.decisions rfl (by rintro _ ⟨⟩; simp),
    logged_other hI.questions rfl (by rintro _ ⟨⟩; simp), ?_⟩
  rw [filterMap_concat_none rfl]
  refine hI.workItems.modify hrow (fun hs => WorkItemRow.Sound.update hs hb) rfl ?_
    (changes_concat_target rfl)
  intro d hd
  show (row.update status blocker updatedAt).document = _
  rw [WorkItemRow.update, show row.document = _ from hd]

end

section

variable [Host] {reg : Registry} {w w' : Txn} {hist : List LedgerEvent} {proposer : ActorRef}
  {openedSeq : Nat} {op : Operation}

theorem applyOperation_logged (h : applyOperation reg proposer openedSeq w op = .ok w')
    (hI : RecordsLogged w.tables (hist ++ w.events)) :
    RecordsLogged w'.tables (hist ++ w'.events) := by
  cases op with
  | registerSourceRevision | assertClaim | attachEvidence | supersedeClaim | retractClaim
  | resolveConflict => exact hI.keep (applyOperation_keepsContinuity h rfl)
  | recordDecision decision _ => exact recordDecision_logged h hI
  | supersedeDecision op => exact supersedeDecision_logged h hI
  | openQuestion _ question => exact openQuestion_logged h hI
  | answerQuestion answer _ target => exact answerQuestion_logged h hI
  | dropQuestion drop _ target => exact dropQuestion_logged h hI
  | createWorkItem _ workItem => exact createWorkItem_logged h hI
  | updateWorkItemStatus op => exact updateWorkItemStatus_logged h hI

omit [Host] in
/-- So does an event that replays: it runs through the same reducers. -/
theorem applyContinuityEvent_logged {t t' : Tables} {ev : LedgerEvent}
    (h : applyContinuityEvent t ev = some (.ok t')) (hI : RecordsLogged t hist) :
    ∃ generated, sameEvents generated ev = true ∧ RecordsLogged t' (hist ++ generated) := by
  obtain ⟨run, hrun, h⟩ := Option.map_eq_some_iff.mp h
  simp only [bind_eq_ok, pure_eq_ok, require_eq_ok] at h
  obtain ⟨w, rfl, _, hsame, rfl⟩ := h
  have hI : RecordsLogged (Txn.mk t [] []).tables (hist ++ (Txn.mk t [] []).events) := by
    simpa using hI
  refine ⟨w.events, hsame, ?_⟩
  cases ev with
  | sourceRevisionRegistered | claimAsserted | evidenceAttached | claimSuperseded | claimRetracted
  | conflictOpened | conflictResolved => cases hrun
  | decisionRecorded d => exact recordDecision_logged (Option.some.inj hrun) hI
  | decisionSuperseded e => exact supersedeDecision_logged (Option.some.inj hrun) hI
  | questionOpened q => exact openQuestion_logged (Option.some.inj hrun) hI
  | questionAnswered a _ _ target => exact answerQuestion_logged (Option.some.inj hrun) hI
  | questionDropped d _ _ target => exact dropQuestion_logged (Option.some.inj hrun) hI
  | workItemCreated i => exact createWorkItem_logged (Option.some.inj hrun) hI
  | workItemStatusUpdated e => exact updateWorkItemStatus_logged (Option.some.inj hrun) hI

variable {ι : Type} [DecidableEq ι] {u : Sys ι} {es : List (Event ι)}

/-- **Continuity records.**  In every state of every interleaving, columns and document of
each decision, question and work item agree, the document is in a state the contract
admits, the ledger holds exactly the changes from version 1 to the row's version, and all
other fields are those the record was created with. -/
theorem records_logged (reg : Registry) (es : List (Event ι)) (u : Sys ι)
    (hrun : Run reg (.start .empty) es u) : RecordsLogged u.db.tables u.db.events :=
  hrun.history .empty fun _ _ _ _ _ _ h => applyOperation_logged h

end

/-- The state in which a question is open. -/
theorem records_logged_of_question : letI := Host.utc
    ∃ u : Sys Unit, u.db.tables = questionTables ∧ RecordsLogged u.db.tables u.db.events := by
  obtain ⟨es, u, row, hrun, hdb⟩ := question_run
  exact ⟨u, by rw [hdb]; rfl, letI := Host.utc; records_logged ownerRegistry es u hrun⟩

end SharedMind
