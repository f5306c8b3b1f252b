import SharedMind.Service.Lookup
import SharedMind.Service.Sessions

/-!
# A session that nobody disturbs

* `Run.called`: a call of the kernel whose proposal is accepted, by a caller in no session.
* `RunWhere.rooted`: a session reads the state root on its own.
* `Calm`: the database takes what one session brings.
* `RunWhere.alone`: a session that nobody disturbs runs to its end.
* `exists_taken_up`, `exists_told_twice`: an agent takes a task up, in one session or in two.
* `progress_alone`: **a `progress` that nobody disturbs returns**.
-/

namespace SharedMind.Service

open Py Projection

/-! ### Steps of the kernel -/

section

variable [Host] {ι : Type} [DecidableEq ι] {reg : Registry} {s : Sys ι} {i : ι} {c : Call}
  {hash : Hash} {value : Json}

theorem kernel_ready (hi : s.phase i = .begun c) (hpre : preflight c = .ok (.evaluate hash value)) :
    SharedMind.Step reg s (.silent i) ⟨s.db, Function.update s.phase i (.ready c hash value)⟩ := by
  refine .move i ⟨s.db, .ready c hash value, none⟩ ?_ rfl
  rw [hi]
  simp only [Phase.advance, hpre]

theorem kernel_accepted {receipt : Receipt} {db : Db} (hi : s.phase i = .ready c hash value)
    (ht : transaction reg c s.db hash value = .ok (.accepted receipt db)) :
    SharedMind.Step reg s (.ended i c (.ok receipt)) ⟨db, Function.update s.phase i .idle⟩ := by
  refine .finish i c ⟨db, .idle, some (.ok receipt)⟩ (.ok receipt) ?_ rfl ?_
  · rw [hi]
    simp only [Phase.advance, ht]
  · rw [hi]
    rfl

theorem kernel_replayed {receipt : Receipt} (hi : s.phase i = .ready c hash value)
    (ht : transaction reg c s.db hash value = .ok (.replayed receipt)) :
    SharedMind.Step reg s (.ended i c (.ok receipt)) ⟨s.db, Function.update s.phase i .idle⟩ := by
  refine .finish i c ⟨s.db, .idle, some (.ok receipt)⟩ (.ok receipt) ?_ rfl ?_
  · rw [hi]
    simp only [Phase.advance, ht]
  · rw [hi]
    rfl

omit [DecidableEq ι] in
/-- A proposal that was accepted last is answered with its receipt. -/
theorem transaction_again {db : Db} {e : Evaluation} {row : ReceiptRow} {receipt : Receipt}
    (h : Accepts reg c hash value db e row) (hreceipt : rowToReceipt row = .ok receipt) :
    transaction reg c (e.accept db row) hash value = .ok (.replayed receipt) := by
  obtain ⟨key, hkey, hprior⟩ := h.first
  obtain rfl := Except.ok.inj ((receiptRow_key h.receipted).symm.trans hkey)
  have hlast : prior? (e.accept db row).receipts (some row.idempotencyKey) = some row := by
    rw [Evaluation.accept_receipts]
    simp only [prior?, Option.bind_some, List.find?_append] at hprior ⊢
    rw [hprior]
    simp
  have hhash : row.proposalHash = hash := (receiptRow_proposalHash h.receipted).1
  rw [transaction_of_prior hkey hlast, if_neg (not_not.mpr hhash), hreceipt]
  rfl

end

/-! ### Runs of one connection -/

section

variable [Host] {ι : Type} [DecidableEq ι] {reg : Registry} {w : World ι} {i : ι}

omit [Host] in
theorem World.set_set (sys sys' : Sys ι) (session session' : Session) :
    (w.set sys i session).set sys' i session' = w.set sys' i session' := by
  rw [World.set, World.set, World.set, Function.update_idem]

omit [Host] in
theorem World.set_same {session : Session} (h : w.session i = session) :
    w.set w.sys i session = w := by
  rw [World.set, ← h, Function.update_eq_self]

theorem RunWhere.trans {P : World ι → Act ι → Prop} {v u : World ι} {acts acts' : List (Act ι)}
    (h : RunWhere reg P w acts v) (h' : RunWhere reg P v acts' u) :
    RunWhere reg P w (acts ++ acts') u := by
  induction h' with
  | nil =>
    rw [List.append_nil]
    exact h
  | snoc _ hp hstep ih =>
    rw [← List.append_assoc]
    exact ih.snoc hp hstep

omit [DecidableEq ι] [Host] in
theorem events_append (acts acts' : List (Act ι)) :
    events (acts ++ acts') = events acts ++ events acts' := List.filterMap_append

theorem Run.one {u : World ι} {act : Act ι} (h : Step reg w act u) : Run reg w [act] u :=
  RunWhere.nil.snoc trivial h

/-- A step that is not seen. -/
def Act.silent (i : ι) : Act ι := ⟨i, none, none⟩

omit [DecidableEq ι] [Host] in
theorem events_silent (n : ℕ) : events (List.replicate n (Act.silent i)) = [] := by
  rw [events, List.filterMap_replicate_of_none]
  rfl

/-- The tables that are left are read as they stand. -/
theorem RunWhere.reads {P : World ι → Act ι → Prop} {intent : Intent} {schema : String}
    {left : List StateTable} :
    ∀ {tables : Tables} {w : World ι}, w.session i = .rooting intent ⟨some schema, tables, left⟩ →
      (∀ session, P (w.set w.sys i session) (.silent i)) →
      ∃ n, RunWhere reg P w (List.replicate n (.silent i)) (w.set w.sys i (.rooting intent
        ⟨some schema, left.foldl (fun t k => k.read w.sys.db.tables t) tables, []⟩)) := by
  induction left with
  | nil =>
    intro tables w hw _
    refine ⟨0, ?_⟩
    rw [List.foldl_nil, World.set_same hw]
    exact .nil
  | cons k ks ih =>
    intro tables w hw hP
    have hstep : Step reg w (.silent i) (w.set w.sys i (.rooting intent
        ⟨some schema, k.read w.sys.db.tables tables, ks⟩)) :=
      .table i intent ⟨some schema, tables, k :: ks⟩ hw rfl
    have hp := hP (w.session i)
    rw [World.set_same rfl] at hp
    obtain ⟨n, hrun⟩ := ih (w.set_self w.sys i (.rooting intent
      ⟨some schema, k.read w.sys.db.tables tables, ks⟩)) (fun session => by
        rw [World.set_set]
        exact hP session)
    rw [World.set_set] at hrun
    exact ⟨n + 1, (RunWhere.nil.snoc hp hstep).trans hrun⟩

/-- A session reads the state root on its own. -/
theorem RunWhere.rooted {P : World ι → Act ι → Prop} {intent : Intent}
    (hw : w.session i = .rooting intent .start)
    (hP : ∀ session, P (w.set w.sys i session) (.silent i)) :
    ∃ n, RunWhere reg P w (List.replicate n (.silent i)) (w.set w.sys i (.rooting intent
      ⟨some (headSchema w.sys.db.ledger), w.sys.db.tables, []⟩)) := by
  have hstep : Step reg w (.silent i) (w.set w.sys i (.rooting intent
      ⟨some (headSchema w.sys.db.ledger), .empty, StateTable.all⟩)) :=
    .table i intent .start hw rfl
  have hp := hP (w.session i)
  rw [World.set_same rfl] at hp
  obtain ⟨n, hrun⟩ := @RunWhere.reads _ _ _ reg i P intent _ StateTable.all .empty _
    (w.set_self w.sys i (.rooting intent
      ⟨some (headSchema w.sys.db.ledger), .empty, StateTable.all⟩)) (fun session => by
        rw [World.set_set]
        exact hP session)
  have hall : StateTable.all.foldl (fun t k => k.read w.sys.db.tables t) .empty =
      w.sys.db.tables := by
    simp [StateTable.all, StateTable.read]
  rw [World.set_set, World.set_sys, hall] at hrun
  exact ⟨n + 1, (RunWhere.nil.snoc hp hstep).trans hrun⟩

/-- A caller in no session brings a proposal that is accepted. -/
theorem Run.called {c : Call} {hash : Hash} {value : Json} {receipt : Receipt} {db : Db}
    (hi : w.session i = .out) (hidle : w.sys.phase i = .idle)
    (hpre : preflight c = .ok (.evaluate hash value))
    (ht : transaction reg c w.sys.db hash value = .ok (.accepted receipt db)) :
    ∃ acts, events acts = [.called i c, .silent i, .ended i c (.ok receipt)] ∧
      Run reg w acts ⟨⟨db, w.sys.phase⟩, w.session⟩ := by
  have hcall : Step reg w ⟨i, some (.called i c), none⟩
      (w.set ⟨w.sys.db, Function.update w.sys.phase i (.begun c)⟩ i .out) :=
    .caller i _ _ hi rfl (.call i c hidle)
  have hready : Step reg (w.set ⟨w.sys.db, Function.update w.sys.phase i (.begun c)⟩ i .out)
      ⟨i, some (.silent i), none⟩
      (w.set ⟨w.sys.db, Function.update w.sys.phase i (.ready c hash value)⟩ i .out) := by
    have hstep := @kernel_ready _ ι _ reg ⟨w.sys.db, Function.update w.sys.phase i (.begun c)⟩ i c
      hash value (Function.update_self i _ w.sys.phase) hpre
    have hcaller := Step.caller i _ _ (w.set_self _ i .out) rfl hstep
    rw [World.set_set, Function.update_idem] at hcaller
    exact hcaller
  have hdone : Step reg
      (w.set ⟨w.sys.db, Function.update w.sys.phase i (.ready c hash value)⟩ i .out)
      ⟨i, some (.ended i c (.ok receipt)), none⟩
      (w.set ⟨db, Function.update w.sys.phase i .idle⟩ i .out) := by
    have hstep := @kernel_accepted _ ι _ reg
      ⟨w.sys.db, Function.update w.sys.phase i (.ready c hash value)⟩ i c hash value receipt db
      (Function.update_self i _ w.sys.phase) ht
    have hcaller := Step.caller i _ _ (w.set_self _ i .out) rfl hstep
    rw [World.set_set, Function.update_idem] at hcaller
    exact hcaller
  have hend : w.set ⟨db, Function.update w.sys.phase i .idle⟩ i .out =
      ⟨⟨db, w.sys.phase⟩, w.session⟩ := by
    rw [World.set, ← hi, ← hidle, Function.update_eq_self, Function.update_eq_self]
  rw [hend] at hdone
  exact ⟨_, rfl, ((Run.one hcall).snoc trivial hready).snoc trivial hdone⟩

end

/-! ### A progress -/

section

variable [Host] {ι : Type} [DecidableEq ι] {reg : Registry} {w : World ι} {i : ι}

/-- One page is enough for the work items there are, and it shows the row of each. -/
theorem found_at_once {es : List (Event ι)} {s : Sys ι} {r : StatusRequest} {row : WorkItemRow}
    (hrun : SharedMind.Run reg (.start .empty) es s)
    (hrow : s.db.tables.workItems[r.workItemId]? = some row)
    (hfew : (workItemDocuments s.db.tables).length ≤ 1000) :
    (Request.progress r).paged 0 [] 0 (query s.db (pageSpec 0)) =
      .goOn (.rooting (.update r (seenRow row) 0) .start) := by
  obtain ⟨page, hpage, hslice⟩ := page_of_run hrun 0
  have hlast : page.truncated = false := by
    rw [hslice.truncated]
    exact decide_eq_false (by omega)
  have hlooking : Looking s.db.tables r.workItemId row.version [] 0 :=
    .start ⟨row, hrow, le_rfl⟩
  obtain ⟨row', hhad, hle, hfind⟩ := hlooking.found (sound_of_run hrun) hslice hlast
  obtain rfl : row' = row := by
    obtain ⟨now, hnow, hsame⟩ := hhad.now
    obtain rfl := Option.some.inj (hnow.symm.trans hrow)
    rcases hsame with hsame | hlt
    · exact hsame.symm
    · omega
  rw [hpage]
  simp only [Request.paged, hlast, Bool.false_eq_true, if_false, Request.found, hfind,
    seenOf_document hhad.sound]

/-- A session finds its work item and reads the state root. -/
theorem RunWhere.finds {P : World ι → Act ι → Prop} {es : List (Event ι)} {r : StatusRequest}
    {row : WorkItemRow} (hrun : SharedMind.Run reg (.start .empty) es w.sys)
    (hw : w.session i = .finding (.progress r) 0 [] 0)
    (hrow : w.sys.db.tables.workItems[r.workItemId]? = some row)
    (hfew : (workItemDocuments w.sys.db.tables).length ≤ 1000)
    (hP : ∀ session, P (w.set w.sys i session) (.silent i)) :
    ∃ n, RunWhere reg P w (List.replicate n (.silent i)) (w.set w.sys i
      (.rooting (.update r (seenRow row) 0)
        ⟨some (headSchema w.sys.db.ledger), w.sys.db.tables, []⟩)) := by
  have hpage : Step reg w (.silent i)
      (w.set w.sys i (.rooting (.update r (seenRow row) 0) .start)) :=
    .page i (.progress r) 0 0 [] _ hw (found_at_once hrun hrow hfew).symm
  have hp := hP (w.session i)
  rw [World.set_same rfl] at hp
  obtain ⟨n, hroot⟩ := @RunWhere.rooted _ _ _ reg _ i P _
    (w.set_self w.sys i (.rooting (.update r (seenRow row) 0) .start)) (fun session => by
      rw [World.set_set]
      exact hP session)
  rw [World.set_set, World.set_sys] at hroot
  exact ⟨n + 1, (RunWhere.nil.snoc hp hpage).trans hroot⟩

/-- The world of a session that waits for the kernel to evaluate its proposal. -/
def World.waiting (w : World ι) (i : ι) (intent : Intent) (c : Call) (value : Json) : World ι :=
  w.set ⟨w.sys.db, Function.update w.sys.phase i (.ready c (sha256Json value) value)⟩ i
    (.committing intent value)

omit [Host] in
theorem World.waiting_phase (w : World ι) (i : ι) (intent : Intent) (c : Call) (value : Json) :
    (w.waiting i intent c value).sys.phase i = .ready c (sha256Json value) value :=
  Function.update_self i _ w.sys.phase

/-- A session calls the kernel, which takes its proposal up. -/
theorem RunWhere.asks {P : World ι → Act ι → Prop} {intent : Intent} {reading : RootReading}
    {root : Hash} {value : Json} {c : Call} {proposedAt updatedAt : String}
    (hw : w.session i = .rooting intent reading) (hroot : reading.root? = some root)
    (hidle : w.sys.phase i = .idle) (hvalue : value = intent.proposal reg root proposedAt updatedAt)
    (hc : c.proposal = value.raw) (hpre : preflight c = .ok (.evaluate (sha256Json value) value))
    (hask : P w ⟨i, some (.called i c), none⟩)
    (hready : P (w.set ⟨w.sys.db, Function.update w.sys.phase i (.begun c)⟩ i
      (.committing intent value)) ⟨i, some (.silent i), none⟩) :
    RunWhere reg P w [⟨i, some (.called i c), none⟩, ⟨i, some (.silent i), none⟩]
      (w.waiting i intent c value) := by
  obtain ⟨now⟩ : Nonempty {n : String // c = ⟨value.raw, n⟩} := ⟨⟨c.now, by rw [← hc]⟩⟩
  obtain ⟨now, rfl⟩ := now
  have hcall : Step reg w ⟨i, some (.called i ⟨value.raw, now⟩), none⟩
      (w.set ⟨w.sys.db, Function.update w.sys.phase i (.begun ⟨value.raw, now⟩)⟩ i
        (.committing intent value)) :=
    .ask i intent reading root proposedAt updatedAt now value _ hw hroot hvalue (.call i _ hidle)
  have hkernel := @kernel_ready _ ι _ reg ⟨w.sys.db, Function.update w.sys.phase i
    (.begun ⟨value.raw, now⟩)⟩ i _ _ _ (Function.update_self i _ w.sys.phase) hpre
  have hsilent := Step.silent i _ _ _ (w.set_self _ i (.committing intent value)) hkernel
  rw [World.set_set, Function.update_idem] at hsilent
  exact (RunWhere.nil.snoc hask hcall).snoc hready hsilent

/-- A session that is told of a receipt returns. -/
theorem Step.told {r : StatusRequest} {seen : Seen} {value : Json} {c : Call} {receipt : Receipt}
    {db : Db} (hkernel : SharedMind.Step reg (w.waiting i (.update r seen 0) c value).sys
      (.ended i c (.ok receipt)) ⟨db, Function.update (w.waiting i (.update r seen 0) c
        value).sys.phase i .idle⟩)
    (hidle : w.sys.phase i = .idle) (hok : receiptOk receipt = true) :
    ∃ p : Progress, p.version = seen.version + 1 ∧
      Step reg (w.waiting i (.update r seen 0) c value)
        ⟨i, some (.ended i c (.ok receipt)), some (.progress r, .ok (.progress p))⟩
        (w.set ⟨db, w.sys.phase⟩ i .out) := by
  have hturn : Turn.done (.progress r) (.ok ((Intent.update r seen 0).output receipt)) =
      (Intent.update r seen 0).answered (.ok receipt) := by
    rw [Intent.answered, if_pos hok]
    rfl
  have hstep := Step.answer i _ _ _ _ _ _
    (w.set_self _ i (.committing (.update r seen 0) value)) hkernel hturn
  have hphase : Function.update (w.waiting i (.update r seen 0) c value).sys.phase i .idle =
      w.sys.phase := by
    rw [World.waiting, World.set_sys, Function.update_idem, ← hidle, Function.update_eq_self]
  rw [hphase, World.set_set] at hstep
  exact ⟨_, rfl, hstep⟩

/-- The calls of a session reach their transaction, which meets a database that takes them. -/
structure Calm (reg : Registry) (i : ι) (w : World ι) (act : Act ι) : Prop where
  evaluated : ∀ c, act.event = some (.called i c) →
    ∃ hash value, preflight c = .ok (.evaluate hash value)
  opened : act.conn = i → ∀ c hash value, w.sys.phase i = .ready c hash value →
    Open reg w.sys.db hash value
  numbers : act.conn = i → w.sys.db.HasNumbers

/-- A session that nobody disturbs runs to its end, when its work item is one of a thousand at
most and the database takes its proposal. -/
theorem RunWhere.alone {es : List (Event ι)} {r : StatusRequest} {row : WorkItemRow}
    {value : Json} {c : Call} {proposedAt updatedAt : String}
    (hrun : SharedMind.Run reg (.start .empty) es w.sys) (hidle : w.sys.phase i = .idle)
    (hw : w.session i = .finding (.progress r) 0 [] 0)
    (hrow : w.sys.db.tables.workItems[r.workItemId]? = some row)
    (hfew : (workItemDocuments w.sys.db.tables).length ≤ 1000)
    (hvalue : value = r.proposal reg (seenRow row) (stateRoot w.sys.db) proposedAt updatedAt)
    (hc : c.proposal = value.raw)
    (hpre : preflight c = .ok (.evaluate (sha256Json value) value))
    (hopen : Open reg w.sys.db (sha256Json value) value) :
    ∃ acts v act p receipt db, RunWhere reg (Calm reg i) w acts v ∧
      Step reg v act (w.set ⟨db, w.sys.phase⟩ i .out) ∧ Calm reg i v act ∧ act.conn = i ∧
      act.ended = some (.progress r, .ok (.progress p)) ∧
      p.version = (seenRow row).version + 1 ∧ (∀ a ∈ acts, a.conn = i ∧ a.ended = none) ∧
      events (acts ++ [act]) = [.called i c, .silent i, .ended i c (.ok receipt)] ∧
      transaction reg c w.sys.db (sha256Json value) value = .ok (.accepted receipt db) ∧
      receiptOk receipt = true := by
  have hsound : row.Sound r.workItemId := (sound_of_run hrun).workItems _ _ hrow
  obtain ⟨-, hjson, -⟩ := preflight_evaluate.mp hpre
  obtain ⟨receipt, db, ht, hok⟩ :=
    status_accepted hvalue hjson hsound hrow hrun.kept hrun.logs hopen
  obtain ⟨n, hfinds⟩ := RunWhere.finds (P := Calm reg i) hrun hw hrow hfew fun session => by
    refine ⟨fun c h => ?_, fun _ c hash value h => ?_, fun _ => hopen.numbers⟩
    · cases h
    · rw [World.set_sys, hidle] at h
      cases h
  have hasks := RunWhere.asks (P := Calm reg i) (w.set_self w.sys i (.rooting
    (.update r (seenRow row) 0) ⟨some (headSchema w.sys.db.ledger), w.sys.db.tables, []⟩)) rfl hidle
    hvalue hc hpre
    (by
      refine ⟨fun c' h => ?_, fun _ c' hash value' h => ?_, fun _ => hopen.numbers⟩
      · cases h
        exact ⟨_, _, hpre⟩
      · rw [World.set_sys, hidle] at h
        cases h)
    (by
      refine ⟨fun c' h => ?_, fun _ c' hash value' h => ?_, fun _ => hopen.numbers⟩
      · cases h
      · have hphase : Function.update w.sys.phase i (.begun c) i = .ready c' hash value' := h
        rw [Function.update_self] at hphase
        cases hphase)
  obtain ⟨p, hversion, htold⟩ := Step.told
    (kernel_accepted (w.waiting_phase i (.update r (seenRow row) 0) c value) ht) hidle hok
  rw [World.waiting, World.set_set, World.set_sys] at hasks
  refine ⟨_, _, _, p, receipt, db, hfinds.trans hasks, htold, ?_, rfl, rfl, hversion, ?_, ?_, ht,
    hok⟩
  · refine ⟨fun c' h => ?_, fun _ c' hash value' h => ?_, fun _ => hopen.numbers⟩
    · cases h
    · have hphase : Function.update w.sys.phase i (.ready c (sha256Json value) value) i =
        .ready c' hash value' := h
      rw [Function.update_self] at hphase
      cases hphase
      exact hopen
  · intro a ha
    simp only [List.mem_append, List.mem_cons, List.mem_replicate, List.not_mem_nil,
      or_false] at ha
    rcases ha with ⟨-, rfl⟩ | rfl | rfl <;> exact ⟨rfl, rfl⟩
  · simp only [events_append, events_silent]
    rfl

end


/-! ### A task that is taken up -/

def taskTime : String := "2026-01-01T00:00:00Z"

def taskId : RecordId := ⟨"workitem_00000001", by decide⟩

def task : NewWorkItem :=
  ⟨{ blocker := none, createdAt := taskTime, createdBy := ownerActor, description := auditContext,
     priority := .p1, relatedObjects := noObjects, status := .todo, updatedAt := taskTime,
     version := .first, workItemId := taskId },
    by decide⟩

def taskProposal : Proposal :=
  ownerProposal ⟨"create-task-1", by decide⟩ secondProposal (.createWorkItem firstOperation task)

def taskRow : WorkItemRow := ⟨.todo, 1, none, taskTime, task.1⟩

def taskTables : Tables :=
  { Tables.empty with workItems := (∅ : Table RecordId WorkItemRow).insert taskId taskRow }

def taskTxn : Txn := ⟨taskTables, [.workItemCreated task], []⟩

/-- An agent takes the task up. -/
def taskRequest : StatusRequest where
  workItemId := taskId
  status := .doing
  rationale := ⟨"Start", by decide⟩
  blocker := none
  actor := ⟨⟨"agent:writer", by decide⟩, .agent⟩
  goes := by decide

def doingTables : Tables :=
  { taskTables with
    workItems := (∅ : Table RecordId WorkItemRow).insert taskId
      (taskRow.update .doing none taskTime) }

def doingEvent : WorkItemStatusUpdated where
  blocker := none
  newStatus := .doing
  newVersion := .int 2
  previousStatus := .todo
  previousVersion := .int 1
  rationale := "Start"
  targetWorkItemId := taskId
  updatedAt := taskTime
  updatedBy := taskRequest.actor

def doingTxn : Txn := ⟨doingTables, [.workItemStatusUpdated doingEvent], []⟩

/-- The digits of the fingerprint of `taskRequest`. -/
def taskDigits : String := "1645bcf6343b6efd742fba82722e681c6ebce20cae5bb7398111da55ad61005c"

/-- The proposal of the agent, written out. -/
def doingProposal : Proposal where
  baseStateRoot :=
    some ⟨"sha256:e9a6ee41f52f70c94a5c977039f5ec1bc8b1df0339c32cccf70655d3aeab91a9", by decide⟩
  guards := ⟨[.workItemStatusEq .todo taskId, .workItemVersionEq .first taskId], by decide⟩
  idempotencyKey := ⟨"progress-1645bcf6343b6efd742fba82722e681c6ebce20cae5bb739", by decide⟩
  operations := ⟨[.updateWorkItemStatus ⟨{
    blocker := none
    newStatus := .doing
    opId := ⟨"operation_progress_1645bcf6343b6efd742fba82722e681c", by decide⟩
    rationale := taskRequest.rationale
    targetWorkItemId := taskId
    updatedAt := taskTime
    updatedBy := taskRequest.actor }, taskRequest.goes⟩], by simp⟩
  proposalId := ⟨"proposal_progress_1645bcf6343b6efd742fba82722e681c", by decide⟩
  proposedAt := taskTime
  proposer := taskRequest.actor
  reads := ⟨[.aggregate ⟨taskId, .workItem, .one⟩], by decide⟩
  versions := ownerVersions

section

attribute [local instance] Host.utc

def taskParts : EntryParts :=
  entryParts .empty taskProposal (sha256Json (Proposal.codec.enc taskProposal)) taskTxn

def doingParts : EntryParts where
  seq := 2
  prevHash := some (sha256Json (ledgerEnvelope taskParts))
  proposalHash := sha256Json (Proposal.codec.enc doingProposal)
  preStateRoot := stateRootForSchema supportedSchema taskTables
  postStateRoot := stateRootForSchema supportedSchema doingTables
  versions := VersionBundle.codec.enc ownerVersions
  events := eventsJson [.workItemStatusUpdated doingEvent]
  committedAt := taskTime

/-- The digests of the two proposals and of the tables, evaluated. -/
theorem task_digests :
    taskRequest.fingerprint 1 = taskDigits.toList ∧
    (sha256Json (Proposal.codec.enc taskProposal) : String) =
      "sha256:" ++ "ffc9ca41dbd52607fcbd76c8af8d79a5e31d06118ed0ef971aa7b45a53002bbd" ∧
    (stateRootForSchema supportedSchema taskTables : String) =
      "sha256:" ++ "e9a6ee41f52f70c94a5c977039f5ec1bc8b1df0339c32cccf70655d3aeab91a9" ∧
    (stateRootForSchema supportedSchema doingTables : String) =
      "sha256:" ++ "ad07efd88ba7f9b9dab5e2257e102a0446a524d69edc7d4fca7c69c6fda1d313" ∧
    (sha256Json (Proposal.codec.enc doingProposal) : String) =
      "sha256:" ++ "d115c5863d6a34c0190846d2736eec33bf185e17cc753e383a38c3df05f0ff7a" := by
  refine ⟨?_, sha256Json_of_hex ?_, sha256Json_of_hex ?_, sha256Json_of_hex ?_,
    sha256Json_of_hex ?_⟩
  · rw [StatusRequest.fingerprint, sha256Json, sha256Bytes_digits]
    refine sha256Hex_of_fastPrint ?_
    decide +kernel
  · decide +kernel
  · decide +kernel
  · decide +kernel
  · decide +kernel

theorem taskProposal_hash : (sha256Json (Proposal.codec.enc taskProposal) : String) =
    "sha256:" ++ "ffc9ca41dbd52607fcbd76c8af8d79a5e31d06118ed0ef971aa7b45a53002bbd" :=
  task_digests.2.1

theorem taskRoot : (stateRootForSchema supportedSchema taskTables : String) =
    "sha256:" ++ "e9a6ee41f52f70c94a5c977039f5ec1bc8b1df0339c32cccf70655d3aeab91a9" :=
  task_digests.2.2.1

theorem doingRoot : (stateRootForSchema supportedSchema doingTables : String) =
    "sha256:" ++ "ad07efd88ba7f9b9dab5e2257e102a0446a524d69edc7d4fca7c69c6fda1d313" :=
  task_digests.2.2.2.1

theorem doingProposal_hash : (sha256Json (Proposal.codec.enc doingProposal) : String) =
    "sha256:" ++ "d115c5863d6a34c0190846d2736eec33bf185e17cc753e383a38c3df05f0ff7a" :=
  task_digests.2.2.2.2

/-- The digests of the two entries, evaluated. -/
theorem entry_digests :
    (sha256Json (ledgerEnvelope taskParts) : String) =
      "sha256:" ++ "bbc3e418a4200ecc7830347eb6f981c9bd0bd3c069b7f301f42bd7c00e6fca7d" ∧
    (sha256Json (ledgerEnvelope doingParts) : String) =
      "sha256:" ++ "806f0185298e6bef8ca9d350e5c5379862ccdadd60bbe10cecd0b65eaf23f2bf" := by
  have htask : (sha256Json (ledgerEnvelope taskParts) : String) =
      "sha256:" ++ "bbc3e418a4200ecc7830347eb6f981c9bd0bd3c069b7f301f42bd7c00e6fca7d" := by
    refine sha256Json_of_hex ?_
    simp only [ledgerEnvelope, idColumn, taskParts, entryParts, taskProposal_hash]
    rw [show (stateRoot Db.empty : String) = _ from emptyRoot]
    rw [show (stateRootForSchema taskProposal.versions.1.schema taskTxn.tables : String) = _
      from taskRoot]
    decide +kernel
  refine ⟨htask, sha256Json_of_hex ?_⟩
  rw [ledgerEnvelope]
  simp only [doingParts, htask, idColumn, taskRoot, doingRoot, doingProposal_hash]
  decide +kernel

theorem preflight_task : preflight taskProposal.call =
    .ok (.evaluate (sha256Json (Proposal.codec.enc taskProposal))
      (Proposal.codec.enc taskProposal)) := by
  refine preflight_evaluate.mpr ⟨?_, JsonOf.toJson?_raw (Proposal.codec.sorted _), ?_, ?_, rfl⟩
  · decide
  · decide
  · exact JsonOf.length_utf8_dumps_le (by decide)

theorem preflight_doing : preflight doingProposal.call =
    .ok (.evaluate (sha256Json (Proposal.codec.enc doingProposal))
      (Proposal.codec.enc doingProposal)) := by
  refine preflight_evaluate.mpr ⟨?_, JsonOf.toJson?_raw (Proposal.codec.sorted _), ?_, ?_, rfl⟩
  · decide
  · decide
  · exact JsonOf.length_utf8_dumps_le (by decide +kernel)

theorem taskProposal_accepts : ∃ row, Accepts ownerRegistry taskProposal.call
    (sha256Json (Proposal.codec.enc taskProposal)) (Proposal.codec.enc taskProposal)
    .empty (taskProposal.evaluation .empty taskTxn) row := by
  refine accepts_of_checks .empty (JsonOf.toJson?_raw (Proposal.codec.sorted _)) (by decide)
    (by decide) (fun _ h => absurd h List.not_mem_nil) ?_ ?_ (by decide) ?_
    (fun _ h => absurd h List.not_mem_nil)
  · simp only [validateProposal, bind_eq_ok]
    refine ⟨(), validateVersions_owner, (), ?_, (), ?_, ?_⟩
    · decide
    · rfl
    · rfl
  · rfl
  · intro ev hev
    obtain rfl := List.mem_singleton.mp hev
    trivial

theorem taskProposal_parts : (taskProposal.evaluation .empty taskTxn).parts = taskParts := by
  rw [Proposal.evaluation, taskParts]

/-- What the agent's session brings. -/
theorem doing_enc : Proposal.codec.enc doingProposal = taskRequest.proposal ownerRegistry
    (seenRow taskRow) (stateRootForSchema supportedSchema taskTables) taskTime taskTime := by
  have hfingerprint : taskRequest.fingerprint (seenRow taskRow).version =
      taskDigits.toList :=
    task_digests.1
  have hroot : stateRootForSchema supportedSchema taskTables =
      ⟨"sha256:e9a6ee41f52f70c94a5c977039f5ec1bc8b1df0339c32cccf70655d3aeab91a9", by decide⟩ :=
    Text.ext (taskRoot.trans (by decide))
  have hnames : named "proposal_progress_" taskDigits.toList 32 = doingProposal.proposalId ∧
      named "progress-" taskDigits.toList 48 = doingProposal.idempotencyKey ∧
      named "operation_progress_" taskDigits.toList 32 =
        "operation_progress_1645bcf6343b6efd742fba82722e681c" := by decide
  simp only [StatusRequest.proposal, hfingerprint, hroot, currentVersionBundle, proposalJson,
    ownerRegistry_hash, hnames]
  rfl

theorem doing_parts {row : ReceiptRow}
    (heval : evaluate ownerRegistry .empty (Proposal.codec.enc taskProposal)
      (sha256Json (Proposal.codec.enc taskProposal)) =
        .ok (taskProposal.evaluation .empty taskTxn)) :
    (doingProposal.evaluation ((taskProposal.evaluation .empty taskTxn).accept .empty row)
      doingTxn).parts = doingParts := by
  have hpost : stateRootForSchema doingProposal.versions.1.schema doingTxn.tables =
      stateRootForSchema supportedSchema doingTables :=
    congrArg (fun schema => stateRootForSchema schema doingTables) rfl
  rw [second_parts heval, taskProposal_parts, hpost, doingParts]
  rfl

theorem doing_accepts {row : ReceiptRow}
    (hacc : Accepts ownerRegistry taskProposal.call
      (sha256Json (Proposal.codec.enc taskProposal)) (Proposal.codec.enc taskProposal)
      .empty (taskProposal.evaluation .empty taskTxn) row) :
    ∃ row', Accepts ownerRegistry doingProposal.call
      (sha256Json (Proposal.codec.enc doingProposal)) (Proposal.codec.enc doingProposal)
      ((taskProposal.evaluation .empty taskTxn).accept .empty row)
      (doingProposal.evaluation ((taskProposal.evaluation .empty taskTxn).accept .empty row)
        doingTxn) row' := by
  refine accepts_second preflight_task hacc (by decide) (by decide) (by decide) ?_ ?_
    (by decide) ?_ ?_
  · simp only [validateProposal, bind_eq_ok]
    refine ⟨(), validateVersions_owner, (), by decide, (), ?_, ?_⟩
    · rfl
    · rfl
  · rfl
  · intro ev hev
    obtain rfl := List.mem_singleton.mp hev
    trivial
  · rw [doing_parts hacc.evaluated, taskProposal_parts, entry_digests.1, entry_digests.2]
    decide

/-- The database once the task is there. -/
theorem task_numbers {row : ReceiptRow} (hid : row.id = 1) :
    ((taskProposal.evaluation .empty taskTxn).accept .empty row).HasNumbers := by
  constructor
  · rw [nextLedgerSeq_second]
    decide
  · simp [nextReceiptId, Db.empty, hid, maxRowId]

/-- The two proposals have different digests. -/
theorem asked_apart {ι : Type} {acts : List (Act ι)}
    (h : ∀ j c, .called j c ∈ events acts → c = taskProposal.call ∨ c = doingProposal.call) :
    Set.InjOn sha256Json (asked acts) := by
  have hvalues : ∀ value ∈ asked acts, value = Proposal.codec.enc taskProposal ∨
      value = Proposal.codec.enc doingProposal := by
    intro value hvalue
    obtain ⟨j, c, hmem, hc⟩ := hvalue
    rcases h j c hmem with rfl | rfl
    · left
      exact Option.some.inj (hc.symm.trans (JsonOf.toJson?_raw (Proposal.codec.sorted _)))
    · right
      exact Option.some.inj (hc.symm.trans (JsonOf.toJson?_raw (Proposal.codec.sorted _)))
  have hne : (sha256Json (Proposal.codec.enc taskProposal) : String) ≠
      sha256Json (Proposal.codec.enc doingProposal) := by
    rw [taskProposal_hash, doingProposal_hash]
    decide
  intro a ha b hb hab
  rcases hvalues a ha with rfl | rfl <;> rcases hvalues b hb with rfl | rfl
  · rfl
  · exact absurd (congrArg Subtype.val hab) hne
  · exact absurd (congrArg Subtype.val hab.symm) hne
  · rfl

/-- The database once the task is there takes the agent's proposal. -/
theorem task_open {row : ReceiptRow} (hacc : Accepts ownerRegistry taskProposal.call
      (sha256Json (Proposal.codec.enc taskProposal)) (Proposal.codec.enc taskProposal)
      .empty (taskProposal.evaluation .empty taskTxn) row) :
    Open ownerRegistry ((taskProposal.evaluation .empty taskTxn).accept .empty row)
      (sha256Json (Proposal.codec.enc doingProposal)) (Proposal.codec.enc doingProposal) := by
  obtain ⟨row', hacc'⟩ := doing_accepts hacc
  refine ⟨task_numbers (receiptRow_id hacc.receipted), fun r hr => ?_, ?_⟩
  · obtain rfl := List.mem_singleton.mp hr
    have hkey : (Proposal.codec.enc doingProposal).get? "idempotency_key" =
      some (.str doingProposal.idempotencyKey) := rfl
    have hold : r.idempotencyKey = taskProposal.idempotencyKey := hacc.key preflight_task
    rw [hkey, hold]
    intro h
    exact absurd (JsonOf.str.inj (Option.some.inj h)) (by decide)
  · rw [hacc'.evaluated]
    intro h
    cases h

theorem doing_value {row : ReceiptRow} (hacc : Accepts ownerRegistry taskProposal.call
      (sha256Json (Proposal.codec.enc taskProposal)) (Proposal.codec.enc taskProposal)
      .empty (taskProposal.evaluation .empty taskTxn) row) :
    Proposal.codec.enc doingProposal = taskRequest.proposal ownerRegistry (seenRow taskRow)
      (stateRoot ((taskProposal.evaluation .empty taskTxn).accept .empty row)) taskTime
      taskTime := by
  have hroot : stateRoot ((taskProposal.evaluation .empty taskTxn).accept .empty row) =
      stateRootForSchema supportedSchema taskTables := stateRoot_accept_eq hacc.evaluated row
  rw [hroot]
  exact doing_enc

theorem task_row : taskTables.workItems[taskRequest.workItemId]? = some taskRow := rfl

theorem task_few : (workItemDocuments taskTables).length ≤ 1000 := by decide

/-- A task is created and an agent takes it up. -/
theorem exists_taken_up : ∃ (before : List (Act Unit)) (v : World Unit) (acts : List (Act Unit))
    (w : World Unit) (act : Act Unit) (u : World Unit) (p : Progress),
      Run ownerRegistry (.start .empty) before v ∧
      v.sys.db.tables.workItems[taskRequest.workItemId]? = some taskRow ∧
      v.session () = .finding (.progress taskRequest) 0 [] 0 ∧
      RunWhere ownerRegistry (Calm ownerRegistry ()) v acts w ∧ Step ownerRegistry w act u ∧
      Calm ownerRegistry () w act ∧ (∀ a ∈ acts, a.ended = none) ∧
      act.ended = some (.progress taskRequest, .ok (.progress p)) ∧
      Set.InjOn sha256Json (asked (before ++ (acts ++ [act]))) := by
  obtain ⟨row, hacc⟩ := taskProposal_accepts
  obtain ⟨receipt, hreceipt⟩ := rowToReceipt_of_receiptRow hacc.receipted
  obtain ⟨before, hevents, hcreate⟩ := @Run.called _ Unit _ ownerRegistry (.start .empty) ()
    taskProposal.call _ _ receipt _ rfl rfl preflight_task
    (transaction_accepted.mpr ⟨_, row, hacc, hreceipt, rfl⟩)
  have hstarted := hcreate.snoc trivial (.start () (.progress taskRequest) rfl rfl)
  obtain ⟨acts, w, act, p, receipt', db, hrun, hstep, hcalm, -, hended, -, hbusy, hevents', -⟩ :=
    RunWhere.alone hstarted.kernel rfl (World.set_self _ _ () _) task_row task_few
      (doing_value hacc) rfl preflight_doing (task_open hacc)
  refine ⟨_, _, acts, w, act, _, p, hstarted, task_row, World.set_self _ _ () _, hrun, hstep, hcalm,
    fun a ha => (hbusy a ha).2, hended, asked_apart fun j c hc => ?_⟩
  rw [events_append, hevents', events_append, hevents] at hc
  simpa [events] using hc

/-- **Two sessions of one agent take the same task up**: the second has seen what the first saw,
and the kernel answers it with the receipt of the first. -/
theorem exists_told_twice : ∃ (acts : List (Act Bool)) (w : World Bool) (act act' : Act Bool)
    (p p' : Progress), Run ownerRegistry (.start .empty) acts w ∧
      Set.InjOn sha256Json (asked acts) ∧ act ∈ acts ∧ act' ∈ acts ∧ act.conn ≠ act'.conn ∧
      act.ended = some (.progress taskRequest, .ok (.progress p)) ∧
      act'.ended = some (.progress taskRequest, .ok (.progress p')) ∧ p'.version = p.version := by
  obtain ⟨row, hacc⟩ := taskProposal_accepts
  obtain ⟨receipt, hreceipt⟩ := rowToReceipt_of_receiptRow hacc.receipted
  obtain ⟨before, hevents, hcreate⟩ := @Run.called _ Bool _ ownerRegistry (.start .empty) false
    taskProposal.call _ _ receipt _ rfl rfl preflight_task
    (transaction_accepted.mpr ⟨_, row, hacc, hreceipt, rfl⟩)
  set db := (taskProposal.evaluation .empty taskTxn).accept .empty row with hdb
  set idle : World Bool := ⟨⟨db, fun _ => .idle⟩, fun _ => .out⟩ with hidle
  -- the second session reads, and waits
  have hstarted : Run ownerRegistry (.start .empty) _ (idle.set idle.sys false
      (.finding (.progress taskRequest) 0 [] 0)) :=
    hcreate.snoc trivial (.start false (.progress taskRequest) rfl rfl)
  obtain ⟨n, hfinds⟩ := RunWhere.finds (P := fun _ _ => True) hstarted.kernel
    (World.set_self _ _ false _) task_row task_few fun _ => trivial
  rw [World.set_set, World.set_sys] at hfinds
  set seen := idle.set idle.sys false (.rooting (.update taskRequest (seenRow taskRow) 0)
    ⟨some (headSchema db.ledger), db.tables, []⟩) with hseen
  -- the first session runs to its end
  have hfirst := (hstarted.trans hfinds).snoc trivial (.start true (.progress taskRequest) rfl rfl)
  obtain ⟨acts, v, act, p, receipt', db', hrun, hstep, -, hconn, hended, hversion, -, hevents', ht,
    hok⟩ := RunWhere.alone hfirst.kernel rfl (World.set_self _ _ true _) task_row task_few
      (doing_value hacc) rfl preflight_doing (task_open hacc)
  rw [World.set_set] at hstep
  have hreturned := (hfirst.trans hrun.any).snoc trivial hstep
  -- the second session calls, and is answered with the receipt of the first
  obtain ⟨e, row', hacc', hreceipt', rfl⟩ := transaction_accepted.mp ht
  set returned := seen.set ⟨e.accept db row', fun _ => .idle⟩ true .out with hreturned_eq
  have hwaits : returned.session false = seen.session false :=
    World.set_of_ne seen _ .out Bool.false_ne_true
  rw [hseen, World.set_self] at hwaits
  have hasks := RunWhere.asks (P := fun _ _ => True) hwaits rfl rfl (doing_value hacc) rfl
    preflight_doing trivial trivial
  obtain ⟨p', hversion', htold⟩ := Step.told (kernel_replayed (returned.waiting_phase false
    (.update taskRequest (seenRow taskRow) 0) doingProposal.call (Proposal.codec.enc doingProposal))
    (transaction_again hacc' hreceipt')) rfl hok
  refine ⟨_, _, act, _, p, p', (hreturned.trans hasks).snoc trivial htold,
    asked_apart fun j c hc => ?_, ?_, List.mem_append_right _ (List.mem_singleton_self _), ?_,
    hended, rfl, hversion'.trans hversion.symm⟩
  · have hacts : .called j c ∈ events (acts ++ [act]) → c = doingProposal.call := by
      rw [hevents']
      simp
    rw [events_append, List.mem_append] at hacts
    simp only [events_append, events_silent, hevents, List.mem_append] at hc
    rcases hc with ((((((hc | hc) | hc) | hc) | hc) | hc) | hc) | hc
    · left
      simp only [List.mem_cons, Event.called.injEq, List.not_mem_nil, or_false, reduceCtorEq] at hc
      exact hc.2
    · exact absurd hc List.not_mem_nil
    · exact absurd hc List.not_mem_nil
    · exact absurd hc List.not_mem_nil
    · exact .inr (hacts (.inl hc))
    · exact .inr (hacts (.inr hc))
    · right
      simp only [events, List.filterMap_cons, List.filterMap_nil, List.mem_cons, Event.called.injEq,
        List.not_mem_nil, or_false, reduceCtorEq] at hc
      exact hc.2
    · simp [events] at hc
  · simp
  · rw [hconn]
    exact Bool.false_ne_true.symm

end

/-! ### A progress that nobody disturbs -/

/-- **A `progress` that nobody disturbs returns.**  Wherever any sessions and callers have come
to, an idle connection that changes the status of a work item which is there, one of a thousand
at most, can run to its end on its own and report the next version, if its call passes the
checks before the transaction and meets a database that takes it. -/
theorem progress_alone [Host] {ι : Type} [DecidableEq ι] (reg : Registry)
    (before : List (Act ι)) (v : World ι) (hbefore : Run reg (.start .empty) before v) (i : ι)
    (hout : v.session i = .out) (hidle : v.sys.phase i = .idle) (r : StatusRequest)
    (row : WorkItemRow) (hrow : v.sys.db.tables.workItems[r.workItemId]? = some row)
    (hfew : (workItemDocuments v.sys.db.tables).length ≤ 1000) (value : Json)
    (proposedAt updatedAt now : String)
    (hvalue : value = r.proposal reg (seenRow row) (stateRoot v.sys.db) proposedAt updatedAt)
    (hpre : preflight ⟨value.raw, now⟩ = .ok (.evaluate (sha256Json value) value))
    (hopen : Open reg v.sys.db (sha256Json value) value) :
    ∃ acts u act p, Run reg v acts u ∧ (∀ a ∈ acts, a.conn = i) ∧ act ∈ acts ∧
      act.ended = some (.progress r, .ok (.progress p)) ∧ p.version = row.version + 1 ∧
      u.session = v.session ∧ u.sys.phase = v.sys.phase := by
  have hstart : Step reg v (.silent i) (v.set v.sys i (.finding (.progress r) 0 [] 0)) :=
    .start i (.progress r) hout hidle
  obtain ⟨acts, w, act, p, _, db, hrun, hstep, -, hconn, hended, hversion, hacts, -⟩ :=
    RunWhere.alone (hbefore.snoc trivial hstart).kernel hidle (v.set_self v.sys i _) hrow hfew
      hvalue rfl hpre hopen
  rw [World.set_set] at hstep
  refine ⟨[.silent i] ++ (acts ++ [act]), v.set ⟨db, v.sys.phase⟩ i .out, act, p,
    (Run.one hstart).trans (hrun.any.snoc trivial hstep), ?_,
    List.mem_append_right _ (List.mem_append_right _ (List.mem_singleton_self _)), hended,
    hversion, ?_, rfl⟩
  · intro a ha
    rcases List.mem_append.mp ha with ha | ha
    · obtain rfl := List.mem_singleton.mp ha
      rfl
    · rcases List.mem_append.mp ha with ha | ha
      · exact (hacts a ha).1
      · obtain rfl := List.mem_singleton.mp ha
        exact hconn
  · show Function.update v.session i .out = v.session
    rw [← hout, Function.update_eq_self]

section

attribute [local instance] Host.utc

/-- An agent takes a task up. -/
theorem progress_alone_of_task : ∃ (before : List (Act Unit)) (v : World Unit)
    (acts : List (Act Unit)) (u : World Unit) (act : Act Unit) (p : Progress),
      Run ownerRegistry (.start .empty) before v ∧ Run ownerRegistry v acts u ∧ act ∈ acts ∧
      act.ended = some (.progress taskRequest, .ok (.progress p)) ∧ p.version = 2 := by
  obtain ⟨row, hacc⟩ := taskProposal_accepts
  obtain ⟨receipt, hreceipt⟩ := rowToReceipt_of_receiptRow hacc.receipted
  obtain ⟨before, -, hcreate⟩ := @Run.called _ Unit _ ownerRegistry (.start .empty) ()
    taskProposal.call _ _ receipt _ rfl rfl preflight_task
    (transaction_accepted.mpr ⟨_, row, hacc, hreceipt, rfl⟩)
  obtain ⟨acts, u, act, p, hrun, -, hact, hended, hversion, -, -⟩ := progress_alone ownerRegistry
    before _ hcreate () rfl rfl taskRequest taskRow task_row task_few _ taskTime taskTime taskTime
    (doing_value hacc) preflight_doing (task_open hacc)
  exact ⟨before, _, acts, u, act, p, hcreate, hrun, hact, hended, hversion⟩

end

end SharedMind.Service
