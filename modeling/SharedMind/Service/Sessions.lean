import SharedMind.Service.WorkItems
import SharedMind.Contract.Tags
import SharedMind.Law.Applied
import SharedMind.Law.EventsValid
import SharedMind.Projection.Lossless

/-!
# Sessions as callers of the kernel

* `RunWhere.kernel`: sessions are callers of the kernel like any other.
* `Kept`: a session that waits for the kernel has called it with its own proposal.
* `StatusRequest.entry`: the entry of a status proposal holds one event, from the version and
  the status its session saw to the next version and the status it asked for.
* `RunWhere.entry_of_answer`: a session that is told its proposal is committed has an entry of
  its own.
-/

namespace SharedMind.Service

open Py

/-! ### Sessions in the kernel -/

section

variable [Host] {ι : Type} [DecidableEq ι] {reg : Registry} {w u : World ι} {act : Act ι}
  {acts : List (Act ι)}

/-- What the kernel sees of a run. -/
def events (acts : List (Act ι)) : List (Event ι) := acts.filterMap Act.event

omit [DecidableEq ι] [Host] in
theorem events_concat_none (h : act.event = none) : events (acts ++ [act]) = events acts := by
  simp [events, List.filterMap_append, h]

omit [DecidableEq ι] [Host] in
theorem events_concat_some {ev : Event ι} (h : act.event = some ev) :
    events (acts ++ [act]) = events acts ++ [ev] := by
  simp [events, List.filterMap_append, h]

/-- A step reads, or is a step of the kernel. -/
theorem Step.kernel_cases (h : Step reg w act u) :
    (act.event = none ∧ u.sys = w.sys) ∨
    ∃ ev, act.event = some ev ∧ SharedMind.Step reg w.sys ev u.sys := by
  cases h with
  | caller i ev sys hi hconn hstep => exact Or.inr ⟨ev, rfl, hstep⟩
  | start i q hi hidle => exact Or.inl ⟨rfl, rfl⟩
  | page i q attempt offset documents turn hi hturn => exact Or.inl ⟨rfl, rfl⟩
  | table i intent reading hi hroot => exact Or.inl ⟨rfl, rfl⟩
  | ask i intent reading root proposedAt updatedAt now proposal sys hi hroot hp hstep =>
    exact Or.inr ⟨_, rfl, hstep⟩
  | silent i intent proposal sys hi hstep => exact Or.inr ⟨_, rfl, hstep⟩
  | answer i intent proposal c result turn sys hi hstep hturn => exact Or.inr ⟨_, rfl, hstep⟩
  | fail i q hi => exact Or.inl ⟨rfl, rfl⟩

/-- Sessions are callers like any other. -/
theorem RunWhere.kernel {P : World ι → Act ι → Prop} (h : RunWhere reg P w acts u) :
    SharedMind.Run reg w.sys (events acts) u.sys := by
  induction h with
  | nil => exact .nil
  | snoc _ _ hstep ih =>
    rcases hstep.kernel_cases with ⟨hnone, hsys⟩ | ⟨ev, hsome, hkernel⟩
    · rw [events_concat_none hnone, hsys]
      exact ih
    · rw [events_concat_some hsome]
      exact ih.snoc trivial hkernel

end

/-! ### Sessions that wait -/

section

variable [Host] {ι : Type} [DecidableEq ι] {reg : Registry}

omit [Host] in
theorem handle_call {c : Call} {db : Db} {hash : Hash} {head : Option String} {e : PyExc}
    (h : (Phase.handle c db hash head e).result = none) :
    (Phase.handle c db hash head e).phase.call? = some c := by
  unfold Phase.handle at h ⊢
  split at h
  · rfl
  · cases h

/-- A call that is not answered yet goes on. -/
theorem advance_silent {db : Db} {p : Phase} {m : Move} (hm : p.advance reg db = some m)
    (hr : m.result = none) : m.phase.call? = p.call? := by
  cases p with
  | idle => cases hm
  | begun c =>
    simp only [Phase.advance] at hm
    split at hm
    · cases hm
      cases hr
    · cases hm
      rfl
    · cases hm
      rfl
  | ready c hash value =>
    simp only [Phase.advance] at hm
    split at hm
    · cases hm
      cases hr
    · cases hm
      cases hr
    · cases hm
      rfl
    · cases hm
      exact handle_call hr
  | rejecting c pending reading =>
    simp only [Phase.advance] at hm
    split at hm
    · cases hm
      rfl
    · split at hm
      · cases hm
        cases hr
      · cases hm
        cases hr
      · cases hm
        exact handle_call hr

/-- A step of one connection leaves the others where they are. -/
theorem phase_other {s t : Sys ι} {ev : Event ι} (h : SharedMind.Step reg s ev t) {j : ι}
    (hj : j ≠ ev.conn) : t.phase j = s.phase j := by
  cases h with
  | call i c hi => exact Function.update_of_ne hj _ _
  | move i m hm hr => exact Function.update_of_ne hj _ _
  | finish i c m result hm hr hc => exact Function.update_of_ne hj _ _
  | fail i c hi => exact Function.update_of_ne hj _ _

theorem phase_silent {s t : Sys ι} {i : ι} (h : SharedMind.Step reg s (.silent i) t) :
    (t.phase i).call? = (s.phase i).call? := by
  cases h with
  | move i m hm hr =>
    show (Function.update s.phase i m.phase i).call? = _
    rw [Function.update_self]
    exact advance_silent hm hr

theorem phase_called {s t : Sys ι} {i : ι} {c : Call}
    (h : SharedMind.Step reg s (.called i c) t) : (t.phase i).call? = some c := by
  cases h with
  | call i c hi =>
    show (Function.update s.phase i (.begun c) i).call? = _
    rw [Function.update_self]
    rfl

theorem call_of_ended {s t : Sys ι} {i : ι} {c : Call} {result : Result}
    (h : SharedMind.Step reg s (.ended i c result) t) : (s.phase i).call? = some c := by
  cases h with
  | finish i c m result hm hr hc => exact hc
  | fail i c hi => exact hi

/-- Only `ask` makes a session wait for the kernel. -/
def Session.Waits : Session → Prop
  | .committing _ _ => True
  | _ => False

omit [Host] in
theorem found_not_waits (q : Request) (attempt : Nat) (documents : List Json) :
    ¬(q.found attempt documents).session.Waits := by
  cases q with
  | handoff h =>
    simp only [Request.found]
    split <;> exact id
  | progress r =>
    simp only [Request.found]
    split
    · exact id
    · split <;> exact id

omit [Host] in
theorem paged_not_waits (q : Request) (attempt offset : Nat) (documents : List Json)
    (page : Except Projection.ProjectionExc Projection.QueryResult) :
    ¬(q.paged attempt documents offset page).session.Waits := by
  cases page with
  | error e => exact id
  | ok page =>
    simp only [Request.paged]
    split
    · exact id
    · exact found_not_waits q attempt _

omit [Host] in
theorem answered_not_waits (intent : Intent) (result : Result) :
    ¬(intent.answered result).session.Waits := by
  cases result with
  | error e => exact id
  | ok receipt =>
    simp only [Intent.answered]
    split
    · exact id
    · split <;> exact id

/-- A session that waits has called the kernel with the proposal of its intent. -/
def Kept (reg : Registry) (w : World ι) : Prop :=
  ∀ i intent proposal, w.session i = .committing intent proposal →
    (∃ root proposedAt updatedAt, proposal = intent.proposal reg root proposedAt updatedAt) ∧
    ∃ c, (w.sys.phase i).call? = some c ∧ c.proposal = proposal.raw

variable {w u : World ι} {act : Act ι} {acts : List (Act ι)}

omit [Host] in
/-- One session moves, and the others wait as before. -/
theorem Kept.set (h : Kept reg w) {i : ι} {sys : Sys ι} {session : Session}
    (hothers : ∀ j ≠ i, (sys.phase j).call? = (w.sys.phase j).call?)
    (hown : ∀ intent proposal, session = .committing intent proposal →
      (∃ root proposedAt updatedAt, proposal = intent.proposal reg root proposedAt updatedAt) ∧
      ∃ c, (sys.phase i).call? = some c ∧ c.proposal = proposal.raw) :
    Kept reg (w.set sys i session) := by
  intro j intent proposal hj
  by_cases hji : j = i
  · subst hji
    exact hown intent proposal ((w.set_self sys j session).symm.trans hj)
  · rw [w.set_of_ne sys session hji] at hj
    obtain ⟨hproposal, c, hc, hraw⟩ := h j intent proposal hj
    exact ⟨hproposal, c, (hothers j hji).trans hc, hraw⟩

omit [Host] in
theorem Kept.set_not_waits (h : Kept reg w) {i : ι} {sys : Sys ι} {session : Session}
    (hothers : ∀ j ≠ i, (sys.phase j).call? = (w.sys.phase j).call?) (hnot : ¬session.Waits) :
    Kept reg (w.set sys i session) :=
  h.set hothers fun _ _ heq => absurd (heq ▸ trivial : session.Waits) hnot

theorem Kept.step (h : Kept reg w) (hstep : Step reg w act u) : Kept reg u := by
  cases hstep with
  | caller i ev sys hi hconn hkernel =>
    subst hconn
    exact h.set_not_waits (fun j hj => by rw [phase_other hkernel hj]) id
  | start i q hi hidle => exact h.set_not_waits (fun _ _ => rfl) id
  | page i q attempt offset documents turn hi hturn =>
    subst hturn
    exact h.set_not_waits (fun _ _ => rfl) (paged_not_waits q attempt offset documents _)
  | table i intent reading hi hroot => exact h.set_not_waits (fun _ _ => rfl) id
  | ask i intent reading root proposedAt updatedAt now proposal sys hi hroot hp hkernel =>
    refine h.set (fun j hj => by rw [phase_other hkernel hj]) fun intent' proposal' heq => ?_
    cases heq
    exact ⟨⟨root, proposedAt, updatedAt, hp⟩, _, phase_called hkernel, rfl⟩
  | silent i intent proposal sys hi hkernel =>
    refine h.set (fun j hj => by rw [phase_other hkernel hj]) fun intent' proposal' heq => ?_
    cases heq
    obtain ⟨hproposal, c, hc, hraw⟩ := h i intent proposal hi
    exact ⟨hproposal, c, (phase_silent hkernel).trans hc, hraw⟩
  | answer i intent proposal c result turn sys hi hkernel hturn =>
    subst hturn
    exact h.set_not_waits (fun j hj => by rw [phase_other hkernel hj])
      (answered_not_waits intent result)
  | fail i q hi => exact h.set_not_waits (fun _ _ => rfl) id

omit [DecidableEq ι] [Host] in
theorem Kept.start (db : Db) : Kept reg (.start db : World ι) :=
  fun i intent proposal heq => by cases heq

theorem RunWhere.kept {P : World ι → Act ι → Prop} (h : RunWhere reg P w acts u)
    (hw : Kept reg w) : Kept reg u := by
  induction h with
  | nil => exact hw
  | snoc _ _ hstep ih => exact ih.step hstep

end

/-! ### What a status proposal says -/

section

variable {reg : Registry} {p : Proposal}

/-- The operation `_status_proposal` brings. -/
theorem updateWorkItem_of_enc {op : Operation} {v : Json} (h : Operation.codec.enc op = v)
    (hop : v.get? "op" = some (.str "UPDATE_WORK_ITEM_STATUS")) :
    ∃ o, op = .updateWorkItemStatus o ∧
      v.get? "blocker" = some (optColumn idColumn o.1.blocker) ∧
      v.get? "new_status" = some (.str o.1.newStatus.text) ∧
      v.get? "rationale" = some (idColumn o.1.rationale) ∧
      v.get? "target_work_item_id" = some (idColumn o.1.targetWorkItemId) ∧
      v.get? "updated_by" = some (ActorRef.codec.enc o.1.updatedBy) := by
  subst h
  cases op with
  | updateWorkItemStatus o =>
    refine ⟨o, rfl, ?_, rfl, rfl, rfl, rfl⟩
    obtain ⟨⟨blocker, _⟩, _⟩ := o
    cases blocker <;> rfl
  | _ =>
    rw [Operation.get?_op] at hop
    simp [Operation.opText] at hop

/-- A guard on the status of a work item. -/
theorem statusGuard_of_enc {g : Guard} {v : Json} (h : Guard.codec.enc g = v)
    (hop : v.get? "op" = some (.str "WORK_ITEM_STATUS_EQ")) :
    ∃ status id, g = .workItemStatusEq status id ∧
      v.get? "expected_status" = some (.str status.text) ∧
      v.get? "work_item_id" = some (idColumn id) := by
  subst h
  cases g with
  | workItemStatusEq status id => exact ⟨status, id, rfl, rfl, rfl⟩
  | _ =>
    rw [Guard.get?_op] at hop
    simp [Guard.opText] at hop

/-- A guard on the version of a work item. -/
theorem versionGuard_of_enc {g : Guard} {v : Json} (h : Guard.codec.enc g = v)
    (hop : v.get? "op" = some (.str "WORK_ITEM_VERSION_EQ")) :
    ∃ version id, g = .workItemVersionEq version id ∧
      v.get? "expected_version" = some (.num version.1) ∧
      v.get? "work_item_id" = some (idColumn id) := by
  subst h
  cases g with
  | workItemVersionEq version id => exact ⟨version, id, rfl, rfl, rfl⟩
  | _ =>
    rw [Guard.get?_op] at hop
    simp [Guard.opText] at hop

theorem optColumn_idColumn_inj {q : String → Bool} {a b : Option (Text q)}
    (h : optColumn idColumn a = optColumn idColumn b) : a = b := by
  cases a with
  | none =>
    cases b with
    | none => rfl
    | some b => cases h
  | some a =>
    cases b with
    | none => cases h
    | some b => exact congrArg some (Text.ext (JsonOf.str.inj h))

/-- A list of which the encodings are given. -/
theorem mem_of_map_eq {α : Type} {c : Codec α} {as : List α} {vs : List Json}
    (h : as.map c.enc = vs) {v : Json} (hv : v ∈ vs) : ∃ a ∈ as, c.enc a = v := by
  rw [← h] at hv
  exact List.mem_map.mp hv

/-- The event of a status update that a request asks for, of a work item that was seen. -/
structure Tells (r : StatusRequest) (seen : Seen) (e : WorkItemStatusUpdated) : Prop where
  item : e.targetWorkItemId = r.workItemId
  status : e.newStatus = r.status
  blocker : e.blocker = r.blocker
  rationale : e.rationale = r.rationale
  actor : e.updatedBy = r.actor
  previousStatus : e.previousStatus.text = seen.status
  previousVersion : e.previousVersion = .int seen.version
  newVersion : e.newVersion = .int (seen.version + 1)

/-- A proposal that reads as `_status_proposal` wrote it. -/
theorem StatusRequest.read {r : StatusRequest} {seen : Seen} {root : Hash}
    {proposedAt updatedAt : String}
    (h : Proposal.codec.enc p = r.proposal reg seen root proposedAt updatedAt) :
    (∃ o : UpdateWorkItemStatus, p.operations.1 = [.updateWorkItemStatus o] ∧
      o.1.blocker = r.blocker ∧ o.1.newStatus = r.status ∧
      (o.1.rationale : String) = r.rationale ∧ o.1.targetWorkItemId = r.workItemId ∧
      o.1.updatedBy = r.actor) ∧
    (∃ status, .workItemStatusEq status r.workItemId ∈ p.guards.1 ∧ status.text = seen.status) ∧
    ∃ version, .workItemVersionEq version r.workItemId ∈ p.guards.1 ∧
      version.1 = .int seen.version := by
  have hops := (Proposal.get?_operations p).symm.trans (congrArg (·.get? "operations") h)
  have hguards := (Proposal.get?_guards p).symm.trans (congrArg (·.get? "guards") h)
  have hops := JsonOf.arr.inj (Option.some.inj hops)
  have hguards := JsonOf.arr.inj (Option.some.inj hguards)
  refine ⟨?_, ?_, ?_⟩
  · obtain ⟨op, hop, henc⟩ := List.map_eq_singleton_iff.mp hops
    obtain ⟨o, rfl, hblocker, hstatus, hrationale, htarget, hactor⟩ :=
      updateWorkItem_of_enc henc rfl
    have hblocker : optColumn idColumn r.blocker = optColumn idColumn o.1.blocker :=
      Option.some.inj hblocker
    have hstatus : JsonOf.str r.status.text = .str o.1.newStatus.text := Option.some.inj hstatus
    have hrationale : idColumn r.rationale = idColumn o.1.rationale := Option.some.inj hrationale
    have htarget : idColumn r.workItemId = idColumn o.1.targetWorkItemId := Option.some.inj htarget
    have hactor : ActorRef.codec.enc r.actor = ActorRef.codec.enc o.1.updatedBy :=
      Option.some.inj hactor
    refine ⟨o, hop, (optColumn_idColumn_inj hblocker).symm,
      (WorkItemStatus.codec.enc_injective hstatus).symm, (JsonOf.str.inj hrationale).symm,
      Text.ext (JsonOf.str.inj htarget).symm, (ActorRef.codec.enc_injective hactor).symm⟩
  · obtain ⟨g, hg, henc⟩ := mem_of_map_eq hguards List.mem_cons_self
    obtain ⟨status, id, rfl, hstatus, hid⟩ := statusGuard_of_enc henc rfl
    have hid : idColumn r.workItemId = idColumn id := Option.some.inj hid
    have hstatus : JsonOf.str seen.status = .str status.text := Option.some.inj hstatus
    obtain rfl : r.workItemId = id := Text.ext (JsonOf.str.inj hid)
    exact ⟨status, hg, (JsonOf.str.inj hstatus).symm⟩
  · obtain ⟨g, hg, henc⟩ :=
      mem_of_map_eq hguards (List.mem_cons_of_mem _ List.mem_cons_self)
    obtain ⟨version, id, rfl, hversion, hid⟩ := versionGuard_of_enc henc rfl
    have hid : idColumn r.workItemId = idColumn id := Option.some.inj hid
    have hversion : JsonOf.num (.int seen.version) = .num version.1 := Option.some.inj hversion
    obtain rfl : r.workItemId = id := Text.ext (JsonOf.str.inj hid)
    exact ⟨version, hg, (JsonOf.num.inj hversion).symm⟩

/-- The guards of a proposal that passes the checks hold. -/
theorem guards_hold [Host] {t : Tables} (h : validateProposal reg t p = .ok ()) :
    ∀ g ∈ p.guards.1, validateGuard reg t g = .ok () := by
  simp only [validateProposal, validateReadsAndGuards, bind_eq_ok, forM_eq_ok] at h
  obtain ⟨_, _, _, _, _, ⟨_, _, hguards⟩, _⟩ := h
  exact hguards

/-- The entry of a status proposal: the work item had the version and the status that were
seen, and its one event is the change that was asked for. -/
theorem StatusRequest.entry [Host] {r : StatusRequest} {seen : Seen} {root : Hash}
    {proposedAt updatedAt : String} {l : LedgerRow} {e : Evaluation} (hby : l.AppliedBy reg e)
    (henc : Proposal.codec.enc e.proposal = r.proposal reg seen root proposedAt updatedAt) :
    ∃ ev, l.decodedEvents = [.workItemStatusUpdated ev] ∧ Tells r seen ev := by
  obtain ⟨db, heval, rfl⟩ := hby
  obtain ⟨_, hvalid, happly, _⟩ := evaluate_eq_ok.mp heval
  obtain ⟨⟨o, hops, hblocker, hstatus, hrationale, htarget, hactor⟩,
    ⟨expectedStatus, hstatusGuard, hseenStatus⟩, ⟨expectedVersion, hversionGuard, hseenVersion⟩⟩ :=
    StatusRequest.read henc
  have hcolumn := guards_hold hvalid _ hstatusGuard
  have hpinned := guards_hold hvalid _ hversionGuard
  simp only [validateGuard, validateColumn, validateVersion, requireNow_eq_ok] at hcolumn hpinned
  rw [hops, applyOperations, List.foldlM_cons, bind_eq_ok] at happly
  obtain ⟨w, happly, hw⟩ := happly
  obtain rfl : w = e.txn := by simpa using hw
  obtain ⟨_, row, hrow, htxn⟩ := updateWorkItemStatus_eq_ok.mp happly
  rw [htarget] at hrow
  have hrow : db.tables.workItems[r.workItemId]? = some row := hrow
  rw [hrow] at hcolumn hpinned
  obtain ⟨v, hv, hpy⟩ := hpinned
  obtain rfl : row.version = v := Option.some.inj hv
  rw [hseenVersion, PyNum.pyEq_int_iff, PyNum.toInt?_int] at hpy
  have hversion : (row.version : Int) = seen.version := (Option.some.inj hpy).symm
  refine ⟨{
    blocker := o.1.blocker
    newStatus := o.1.newStatus
    newVersion := .int (row.version + 1 : Nat)
    previousStatus := row.status
    previousVersion := .int row.version
    rationale := o.1.rationale
    targetWorkItemId := o.1.targetWorkItemId
    updatedAt := o.1.updatedAt
    updatedBy := o.1.updatedBy }, ?_, ?_⟩
  · rw [Evaluation.decodedEvents_row heval, htxn]
    rfl
  · refine ⟨htarget, hstatus, hblocker, hrationale, hactor, ?_, ?_, ?_⟩
    · rw [← hseenStatus]
      exact congrArg WorkItemStatus.text (Option.some.inj hcolumn)
    · rw [← hversion]
    · rw [← hversion]
      rfl

end

/-! ### Proposals as dicts -/

section

open Projection

variable {reg : Registry} {root : Hash} {proposedAt updatedAt : String}

theorem currentVersionBundle_sorted (reg : Registry) : (currentVersionBundle reg).Sorted := by
  apply sorted_obj ["conflict_rules", "guard_dsl", "predicate_registry",
    "predicate_registry_hash", "projection", "schema"] rfl (by decide)
  simp only [List.map_cons, List.map_nil, List.forall_mem_cons]
  exact ⟨.str _, sorted_idColumn _, sorted_idColumn _, sorted_idColumn _, .str _, .str _,
    sorted_nil⟩

theorem proposalJson_sorted {proposalId idempotencyKey : String} {proposer : ActorRef}
    {reads guards operations : List Json} (hreads : ∀ v ∈ reads, v.Sorted)
    (hguards : ∀ v ∈ guards, v.Sorted) (hoperations : ∀ v ∈ operations, v.Sorted) :
    (proposalJson reg proposalId idempotencyKey proposer proposedAt root reads guards
      operations).Sorted := by
  apply sorted_obj ["base_state_root", "guards", "idempotency_key", "object_type", "operations",
    "proposal_id", "proposed_at", "proposer", "reads", "versions"] rfl (by decide)
  simp only [List.map_cons, List.map_nil, List.forall_mem_cons]
  exact ⟨sorted_idColumn _, .arr hguards, .str _, .str _, .arr hoperations, .str _, .str _,
    ActorRef.codec.sorted _, .arr hreads, currentVersionBundle_sorted reg, sorted_nil⟩

theorem HandoffRequest.sorted_proposal (h : HandoffRequest) :
    (h.proposal reg root proposedAt).Sorted := by
  apply proposalJson_sorted sorted_nil sorted_nil
  rw [List.forall_mem_singleton]
  apply sorted_obj ["op", "op_id", "work_item"] rfl (by decide)
  simp only [List.map_cons, List.map_nil, List.forall_mem_cons]
  refine ⟨.str _, .str _, ?_, sorted_nil⟩
  apply sorted_obj ["blocker", "created_at", "created_by", "description", "object_type",
    "priority", "related_objects", "status", "updated_at", "version", "work_item_id"] rfl
    (by decide)
  simp only [List.map_cons, List.map_nil, List.forall_mem_cons]
  exact ⟨.null, .str _, ActorRef.codec.sorted _, sorted_idColumn _, .str _, .str _,
    sorted_map (fun _ => RecordRef.codec.sorted _) _, .str _, .str _, sorted_intColumn _, .str _,
    sorted_nil⟩

theorem StatusRequest.sorted_proposal (r : StatusRequest) (seen : Seen) :
    (r.proposal reg seen root proposedAt updatedAt).Sorted := by
  apply proposalJson_sorted
  · rw [List.forall_mem_singleton]
    apply sorted_obj ["aggregate_id", "aggregate_type", "expected_version", "kind"] rfl (by decide)
    simp only [List.map_cons, List.map_nil, List.forall_mem_cons]
    exact ⟨sorted_idColumn _, .str _, .num _, .str _, sorted_nil⟩
  · simp only [List.forall_mem_cons]
    refine ⟨?_, ?_, sorted_nil⟩
    · apply sorted_obj ["expected_status", "op", "work_item_id"] rfl (by decide)
      simp only [List.map_cons, List.map_nil, List.forall_mem_cons]
      exact ⟨.str _, .str _, sorted_idColumn _, sorted_nil⟩
    · apply sorted_obj ["expected_version", "op", "work_item_id"] rfl (by decide)
      simp only [List.map_cons, List.map_nil, List.forall_mem_cons]
      exact ⟨.num _, .str _, sorted_idColumn _, sorted_nil⟩
  · rw [List.forall_mem_singleton]
    apply sorted_obj ["blocker", "new_status", "op", "op_id", "rationale", "target_work_item_id",
      "updated_at", "updated_by"] rfl (by decide)
    simp only [List.map_cons, List.map_nil, List.forall_mem_cons]
    exact ⟨sorted_optColumn sorted_idColumn _, .str _, .str _, .str _, sorted_idColumn _,
      sorted_idColumn _, .str _, ActorRef.codec.sorted _, sorted_nil⟩

theorem Intent.sorted_proposal (intent : Intent) :
    (intent.proposal reg root proposedAt updatedAt).Sorted := by
  cases intent with
  | create h => exact h.sorted_proposal
  | update r seen attempt => exact r.sorted_proposal seen

end

/-! ### Answers -/

section

variable [Host] {ι : Type} [DecidableEq ι] {reg : Registry} {w u : World ι} {act : Act ι}
  {acts : List (Act ι)}

/-- The proposals that were called in a run. -/
def asked (acts : List (Act ι)) : Set Json := calledValues (events acts)

omit [DecidableEq ι] [Host] in
theorem asked_concat (acts : List (Act ι)) (act : Act ι) : asked acts ⊆ asked (acts ++ [act]) := by
  show calledValues (events acts) ⊆ calledValues ((acts ++ [act]).filterMap Act.event)
  rw [List.filterMap_append]
  exact calledValues_append _ _

theorem RunWhere.any {P : World ι → Act ι → Prop} {v : World ι} (h : RunWhere reg P v acts w) :
    Run reg v acts w := by
  induction h with
  | nil => exact .nil
  | snoc _ _ hstep ih => exact ih.snoc trivial hstep

/-- A run with one step more, and what the kernel sees of it. -/
theorem RunWhere.events_snoc {P : World ι → Act ι → Prop} {v : World ι}
    (h : RunWhere reg P v acts w) (hstep : Step reg w act u) :
    SharedMind.Run reg v.sys (events (acts ++ [act])) u.sys :=
  (h.any.snoc trivial hstep).kernel

omit [Host] in
theorem applied_of_receiptOk {receipt : Receipt} (h : receiptOk receipt = true) :
    AppliedText receipt.outcome := by
  simp only [receiptOk, Bool.or_eq_true, decide_eq_true_eq] at h
  rcases h with h | h
  · exact ⟨.committed, Or.inl rfl, h⟩
  · exact ⟨.factConflict, Or.inr rfl, h⟩

/-- A session that is told its proposal is committed has an entry of its own proposal, and the
answer names it. -/
theorem RunWhere.entry_of_answer {P : World ι → Act ι → Prop}
    (hrun : RunWhere reg P (.start .empty) acts w) (hstep : Step reg w act u)
    {i : ι} {c : Call} {receipt : Receipt} {intent : Intent} {proposal : Json}
    (hi : w.session i = .committing intent proposal)
    (hevent : act.event = some (.ended i c (.ok receipt)))
    (hcall : (w.sys.phase i).call? = some c) (hok : receiptOk receipt = true)
    (hapart : Set.InjOn sha256Json (asked (acts ++ [act]))) :
    ∃ (e : Evaluation) (root : Hash) (proposedAt updatedAt : String),
      e.row ∈ u.sys.db.ledger ∧ e.row.AppliedBy reg e ∧ receipt.ledgerSeq = some e.row.seq ∧
      Proposal.codec.enc e.proposal = intent.proposal reg root proposedAt updatedAt := by
  have hmem : Event.ended i c (.ok receipt) ∈ events (acts ++ [act]) := by
    rw [events_concat_some hevent]
    exact List.mem_append_right _ (List.mem_singleton_self _)
  obtain ⟨-, hanswered⟩ := (hrun.events_snoc hstep).applied_answer
  obtain ⟨e, value, hl, hby, hseq, hvalue, hcalled, henc, hhash⟩ :=
    hanswered i c receipt hmem (applied_of_receiptOk hok)
  obtain ⟨⟨root, proposedAt, updatedAt, hproposal⟩, d, hd, hraw⟩ :=
    hrun.kept (.start _) i intent proposal hi
  obtain rfl : c = d := Option.some.inj (hcall.symm.trans hd)
  have hsorted : proposal.Sorted := by
    rw [hproposal]
    exact intent.sorted_proposal
  rw [hraw, JsonOf.toJson?_raw hsorted] at hvalue
  obtain rfl := Option.some.inj hvalue
  refine ⟨e, root, proposedAt, updatedAt, hl, hby, hseq, ?_⟩
  rw [← hproposal]
  exact (hapart hcalled henc hhash).symm

end

end SharedMind.Service
