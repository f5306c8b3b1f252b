import SharedMind.Service.Alone

/-!
# What `progress` reports is what the ledger holds

* `Step.progress_cases`: a session returns from `progress` when it is told of its commit.
* `Logged`: the entry of a `progress` that returned.
* `progress_is_logged`: **a `progress` that returns made the change it reports, in the entry it
  names, and no other entry changes the item from that version**.
* `progress_exclusive`: **no two requests are told that they made the same version**.
-/

namespace SharedMind.Service

open Py

section

variable [Host] {ι : Type} [DecidableEq ι] {reg : Registry} {w u : World ι} {act : Act ι}
  {acts : List (Act ι)}

/-! ### Returning -/

/-- What a session reports that is told its proposal is committed. -/
structure Reports (r : StatusRequest) (seen : Seen) (receipt : Receipt) (p : Progress) : Prop where
  workItemId : p.workItemId = r.workItemId
  status : p.status = r.status
  blocker : p.blocker = r.blocker
  version : p.version = seen.version + 1
  previousStatus : p.previousStatus = seen.status
  ledgerSequence : p.ledgerSequence = receipt.ledgerSeq

omit [Host] in
theorem found_progress {q : Request} {attempt : Nat} {documents : List Json} {q' : Request}
    {p : Progress} (h : (q.found attempt documents).ended = some (q', .ok (.progress p))) :
    False := by
  cases q with
  | handoff r =>
    simp only [Request.found] at h
    split at h <;> cases h
  | progress r =>
    simp only [Request.found] at h
    split at h
    · cases h
    · split at h <;> cases h

omit [Host] in
theorem paged_progress {q : Request} {attempt offset : Nat} {documents : List Json} {q' : Request}
    {page : Except Projection.ProjectionExc Projection.QueryResult} {p : Progress}
    (h : (q.paged attempt documents offset page).ended = some (q', .ok (.progress p))) : False := by
  cases page with
  | error e => cases h
  | ok page =>
    simp only [Request.paged] at h
    split at h
    · cases h
    · exact found_progress h

omit [Host] in
theorem answered_progress {intent : Intent} {result : Result} {r : StatusRequest} {p : Progress}
    (h : (intent.answered result).ended = some (.progress r, .ok (.progress p))) :
    ∃ seen attempt receipt, intent = .update r seen attempt ∧ result = .ok receipt ∧
      receiptOk receipt = true ∧ Reports r seen receipt p := by
  have hfailed : ∀ {q : Request} {f : Failure},
      (Turn.done q (.error f)).ended ≠ some (.progress r, .ok (.progress p)) := by
    intro q f heq
    obtain ⟨-, heq⟩ := Prod.mk.inj (Option.some.inj heq)
    cases heq
  cases result with
  | error e => exact absurd h hfailed
  | ok receipt =>
    simp only [Intent.answered] at h
    split at h
    · next hok =>
      cases intent with
      | create r => cases h
      | update r seen attempt =>
        cases h
        exact ⟨seen, attempt, receipt, rfl, rfl, hok, rfl, rfl, rfl, rfl, rfl, rfl⟩
    · split at h
      · cases h
      · exact absurd h hfailed

/-- A session returns from `progress` when the kernel answers that its proposal is committed. -/
theorem Step.progress_cases (h : Step reg w act u) {r : StatusRequest} {p : Progress}
    (hended : act.ended = some (.progress r, .ok (.progress p))) :
    ∃ i c receipt seen attempt proposal,
      w.session i = .committing (.update r seen attempt) proposal ∧
      act.event = some (.ended i c (.ok receipt)) ∧ (w.sys.phase i).call? = some c ∧
      receiptOk receipt = true ∧ Reports r seen receipt p := by
  cases h with
  | caller i ev sys hi hconn hkernel => cases hended
  | start i q hi hidle => cases hended
  | page i q attempt offset documents turn hi hturn =>
    subst hturn
    exact (paged_progress hended).elim
  | table i intent reading hi hroot => cases hended
  | ask i intent reading root proposedAt updatedAt now proposal sys hi hroot hp hkernel =>
    cases hended
  | silent i intent proposal sys hi hkernel => cases hended
  | answer i intent proposal c result turn sys hi hkernel hturn =>
    subst hturn
    obtain ⟨seen, attempt, receipt, rfl, rfl, hok, hreports⟩ := answered_progress hended
    exact ⟨i, c, receipt, seen, attempt, proposal, hi, rfl, call_of_ended hkernel, hok, hreports⟩
  | fail i q hi => cases hended

/-! ### The entry -/

/-- The entry of a `progress` that returned: it has the sequence that was returned, and its one
event changes the work item as asked for, from the version and the status that were returned as
the previous ones. -/
structure Logged (l : LedgerRow) (r : StatusRequest) (p : Progress) (e : WorkItemStatusUpdated) :
    Prop where
  sequence : p.ledgerSequence = some l.seq
  events : l.decodedEvents = [.workItemStatusUpdated e]
  workItemId : e.targetWorkItemId = r.workItemId ∧ p.workItemId = r.workItemId
  status : e.newStatus = r.status ∧ p.status = r.status
  blocker : e.blocker = r.blocker ∧ p.blocker = r.blocker
  rationale : e.rationale = r.rationale
  actor : e.updatedBy = r.actor
  previousStatus : e.previousStatus.text = p.previousStatus
  previousVersion : e.previousVersion = .int (p.version - 1)
  newVersion : e.newVersion = .int p.version

omit [Host] in
theorem Reports.logged {r : StatusRequest} {seen : Seen} {receipt : Receipt} {p : Progress}
    (h : Reports r seen receipt p) {l : LedgerRow} {e : WorkItemStatusUpdated}
    (hseq : receipt.ledgerSeq = some l.seq) (hevents : l.decodedEvents = [.workItemStatusUpdated e])
    (htells : Tells r seen e) : Logged l r p e where
  sequence := h.ledgerSequence.trans hseq
  events := hevents
  workItemId := ⟨htells.item, h.workItemId⟩
  status := ⟨htells.status, h.status⟩
  blocker := ⟨htells.blocker, h.blocker⟩
  rationale := htells.rationale
  actor := htells.actor
  previousStatus := htells.previousStatus.trans h.previousStatus.symm
  previousVersion := by rw [htells.previousVersion, h.version, Int.add_sub_cancel]
  newVersion := by rw [htells.newVersion, h.version]

/-- Entries stay in the ledger. -/
theorem Step.ledger_subset (h : Step reg w act u) : w.sys.db.ledger ⊆ u.sys.db.ledger := by
  rcases h.kernel_cases with ⟨_, hsys⟩ | ⟨ev, _, hkernel⟩
  · rw [hsys]
    exact List.Subset.refl _
  · exact hkernel.ledger_subset

/-- Every `progress` that returned has its entry. -/
theorem RunWhere.logged {P : World ι → Act ι → Prop} (hrun : RunWhere reg P (.start .empty) acts w)
    (hapart : Set.InjOn sha256Json (asked acts)) :
    ∀ act ∈ acts, ∀ r p, act.ended = some (.progress r, .ok (.progress p)) →
      ∃ l ∈ w.sys.db.ledger, ∃ e, Logged l r p e := by
  induction hrun with
  | nil => exact fun act h => absurd h List.not_mem_nil
  | @snoc acts v u last hrun _ hstep ih =>
    intro act hact r p hended
    rcases List.mem_append.mp hact with hact | hact
    · obtain ⟨l, hl, e, hlogged⟩ := ih (hapart.mono (asked_concat acts last)) act hact r p hended
      exact ⟨l, hstep.ledger_subset hl, e, hlogged⟩
    · obtain rfl := List.mem_singleton.mp hact
      obtain ⟨i, c, receipt, seen, attempt, proposal, hi, hevent, hcall, hok, hreports⟩ :=
        hstep.progress_cases hended
      obtain ⟨e, root, proposedAt, updatedAt, hl, hby, hseq, henc⟩ :=
        hrun.entry_of_answer hstep hi hevent hcall hok hapart
      obtain ⟨ev, hevents, htells⟩ := StatusRequest.entry hby henc
      exact ⟨e.row, hl, ev, hreports.logged hseq hevents htells⟩

/-! ### Nobody else -/

omit [Host] in
/-- The versions a work item was changed to differ. -/
theorem nodup_newVersions {db : Db} (h : RecordsLogged db.tables db.events) (id : RecordId) :
    ((changes db.events .workItem id).map Prod.snd).Nodup := by
  cases hrow : db.tables.workItems[id]? with
  | none =>
    rw [h.workItems.untouched id hrow]
    exact List.nodup_nil
  | some row =>
    rw [h.workItems.versions id row hrow]
    apply RecordLog.Spec.nodup_steps
    intro m n heq
    exact Int.ofNat.inj (PyNum.int.inj heq)

omit [Host] in
/-- The versions an event list changes a work item to, entry by entry. -/
theorem newVersions_ledger (db : Db) (id : RecordId) :
    (changes db.events .workItem id).map Prod.snd =
      db.ledger.flatMap fun l => (changes l.decodedEvents .workItem id).map Prod.snd := by
  rw [Db.events, changes, List.filterMap_flatMap, List.map_flatMap]
  rfl

omit [Host] in
theorem mem_newVersions {es : List LedgerEvent} {e : WorkItemStatusUpdated}
    (h : .workItemStatusUpdated e ∈ es) :
    e.newVersion ∈ (changes es .workItem e.targetWorkItemId).map Prod.snd := by
  refine List.mem_map.mpr ⟨(e.previousVersion, e.newVersion), ?_, rfl⟩
  exact List.mem_filterMap.mpr ⟨_, h, by simp [LedgerEvent.change?]⟩

omit [Host] in
/-- Two entries do not change a work item to the same version. -/
theorem entry_unique {db : Db} (h : RecordsLogged db.tables db.events) {l l' : LedgerRow}
    (hl : l ∈ db.ledger) (hl' : l' ∈ db.ledger) {e e' : WorkItemStatusUpdated}
    (he : .workItemStatusUpdated e ∈ l.decodedEvents)
    (he' : .workItemStatusUpdated e' ∈ l'.decodedEvents)
    (hitem : e'.targetWorkItemId = e.targetWorkItemId) (hnew : e'.newVersion = e.newVersion) :
    l' = l := by
  have hnodup := nodup_newVersions h e.targetWorkItemId
  rw [newVersions_ledger, List.nodup_flatMap] at hnodup
  have hmem := mem_newVersions he
  have hmem' := mem_newVersions he'
  rw [hitem, hnew] at hmem'
  have hsymm : Std.Symm (Function.onFun List.Disjoint fun l : LedgerRow =>
      (changes l.decodedEvents .workItem e.targetWorkItemId).map Prod.snd) :=
    ⟨fun _ _ hd => List.Disjoint.symm hd⟩
  by_contra hne
  exact hnodup.2.forall hl' hl hne hmem' hmem

end

/-! ### Results -/

/-- **What `progress` reports is what the ledger holds.**  In every interleaving of any number
of sessions and other callers, if no two different proposals that were called have the same
digest, a `progress` that returned has its entry, whose one event changes the work item from
the version and status it reports as the previous ones as it was asked to; and no other entry,
of whoever, changes the item to that version. -/
theorem progress_is_logged [Host] {ι : Type} [DecidableEq ι] (reg : Registry)
    (acts : List (Act ι)) (w : World ι) (hrun : Run reg (.start .empty) acts w)
    (hapart : Set.InjOn sha256Json (asked acts))
    (act : Act ι) (hact : act ∈ acts) (r : StatusRequest) (p : Progress)
    (hended : act.ended = some (.progress r, .ok (.progress p))) :
    ∃ l ∈ w.sys.db.ledger, ∃ e, Logged l r p e ∧
      ∀ l' ∈ w.sys.db.ledger, ∀ e', .workItemStatusUpdated e' ∈ l'.decodedEvents →
        e'.targetWorkItemId = r.workItemId → e'.newVersion = .int p.version → l' = l ∧ e' = e := by
  obtain ⟨l, hl, e, hlogged⟩ := hrun.logged hapart act hact r p hended
  refine ⟨l, hl, e, hlogged, fun l' hl' e' he' hitem hnew => ?_⟩
  have he : .workItemStatusUpdated e ∈ l.decodedEvents := by
    rw [hlogged.events]
    exact List.mem_singleton_self _
  have heq := entry_unique hrun.kernel.logs.logged hl hl' he he'
    (hitem.trans hlogged.workItemId.1.symm) (hnew.trans hlogged.newVersion.symm)
  subst heq
  rw [hlogged.events, List.mem_singleton] at he'
  exact ⟨rfl, LedgerEvent.workItemStatusUpdated.inj he'⟩

section

attribute [local instance] Host.utc

/-- An agent takes a task up. -/
theorem progress_is_logged_of_task : ∃ (acts : List (Act Bool)) (w : World Bool) (p : Progress)
    (l : LedgerRow) (e : WorkItemStatusUpdated), Run ownerRegistry (.start .empty) acts w ∧
      l ∈ w.sys.db.ledger ∧ Logged l taskRequest p e := by
  obtain ⟨acts, w, act, -, p, -, hrun, hapart, hact, -, -, hended, -, -⟩ := exists_told_twice
  obtain ⟨l, hl, e, hlogged, -⟩ := progress_is_logged ownerRegistry acts w hrun hapart act hact
    taskRequest p hended
  exact ⟨acts, w, p, l, e, hrun, hl, hlogged⟩

end

/-- **Each version of a work item is made for one request.**  Two calls of `progress` that
report the same version of the same item asked for the same change, by the same actor, and
name the same entry. -/
theorem progress_exclusive [Host] {ι : Type} [DecidableEq ι] (reg : Registry)
    (acts : List (Act ι)) (w : World ι) (hrun : Run reg (.start .empty) acts w)
    (hapart : Set.InjOn sha256Json (asked acts))
    (act act' : Act ι) (hact : act ∈ acts) (hact' : act' ∈ acts) (r r' : StatusRequest)
    (p p' : Progress) (hended : act.ended = some (.progress r, .ok (.progress p)))
    (hended' : act'.ended = some (.progress r', .ok (.progress p')))
    (hitem : r'.workItemId = r.workItemId) (hversion : p'.version = p.version) :
    r' = r ∧ p'.ledgerSequence = p.ledgerSequence ∧ p'.previousStatus = p.previousStatus := by
  obtain ⟨l, hl, e, hlogged⟩ := hrun.logged hapart act hact r p hended
  obtain ⟨l', hl', e', hlogged'⟩ := hrun.logged hapart act' hact' r' p' hended'
  have he : .workItemStatusUpdated e ∈ l.decodedEvents := by
    rw [hlogged.events]
    exact List.mem_singleton_self _
  have he' : .workItemStatusUpdated e' ∈ l'.decodedEvents := by
    rw [hlogged'.events]
    exact List.mem_singleton_self _
  have hsame : e'.targetWorkItemId = e.targetWorkItemId := by
    rw [hlogged'.workItemId.1, hitem, hlogged.workItemId.1]
  have hnew : e'.newVersion = e.newVersion := by
    rw [hlogged'.newVersion, hversion, hlogged.newVersion]
  obtain rfl := entry_unique hrun.kernel.logs.logged hl hl' he he' hsame hnew
  rw [hlogged.events, List.mem_singleton] at he'
  obtain rfl := LedgerEvent.workItemStatusUpdated.inj he'
  refine ⟨?_, hlogged'.sequence.trans hlogged.sequence.symm,
    hlogged'.previousStatus.symm.trans hlogged.previousStatus⟩
  obtain ⟨item, status, rationale, blocker, actor, goes⟩ := r
  obtain ⟨item', status', rationale', blocker', actor', goes'⟩ := r'
  obtain rfl : item' = item := hitem
  obtain rfl : status' = status := hlogged'.status.1.symm.trans hlogged.status.1
  obtain rfl : rationale' = rationale :=
    Text.ext (hlogged'.rationale.symm.trans hlogged.rationale)
  obtain rfl : blocker' = blocker := hlogged'.blocker.1.symm.trans hlogged.blocker.1
  obtain rfl : actor' = actor := hlogged'.actor.symm.trans hlogged.actor
  rfl

section

attribute [local instance] Host.utc

/-- Two sessions of an agent take a task up. -/
theorem progress_exclusive_of_task : ∃ (acts : List (Act Bool)) (w : World Bool)
    (act act' : Act Bool) (p p' : Progress), Run ownerRegistry (.start .empty) acts w ∧
      act ∈ acts ∧ act' ∈ acts ∧ act.conn ≠ act'.conn ∧
      act.ended = some (.progress taskRequest, .ok (.progress p)) ∧
      act'.ended = some (.progress taskRequest, .ok (.progress p')) ∧
      p'.ledgerSequence = p.ledgerSequence ∧ p'.previousStatus = p.previousStatus := by
  obtain ⟨acts, w, act, act', p, p', hrun, hapart, hact, hact', hconn, hended, hended', hversion⟩ :=
    exists_told_twice
  obtain ⟨-, hsequence, hstatus⟩ := progress_exclusive ownerRegistry acts w hrun hapart act act'
    hact hact' taskRequest taskRequest p p' hended hended' rfl hversion
  exact ⟨acts, w, act, act', p, p', hrun, hact, hact', hconn, hended, hended', hsequence, hstatus⟩

end

end SharedMind.Service
