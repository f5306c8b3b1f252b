import SharedMind.Product.Audit

/-!
# The product audit chain

Connections write the log in transactions, except for `commit_draft` of a `MEMORY_ARTIFACT`: it
calls `put_artifact` outside one, so its read of the head and its insert are two steps.

* `AuditCaller`: who calls `append_audit`, and whether in a transaction.
* `step`, `AuditRun`: what any number of connections do to the log.
* `audit_survives_iff`: the log verifies exactly when no row was inserted on a head that had moved.
* `artifact_draft_forks`: two connections after which it does not.
-/

namespace SharedMind.Product

open Py

/-! ### Callers -/

/-- The operations of the product layer that append to the log. -/
inductive AuditCaller where
  | ingest
  | stageDraft
  | editDraft
  | rejectDraft
  | expireDrafts
  | finishDraft
  /-- `commit_draft` of a `MEMORY_ARTIFACT`, before it finishes the draft. -/
  | storeArtifactDraft
  | buildViews
  | replaceRetrievalDocuments
  | replaceLinks
  | replaceCodeIndex
  | commitProductProposal
  | rejectProductProposal
  | recordTelemetry
  | coldStart
  | captureTaskTrace
  deriving DecidableEq

namespace AuditCaller

/-- Whether the calls stand between `BEGIN IMMEDIATE` and `COMMIT`. -/
def inTransaction : AuditCaller → Bool
  | storeArtifactDraft => false
  | _ => true

/-- The event types of its calls. -/
def eventTypes : AuditCaller → List String
  | ingest => ["INGEST_BATCH_CREATED", "INGEST_BATCH_UPDATED", "INGEST_ITEM_UPDATED"]
  | stageDraft => ["DRAFT_CREATED"]
  | editDraft | expireDrafts | finishDraft => ["DRAFT_UPDATED"]
  | rejectDraft => ["DRAFT_UPDATED", "DRAFT_REJECTED"]
  | storeArtifactDraft => ["ARTIFACT_BUILT"]
  | buildViews => ["ARTIFACT_BUILT", "ARTIFACT_MARKED_STALE"]
  | replaceRetrievalDocuments => ["RETRIEVAL_INDEX_REBUILT"]
  | replaceLinks => ["LINK_GRAPH_REBUILT"]
  | replaceCodeIndex => ["CODE_INDEX_REBUILT"]
  | commitProductProposal => ["SKILL_VERSION_ADDED", "SKILL_STATUS_CHANGED", "SKILL_TEST_EVIDENCE",
      "SKILL_APPROVED", "SKILL_DEPRECATED", "PRODUCT_PROPOSAL_COMMITTED"]
  | rejectProductProposal => ["PRODUCT_PROPOSAL_REJECTED"]
  | recordTelemetry => ["TELEMETRY_RECORDED"]
  | coldStart => ["COLD_START_COMPLETED"]
  | captureTaskTrace => ["TASK_TRACE_CAPTURED"]

/-- The caller may make the call. -/
def Makes (caller : AuditCaller) (call : AuditCall) : Prop := call.eventType ∈ caller.eventTypes

instance (caller : AuditCaller) (call : AuditCall) : Decidable (caller.Makes call) :=
  inferInstanceAs (Decidable (_ ∈ _))

end AuditCaller

/-! ### Steps -/

/-- A call of `append_audit` that has read the head and has not inserted its row. -/
structure OpenAppend where
  call : AuditCall
  prevHash : Option String

/-- The log, and what each connection has open outside a transaction. -/
structure AuditSystem where
  audit : List AuditRow
  opened : Nat → Option OpenAppend

/-- An empty log, and any number of connections. -/
def AuditSystem.empty : AuditSystem := ⟨[], fun _ => none⟩

inductive AuditAction where
  /-- A transaction with its calls in order; one that raises in the end is rolled back. -/
  | transaction (connection : Nat) (caller : AuditCaller) (calls : List AuditCall) (raises : Bool)
  | readHead (connection : Nat) (caller : AuditCaller) (call : AuditCall)
  | insert (connection : Nat)

/-- `append_audit` for every call, in one transaction. -/
def appendAll (audit : List AuditRow) (calls : List AuditCall) : Option (List AuditRow) :=
  calls.foldlM appendAudit audit

/-- What an action makes of the system, and the calls it is the last step of.  A call that raises,
or is rolled back, is none of them. -/
def step (s : AuditSystem) : AuditAction → Option (AuditSystem × List AuditCall)
  | .transaction connection caller calls raises =>
    if (s.opened connection).isNone ∧ caller.inTransaction ∧ ∀ call ∈ calls, caller.Makes call then
      match appendAll s.audit calls, raises with
      | some audit, false => some (⟨audit, s.opened⟩, calls)
      | _, _ => some (s, [])
    else none
  | .readHead connection caller call =>
    if (s.opened connection).isNone ∧ ¬caller.inTransaction ∧ caller.Makes call then
      some (⟨s.audit, Function.update s.opened connection (some ⟨call, auditHead s.audit⟩)⟩, [])
    else none
  | .insert connection =>
    (s.opened connection).map fun o =>
      let opened := Function.update s.opened connection none
      match appendRow s.audit o.prevHash o.call with
      | some audit => (⟨audit, opened⟩, [o.call])
      | none => (⟨s.audit, opened⟩, [])

/-- An action, and the system it finds. -/
structure AuditStep where
  system : AuditSystem
  action : AuditAction

/-- What actions, in any order, make of an empty log, and the calls of `append_audit`. -/
inductive AuditRun : List AuditStep → AuditSystem → List AuditCall → Prop
  | nil : AuditRun [] .empty []
  | snoc {steps : List AuditStep} {s s' : AuditSystem} {calls done : List AuditCall}
      {action : AuditAction} (run : AuditRun steps s calls) (h : step s action = some (s', done)) :
      AuditRun (steps ++ [⟨s, action⟩]) s' (calls ++ done)

/-- A row is inserted on a head that has moved since it was read. -/
def AuditStep.Forks (st : AuditStep) : Prop :=
  ∃ connection o, st.action = .insert connection ∧ st.system.opened connection = some o ∧
    o.prevHash ≠ auditHead st.system.audit ∧
    (auditRow st.system.audit o.prevHash o.call).eventHash ∉
      st.system.audit.map AuditRow.eventHash

/-! ### Results -/

section

variable {audit audit' : List AuditRow} {s s' : AuditSystem} {calls done : List AuditCall}

/-- A row follows the chain exactly when it names the head. -/
theorem chained_concat {prevHash : Option String} {call : AuditCall} :
    HashChain.Chained auditLinks 1 none (audit ++ [auditRow audit prevHash call]) ↔
      HashChain.Chained auditLinks 1 none audit ∧ prevHash = auditHead audit := by
  have hseq : auditLinks.seq (auditRow audit prevHash call) = 1 + audit.length := Nat.add_comm _ _
  rw [HashChain.chained_append, auditHead_eq, and_iff_right hseq]
  exact Iff.rfl

/-- What a transaction makes of the log. -/
theorem appendAll_eq_some (h : appendAll audit calls = some audit') (hins : Inserted audit) :
    Inserted audit' ∧ audit'.length = audit.length + calls.length ∧
      (HashChain.Chained auditLinks 1 none audit' ↔ HashChain.Chained auditLinks 1 none audit) := by
  induction calls generalizing audit with
  | nil =>
    obtain rfl : audit = audit' := Option.some.inj h
    exact ⟨hins, rfl, Iff.rfl⟩
  | cons call calls ih =>
    rw [appendAll, List.foldlM_cons] at h
    obtain ⟨next, hnext, h⟩ := Option.bind_eq_some_iff.mp h
    obtain ⟨-, rfl⟩ := appendRow_eq_some.mp hnext
    obtain ⟨hins', hlen, hchain⟩ := ih h (hins.concat _ _)
    refine ⟨hins', ?_, hchain.trans ?_⟩
    · rw [hlen, List.length_append, List.length_singleton, List.length_cons]
      omega
    · rw [chained_concat]
      exact and_iff_left rfl

/-- What any action makes of the log: the chain is kept, unless it forks. -/
theorem step_spec {action : AuditAction} (h : step s action = some (s', done))
    (hins : Inserted s.audit) :
    Inserted s'.audit ∧ s'.audit.length = s.audit.length + done.length ∧
      (HashChain.Chained auditLinks 1 none s'.audit ↔
        HashChain.Chained auditLinks 1 none s.audit ∧ ¬AuditStep.Forks ⟨s, action⟩) := by
  cases action with
  | transaction connection caller calls raises =>
    have hfork : ¬AuditStep.Forks ⟨s, .transaction connection caller calls raises⟩ := by
      rintro ⟨_, _, haction, _⟩
      exact nomatch haction
    rw [and_iff_left hfork]
    simp only [step] at h
    split at h
    · split at h
      · next audit hall =>
        obtain ⟨rfl, rfl⟩ := Prod.mk.inj (Option.some.inj h)
        exact appendAll_eq_some hall hins
      · obtain ⟨rfl, rfl⟩ := Prod.mk.inj (Option.some.inj h)
        exact ⟨hins, rfl, Iff.rfl⟩
    · exact nomatch h
  | readHead connection caller call =>
    have hfork : ¬AuditStep.Forks ⟨s, .readHead connection caller call⟩ := by
      rintro ⟨_, _, haction, _⟩
      exact nomatch haction
    rw [and_iff_left hfork]
    simp only [step] at h
    split at h
    · obtain ⟨rfl, rfl⟩ := Prod.mk.inj (Option.some.inj h)
      exact ⟨hins, rfl, Iff.rfl⟩
    · exact nomatch h
  | insert connection =>
    obtain ⟨o, hopen, h⟩ := Option.map_eq_some_iff.mp h
    have hfork : AuditStep.Forks ⟨s, .insert connection⟩ ↔ o.prevHash ≠ auditHead s.audit ∧
        (auditRow s.audit o.prevHash o.call).eventHash ∉ s.audit.map AuditRow.eventHash := by
      constructor
      · rintro ⟨c, o', haction, hopen', hprev, hnew⟩
        obtain rfl := AuditAction.insert.inj haction
        obtain rfl := Option.some.inj (hopen.symm.trans hopen')
        exact ⟨hprev, hnew⟩
      · rintro ⟨hprev, hnew⟩
        exact ⟨connection, o, rfl, hopen, hprev, hnew⟩
    rw [hfork]
    dsimp only at h
    split at h
    · next audit hrow =>
      obtain ⟨hnew, rfl⟩ := appendRow_eq_some.mp hrow
      obtain ⟨rfl, rfl⟩ := Prod.mk.inj h
      refine ⟨hins.concat _ _, List.length_append, chained_concat.trans (and_congr_right' ?_)⟩
      rw [and_iff_left hnew, not_not]
    · next hrow =>
      obtain ⟨rfl, rfl⟩ := Prod.mk.inj h
      refine ⟨hins, rfl, (and_iff_left ?_).symm⟩
      rintro ⟨_, hnew⟩
      exact Option.some_ne_none _ ((appendRow_eq_some.mpr ⟨hnew, rfl⟩).symm.trans hrow)

/-- What a run makes of the log. -/
theorem AuditRun.spec {steps : List AuditStep} (run : AuditRun steps s calls) :
    Inserted s.audit ∧ s.audit.length = calls.length ∧
      (HashChain.Chained auditLinks 1 none s.audit ↔ ∀ st ∈ steps, ¬st.Forks) := by
  induction run with
  | nil => exact ⟨inserted_nil, rfl, iff_of_true trivial (by simp)⟩
  | snoc run h ih =>
    obtain ⟨hins, hlen, hchain⟩ := ih
    obtain ⟨hins', hlen', hchain'⟩ := step_spec h hins
    refine ⟨hins', by rw [hlen', hlen, List.length_append], hchain'.trans ?_⟩
    rw [hchain, List.forall_mem_append, List.forall_mem_singleton]

/-- **The product audit chain.**  After any run of any number of connections, `verify_audit`
reports valid and counts the calls of `append_audit` exactly when no row was inserted on a head
that had moved since it was read. -/
theorem audit_survives_iff {steps : List AuditStep} (run : AuditRun steps s calls) :
    verifyAudit s.audit = some (.valid calls.length (auditHead s.audit)) ↔
      ∀ st ∈ steps, ¬st.Forks := by
  obtain ⟨hins, hlen, hchain⟩ := run.spec
  rw [← hchain, ← hlen]
  exact verifyAudit_valid_iff hins

end

/-! ### A draft of an artifact -/

def demoTime : String := "2026-01-01T00:00:00Z"

def zeroHash : String := "sha256:0000000000000000000000000000000000000000000000000000000000000000"

/-- A page as a draft holds it, and as `put_artifact` stores it. -/
def notePage : List (String × Json) := [
  ("artifact_id", .str "artifact_note"), ("artifact_type", .str "WIKI_PAGE"),
  ("builder_version", .str "1"), ("created_at", .str demoTime),
  ("dependency_digest", .str zeroHash), ("document", .obj []),
  ("object_type", .str "DERIVED_MEMORY_ARTIFACT"), ("provenance", .obj []),
  ("scope", .str "project"), ("status", .str "READY"), ("title", .str "Note"),
  ("updated_at", .str demoTime), ("version", .num (.int 1))]

def noteDraft : List (String × Json) := [
  ("batch_id", .null), ("created_at", .str demoTime), ("dependency_digest", .str zeroHash),
  ("document", .obj notePage), ("draft_id", .str "draft_000000000000000000000000"),
  ("draft_kind", .str "MEMORY_ARTIFACT"), ("expires_at", .null),
  ("object_type", .str "DRAFT_PROPOSAL"),
  ("provenance", .obj [("extractor_id", .str "x"), ("extractor_version", .str "1"),
    ("generated_at", .str demoTime), ("input_hashes", .arr [.str zeroHash]),
    ("input_revision_ids", .arr [.str "r"]), ("mode", .str "DETERMINISTIC"),
    ("parameters", .obj []), ("prompt_version", .str "1")]),
  ("status", .str "DRAFT"), ("updated_at", .str demoTime), ("version", .num (.int 1))]

theorem notePage_sorted : (JsonOf.obj notePage).Sorted := by
  refine .obj (by decide) ?_
  simp only [notePage, List.forall_mem_cons]
  exact ⟨.str _, .str _, .str _, .str _, .str _, .obj List.Pairwise.nil (by simp), .str _,
    .obj List.Pairwise.nil (by simp), .str _, .str _, .str _, .str _, .num _, by simp⟩

theorem noteDraft_sorted : (JsonOf.obj noteDraft).Sorted := by
  refine .obj (by decide) ?_
  simp only [noteDraft, List.forall_mem_cons]
  refine ⟨.null, .str _, .str _, notePage_sorted, .str _, .str _, .null, .str _,
    .obj (by decide) ?_, .str _, .str _, .num _, by simp⟩
  simp only [List.forall_mem_cons]
  exact ⟨.str _, .str _, .str _, .arr (by simp [JsonOf.Sorted.str]),
    .arr (by simp [JsonOf.Sorted.str]), .str _, .obj List.Pairwise.nil (by simp), .str _, by simp⟩

/-- The draft is staged. -/
def stageNote : AuditCall where
  eventType := "DRAFT_CREATED"
  payload := noteDraft
  sorted := noteDraft_sorted
  objectId := some "draft_000000000000000000000000"
  occurredAt := none
  now := demoTime

/-- Another connection rebuilds its index. -/
def rebuildIndex : AuditCall where
  eventType := "RETRIEVAL_INDEX_REBUILT"
  payload := [("count", .num (.int 0)), ("fts", .bool true)]
  sorted := .obj (by decide) (by simp [JsonOf.Sorted.num, JsonOf.Sorted.bool])
  objectId := none
  occurredAt := none
  now := demoTime

/-- The draft is committed. -/
def storeNote : AuditCall where
  eventType := "ARTIFACT_BUILT"
  payload := notePage
  sorted := notePage_sorted
  objectId := some "artifact_note"
  occurredAt := some demoTime
  now := demoTime

def stageNoteHash : String :=
  "sha256:0c5038306c9e2de1b535961ad3f0a0412fb99d92974753c86e86c349bfa471e1"

def rebuildIndexHash : String :=
  "sha256:d3cc68ad358f4968484e986b00caf6ecc4ba8f271901f9085480676103575cef"

def storeNoteHash : String :=
  "sha256:622382f4f4309c4b8e3b1bb47be5d21b261390effa6ffed3228beede8352aa42"

/-- A hash whose digits are known. -/
theorem sha256Json_text {value : Json} {text : String} (digits : String)
    (h : sha256Hex (utf8 value.dumps) = digits.toList) (htext : "sha256:" ++ digits = text) :
    (sha256Json value).text = text := by
  subst htext
  show String.ofList ("sha256:".toList ++ sha256Hex (utf8 value.dumps)) = _
  rw [h, ← String.toList_append, String.ofList_toList]

theorem stageNote_hash : (auditRow [] none stageNote).eventHash = stageNoteHash := by
  refine sha256Json_text
    "0c5038306c9e2de1b535961ad3f0a0412fb99d92974753c86e86c349bfa471e1" ?_ (by decide +kernel)
  rw [JsonOf.dumps, utf8_ofList]
  decide +kernel

theorem rebuildIndex_hash (audit : List AuditRow) :
    (auditRow audit (some stageNoteHash) rebuildIndex).eventHash = rebuildIndexHash := by
  refine sha256Json_text
    "d3cc68ad358f4968484e986b00caf6ecc4ba8f271901f9085480676103575cef" ?_ (by decide +kernel)
  rw [JsonOf.dumps, utf8_ofList]
  decide +kernel

theorem storeNote_hash (audit : List AuditRow) :
    (auditRow audit (some stageNoteHash) storeNote).eventHash = storeNoteHash := by
  refine sha256Json_text
    "622382f4f4309c4b8e3b1bb47be5d21b261390effa6ffed3228beede8352aa42" ?_ (by decide +kernel)
  rw [JsonOf.dumps, utf8_ofList]
  decide +kernel

/-- The log with the draft, and with the index rebuilt after it. -/
def stagedAudit : List AuditRow := [auditRow [] none stageNote]

def rebuiltAudit : List AuditRow :=
  stagedAudit ++ [auditRow stagedAudit (some stageNoteHash) rebuildIndex]

/-- The log after the fork: its last row names the hash before the row it follows. -/
def forkedAudit : List AuditRow :=
  rebuiltAudit ++ [auditRow rebuiltAudit (some stageNoteHash) storeNote]

theorem auditHead_staged : auditHead stagedAudit = some stageNoteHash :=
  congrArg some stageNote_hash

theorem hashes_staged : stagedAudit.map AuditRow.eventHash = [stageNoteHash] :=
  congrArg (fun h => [h]) stageNote_hash

theorem hashes_rebuilt : rebuiltAudit.map AuditRow.eventHash = [stageNoteHash, rebuildIndexHash] := by
  rw [rebuiltAudit, List.map_append, hashes_staged, List.map_singleton, rebuildIndex_hash]
  rfl

theorem appendAll_singleton (audit : List AuditRow) (call : AuditCall) :
    appendAll audit [call] = appendAudit audit call := by
  rw [appendAll, List.foldlM_cons]
  exact bind_pure _

theorem append_staged : appendAll [] [stageNote] = some stagedAudit := by
  rw [appendAll_singleton, appendAudit]
  exact appendRow_eq_some.mpr ⟨List.not_mem_nil, rfl⟩

theorem append_rebuilt : appendAll stagedAudit [rebuildIndex] = some rebuiltAudit := by
  rw [appendAll_singleton, appendAudit, auditHead_staged]
  refine appendRow_eq_some.mpr ⟨?_, rfl⟩
  rw [rebuildIndex_hash, hashes_staged]
  decide +kernel

theorem append_forked : appendRow rebuiltAudit (some stageNoteHash) storeNote = some forkedAudit := by
  refine appendRow_eq_some.mpr ⟨?_, rfl⟩
  rw [storeNote_hash, hashes_rebuilt]
  decide +kernel

section

variable {s : AuditSystem} {audit : List AuditRow} {connection : Nat} {caller : AuditCaller}

theorem step_transaction {calls : List AuditCall} (hopen : s.opened connection = none)
    (hcaller : caller.inTransaction) (hcalls : ∀ call ∈ calls, caller.Makes call)
    (h : appendAll s.audit calls = some audit) :
    step s (.transaction connection caller calls false) = some (⟨audit, s.opened⟩, calls) := by
  simp only [step]
  rw [if_pos ⟨Option.isNone_iff_eq_none.mpr hopen, hcaller, hcalls⟩, h]

theorem step_readHead {call : AuditCall} (hopen : s.opened connection = none)
    (hcaller : ¬caller.inTransaction) (hcall : caller.Makes call) {prevHash : Option String}
    (h : auditHead s.audit = prevHash) :
    step s (.readHead connection caller call) =
      some (⟨s.audit, Function.update s.opened connection (some ⟨call, prevHash⟩)⟩, []) := by
  rw [step, if_pos ⟨Option.isNone_iff_eq_none.mpr hopen, hcaller, hcall⟩, h]

theorem step_insert {o : OpenAppend} (hopen : s.opened connection = some o)
    (h : appendRow s.audit o.prevHash o.call = some audit) :
    step s (.insert connection) =
      some (⟨audit, Function.update s.opened connection none⟩, [o.call]) := by
  rw [step, hopen, Option.map_some, h]

end

theorem staged_run : AuditRun [⟨.empty, .transaction 0 .stageDraft [stageNote] false⟩]
    ⟨stagedAudit, fun _ => none⟩ [stageNote] :=
  AuditRun.nil.snoc (step_transaction rfl rfl (by decide) append_staged)

/-- A draft that is staged leaves a log that verifies. -/
theorem audit_survives_staged :
    verifyAudit stagedAudit = some (.valid 1 (auditHead stagedAudit)) := by
  refine (audit_survives_iff staged_run).mpr fun st hst => ?_
  obtain rfl := List.mem_singleton.mp hst
  rintro ⟨_, _, haction, _⟩
  exact nomatch haction

/-- Connection 0 stages a draft of an artifact and commits it; between the two statements of its
`append_audit`, connection 1 rebuilds an index. -/
theorem forked_run : ∃ steps s, AuditRun steps s [stageNote, rebuildIndex, storeNote] ∧
    s.audit = forkedAudit := by
  let opened : Nat → Option OpenAppend :=
    Function.update (fun _ => none) 0 (some ⟨storeNote, some stageNoteHash⟩)
  have hread : step ⟨stagedAudit, fun _ => none⟩ (.readHead 0 .storeArtifactDraft storeNote) =
      some (⟨stagedAudit, opened⟩, []) :=
    step_readHead rfl (by decide) (by decide) auditHead_staged
  have hrebuild : step ⟨stagedAudit, opened⟩
      (.transaction 1 .replaceRetrievalDocuments [rebuildIndex] false) =
      some (⟨rebuiltAudit, opened⟩, [rebuildIndex]) :=
    step_transaction rfl rfl (by decide) append_rebuilt
  have hopen : opened 0 = some ⟨storeNote, some stageNoteHash⟩ := Function.update_self ..
  have hinsert : step ⟨rebuiltAudit, opened⟩ (.insert 0) =
      some (⟨forkedAudit, Function.update opened 0 none⟩, [storeNote]) :=
    step_insert (s := ⟨rebuiltAudit, opened⟩) (o := ⟨storeNote, some stageNoteHash⟩) hopen
      append_forked
  exact ⟨_, _, ((staged_run.snoc hread).snoc hrebuild).snoc hinsert, rfl⟩

/-- **The chain is forked by the draft of an artifact.**  Two connections, three calls, and the log
does not verify from its third row on. -/
theorem artifact_draft_forks : ∃ steps s, AuditRun steps s [stageNote, rebuildIndex, storeNote] ∧
    verifyAudit s.audit = some (.invalid 2 3) := by
  obtain ⟨steps, s, run, haudit⟩ := forked_run
  refine ⟨steps, s, run, ?_⟩
  have hhash : rebuildIndexHash ≠ stageNoteHash := by decide +kernel
  have hlast : ∀ audit, (auditRow audit (some stageNoteHash) storeNote).prevHash ≠
      some rebuildIndexHash := fun _ h => hhash (Option.some.inj h).symm
  have hfirst := auditRow_hashed [] none stageNote
  have hsecond := auditRow_hashed stagedAudit (some stageNoteHash) rebuildIndex
  have hthird := auditRow_hashed rebuiltAudit (some stageNoteHash) storeNote
  calc verifyAudit s.audit
      = verifyFrom none 0 [auditRow [] none stageNote,
          auditRow stagedAudit (some stageNoteHash) rebuildIndex,
          auditRow rebuiltAudit (some stageNoteHash) storeNote] := by rw [haudit]; rfl
    _ = verifyFrom (some stageNoteHash) 1 [auditRow stagedAudit (some stageNoteHash) rebuildIndex,
          auditRow rebuiltAudit (some stageNoteHash) storeNote] := by
        rw [verifyFrom_linked hfirst (show _ = none from rfl), stageNote_hash]
    _ = verifyFrom (some rebuildIndexHash) 2
          [auditRow rebuiltAudit (some stageNoteHash) storeNote] := by
        rw [verifyFrom_linked hsecond (show _ = some stageNoteHash from rfl), rebuildIndex_hash]
    _ = some (.invalid 2 3) := verifyFrom_unlinked hthird (hlast _)

end SharedMind.Product
