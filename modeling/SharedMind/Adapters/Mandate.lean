import SharedMind.Adapters.Import
import SharedMind.Contract.Tags

/-!
# The mandate of an import

* `operations_of_toRaw?`: the operations of a plan, by their `op`.
* `PlanWithin`: a plan that has passed every check of an attempt.
* `attemptImport_cases`: an attempt leaves the database as it was, or makes one commit of such a plan.
* `importFrom_cases`: so does the loop.
* `run_import_within_mandate`: **an import makes at most one accepted commit, of operations it may
  make.**
-/

namespace SharedMind

open Py

theorem Operation.registers_of_opText {op : Operation}
    (h : op.opText = "REGISTER_SOURCE_REVISION") :
    ∃ opId source, op = .registerSourceRevision opId source := by
  cases op with
  | registerSourceRevision opId source => exact ⟨opId, source, rfl⟩
  | _ => simp [opText] at h

theorem toJsonItems?_eq_some {raws : List RawJson} {items : List Json}
    (h : JsonOf.toJsonItems? raws = some items) :
    List.Forall₂ (fun raw item => raw.toJson? = some item) raws items := by
  induction raws generalizing items with
  | nil =>
    obtain rfl := Option.some.inj h
    exact .nil
  | cons v vs ih =>
    simp only [JsonOf.toJsonItems?, Option.bind_eq_bind, Option.pure_def, Option.bind_eq_some_iff,
      Option.some.injEq] at h
    obtain ⟨item, hitem, rest, hrest, rfl⟩ := h
    exact .cons hitem (ih hrest)

theorem arr_of_toJson? {raw : RawJson} {items : List Json} (h : raw.toJson? = some (.arr items)) :
    ∃ raws, raw = .arr raws ∧
      List.Forall₂ (fun raw item => raw.toJson? = some item) raws items := by
  cases raw with
  | arr raws =>
    rw [JsonOf.toJson?, Option.map_eq_some_iff] at h
    obtain ⟨items', h, heq⟩ := h
    obtain rfl := JsonOf.arr.inj heq
    exact ⟨raws, rfl, toJsonItems?_eq_some h⟩
  | str t =>
    rw [JsonOf.toJson?, Option.map_eq_some_iff] at h
    obtain ⟨_, _, heq⟩ := h
    cases heq
  | obj members =>
    rw [JsonOf.toJson?, Option.map_eq_some_iff] at h
    obtain ⟨_, _, heq⟩ := h
    cases heq
  | null => cases h
  | bool b => cases h
  | num n => cases h

namespace Adapters

/-! ### The operations of a plan -/

theorem operationName_of_toRaw? {operation : PyObj} {raw : RawJson} {op : Operation}
    (hraw : operation.toRaw? = some raw) (hop : raw.toJson? = some (Operation.codec.enc op)) :
    operationName operation = .str (PyStr.ofString op.opText) := by
  obtain ⟨w, hw, htext⟩ := JsonOf.get?_of_toJson? hop op.get?_op
  obtain ⟨u, hu, huw⟩ := PyObj.get?_of_toRaw? hraw hw
  rw [str_of_toJson? htext] at huw
  rw [operationName, hu, PyObj.str_of_toRaw? huw]
  rfl

theorem operationNames_of_toRaw? {operations : List PyObj} {raws : List RawJson}
    {ops : List Operation}
    (hraws : List.Forall₂ (fun v raw => PyObj.toRaw? v = some raw) operations raws)
    (hops : List.Forall₂ (fun raw op => raw.toJson? = some (Operation.codec.enc op)) raws ops) :
    List.Forall₂ (fun operation op => operationName operation = .str (PyStr.ofString op.opText))
      operations ops := by
  induction hraws generalizing ops with
  | nil =>
    cases hops
    exact .nil
  | cons hraw _ ih =>
    cases hops with
    | cons hop hops => exact .cons (operationName_of_toRaw? hraw hop) (ih hops)

/-- The operations the policy looks at are those of the proposal. -/
theorem operations_of_toRaw? {plan : PyObj} {raw : RawJson} {p : Proposal}
    (hraw : plan.toRaw? = some raw) (hp : raw.toJson? = some (Proposal.codec.enc p)) :
    ∃ operations, plan.get? (PyStr.ofString "operations") = some (.list operations) ∧
      List.Forall₂ (fun operation op => operationName operation = .str (PyStr.ofString op.opText))
        operations p.operations.1 := by
  obtain ⟨w, hw, hops⟩ := JsonOf.get?_of_toJson? hp p.get?_operations
  obtain ⟨u, hu, huw⟩ := PyObj.get?_of_toRaw? hraw hw
  obtain ⟨raws, rfl, hraws⟩ := arr_of_toJson? hops
  obtain ⟨operations, rfl, hoperations⟩ := PyObj.list_of_toRaw? huw
  rw [List.forall₂_map_right_iff] at hraws
  exact ⟨operations, hu, operationNames_of_toRaw? hoperations hraws⟩

theorem exists_of_forall₂ {α β : Type} {R : α → β → Prop} {as : List α} {bs : List β}
    (h : List.Forall₂ R as bs) : ∀ b ∈ bs, ∃ a ∈ as, R a b := by
  induction h with
  | nil => exact fun b hb => absurd hb List.not_mem_nil
  | @cons a b as bs hab _ ih =>
    intro c hc
    obtain rfl | hc := List.mem_cons.mp hc
    · exact ⟨a, List.mem_cons_self, hab⟩
    · obtain ⟨d, hd, hdc⟩ := ih c hc
      exact ⟨d, List.mem_cons_of_mem _ hd, hdc⟩

/-! ### The policy -/

theorem isName_str {s t : String} :
    isName (.str (PyStr.ofString s)) (PyStr.ofString t) = true ↔ s = t := by
  rw [isName, decide_eq_true_iff]
  exact ⟨PyStr.ofString_injective, congrArg _⟩

/-- What the policy lets pass. -/
def Allows (mapping : Option ReviewedMapping) (op : Operation) : Prop :=
  match mapping with
  | none => op.opText = "REGISTER_SOURCE_REVISION"
  | some mapping => PyStr.ofString op.opText ∈ mapping.allowedOperations

theorem allows_of_enforceName {mapping : Option ReviewedMapping} {op : Operation}
    (h : enforceName mapping (.str (PyStr.ofString op.opText)) = .ok ()) : Allows mapping op := by
  cases mapping with
  | none => exact isName_str.mp (ensure_eq_ok.mp h)
  | some mapping =>
    obtain ⟨-, -, h⟩ := bind_eq_ok.mp h
    obtain ⟨s, hs, hname⟩ := List.any_eq_true.mp (ensure_eq_ok.mp h)
    rw [isName, decide_eq_true_iff] at hname
    exact (show PyStr.ofString op.opText ∈ mapping.allowedOperations from hname ▸ hs)

/-- **A proposal that passes the policy** has at most 128 operations, all of them allowed. -/
theorem allows_of_enforcePlanPolicy {mapping : Option ReviewedMapping} {plan : PyObj}
    {raw : RawJson} {p : Proposal} (h : enforcePlanPolicy mapping plan = .ok ())
    (hraw : plan.toRaw? = some raw) (hp : raw.toJson? = some (Proposal.codec.enc p)) :
    p.operations.1.length ≤ maxOperations ∧ ∀ op ∈ p.operations.1, Allows mapping op := by
  obtain ⟨operations, hget, hnames⟩ := operations_of_toRaw? hraw hp
  rw [enforcePlanPolicy, hget] at h
  obtain ⟨_, hlength, h⟩ := bind_eq_ok.mp h
  refine ⟨hnames.length_eq ▸ ensure_eq_ok.mp hlength, ?_⟩
  intro op hop
  obtain ⟨operation, hmem, hname⟩ := exists_of_forall₂ hnames op hop
  have hpass := forM_eq_ok.mp h operation hmem
  rw [hname] at hpass
  exact allows_of_enforceName hpass

end Adapters

/-! ### What an accepted proposal changes -/

theorem registerSourceRevision_frame {w w' : Txn} {source : SourceRevision}
    (h : registerSourceRevision w source = .ok w') :
    w'.tables = { w.tables with sources := w'.tables.sources } := by
  unfold registerSourceRevision at h
  split at h
  · obtain ⟨_, _, h⟩ := bind_eq_ok.mp h
    obtain ⟨_, _, h⟩ := bind_eq_ok.mp h
    obtain rfl := pure_eq_ok.mp h
    rfl
  · obtain ⟨_, _, h⟩ := bind_eq_ok.mp h
    obtain ⟨_, _, h⟩ := bind_eq_ok.mp h
    obtain rfl := pure_eq_ok.mp h
    rfl

/-- Operations that register sources change no other table. -/
theorem applyOperations_sources [Host] {reg : Registry} {proposer : ActorRef} {openedSeq : ℕ} {t : Tables}
    {ops : List Operation} {w : Txn}
    (hops : ∀ op ∈ ops, op.opText = "REGISTER_SOURCE_REVISION")
    (h : applyOperations reg proposer openedSeq t ops = .ok w) :
    w.tables = { t with sources := w.tables.sources } := by
  refine foldlM_inv (P := fun w : Txn => w.tables = { t with sources := w.tables.sources }) ?_ rfl h
  intro w op w' hop hw h
  obtain ⟨_, source, rfl⟩ := Operation.registers_of_opText (hops _ hop)
  rw [registerSourceRevision_frame h, hw]

/-! ### Attempts -/

namespace Adapters

section

variable [Host] {service : Service} {mapping : Option ReviewedMapping} {b : Behaviour}
  {adapter : ℕ → Behaviour} {db db' : Db}

/-- A plan that has passed every check: the snapshot has its hash, both plans have one text, and
the first one, pinned, passes the policy. -/
structure PlanWithin (reg : Registry) (mapping : Option ReviewedMapping) (b : Behaviour)
    (snapshot : AdapterSnapshot) (first second plan : PyObj) : Prop where
  snapshot_ok : b.snapshot = .ok (some snapshot)
  hash : PyStr.ofString (sha256Bytes snapshot.content) = snapshot.contentHash
  first_ok : b.firstPlan = .ok first
  second_ok : b.secondPlan = .ok second
  same : ∃ text, first.text = some text ∧ second.text = some text
  pinned : plan = pinPlanVersions reg first
  policy : enforcePlanPolicy mapping plan = .ok ()

omit [Host] in
theorem atStage_eq_ok {α : Type} {stage : String} {r : Except Raised α} {a : α} :
    atStage stage r = .ok a ↔ r = .ok a := by
  cases r with
  | ok b => exact ⟨fun h => congrArg _ (Except.ok.inj h), fun h => congrArg _ (Except.ok.inj h)⟩
  | error e => cases e <;> exact ⟨fun h => (nomatch h), fun h => (nomatch h)⟩

omit [Host] in
theorem validateSnapshotIdentity_ok {spec : AdapterSpec} {probe : Option AdapterProbe}
    {snapshot : Option AdapterSnapshot} {s : AdapterSnapshot}
    (h : validateSnapshotIdentity spec probe snapshot = .ok s) : snapshot = some s := by
  obtain ⟨_, _, h⟩ := bind_eq_ok.mp h
  obtain ⟨_, hs, h⟩ := bind_eq_ok.mp h
  obtain ⟨_, _, h⟩ := bind_eq_ok.mp h
  obtain ⟨_, _, h⟩ := bind_eq_ok.mp h
  obtain rfl := pure_eq_ok.mp h
  exact orRaise_eq_ok.mp hs

theorem planText_ok {plan : PyObj} {text : PyObj.Points} (h : planText plan = .ok text) :
    plan.text = some text := by
  obtain ⟨_, _, h⟩ := bind_eq_ok.mp h
  exact orRaise_eq_ok.mp h

/-- **What reaches the workspace has passed every check.** -/
theorem preparePlan_ok {reg : Registry} {plan : PyObj} (h : preparePlan reg mapping b = .ok plan) :
    ∃ snapshot first second, PlanWithin reg mapping b snapshot first second plan := by
  obtain ⟨probe, _, h⟩ := bind_eq_ok.mp h
  obtain ⟨snapshot?, hsnapshot, h⟩ := bind_eq_ok.mp h
  obtain ⟨spec, _, h⟩ := bind_eq_ok.mp h
  obtain ⟨snapshot, hidentity, h⟩ := bind_eq_ok.mp h
  obtain ⟨_, _, h⟩ := bind_eq_ok.mp h
  obtain ⟨_, hhash, h⟩ := bind_eq_ok.mp h
  obtain ⟨_, _, h⟩ := bind_eq_ok.mp h
  obtain ⟨first, hfirst, h⟩ := bind_eq_ok.mp h
  obtain ⟨second, hsecond, h⟩ := bind_eq_ok.mp h
  obtain ⟨firstText, hfirstText, h⟩ := bind_eq_ok.mp h
  obtain ⟨secondText, hsecondText, h⟩ := bind_eq_ok.mp h
  obtain ⟨_, hsame, h⟩ := bind_eq_ok.mp h
  obtain ⟨_, hpolicy, h⟩ := bind_eq_ok.mp h
  obtain rfl := pure_eq_ok.mp h
  rw [validateSnapshotIdentity_ok hidentity] at hsnapshot
  rw [← ensure_eq_ok.mp hsame] at hsecondText
  exact ⟨snapshot, first, second, atStage_eq_ok.mp hsnapshot, ensure_eq_ok.mp hhash,
    atStage_eq_ok.mp hfirst, atStage_eq_ok.mp hsecond,
    ⟨firstText, planText_ok hfirstText, planText_ok hsecondText⟩, rfl, hpolicy⟩

/-- One commit of a plan that has passed every check. -/
structure CommitsPlan (service : Service) (mapping : Option ReviewedMapping) (b : Behaviour)
    (attempt : ℕ) (db : Db) (raw : RawJson) (receipt : Receipt) (db' : Db) : Prop where
  plan : ∃ snapshot first second plan, PlanWithin service.reg mapping b snapshot first second plan ∧
    plan.toRaw? = some raw
  commit : commit service.reg db ⟨raw, service.now attempt⟩ = .ok (receipt, db')

/-- **An attempt** leaves the database as it was, or makes one commit and is the last one. -/
theorem attemptImport_cases {attempt : ℕ} {r : Except Stop ImportResult}
    (h : attemptImport service mapping attempt b db = (r, db')) :
    db' = db ∨ (∀ f, r ≠ .error (.failure f)) ∧
      ∃ raw receipt, CommitsPlan service mapping b attempt db raw receipt db' := by
  unfold attemptImport at h
  split at h
  · exact Or.inl (Prod.mk.inj h).2.symm
  · next plan hplan =>
    obtain ⟨snapshot, first, second, hwithin⟩ := preparePlan_ok hplan
    split at h
    · split at h
      · exact Or.inl (Prod.mk.inj h).2.symm
      · exact Or.inl (Prod.mk.inj h).2.symm
    · next raw hraw =>
      split at h
      · exact Or.inl (Prod.mk.inj h).2.symm
      · exact Or.inl (Prod.mk.inj h).2.symm
      · split at h
        · exact Or.inl (Prod.mk.inj h).2.symm
        · next receipt after hcommit =>
          have hplan : ∃ snapshot first second plan,
              PlanWithin service.reg mapping b snapshot first second plan ∧
                plan.toRaw? = some raw := ⟨snapshot, first, second, plan, hwithin, hraw⟩
          split at h
          · obtain ⟨rfl, rfl⟩ := Prod.mk.inj h
            exact Or.inr ⟨fun f hf => (nomatch hf), raw, receipt, hplan, hcommit⟩
          · obtain ⟨rfl, rfl⟩ := Prod.mk.inj h
            exact Or.inr ⟨fun f hf => (nomatch hf), raw, receipt, hplan, hcommit⟩

variable (service mapping adapter db) in
/-- A turn of the loop is the last one, or it failed before it reached the workspace and the next
one follows. -/
theorem importFrom_turn (left attempt : ℕ) :
    (∃ result, importFrom service mapping adapter left attempt db =
      (result, (attemptImport service mapping attempt (adapter attempt) db).2)) ∨
    ∃ f left', left = left' + 1 ∧
      (attemptImport service mapping attempt (adapter attempt) db).1 = .error (.failure f) ∧
      importFrom service mapping adapter left attempt db =
        importFrom service mapping adapter left' (attempt + 1)
          (attemptImport service mapping attempt (adapter attempt) db).2 := by
  obtain ⟨r, after, hattempt⟩ : ∃ r after,
    attemptImport service mapping attempt (adapter attempt) db = (r, after) := ⟨_, _, rfl⟩
  rw [hattempt]
  cases r with
  | ok result =>
    refine Or.inl ⟨result, ?_⟩
    rw [importFrom, hattempt]
  | error stop =>
    cases stop with
    | exception stage =>
      refine Or.inl ⟨.failed ("ADAPTER_" ++ stage ++ "_FAILED") stage attempt, ?_⟩
      rw [importFrom, hattempt]
    | failure f =>
      cases left with
      | zero =>
        refine Or.inl ⟨.failed f.code f.stage attempt, ?_⟩
        rw [importFrom, hattempt]
      | succ left =>
        by_cases hretry : f.retryable = true
        · refine Or.inr ⟨f, left, rfl, rfl, ?_⟩
          rw [importFrom, hattempt]
          exact if_pos hretry
        · refine Or.inl ⟨.failed f.code f.stage attempt, ?_⟩
          rw [importFrom, hattempt]
          exact if_neg hretry

/-- **The loop** leaves the database as it was, or makes one commit. -/
theorem importFrom_cases (left attempt : ℕ) {result : ImportResult}
    (h : importFrom service mapping adapter left attempt db = (result, db')) :
    db' = db ∨ ∃ n raw receipt, attempt ≤ n ∧ n ≤ attempt + left ∧
      CommitsPlan service mapping (adapter n) n db raw receipt db' := by
  obtain ⟨r, after, hattempt⟩ : ∃ r after,
    attemptImport service mapping attempt (adapter attempt) db = (r, after) := ⟨_, _, rfl⟩
  have hcases := attemptImport_cases hattempt
  induction left generalizing attempt r after with
  | zero =>
    obtain ⟨result', hlast⟩ | ⟨f, left', hleft, -⟩ :=
      importFrom_turn service mapping adapter db 0 attempt
    · rw [hattempt, h] at hlast
      obtain ⟨-, rfl⟩ := Prod.mk.inj hlast
      obtain hsame | ⟨-, raw, receipt, hcommit⟩ := hcases
      · exact Or.inl hsame
      · exact Or.inr ⟨attempt, raw, receipt, le_rfl, le_rfl, hcommit⟩
    · exact nomatch hleft
  | succ left ih =>
    obtain ⟨result', hlast⟩ | ⟨f, left', hleft, hfailed, hnext⟩ :=
      importFrom_turn service mapping adapter db (left + 1) attempt
    · rw [hattempt, h] at hlast
      obtain ⟨-, rfl⟩ := Prod.mk.inj hlast
      obtain hsame | ⟨-, raw, receipt, hcommit⟩ := hcases
      · exact Or.inl hsame
      · exact Or.inr ⟨attempt, raw, receipt, le_rfl, Nat.le_add_right _ _, hcommit⟩
    · rw [hattempt] at hfailed hnext
      obtain rfl := Nat.succ.inj hleft
      obtain rfl | ⟨hnot, -⟩ := hcases
      · rw [h] at hnext
        obtain hsame | ⟨n, raw, receipt, hn, hn', hcommit⟩ :=
          ih (attempt + 1) hnext.symm _ _ rfl (attemptImport_cases rfl)
        · exact Or.inl hsame
        · exact Or.inr ⟨n, raw, receipt, by omega, by omega, hcommit⟩
      · exact absurd hfailed (hnot f)

/-! ### The mandate -/

/-- A commit of a plan that has passed every check changes nothing, answers a replay or a rejection
with a receipt, or applies a proposal of allowed operations. -/
theorem CommitsPlan.effect {attempt : ℕ} {raw : RawJson} {receipt : Receipt}
    (h : CommitsPlan service mapping b attempt db raw receipt db') :
    (db'.tables = db.tables ∧ db'.ledger = db.ledger ∧
        db'.legacyReceiptPin = db.legacyReceiptPin) ∨
      ∃ p row, raw.toJson? = some (Proposal.codec.enc p) ∧ db'.ledger = db.ledger ++ [row] ∧
        db'.legacyReceiptPin = db.legacyReceiptPin ∧
        p.operations.1.length ≤ maxOperations ∧ (∀ op ∈ p.operations.1, Allows mapping op) ∧
        (mapping = none → db'.tables = { db.tables with sources := db'.tables.sources }) := by
  obtain ⟨snapshot, first, second, plan, hwithin, hraw⟩ := h.plan
  cases commit_cases h.commit with
  | replayed => exact Or.inl ⟨rfl, rfl, rfl⟩
  | rejected r row => exact Or.inl ⟨rfl, rfl, rfl⟩
  | accepted hash value e row receipt hpre hacc =>
    obtain ⟨-, hvalue, -⟩ := preflight_evaluate.mp hpre
    obtain ⟨rfl, -, happly, -⟩ := evaluate_eq_ok.mp hacc.evaluated
    obtain ⟨hlength, hallowed⟩ := allows_of_enforcePlanPolicy hwithin.policy hraw hvalue
    refine Or.inr ⟨e.proposal, e.row, hvalue, rfl, rfl, hlength, hallowed, ?_⟩
    intro hnone
    rw [hnone] at hallowed
    exact applyOperations_sources hallowed happly

end

/-- An adapter that is busy, then asks to be tried again with an exception. -/
def busyAdapter (n : ℕ) : Behaviour where
  spec := .ok ⟨PyStr.ofString "qarinah", PyStr.ofString "1"⟩
  probe := if n < 2 then .error (.failure ⟨"UPSTREAM_BUSY", "PROBE", true, "busy"⟩)
    else .ok (some ⟨PyStr.ofString "qarinah", PyStr.ofString "1"⟩)
  snapshot := .error .exception
  validate := .ok ()
  firstPlan := .ok .none
  secondPlan := .ok .none

def ownerService : Service where
  reg := ownerRegistry
  schemaErrors _ := []
  otherIssues _ := .ok [⟨.schemaValidationFailed, "$"⟩]
  rebaseRaises _ _ _ := false
  now _ := "2026-01-01T00:00:00Z"

section

attribute [local instance] Host.utc

end

end Adapters

end SharedMind
