import SharedMind.Adapters.Value
import SharedMind.Workspace.Validation

/-!
# Imports

`run_import`: what an adapter returns is checked, planned, validated and committed, and the whole is
tried again when a failure is retryable.

* `Behaviour`: what the calls of an adapter return or raise in one attempt.
* `preparePlan`: the checks before the workspace sees a plan.
* `attemptImport`, `importFrom`: one attempt, and the loop of attempts.
-/

namespace SharedMind.Adapters

open Py

variable [Host]

/-! ### What an adapter returns -/

/-- `AdapterFailure`. -/
structure AdapterFailure where
  code : String
  stage : String
  retryable : Bool
  message : String

/-- A failure with its code as its message, not to be retried. -/
def AdapterFailure.of (code stage : String) : AdapterFailure := ⟨code, stage, false, code⟩

/-- What a call of an adapter raises. -/
inductive Raised where
  | failure (f : AdapterFailure)
  | exception

structure AdapterSpec where
  name : PyStr
  upstreamVersion : PyStr

structure AdapterProbe where
  adapterName : PyStr
  upstreamVersion : PyStr

structure AdapterSnapshot where
  adapterName : PyStr
  upstreamVersion : PyStr
  sourceLocator : PyStr
  mediaType : PyStr
  content : Bytes
  contentHash : PyStr

/-- One attempt of an adapter: what each of its members returns or raises when it is asked.  A
probe or a snapshot of another type is `none`; the plans are taken as they are when they are
compared. -/
structure Behaviour where
  spec : Except Raised AdapterSpec
  probe : Except Raised (Option AdapterProbe)
  snapshot : Except Raised (Option AdapterSnapshot)
  validate : Except Raised Unit
  firstPlan : Except Raised PyObj
  secondPlan : Except Raised PyObj

/-- `ReviewedMapping`, with the operations it allows. -/
structure ReviewedMapping where
  allowedOperations : List PyStr
  allowed_ne : allowedOperations ≠ []
  operation_ne : ∀ operation ∈ allowedOperations, operation.points ≠ []

/-! ### The checks of a plan -/

def maxSourceBytes : Nat := 1024 * 1024

def maxOperations : Nat := 128

def sourceOperation : PyStr := PyStr.ofString "REGISTER_SOURCE_REVISION"

/-- How an attempt ends before the workspace has answered. -/
inductive Stop where
  | failure (f : AdapterFailure)
  | exception (stage : String)

/-- What a call raises at a stage. -/
def atStage {α : Type} (stage : String) : Except Raised α → Except Stop α
  | .ok a => .ok a
  | .error (.failure f) => .error (.failure f)
  | .error .exception => .error (.exception stage)

/-- `_validate_snapshot_identity`. -/
def validateSnapshotIdentity (spec : AdapterSpec) (probe : Option AdapterProbe)
    (snapshot : Option AdapterSnapshot) : Except Stop AdapterSnapshot := do
  let probe ← orRaise probe (.failure (.of "ADAPTER_PROBE_INVALID" "PROBE"))
  let snapshot ← orRaise snapshot (.failure (.of "ADAPTER_SNAPSHOT_INVALID" "SNAPSHOT"))
  ensure (probe.adapterName = spec.name ∧ probe.upstreamVersion = spec.upstreamVersion)
    (.failure (.of "ADAPTER_PROBE_MISMATCH" "PROBE"))
  ensure (snapshot.adapterName = spec.name ∧ snapshot.upstreamVersion = spec.upstreamVersion)
    (.failure (.of "ADAPTER_SNAPSHOT_IDENTITY_MISMATCH" "SNAPSHOT"))
  return snapshot

/-- The canonical text of a plan. -/
def planText (plan : PyObj) : Except Stop PyObj.Points := do
  ensure (plan.depth ≤ Host.recursionLimit) (.exception "PLAN")
  orRaise plan.text (.failure (.of "ADAPTER_PLAN_INVALID" "PLAN"))

/-- `current_version_bundle`. -/
def currentVersionBundle (reg : Registry) : List (PyObj × PyObj) :=
  (Workspace.supported reg).map fun s => (.str (PyStr.ofString s.1), .str (PyStr.ofString s.2.1))

/-- `proposal[key] = value` on the members of a dict. -/
def setMember (key : PyStr) (value : PyObj) (members : List (PyObj × PyObj)) :
    List (PyObj × PyObj) :=
  if members.any fun m => PyObj.key? m = some key then
    members.map fun m => if PyObj.key? m = some key then (m.1, value) else m
  else members ++ [(.str key, value)]

/-- `_pin_plan_versions`. -/
def pinPlanVersions (reg : Registry) : PyObj → PyObj
  | .dict members =>
    .dict (setMember (PyStr.ofString "versions") (.dict (currentVersionBundle reg)) members)
  | plan => plan

mutual
/-- Whether `name in allowed` can be asked of a value. -/
def hashable : PyObj → Bool
  | .list _ => false
  | .dict _ => false
  | .tuple items => hashableItems items
  | _ => true

def hashableItems : List PyObj → Bool
  | [] => true
  | v :: vs => hashable v && hashableItems vs
end

/-- `operation.get("op") if isinstance(operation, dict) else None`. -/
def operationName (operation : PyObj) : PyObj := (operation.get? (PyStr.ofString "op")).getD .none

def isName (name : PyObj) (text : PyStr) : Bool :=
  match name with
  | .str s => s = text
  | _ => false

/-- Whether the mapping, or no mapping, lets an operation pass. -/
def enforceName (mapping : Option ReviewedMapping) (name : PyObj) : Except Stop Unit :=
  match mapping with
  | none =>
    ensure (isName name sourceOperation = true)
      (.failure (.of "ADAPTER_REVIEWED_MAPPING_REQUIRED" "PLAN"))
  | some mapping => do
    ensure (hashable name = true) (.exception "PLAN")
    ensure (mapping.allowedOperations.any (isName name) = true)
      (.failure (.of "ADAPTER_MAPPING_OPERATION_NOT_ALLOWED" "PLAN"))

/-- `_enforce_plan_policy`; a plan of another shape is left to validation. -/
def enforcePlanPolicy (mapping : Option ReviewedMapping) (plan : PyObj) : Except Stop Unit :=
  match plan.get? (PyStr.ofString "operations") with
  | some (.list operations) => do
    ensure (operations.length ≤ maxOperations)
      (.failure (.of "ADAPTER_OPERATION_LIMIT_EXCEEDED" "PLAN"))
    operations.forM fun operation => enforceName mapping (operationName operation)
  | _ => .ok ()

/-- From the probe to the policy: the plan with its versions pinned. -/
def preparePlan (reg : Registry) (mapping : Option ReviewedMapping) (b : Behaviour) :
    Except Stop PyObj := do
  let probe ← atStage "PROBE" b.probe
  let snapshot ← atStage "SNAPSHOT" b.snapshot
  let spec ← atStage "SNAPSHOT" b.spec
  let snapshot ← validateSnapshotIdentity spec probe snapshot
  ensure (snapshot.content.length ≤ maxSourceBytes)
    (.failure ⟨"ADAPTER_SOURCE_TOO_LARGE", "SNAPSHOT", false,
      "adapter snapshot exceeds the 1048576-byte limit"⟩)
  ensure (PyStr.ofString (sha256Bytes snapshot.content) = snapshot.contentHash)
    (.failure (.of "ADAPTER_SNAPSHOT_HASH_MISMATCH" "SNAPSHOT"))
  atStage "VALIDATE" b.validate
  let first ← atStage "PLAN" b.firstPlan
  let second ← atStage "PLAN" b.secondPlan
  let firstText ← planText first
  let secondText ← planText second
  ensure (firstText = secondText) (.failure (.of "ADAPTER_NONDETERMINISTIC_PLAN" "PLAN"))
  let plan := pinPlanVersions reg first
  enforcePlanPolicy mapping plan
  return plan

/-! ### Attempts -/

/-- What validation and the service are made of. -/
structure Service where
  reg : Registry
  /-- The errors of the schema in a JSON document. -/
  schemaErrors : RawJson → List String
  /-- The issues of a value that is no JSON document, which has one for the part that is none. -/
  otherIssues : PyObj → Kernel (List Workspace.ValidationIssue)
  /-- Whether the rebase hint of a stale proposal raises. -/
  rebaseRaises : Db → RawJson → Receipt → Bool
  /-- The time of day at an attempt. -/
  now : Nat → String

/-- `OperationResult` of an import, without the message of an exception. -/
inductive ImportResult where
  | failed (code stage : String) (attempts : Nat)
  | invalid (issues : List Workspace.ValidationIssue) (attempts : Nat)
  | decided (receipt : Receipt) (attempts : Nat)

/-- One turn of the loop. -/
def attemptImport (service : Service) (mapping : Option ReviewedMapping) (attempt : Nat)
    (b : Behaviour) (db : Db) : Except Stop ImportResult × Db :=
  match preparePlan service.reg mapping b with
  | .error stop => (.error stop, db)
  | .ok plan =>
    match plan.toRaw? with
    | none =>
      match service.otherIssues plan with
      | .error _ => (.error (.exception "PLAN"), db)
      | .ok issues => (.ok (.invalid issues attempt), db)
    | some raw =>
      match Workspace.validateProposalIssues service.schemaErrors service.reg raw with
      | .error _ => (.error (.exception "PLAN"), db)
      | .ok (issue :: issues) => (.ok (.invalid (issue :: issues) attempt), db)
      | .ok [] =>
        match commit service.reg db ⟨raw, service.now attempt⟩ with
        | .error _ => (.error (.exception "COMMIT"), db)
        | .ok (receipt, db') =>
          if receipt.outcome = Outcome.transactionConflict.text ∧
              service.rebaseRaises db' raw receipt = true then (.error (.exception "COMMIT"), db')
          else (.ok (.decided receipt attempt), db')

/-- The attempts from one on, with `left` more after it. -/
def importFrom (service : Service) (mapping : Option ReviewedMapping) (adapter : Nat → Behaviour) :
    Nat → Nat → Db → ImportResult × Db
  | left, attempt, db =>
    match attemptImport service mapping attempt (adapter attempt) db with
    | (.ok result, db') => (result, db')
    | (.error (.exception stage), db') =>
      (.failed ("ADAPTER_" ++ stage ++ "_FAILED") stage attempt, db')
    | (.error (.failure f), db') =>
      match left with
      | 0 => (.failed f.code f.stage attempt, db')
      | left + 1 =>
        if f.retryable then importFrom service mapping adapter left (attempt + 1) db'
        else (.failed f.code f.stage attempt, db')

/-- `run_import`. -/
def runImport (service : Service) (mapping : Option ReviewedMapping) (adapter : Nat → Behaviour)
    (maxAttempts : Int) (db : Db) : Kernel (ImportResult × Db) := do
  ensure (1 ≤ maxAttempts) .valueError
  return importFrom service mapping adapter (maxAttempts.toNat - 1) 1 db

end SharedMind.Adapters
