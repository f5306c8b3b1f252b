import SharedMind.Remote.Policy

/-!
# Decisions about remote requests

* `denialReason`: the checks of a request, in order; none is what allows it.
* `evaluateRequest`: the decision, or the exception that is raised.
* `RemoteDecision.asDict`: the audit document, once it verifies.
-/

namespace SharedMind.Remote

open Py

/-! ### What a request is asked for -/

/-- `mapping.get(key)`. -/
def member (value : RawJson) (key : String) : RawJson := (value.get? (.ofString key)).getD .null

/-- `_string_or_none`, of a member. -/
def stringMember (value : RawJson) (key : String) : Option PyStr := (member value key).str?

/-- `value == text`. -/
def IsText (value : RawJson) (text : String) : Prop := value.pyEq (.str (.ofString text)) = true

instance (value : RawJson) (text : String) : Decidable (IsText value text) :=
  inferInstanceAs (Decidable (_ = true))

/-- `_string_values`. -/
def stringValues : RawJson → List PyStr
  | .arr items => items.filterMap JsonOf.str?
  | _ => []

/-- `_is_non_empty_string`, of a value that may not encode. -/
def isNonEmptyValue : RawJson → Bool
  | .str s => s.points.any fun p => !((PyStr.toChar? p).any isSpace)
  | _ => false

inductive ReasonCode where
  | actorBindingMismatch
  | disclosureFieldDenied
  | endpointPinMismatch
  | missingTrustBinding
  | operationScopeDenied
  | registryVersionMismatch
  | remoteRequestVersionMismatch
  | remoteVersionPinMismatch
  | sensitivityDenied
  | sourceScopeDenied
  | trustBindingNotAllowed
  | unknownCapability
  deriving DecidableEq

def ReasonCode.text : ReasonCode → String
  | actorBindingMismatch => "ACTOR_BINDING_MISMATCH"
  | disclosureFieldDenied => "DISCLOSURE_FIELD_DENIED"
  | endpointPinMismatch => "ENDPOINT_PIN_MISMATCH"
  | missingTrustBinding => "MISSING_TRUST_BINDING"
  | operationScopeDenied => "OPERATION_SCOPE_DENIED"
  | registryVersionMismatch => "REGISTRY_VERSION_MISMATCH"
  | remoteRequestVersionMismatch => "REMOTE_REQUEST_VERSION_MISMATCH"
  | remoteVersionPinMismatch => "REMOTE_VERSION_PIN_MISMATCH"
  | sensitivityDenied => "SENSITIVITY_DENIED"
  | sourceScopeDenied => "SOURCE_SCOPE_DENIED"
  | trustBindingNotAllowed => "TRUST_BINDING_NOT_ALLOWED"
  | unknownCapability => "UNKNOWN_CAPABILITY"

/-! ### Bindings, scopes and labels -/

/-- The trust fields of a binding, by name. -/
def TrustBinding.fields (b : TrustBinding) : List (String × String) :=
  [("binding_id", b.bindingId), ("issuer", b.issuer), ("subject", b.subject),
    ("actor_id", b.actorId)]

/-- The binding that is given is this one in every trust field. -/
def TrustBinding.Matches (b : TrustBinding) (binding : RawJson) : Prop :=
  ∀ field ∈ b.fields, IsText (member binding field.1) field.2

instance (b : TrustBinding) (binding : RawJson) : Decidable (b.Matches binding) :=
  inferInstanceAs (Decidable (∀ field ∈ b.fields, IsText (member binding field.1) field.2))

/-- `_TRUST_FIELDS`. -/
def trustFields : List String := ["binding_id", "issuer", "subject", "actor_id"]

/-- `_trusted_binding`. -/
def trustedBinding (policy : Policy) (binding : RawJson) : Option TrustBinding :=
  match binding with
  | .obj _ =>
    if trustFields.all fun field => isNonEmptyValue (member binding field) then
      policy.trustBindings.find? fun b => b.Matches binding
    else none
  | _ => none

/-- `_capability_scope`. -/
def capabilityScope (policy : Policy) (capability : Option PyStr) : Option CapabilityScope :=
  policy.capabilityScopes.find? fun scope => some (.ofString scope.capability) = capability

/-- What a decision tells of the label of a source. -/
structure SourceLabel where
  sourceRoot : Option String
  sensitivity : Option String
  dataClasses : List String
  deriving DecidableEq

def SourceLabel.none : SourceLabel := ⟨.none, .none, []⟩

/-- The label, if its root is longer. -/
def longer (best : Option SourceRoot) (label : SourceRoot) : Option SourceRoot :=
  match best with
  | .none => some label
  | some b => if b.sourceRoot.length < label.sourceRoot.length then some label else some b

/-- `max(labels, key=…)`: the first one whose root is longest. -/
def longest (labels : List SourceRoot) : Option SourceRoot := labels.foldl longer .none

/-- The label of a safe reference, as it is written. -/
def matchedLabel (policy : Policy) (sourceRef : PyStr) : Option SourceRoot :=
  longest (policy.sourceLabels.filter fun label => sourceRef.StartsWith label.sourceRoot)

/-- `_source_label`. -/
def sourceLabel (policy : Policy) (sourceRef : Option PyStr) : SourceLabel :=
  match sourceRef with
  | .none => .none
  | some ref =>
    if sourceRefIsSafe ref then
      match matchedLabel policy ref with
      | .none => .none
      | some selected =>
        ⟨selected.sourceRoot, selected.sensitivity, selected.dataClasses.insertionSort (· ≤ ·)⟩
    else .none

/-- `_source_is_allowed`. -/
def SourceIsAllowed (scope : CapabilityScope) (sourceRef : Option PyStr) : Prop :=
  ∃ ref ∈ sourceRef, sourceRefIsSafe ref = true ∧ ∃ root ∈ scope.sourceRoots, ref.StartsWith root

instance (scope : CapabilityScope) (sourceRef : Option PyStr) :
    Decidable (SourceIsAllowed scope sourceRef) :=
  inferInstanceAs (Decidable (∃ ref ∈ sourceRef, _ ∧ ∃ root ∈ scope.sourceRoots, ref.StartsWith root))

/-! ### Disclosure -/

/-- `_string_values(request.get("requested_fields"))`. -/
def requestedFields (request : RawJson) : List PyStr :=
  stringValues (member request "requested_fields")

/-- `_disclosure_is_allowed`. -/
def DisclosureIsAllowed (scope : CapabilityScope) (request : RawJson) : Prop :=
  requestedFields request ≠ [] ∧
    ∀ field ∈ requestedFields request, field ∈ scope.allowFields.map PyStr.ofString

instance (scope : CapabilityScope) (request : RawJson) :
    Decidable (DisclosureIsAllowed scope request) :=
  inferInstanceAs (Decidable (_ ∧ _))

structure Disclosure where
  allowedFields : List PyStr
  redactedPaths : List String
  deriving DecidableEq

/-- `path.partition(".")[0]`. -/
def rootField (path : String) : PyStr := ⟨((segments path).headD []).map PyStr.ofChar⟩

/-- `_allowed_disclosure`. -/
def allowedDisclosure (scope : Option CapabilityScope) (request : RawJson) : Disclosure :=
  match scope with
  | .none => ⟨[], []⟩
  | some scope =>
    ⟨sortedSet (requestedFields request),
      (scope.redactPaths.filter fun path => rootField path ∈ requestedFields request).insertionSort
        (· ≤ ·)⟩

/-! ### The checks -/

/-- `_denial_reason`, once the binding is known and the scope is looked up. -/
def scopeReason (request : RawJson) (trusted : TrustBinding)
    (scope : Option CapabilityScope) (sourceRef : Option PyStr) (label : SourceLabel) :
    Option ReasonCode :=
  match scope with
  | none => some .unknownCapability
  | some scope =>
    if ¬∃ op ∈ scope.operationTypes, IsText (member request "operation_type") op then
      some .operationScopeDenied
    else if trusted.actorId ∉ scope.actorIds then some .actorBindingMismatch
    else if ¬SourceIsAllowed scope sourceRef ∨ label.sourceRoot = none then some .sourceScopeDenied
    else if ¬∃ sensitivity ∈ label.sensitivity, sensitivity ∈ scope.allowedSensitivities then
      some .sensitivityDenied
    else if ¬DisclosureIsAllowed scope request then some .disclosureFieldDenied
    else none

/-- `_denial_reason`. -/
def denialReason (policy : Policy) (request binding : RawJson) : Option ReasonCode :=
  let sourceRef := stringMember request "source_ref"
  if ¬IsText (member request "request_version") "remote-policy-request@1" then
    some .remoteRequestVersionMismatch
  else
    match binding, trustedBinding policy binding with
    | .null, _ => some .missingTrustBinding
    | _, none => some .trustBindingNotAllowed
    | _, some trusted =>
      if ¬IsText (member request "claimed_actor_id") trusted.actorId then some .actorBindingMismatch
      else if ¬IsText (member request "endpoint_id") policy.endpointPin.endpointId then
        some .endpointPinMismatch
      else if ¬IsText (member request "protocol_version") policy.endpointPin.protocolVersion ∨
          ¬IsText (member request "adapter_version") policy.endpointPin.adapterVersion then
        some .remoteVersionPinMismatch
      else if ¬IsText (member request "registry_version") policy.registryVersion then
        some .registryVersionMismatch
      else scopeReason request trusted (capabilityScope policy (stringMember request "capability"))
        sourceRef (sourceLabel policy sourceRef)

/-! ### The decision -/

inductive Outcome where
  | allow
  | deny
  deriving DecidableEq

def Outcome.text : Outcome → String
  | allow => "ALLOW"
  | deny => "DENY"

/-- The audit document of a decision, but for its identifier. -/
structure Audit where
  requestId : Option PyStr
  reason : Option ReasonCode
  policyHash : Hash
  trusted : Option TrustBinding
  endpointPin : EndpointPin
  registryVersion : String
  capability : Option PyStr
  operationType : Option PyStr
  sourceLabel : SourceLabel
  disclosure : Disclosure

namespace Audit

def outcome (a : Audit) : Outcome := if a.reason.isSome then .deny else .allow

def text (s : String) : RawJson := .str (.ofString s)

def optional (s : Option PyStr) : RawJson := s.elim .null .str

def optionalText (s : Option String) : RawJson := s.elim .null text

/-- The members of `audit_document`. -/
def members (a : Audit) : List (PyStr × RawJson) :=
  [("decision_version", text "remote-policy-decision@1"),
    ("request_id", optional a.requestId),
    ("outcome", text a.outcome.text),
    ("reason_codes", .arr (a.reason.toList.map fun r => text r.text)),
    ("policy_hash", text a.policyHash),
    ("authenticated_actor_id", optionalText (a.trusted.map TrustBinding.actorId)),
    ("trust_binding_id", optionalText (a.trusted.map TrustBinding.bindingId)),
    ("endpoint_pin", .obj [(.ofString "endpoint_id", text a.endpointPin.endpointId),
      (.ofString "protocol_version", text a.endpointPin.protocolVersion),
      (.ofString "adapter_version", text a.endpointPin.adapterVersion)]),
    ("registry_version", text a.registryVersion),
    ("capability", optional a.capability),
    ("operation_type", optional a.operationType),
    ("source_label", .obj [(.ofString "source_root", optionalText a.sourceLabel.sourceRoot),
      (.ofString "sensitivity", optionalText a.sourceLabel.sensitivity),
      (.ofString "data_classes", .arr (a.sourceLabel.dataClasses.map text))]),
    ("disclosure", .obj [(.ofString "allowed_fields", .arr (a.disclosure.allowedFields.map .str)),
      (.ofString "redacted_paths", .arr (a.disclosure.redactedPaths.map text))])].map
    fun m => (.ofString m.1, m.2)

end Audit

/-- What `evaluate_request` and `as_dict` may raise. -/
inductive Raised where
  | valueError (message : String)
  | unicodeEncodeError
  deriving DecidableEq

/-- The digits a decision is named by. -/
@[irreducible] def decisionDigest (members : List (PyStr × RawJson)) : Except Raised PyStr := do
  let document ← orRaise (JsonOf.obj members).toJson? .unicodeEncodeError
  return .ofString (String.ofList
    ("remote_policy_decision_".toList ++ (sha256Json document).digits.take 32))

/-- `RemotePolicyDecision`. -/
structure RemoteDecision where
  audit : Audit
  decisionId : PyStr

/-- The members of its document. -/
def RemoteDecision.members (d : RemoteDecision) : List (PyStr × RawJson) :=
  d.audit.members ++ [(.ofString "decision_id", .str d.decisionId)]

/-- `as_dict`, with `_verify_decision_integrity`. -/
def RemoteDecision.asDict (d : RemoteDecision) : Except Raised Json := do
  let failed := Raised.valueError "remote policy decision integrity check failed"
  let payload := d.members.filter fun m => m.1 ≠ .ofString "decision_id"
  match decisionDigest payload with
  | .error _ => .error failed
  | .ok expected =>
    if member (.obj d.members) "decision_id" |>.pyEq (.str expected) then
      orRaise (JsonOf.obj d.members).toJson? .unicodeEncodeError
    else .error failed

/-- The document `evaluate_request` hashes. -/
def auditOf (compiled : CompiledPolicy) (request binding : RawJson) : Audit :=
  let policy := compiled.policy
  let capability := stringMember request "capability"
  let reason := denialReason policy request binding
  { requestId := stringMember request "request_id"
    reason := reason
    policyHash := compiled.policyHash
    trusted := trustedBinding policy binding
    endpointPin := policy.endpointPin
    registryVersion := policy.registryVersion
    capability := capability
    operationType := stringMember request "operation_type"
    sourceLabel := sourceLabel policy (stringMember request "source_ref")
    disclosure := if reason.isSome then ⟨[], []⟩
      else allowedDisclosure (capabilityScope policy capability) request }

/-- `evaluate_request`, of a request that is a mapping. -/
def evaluateRequest (compiled : CompiledPolicy) (request binding : RawJson) :
    Except Raised RemoteDecision := do
  ensure (sha256Json compiled.document = compiled.policyHash)
    (.valueError "compiled remote policy integrity check failed")
  let audit := auditOf compiled request binding
  return ⟨audit, ← decisionDigest audit.members⟩

end SharedMind.Remote
