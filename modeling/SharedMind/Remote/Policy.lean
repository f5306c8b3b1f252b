import SharedMind.Contract.Text
import SharedMind.Py.Url

/-!
# Policies of remote adapters

A policy document is checked once, when it is compiled; a `Policy` is one that passed, so
that what the checks promise comes with it.

* `sourceRefIsSafe`: what a source reference decodes to leaves no root.
* `Policy`, `validatePolicy`: `_validate_policy`, with the values it checks.
* `compilePolicy`: the policy, its document and the hash of the document.
-/

namespace SharedMind.Remote

open Py

/-! ### Source references -/

/-- `for _ in range(n)`: decode until nothing changes. -/
def settle : Nat → PyStr → Option PyStr
  | 0, _ => none
  | n + 1, s => if unquote s = s then some s else settle n (unquote s)

/-- What follows `://`, or the whole. -/
def pathPart (points : List (Fin 0x110000)) : List (Fin 0x110000) :=
  match splitFirst (PyStr.ofString "://").points points with
  | some (_, rest) => rest
  | none => points

/-- `_source_ref_is_safe`. -/
def sourceRefIsSafe (sourceRef : PyStr) : Bool :=
  match settle 8 sourceRef with
  | none => false
  | some s =>
    PyStr.ofChar '\\' ∉ s.points ∧
      ∀ segment ∈ (pathPart s.points).splitOn (PyStr.ofChar '/'),
        segment ≠ (PyStr.ofString ".").points ∧ segment ≠ (PyStr.ofString "..").points

/-! ### Policies -/

/-- An entry of `trust_bindings`. -/
structure TrustBinding where
  bindingId : String
  issuer : String
  subject : String
  actorId : String

/-- An entry of `source_labels`. -/
structure SourceRoot where
  sourceRoot : String
  sensitivity : String
  dataClasses : List String

/-- An entry of `capability_scopes`, with its disclosure. -/
structure CapabilityScope where
  capability : String
  operationTypes : List String
  actorIds : List String
  sourceRoots : List String
  allowedSensitivities : List String
  allowFields : List String
  redactPaths : List String

structure EndpointPin where
  endpointId : String
  origin : String
  protocolVersion : String
  adapterVersion : String

/-- What the checks promise of bindings, labels and scopes. -/
structure Policy.Valid (bindings : List TrustBinding) (labels : List SourceRoot)
    (scopes : List CapabilityScope) : Prop where
  bindingIds : (bindings.map TrustBinding.bindingId).Nodup
  sourceRoots : (labels.map SourceRoot.sourceRoot).Nodup
  capabilities : (scopes.map CapabilityScope.capability).Nodup
  rooted : ∀ scope ∈ scopes, ∀ root ∈ scope.sourceRoots, root ∈ labels.map SourceRoot.sourceRoot

instance {bindings : List TrustBinding} {labels : List SourceRoot} {scopes : List CapabilityScope} :
    Decidable (Policy.Valid bindings labels scopes) :=
  decidable_of_iff ((bindings.map TrustBinding.bindingId).Nodup ∧
    (labels.map SourceRoot.sourceRoot).Nodup ∧ (scopes.map CapabilityScope.capability).Nodup ∧
    ∀ scope ∈ scopes, ∀ root ∈ scope.sourceRoots, root ∈ labels.map SourceRoot.sourceRoot)
    ⟨fun ⟨h1, h2, h3, h4⟩ => ⟨h1, h2, h3, h4⟩, fun ⟨h1, h2, h3, h4⟩ => ⟨h1, h2, h3, h4⟩⟩

structure Policy where
  policyId : String
  registryVersion : String
  endpointPin : EndpointPin
  trustBindings : List TrustBinding
  sourceLabels : List SourceRoot
  capabilityScopes : List CapabilityScope
  valid : Policy.Valid trustBindings sourceLabels capabilityScopes

/-! ### Checks -/

/-- A `ValueError` with its message, or a value. -/
abbrev Checked := Except String

/-- `_is_non_empty_string`. -/
def isNonEmpty (s : String) : Bool := s.toList.any fun c => !isSpace c

/-- `_required_mapping`. -/
def requiredMapping (document : Json) (field context : String) : Checked Json :=
  match document.get? field with
  | some (.obj members) => .ok (.obj members)
  | _ => .error s!"{context}.{field} must be an object"

/-- `_require_non_empty_string`. -/
def requireNonEmptyString (document : Json) (field context : String) : Checked String :=
  match document.get? field with
  | some (.str s) =>
    if isNonEmpty s then .ok s else .error s!"{context}.{field} must be a non-empty string"
  | _ => .error s!"{context}.{field} must be a non-empty string"

/-- `_reject_duplicates`. -/
def rejectDuplicates (values : List String) (context : String) : Checked Unit :=
  ensure values.Nodup s!"{context} contains duplicate values"

/-- The items of a list, each checked with its index. -/
def checkItems {α : Type} (check : Nat → Json → Checked α) (items : List Json) : Checked (List α) :=
  (items.zipIdx).mapM fun item => check item.2 item.1

/-- `_required_object_list`. -/
def requiredObjectList (document : Json) (field context : String) : Checked (List Json) :=
  match document.get? field with
  | some (.arr (item :: items)) =>
    checkItems (fun index item => match item with
      | .obj members => .ok (.obj members)
      | _ => .error s!"{context}.{field}[{index}] must be an object") (item :: items)
  | _ => .error s!"{context}.{field} must be a non-empty list"

/-- `_required_string_list`. -/
def requiredStringList (document : Json) (field context : String) (allowEmpty : Bool) :
    Checked (List String) := do
  let values ← match document.get? field with
    | some (.arr []) =>
      if allowEmpty then .ok [] else .error s!"{context}.{field} must be a non-empty list"
    | some (.arr items) =>
      checkItems (fun index item => match item with
        | .str s =>
          if isNonEmpty s then .ok s
          else .error s!"{context}.{field}[{index}] must be a non-empty string"
        | _ => .error s!"{context}.{field}[{index}] must be a non-empty string") items
    | _ =>
      if allowEmpty then .error s!"{context}.{field} must be a list"
      else .error s!"{context}.{field} must be a non-empty list"
  rejectDuplicates values s!"{context}.{field}"
  return values

/-- `_validate_source_root`. -/
def validateSourceRoot [NetlocCheck] (sourceRoot context : String) : Checked Unit :=
  match urlsplit sourceRoot with
  | none => .error "Invalid URL"
  | some parsed =>
    ensure (parsed.scheme ≠ [] ∧ parsed.netloc ≠ [] ∧ parsed.path.head? = some '/' ∧
        parsed.path.getLast? = some '/' ∧ parsed.query = [] ∧ parsed.fragment = [] ∧
        sourceRefIsSafe (.ofString sourceRoot) = true)
      s!"{context} must be an absolute, slash-terminated safe source root"

/-- `path.split(".")`. -/
def segments (path : String) : List (List Char) := path.toList.splitOn '.'

/-- `_validate_redaction_paths`. -/
def validateRedactionPaths (paths allowedRoots : List String) (context : String) : Checked Unit := do
  (paths.zipIdx).forM fun path => do
    ensure (2 ≤ (segments path.1).length ∧ [] ∉ segments path.1)
      s!"{context}[{path.2}] must be a nested dotted path"
    ensure (((segments path.1).headD []) ∈ allowedRoots.map String.toList)
      s!"{context}[{path.2}] is not rooted in an allowed field"
  ensure (paths.Pairwise fun path other => ¬(other.toList ++ ['.'] <+: path.toList) ∧
    ¬(path.toList ++ ['.'] <+: other.toList)) s!"{context} contains overlapping paths"

/-- The check of one entry of `trust_bindings`. -/
def validateTrustBinding (index : Nat) (binding : Json) : Checked TrustBinding := do
  let context := s!"remote policy trust_bindings[{index}]"
  return ⟨← requireNonEmptyString binding "binding_id" context,
    ← requireNonEmptyString binding "issuer" context,
    ← requireNonEmptyString binding "subject" context,
    ← requireNonEmptyString binding "actor_id" context⟩

/-- The check of one entry of `source_labels`. -/
def validateSourceLabel [NetlocCheck] (index : Nat) (label : Json) : Checked SourceRoot := do
  let context := s!"remote policy source_labels[{index}]"
  let sourceRoot ← requireNonEmptyString label "source_root" context
  validateSourceRoot sourceRoot s!"{context}.source_root"
  let sensitivity ← requireNonEmptyString label "sensitivity" context
  let dataClasses ← requiredStringList label "data_classes" context true
  return ⟨sourceRoot, sensitivity, dataClasses⟩

/-- The check of one entry of `capability_scopes`. -/
def validateCapabilityScope [NetlocCheck] (trustedActorIds sourceRoots sensitivities : List String)
    (index : Nat) (scope : Json) : Checked CapabilityScope := do
  let context := s!"remote policy capability_scopes[{index}]"
  let capability ← requireNonEmptyString scope "capability" context
  let operationTypes ← requiredStringList scope "operation_types" context false
  let actorIds ← requiredStringList scope "actor_ids" context false
  ensure (∀ actor ∈ actorIds, actor ∈ trustedActorIds)
    s!"{context}.actor_ids contains an untrusted actor"
  let scopedRoots ← requiredStringList scope "source_roots" context false
  (scopedRoots.zipIdx).forM fun root => do
    validateSourceRoot root.1 s!"{context}.source_roots[{root.2}]"
    ensure (root.1 ∈ sourceRoots) s!"{context}.source_roots[{root.2}] has no source label"
  let allowedSensitivities ← requiredStringList scope "allowed_sensitivities" context false
  ensure (∀ sensitivity ∈ allowedSensitivities, sensitivity ∈ sensitivities)
    s!"{context}.allowed_sensitivities contains an unknown sensitivity"
  let disclosure ← requiredMapping scope "disclosure" context
  let allowFields ← requiredStringList disclosure "allow_fields" s!"{context}.disclosure" false
  ensure (∀ field ∈ allowFields, '.' ∉ field.toList)
    s!"{context}.disclosure.allow_fields must name top-level fields"
  let redactPaths ← requiredStringList disclosure "redact_paths" s!"{context}.disclosure" true
  validateRedactionPaths redactPaths allowFields s!"{context}.disclosure.redact_paths"
  return ⟨capability, operationTypes, actorIds, scopedRoots, allowedSensitivities, allowFields,
    redactPaths⟩

/-- `_validate_policy`. -/
def validatePolicy [NetlocCheck] (document : Json) : Checked Policy := do
  ensure ((document.get? "policy_version").bind JsonOf.str? = some "remote-adapter-policy@1")
    "unsupported remote policy version"
  ensure ((document.get? "default_effect").bind JsonOf.str? = some "DENY")
    "remote policies must deny by default"
  let policyId ← requireNonEmptyString document "policy_id" "remote policy"
  let registryVersion ← requireNonEmptyString document "registry_version" "remote policy"
  let pin ← requiredMapping document "endpoint_pin" "remote policy"
  let endpointPin : EndpointPin :=
    ⟨← requireNonEmptyString pin "endpoint_id" "remote policy endpoint_pin",
      ← requireNonEmptyString pin "origin" "remote policy endpoint_pin",
      ← requireNonEmptyString pin "protocol_version" "remote policy endpoint_pin",
      ← requireNonEmptyString pin "adapter_version" "remote policy endpoint_pin"⟩
  let bindings ← checkItems validateTrustBinding
    (← requiredObjectList document "trust_bindings" "remote policy")
  rejectDuplicates (bindings.map TrustBinding.bindingId) "remote policy trust_bindings binding_id"
  let labels ← checkItems validateSourceLabel
    (← requiredObjectList document "source_labels" "remote policy")
  rejectDuplicates (labels.map SourceRoot.sourceRoot) "remote policy source_labels source_root"
  let scopes ← checkItems
    (validateCapabilityScope (bindings.map TrustBinding.actorId)
      (labels.map SourceRoot.sourceRoot) (labels.map SourceRoot.sensitivity))
    (← requiredObjectList document "capability_scopes" "remote policy")
  if h : Policy.Valid bindings labels scopes then
    return ⟨policyId, registryVersion, endpointPin, bindings, labels, scopes, h⟩
  else .error "remote policy capability_scopes capability contains duplicate values"

/-! ### Compilation -/

mutual
/-- Whether every number is finite, as `_strict_json_copy` demands. -/
def finiteJson : Json → Bool
  | .num (.float (.inf _)) => false
  | .num (.float .nan) => false
  | .arr items => finiteItems items
  | .obj members => finiteMembers members
  | _ => true

def finiteItems : List Json → Bool
  | [] => true
  | v :: vs => finiteJson v && finiteItems vs

def finiteMembers : List (String × Json) → Bool
  | [] => true
  | (_, v) :: ms => finiteJson v && finiteMembers ms
end

/-- `CompiledRemotePolicy`, with what its document was found to hold. -/
structure CompiledPolicy where
  document : Json
  policyHash : Hash
  policy : Policy

/-- `compile_policy`, of a decoded document.  A string that does not encode fails the hash, a
number that is not finite the copy; both are `ValueError`s. -/
def compilePolicy [NetlocCheck] (document : RawJson) : Checked CompiledPolicy := do
  let document ← orRaise document.toJson? "surrogates not allowed"
  ensure (finiteJson document = true) "remote policy document must contain canonical JSON values"
  let policy ← validatePolicy document
  return ⟨document, sha256Json document, policy⟩

end SharedMind.Remote
