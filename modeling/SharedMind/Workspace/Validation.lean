import SharedMind.Kernel.Sequential

/-!
# The validation of a proposal before it is committed

`Workspace.validate_proposal`, which makes the checks of the kernel's preflight a second
time.  What `jsonschema` finds wrong with a value is a parameter: the paths of its errors.

* `validateProposalIssues`: the issues, or the exception the function raises.
* `Passes`: a value without issues; `validateProposalIssues_nil` says it is one.
-/

namespace SharedMind.Workspace

open Py

variable [Host]

/-- `ValidationIssue`, without its message. -/
structure ValidationIssue where
  code : ReasonCode
  path : String

/-! ### Resources -/

/-- `_proposal_resource_issue`. -/
def proposalResourceIssue (proposal : RawJson) : Option ValidationIssue :=
  if maxProposalDepth < proposal.depth then some ⟨.proposalTooDeep, "$"⟩
  else if Host.recursionLimit < proposal.depth then some ⟨.proposalTooDeep, "$"⟩
  else
    match proposal.toJson? with
    -- left to the schema
    | none => none
    | some value =>
      if maxProposalBytes < (utf8 value.dumps).length then some ⟨.proposalTooLarge, "$"⟩ else none

/-! ### Versions -/

/-- `supported`: the member of `versions`, its supported value, and the code of another. -/
def supported (reg : Registry) : List (String × String × ReasonCode) :=
  [("schema", supportedSchema, .unsupportedSchemaVersion),
    ("predicate_registry", reg.version, .unsupportedPredicateRegistry),
    ("predicate_registry_hash", reg.hash, .predicateRegistryContentMismatch),
    ("conflict_rules", "conflict-rules@1", .unsupportedConflictRulesVersion),
    ("guard_dsl", reg.guardDslVersion, .unsupportedGuardDslVersion),
    ("projection", "markdown-projection@3", .unsupportedProjectionVersion)]

/-- `proposal["versions"][name]`; `none` is a `KeyError`. -/
def version? (proposal : RawJson) (name : String) : Option RawJson :=
  (proposal.get? (PyStr.ofString "versions")).bind fun v => v.get? (PyStr.ofString name)

def versionIssues (reg : Registry) (proposal : RawJson) : Kernel (List ValidationIssue) :=
  (supported reg).foldlM (fun issues s => do
    let version ← orRaise (version? proposal s.1) .keyError
    if version.str? = some (PyStr.ofString s.2.1) then return issues
    else return issues ++ [⟨s.2.2, String.ofList ("$.versions.".toList ++ s.1.toList)⟩]) []

/-! ### Proposals -/

/-- `validate_proposal`. -/
def validateProposalIssues (schemaErrors : RawJson → List String) (reg : Registry)
    (proposal : RawJson) : Kernel (List ValidationIssue) :=
  match proposalResourceIssue proposal with
  | some issue => .ok [issue]
  | none =>
    match schemaErrors proposal with
    | [] => versionIssues reg proposal
    | paths => .ok (paths.map fun path => ⟨.schemaValidationFailed, path⟩)

/-- What the errors of the schema are relied on for: a value that encodes has none when the
contract takes it for a proposal. -/
def SchemaErrors (schemaErrors : RawJson → List String) : Prop :=
  ∀ proposal value, proposal.toJson? = some value →
    (schemaErrors proposal = [] ↔ ∃ p, value = Proposal.codec.enc p)

/-- A value that meets every check. -/
structure Passes (schemaErrors : RawJson → List String) (reg : Registry) (proposal : RawJson) :
    Prop where
  resources : proposalResourceIssue proposal = none
  schema : schemaErrors proposal = []
  versions : ∀ s ∈ supported reg, ∃ version, version? proposal s.1 = some version ∧
    version.str? = some (PyStr.ofString s.2.1)

/-- A value that has its versions, once they are looked at. -/
def NamesVersions (schemaErrors : RawJson → List String) (reg : Registry) (proposal : RawJson) :
    Prop :=
  proposalResourceIssue proposal = none → schemaErrors proposal = [] →
    ∀ s ∈ supported reg, (version? proposal s.1).isSome = true

section

variable {schemaErrors : RawJson → List String} {reg : Registry} {proposal : RawJson}
  {issues : List ValidationIssue}

omit [Host] in
/-- The issues of the versions: a list when each is there, and none when each is supported. -/
theorem versionIssues_eq_ok : versionIssues reg proposal = .ok issues →
    (∀ s ∈ supported reg, (version? proposal s.1).isSome = true) ∧
      (issues = [] ↔ ∀ s ∈ supported reg, ∃ version, version? proposal s.1 = some version ∧
        version.str? = some (PyStr.ofString s.2.1)) := by
  intro h
  refine foldlM_prefix_inv (P := fun pre issues =>
    (∀ s ∈ pre, (version? proposal s.1).isSome = true) ∧
      (issues = [] ↔ ∀ s ∈ pre, ∃ version, version? proposal s.1 = some version ∧
        version.str? = some (PyStr.ofString s.2.1))) ?_ ?_ h
  · exact ⟨fun _ h => absurd h List.not_mem_nil,
      fun _ _ h => absurd h List.not_mem_nil, fun _ => rfl⟩
  · intro pre s post found found' _ hpre hs
    obtain ⟨version, hversion, hs⟩ := bind_eq_ok.mp hs
    rw [orRaise_eq_ok] at hversion
    have hsome : ∀ t ∈ pre ++ [s], (version? proposal t.1).isSome = true := by
      intro t ht
      rcases List.mem_append.mp ht with ht | ht
      · exact hpre.1 t ht
      · rw [List.mem_singleton.mp ht, hversion]
        rfl
    refine ⟨hsome, ?_⟩
    rw [List.forall_mem_append, ← hpre.2, List.forall_mem_singleton]
    split at hs
    · next heq =>
      obtain rfl := pure_eq_ok.mp hs
      exact ⟨fun h => ⟨h, version, hversion, heq⟩, And.left⟩
    · next hne =>
      obtain rfl := pure_eq_ok.mp hs
      refine ⟨fun h => absurd h (by simp), fun ⟨_, v, hv, heq⟩ => ?_⟩
      rw [hversion] at hv
      exact absurd (Option.some.inj hv ▸ heq) hne

omit [Host] in
theorem exists_versionIssues (h : ∀ s ∈ supported reg, (version? proposal s.1).isSome = true) :
    ∃ issues, versionIssues reg proposal = .ok issues := by
  have hfold : ∀ (ss : List (String × String × ReasonCode)) (init : List ValidationIssue),
      (∀ s ∈ ss, (version? proposal s.1).isSome = true) → ∃ issues,
        ss.foldlM (fun issues s => do
          let version ← orRaise (version? proposal s.1) PyExc.keyError
          if version.str? = some (PyStr.ofString s.2.1) then return issues
          else return issues ++
            [ValidationIssue.mk s.2.2 (String.ofList ("$.versions.".toList ++ s.1.toList))]) init =
          .ok issues := by
    intro ss
    induction ss with
    | nil => exact fun init _ => ⟨init, rfl⟩
    | cons s ss ih =>
      intro init hall
      rw [List.forall_mem_cons] at hall
      obtain ⟨version, hversion⟩ := Option.isSome_iff_exists.mp hall.1
      rw [List.foldlM_cons, hversion]
      by_cases hs : version.str? = some (PyStr.ofString s.2.1)
      · obtain ⟨issues, hissues⟩ := ih init hall.2
        exact ⟨issues, by simpa [orRaise, hs] using hissues⟩
      · obtain ⟨issues, hissues⟩ := ih (init ++
          [⟨s.2.2, String.ofList ("$.versions.".toList ++ s.1.toList)⟩]) hall.2
        exact ⟨issues, by simpa [orRaise, hs] using hissues⟩
  exact hfold (supported reg) [] h

/-- The function returns when the versions are there, and reports nothing of what passes. -/
theorem validateProposalIssues_eq_ok
    (h : validateProposalIssues schemaErrors reg proposal = .ok issues) :
    NamesVersions schemaErrors reg proposal ∧
      (issues = [] ↔ Passes schemaErrors reg proposal) := by
  unfold validateProposalIssues at h
  cases hr : proposalResourceIssue proposal with
  | some issue =>
    rw [hr] at h
    obtain rfl := Except.ok.inj h
    exact ⟨fun hnone => (by rw [hr] at hnone; exact nomatch hnone),
      fun h => (nomatch h), fun hp => (by have := hp.resources; rw [hr] at this; exact nomatch this)⟩
  | none =>
    rw [hr] at h
    dsimp only at h
    cases he : schemaErrors proposal with
    | nil =>
      rw [he] at h
      obtain ⟨hsome, hiff⟩ := versionIssues_eq_ok h
      exact ⟨fun _ _ => hsome, fun h => ⟨hr, he, hiff.mp h⟩, fun hp => hiff.mpr hp.versions⟩
    | cons path paths =>
      rw [he] at h
      obtain rfl := Except.ok.inj h
      exact ⟨fun _ hnil => (by rw [he] at hnil; exact nomatch hnil),
        fun h => (nomatch h), fun hp => (by have := hp.schema; rw [he] at this; exact nomatch this)⟩

theorem exists_issues (h : NamesVersions schemaErrors reg proposal) :
    ∃ issues, validateProposalIssues schemaErrors reg proposal = .ok issues := by
  unfold validateProposalIssues
  cases hr : proposalResourceIssue proposal with
  | some issue => exact ⟨_, rfl⟩
  | none =>
    cases he : schemaErrors proposal with
    | nil => exact exists_versionIssues (h hr he)
    | cons path paths => exact ⟨_, rfl⟩

end

end SharedMind.Workspace
