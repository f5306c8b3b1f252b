import SharedMind.Contract.Continuity

/-!
# The predicate registry

`PredicateRegistry` of the contract.  `predicate?` is the lookup in the dict the
kernel builds from it, in which the last definition of a key wins.
-/

namespace SharedMind

open Py

/-- A list that is not empty and has no equal items. -/
abbrev UniqueSome {α : Type} (c : Codec α) : Type :=
  {as : List α // c.UniqueItems as ∧ as ≠ []}

def uniqueSome {α : Type} (c : Codec α) : Codec (UniqueSome c) :=
  c.list.refine fun as => c.UniqueItems as ∧ as ≠ []

inductive ScopeField where
  | component
  | environment
  | region
  | tenant
  deriving DecidableEq

namespace ScopeField

def text : ScopeField → String
  | component => "component"
  | environment => "environment"
  | region => "region"
  | tenant => "tenant"

def codec : Codec ScopeField :=
  .enum [component, environment, region, tenant] text (by intro a; cases a <;> decide)
    (by intro a b; cases a <;> cases b <;> decide)

end ScopeField

/-- `PredicateObjectDefinition`. -/
inductive PredicateObject where
  | entity (entityTypes : UniqueSome (Text.codec (p := entityTypePattern.search)))
  | enum (enumValues : UniqueSome (Text.codec (p := enumValuePattern.search)))
  | string
  | number
  | boolean
  deriving DecidableEq

namespace PredicateObject

/-- An object that is only its `kind`. -/
def kindObject (kind : String) : Tagged "kind" Unit :=
  (TaggedFields.tagged "kind" kind .nil).object (show ["kind"].Pairwise (· < ·) by simp)

def entityObject : Tagged "kind" (UniqueSome (Text.codec (p := entityTypePattern.search))) :=
  ((TaggedFields.req "entity_types" (uniqueSome _) (.tagged "kind" "entity" .nil)).object
    (by decide)).iso (fun p => p.1) (fun a => (a, ())) (fun _ => rfl) (fun _ => rfl)

def enumObject : Tagged "kind" (UniqueSome (Text.codec (p := enumValuePattern.search))) :=
  ((TaggedFields.req "enum_values" (uniqueSome _) (.tagged "kind" "enum" .nil)).object
    (by decide)).iso (fun p => p.1) (fun a => (a, ())) (fun _ => rfl) (fun _ => rfl)

def codec : Codec PredicateObject :=
  (entityObject.sum (enumObject.sum ((kindObject "string").sum ((kindObject "number").sum
    (kindObject "boolean") (by decide)) (by decide)) (by decide)) (by decide)).toCodec.iso
    (fun
      | .inl a => .entity a
      | .inr (.inl a) => .enum a
      | .inr (.inr (.inl ())) => .string
      | .inr (.inr (.inr (.inl ()))) => .number
      | .inr (.inr (.inr (.inr ()))) => .boolean)
    (fun
      | .entity a => .inl a
      | .enum a => .inr (.inl a)
      | .string => .inr (.inr (.inl ()))
      | .number => .inr (.inr (.inr (.inl ())))
      | .boolean => .inr (.inr (.inr (.inr ()))))
    (by rintro (_ | _ | _ | _ | _) <;> rfl) (by rintro (_ | _ | _ | _ | _) <;> rfl)

def kind : PredicateObject → String
  | entity _ => "entity"
  | enum _ => "enum"
  | string => "string"
  | number => "number"
  | boolean => "boolean"

end PredicateObject

/-- The `scope` of a predicate. -/
structure PredicateScope where
  allowedFields : Unique ScopeField.codec
  requiredFields : Unique ScopeField.codec
  deriving DecidableEq

def PredicateScope.codec : Codec PredicateScope :=
  ((Fields.req "allowed_fields" (uniqueList _) (.req "required_fields" (uniqueList _) .nil)).object
    (by decide)).iso (fun p => ⟨p.1, p.2.1⟩) (fun s => (s.allowedFields, s.requiredFields, ()))
    (fun _ => rfl) (fun _ => rfl)

inductive Temporal where
  | required
  | optional
  | forbidden
  deriving DecidableEq

namespace Temporal

def text : Temporal → String
  | required => "REQUIRED"
  | optional => "OPTIONAL"
  | forbidden => "FORBIDDEN"

def codec : Codec Temporal :=
  .enum [required, optional, forbidden] text (by intro a; cases a <;> decide)
    (by intro a b; cases a <;> cases b <;> decide)

end Temporal

inductive Cardinality where
  | one
  | many
  deriving DecidableEq

namespace Cardinality

def text : Cardinality → String
  | one => "ONE"
  | many => "MANY"

def codec : Codec Cardinality :=
  .enum [one, many] text (by intro a; cases a <;> decide)
    (by intro a b; cases a <;> cases b <;> decide)

end Cardinality

inductive RuleKind where
  | oppositePolarity
  | exclusiveObject
  | temporalOverlap
  deriving DecidableEq

namespace RuleKind

def text : RuleKind → String
  | oppositePolarity => "OPPOSITE_POLARITY"
  | exclusiveObject => "EXCLUSIVE_OBJECT"
  | temporalOverlap => "TEMPORAL_OVERLAP"

def codec : Codec RuleKind :=
  .enum [oppositePolarity, exclusiveObject, temporalOverlap] text (by intro a; cases a <;> decide)
    (by intro a b; cases a <;> cases b <;> decide)

end RuleKind

structure ConflictRule where
  kind : RuleKind
  ruleVersion : RuleVersion
  deriving DecidableEq

def ConflictRule.codec : Codec ConflictRule :=
  ((Fields.req "kind" RuleKind.codec (.req "rule_version" Text.codec .nil)).object
    (by decide)).iso (fun p => ⟨p.1, p.2.1⟩) (fun r => (r.kind, r.ruleVersion, ()))
    (fun _ => rfl) (fun _ => rfl)

structure EvidencePolicy where
  allowedInterpretations : UniqueSome Interpretation.codec
  minimumEvidenceLinks : {n : AtLeast 0 // n.1.toInt?.any (· ≤ 16) = true}
  deriving DecidableEq

def EvidencePolicy.codec : Codec EvidencePolicy :=
  ((Fields.req "allowed_interpretations" (uniqueSome _) (.req "minimum_evidence_links"
    ((AtLeast.codec : Codec (AtLeast 0)).refine fun n => n.1.toInt?.any (· ≤ 16) = true) .nil)).object
    (by decide)).iso (fun p => ⟨p.1, p.2.1⟩)
    (fun e => (e.allowedInterpretations, e.minimumEvidenceLinks, ()))
    (fun _ => rfl) (fun _ => rfl)

/-- How many evidence links a claim needs at least. -/
def EvidencePolicy.minimum (e : EvidencePolicy) : Nat :=
  (e.minimumEvidenceLinks.1.1.toInt?.getD 0).toNat

/-- A list of at least two different items. -/
abbrev UniqueTwo {α : Type} (c : Codec α) : Type :=
  {as : List α // c.UniqueItems as ∧ 2 ≤ as.length}

structure PredicateDefinition where
  cardinality : Cardinality
  conflictRules : List ConflictRule
  description : Bounded 1 1024
  evidencePolicy : EvidencePolicy
  familyKeyFields : UniqueTwo (Text.codec (p := fieldPathPattern.search))
  key : PredicateKey
  object : PredicateObject
  scope : PredicateScope
  subjectTypes : UniqueSome (Text.codec (p := entityTypePattern.search))
  temporal : Temporal
  deriving DecidableEq

def PredicateDefinition.codec : Codec PredicateDefinition :=
  ((Fields.req "cardinality" Cardinality.codec
    (.req "conflict_rules" ConflictRule.codec.list (.req "description" Text.codec
    (.req "evidence_policy" EvidencePolicy.codec
    (.req "family_key_fields" (Text.codec.list.refine fun as =>
      (Text.codec (p := fieldPathPattern.search)).UniqueItems as ∧ 2 ≤ as.length)
    (.req "key" Text.codec (.req "object" PredicateObject.codec
    (.req "scope" PredicateScope.codec (.req "subject_types" (uniqueSome _)
    (.req "temporal" Temporal.codec .nil)))))))))).object (by decide)).iso
    (fun p => ⟨p.1, p.2.1, p.2.2.1, p.2.2.2.1, p.2.2.2.2.1, p.2.2.2.2.2.1, p.2.2.2.2.2.2.1,
      p.2.2.2.2.2.2.2.1, p.2.2.2.2.2.2.2.2.1, p.2.2.2.2.2.2.2.2.2.1⟩)
    (fun d => (d.cardinality, d.conflictRules, d.description, d.evidencePolicy, d.familyKeyFields,
      d.key, d.object, d.scope, d.subjectTypes, d.temporal, ())) (fun _ => rfl) (fun _ => rfl)

/-- The kinds of the conflict rules of a predicate. -/
def PredicateDefinition.rules (d : PredicateDefinition) : List RuleKind :=
  d.conflictRules.map ConflictRule.kind

structure Registry where
  canonicalizationVersion : RuleVersion
  entityTypes : UniqueSome (Text.codec (p := entityTypePattern.search))
  guardDslVersion : RuleVersion
  predicates : UniqueSome PredicateDefinition.codec
  registryId : Text registryIdPattern.search
  scopeFields : Unique ScopeField.codec
  version : SemVer

namespace Registry

def codec : Codec Registry :=
  ((Fields.req "canonicalization_version" Text.codec (.req "entity_types" (uniqueSome _)
    (.req "guard_dsl_version" Text.codec (.const "object_type" "PREDICATE_REGISTRY"
    (.req "predicates" (uniqueSome _) (.req "registry_id" Text.codec
    (.req "scope_fields" (uniqueList _) (.req "version" Text.codec .nil)))))))).object
    (by decide)).iso
    (fun p => ⟨p.1, p.2.1, p.2.2.1, p.2.2.2.1, p.2.2.2.2.1, p.2.2.2.2.2.1, p.2.2.2.2.2.2.1⟩)
    (fun r => (r.canonicalizationVersion, r.entityTypes, r.guardDslVersion, r.predicates,
      r.registryId, r.scopeFields, r.version, ())) (fun _ => rfl) (fun _ => rfl)

/-- `sha256_json(registry)`. -/
def hash (r : Registry) : Hash := sha256Json (codec.enc r)

/-- `self.predicates.get(key)`. -/
def predicate? (r : Registry) (key : PredicateKey) : Option PredicateDefinition :=
  r.predicates.1.findRev? fun d => d.key = key

/-- Every predicate lists `predicate` among its family key fields. -/
def FamiliesNamePredicate (r : Registry) : Prop :=
  ∀ d ∈ r.predicates.1, ∃ f ∈ d.familyKeyFields.1, (f : String) = "predicate"

end Registry

/-! ### A small registry -/

def systemType : EntityType := ⟨"system", by decide⟩

def systemTypes : UniqueSome (Text.codec (p := entityTypePattern.search)) :=
  ⟨[systemType], by decide⟩

def ledgerSystem : EntityRef := ⟨⟨"system:ledger", by decide⟩, systemType⟩

def propositionVersionOne : One := ⟨.int 1, by decide⟩

def oneLink : {n : AtLeast 0 // n.1.toInt?.any (· ≤ 16) = true} :=
  ⟨.one, by decide⟩

def subjectField : Text fieldPathPattern.search := ⟨"subject.entity_id", by decide⟩

def predicateField : Text fieldPathPattern.search := ⟨"predicate", by decide⟩

/-- One owner for a system; two positive owners contradict each other. -/
def ownerPredicate : PredicateDefinition where
  cardinality := .one
  conflictRules := [⟨.exclusiveObject, ⟨"exclusive-object@1", by decide⟩⟩]
  description := ⟨"Owner of a system.", by decide⟩
  evidencePolicy := ⟨⟨[.direct], by decide⟩, oneLink⟩
  familyKeyFields := ⟨[subjectField, predicateField], by decide⟩
  key := ⟨"system.owner@1", by decide⟩
  object := .string
  scope := ⟨⟨[], by decide⟩, ⟨[], by decide⟩⟩
  subjectTypes := systemTypes
  temporal := .optional

def ownerRegistry : Registry where
  canonicalizationVersion := ⟨"proposition-c14n@1", by decide⟩
  entityTypes := systemTypes
  guardDslVersion := ⟨"guard-dsl@1", by decide⟩
  predicates := ⟨[ownerPredicate], by decide⟩
  registryId := ⟨"shared-mind.owners", by decide⟩
  scopeFields := ⟨[], by decide⟩
  version := ⟨"1.0.0", by decide⟩

/-- Its hash, as `hashlib` gives it. -/
theorem ownerRegistry_hash : ownerRegistry.hash =
    ⟨"sha256:4c3afd7af764a54a1d953bffa4133ea6a0e65e142e766e1387f10f89589595b0", by decide⟩ := by
  have hhex : sha256Hex (utf8 (Registry.codec.enc ownerRegistry).dumps) =
      "4c3afd7af764a54a1d953bffa4133ea6a0e65e142e766e1387f10f89589595b0".toList := by
    rw [JsonOf.dumps, utf8_ofList]
    decide +kernel
  refine Text.ext ?_
  show String.ofList ("sha256:".toList ++ sha256Hex _) = _
  rw [hhex]
  decide

theorem ownerRegistry_familiesNamePredicate : ownerRegistry.FamiliesNamePredicate := by
  intro d hd
  obtain rfl := List.mem_singleton.mp hd
  exact ⟨⟨"predicate", by decide⟩, List.mem_cons_of_mem _ List.mem_cons_self, rfl⟩

end SharedMind
