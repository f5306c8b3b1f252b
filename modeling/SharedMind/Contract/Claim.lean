import SharedMind.Contract.Text

/-!
# Actors, sources, claims and evidence

The definitions of the contract below `Claim`, `SourceRevision` and
`EvidenceLink`, each with the codec that is its schema.  The members of an object
stand in key order, which is the order of its canonical form.
-/

namespace SharedMind

open Py

/-! ### Actors and entities -/

inductive ActorType where
  | agent
  | human
  | service
  deriving DecidableEq

namespace ActorType

def text : ActorType → String
  | agent => "AGENT"
  | human => "HUMAN"
  | service => "SERVICE"

def codec : Codec ActorType :=
  .enum [agent, human, service] text (by intro a; cases a <;> decide)
    (by intro a b; cases a <;> cases b <;> decide)

end ActorType

structure ActorRef where
  actorId : SemanticId
  actorType : ActorType
  deriving DecidableEq

namespace ActorRef

def fields : Fields (SemanticId × ActorType × Unit) :=
  .req "actor_id" Text.codec (.req "actor_type" ActorType.codec .nil)

def codec : Codec ActorRef :=
  (fields.object (by decide)).iso (fun p => ⟨p.1, p.2.1⟩) (fun a => (a.actorId, a.actorType, ()))
    (fun _ => rfl) (fun _ => rfl)

theorem codec_ne_null (a : ActorRef) : codec.enc a ≠ .null :=
  Fields.object_enc_ne_null fields (by decide) _

end ActorRef

structure EntityRef where
  entityId : SemanticId
  entityType : EntityType
  deriving DecidableEq

def EntityRef.codec : Codec EntityRef :=
  ((Fields.req "entity_id" Text.codec (.req "entity_type" Text.codec .nil)).object
    (by decide)).iso (fun p => ⟨p.1, p.2.1⟩) (fun e => (e.entityId, e.entityType, ()))
    (fun _ => rfl) (fun _ => rfl)

/-! ### Propositions -/

inductive ObjectValue where
  | entity (ref : EntityRef)
  | string (value : Bounded 1 4096)
  | number (value : PyNum)
  | boolean (value : Bool)
  | enum (value : EnumValue)
  deriving DecidableEq

namespace ObjectValue

/-- The objects that carry a `value` after their `kind`. -/
def valueObject {α : Type} (kind : String) (c : Codec α) : Tagged "kind" α :=
  ((TaggedFields.tagged "kind" kind (.req "value" c .nil)).object
    (show ["kind", "value"].Pairwise (· < ·) by decide)).only

def entityObject : Tagged "kind" EntityRef :=
  ((TaggedFields.req "entity_id" Text.codec (.req "entity_type" Text.codec
    (.tagged "kind" "entity" .nil))).object (by decide)).iso
    (fun p => ⟨p.1, p.2.1⟩) (fun e => (e.entityId, e.entityType, ()))
    (fun _ => rfl) (fun _ => rfl)

def codec : Codec ObjectValue :=
  (entityObject.sum ((valueObject "string" Text.codec).sum ((valueObject "number" .num).sum
    ((valueObject "boolean" .bool).sum (valueObject "enum" Text.codec)
      (by decide)) (by decide)) (by decide)) (by decide)).toCodec.iso
    (fun
      | .inl a => .entity a
      | .inr (.inl a) => .string a
      | .inr (.inr (.inl a)) => .number a
      | .inr (.inr (.inr (.inl a))) => .boolean a
      | .inr (.inr (.inr (.inr a))) => .enum a)
    (fun
      | .entity a => .inl a
      | .string a => .inr (.inl a)
      | .number a => .inr (.inr (.inl a))
      | .boolean a => .inr (.inr (.inr (.inl a)))
      | .enum a => .inr (.inr (.inr (.inr a))))
    (by rintro (_ | _ | _ | _ | _) <;> rfl) (by rintro (_ | _ | _ | _ | _) <;> rfl)

/-- The `kind` of the value. -/
def kind : ObjectValue → String
  | entity _ => "entity"
  | string _ => "string"
  | number _ => "number"
  | boolean _ => "boolean"
  | enum _ => "enum"

/-- `==` on two values: numbers by value, all others by their text. -/
def pyEq (a b : ObjectValue) : Bool := (codec.enc a).pyEq (codec.enc b)

end ObjectValue

inductive Polarity where
  | positive
  | negative
  deriving DecidableEq

namespace Polarity

def text : Polarity → String
  | positive => "POSITIVE"
  | negative => "NEGATIVE"

def codec : Codec Polarity :=
  .enum [positive, negative] text (by intro a; cases a <;> decide)
    (by intro a b; cases a <;> cases b <;> decide)

end Polarity

/-- `ScopeV1`. -/
structure Scope where
  component : Option (Bounded 1 128)
  environment : Option (Bounded 1 64)
  region : Option (Bounded 1 64)
  tenant : Option (Bounded 1 128)
  deriving DecidableEq

def Scope.codec : Codec Scope :=
  ((Fields.req "component" Text.nullable (.req "environment" Text.nullable
    (.req "region" Text.nullable (.req "tenant" Text.nullable .nil)))).object (by decide)).iso
    (fun p => ⟨p.1, p.2.1, p.2.2.1, p.2.2.2.1⟩)
    (fun s => (s.component, s.environment, s.region, s.tenant, ())) (fun _ => rfl) (fun _ => rfl)

/-- A member of the scope by its name. -/
def Scope.get (s : Scope) : String → Option String
  | "component" => s.component.map fun t => t
  | "environment" => s.environment.map fun t => t
  | "region" => s.region.map fun t => t
  | "tenant" => s.tenant.map fun t => t
  | _ => none

/-- A string or `null`. -/
def nullableStr : Codec (Option String) := Codec.str.nullable fun _ => by simp [Codec.str]

/-- `from` and `to` of a validity interval. -/
structure ValidTime where
  «from» : Option String
  «to» : Option String
  deriving DecidableEq

def ValidTime.codec : Codec ValidTime :=
  ((Fields.req "from" nullableStr (.req "to" nullableStr .nil)).object (by decide)).iso
    (fun p => ⟨p.1, p.2.1⟩) (fun t => (t.from, t.«to», ())) (fun _ => rfl) (fun _ => rfl)

/-- The number 1. -/
abbrev One : Type := {n : PyNum // n.pyEq (.int 1) = true}

def One.codec : Codec One := Codec.num.refine fun n => n.pyEq (.int 1) = true

structure Proposition where
  object : ObjectValue
  polarity : Polarity
  predicate : PredicateKey
  propositionVersion : One
  scope : Scope
  subject : EntityRef
  validTime : ValidTime
  deriving DecidableEq

def Proposition.codec : Codec Proposition :=
  ((Fields.req "object" ObjectValue.codec (.req "polarity" Polarity.codec
    (.req "predicate" Text.codec (.req "proposition_version" One.codec
    (.req "scope" Scope.codec (.req "subject" EntityRef.codec
    (.req "valid_time" ValidTime.codec .nil))))))).object (by decide)).iso
    (fun p => ⟨p.1, p.2.1, p.2.2.1, p.2.2.2.1, p.2.2.2.2.1, p.2.2.2.2.2.1, p.2.2.2.2.2.2.1⟩)
    (fun p => (p.object, p.polarity, p.predicate, p.propositionVersion, p.scope, p.subject,
      p.validTime, ())) (fun _ => rfl) (fun _ => rfl)

/-! ### Sources -/

inductive MediaType where
  | markdown
  | plain
  | json
  deriving DecidableEq

namespace MediaType

def text : MediaType → String
  | markdown => "text/markdown"
  | plain => "text/plain"
  | json => "application/json"

def codec : Codec MediaType :=
  .enum [markdown, plain, json] text (by intro a; cases a <;> decide)
    (by intro a b; cases a <;> cases b <;> decide)

end MediaType

structure SourceRevision where
  blobRef : BlobRef
  capturedAt : String
  contentHash : Hash
  mediaType : MediaType
  registeredBy : ActorRef
  revisionId : RecordId
  sourceId : SemanticId
  sourceLocator : Option (Option (Bounded 0 2048))
  title : Option (Option (Bounded 0 512))
  deriving DecidableEq

def SourceRevision.codec : Codec SourceRevision :=
  ((Fields.req "blob_ref" Text.codec (.req "captured_at" .str (.req "content_hash" Text.codec
    (.req "media_type" MediaType.codec (.const "object_type" "SOURCE_REVISION"
    (.req "registered_by" ActorRef.codec (.req "revision_id" Text.codec
    (.req "source_id" Text.codec (.opt "source_locator" Text.nullable
    (.opt "title" Text.nullable .nil List.not_mem_nil)
    (show "source_locator" ∉ ["title"] by decide)))))))))).object
    (show ["blob_ref", "captured_at", "content_hash", "media_type", "object_type", "registered_by",
      "revision_id", "source_id", "source_locator", "title"].Pairwise (· < ·) by decide)).iso
    (fun p => ⟨p.1, p.2.1, p.2.2.1, p.2.2.2.1, p.2.2.2.2.1, p.2.2.2.2.2.1, p.2.2.2.2.2.2.1,
      p.2.2.2.2.2.2.2.1, p.2.2.2.2.2.2.2.2.1⟩)
    (fun s => (s.blobRef, s.capturedAt, s.contentHash, s.mediaType, s.registeredBy, s.revisionId,
      s.sourceId, s.sourceLocator, s.title, ())) (fun _ => rfl) (fun _ => rfl)

/-! ### Claims -/

structure Claim where
  assertedAt : String
  assertedBy : ActorRef
  claimId : RecordId
  proposition : Proposition
  propositionHash : Hash
  deriving DecidableEq

def Claim.codec : Codec Claim :=
  ((Fields.req "asserted_at" .str (.req "asserted_by" ActorRef.codec
    (.req "claim_id" Text.codec (.const "object_type" "CLAIM"
    (.req "proposition" Proposition.codec (.req "proposition_hash" Text.codec .nil)))))).object
    (by decide)).iso (fun p => ⟨p.1, p.2.1, p.2.2.1, p.2.2.2.1, p.2.2.2.2.1⟩)
    (fun c => (c.assertedAt, c.assertedBy, c.claimId, c.proposition, c.propositionHash, ()))
    (fun _ => rfl) (fun _ => rfl)

/-! ### Evidence -/

structure TextSelector where
  endByte : AtLeast 1
  excerpt : Bounded 1 16384
  excerptHash : Hash
  prefixHash : Option Hash
  startByte : AtLeast 0
  suffixHash : Option Hash
  deriving DecidableEq

def TextSelector.codec : Codec TextSelector :=
  ((Fields.req "end_byte" AtLeast.codec (.req "excerpt" Text.codec
    (.req "excerpt_hash" Text.codec (.const "kind" "TEXT_BYTE_RANGE"
    (.req "prefix_hash" Text.nullable (.req "start_byte" AtLeast.codec
    (.req "suffix_hash" Text.nullable .nil))))))).object (by decide)).iso
    (fun p => ⟨p.1, p.2.1, p.2.2.1, p.2.2.2.1, p.2.2.2.2.1, p.2.2.2.2.2.1⟩)
    (fun s => (s.endByte, s.excerpt, s.excerptHash, s.prefixHash, s.startByte, s.suffixHash, ()))
    (fun _ => rfl) (fun _ => rfl)

inductive Stance where
  | supports
  | challenges
  | mentions
  deriving DecidableEq

namespace Stance

def text : Stance → String
  | supports => "SUPPORTS"
  | challenges => "CHALLENGES"
  | mentions => "MENTIONS"

def codec : Codec Stance :=
  .enum [supports, challenges, mentions] text (by intro a; cases a <;> decide)
    (by intro a b; cases a <;> cases b <;> decide)

end Stance

inductive Interpretation where
  | direct
  | reported
  | inferred
  deriving DecidableEq

namespace Interpretation

def text : Interpretation → String
  | direct => "DIRECT"
  | reported => "REPORTED"
  | inferred => "INFERRED"

def codec : Codec Interpretation :=
  .enum [direct, reported, inferred] text (by intro a; cases a <;> decide)
    (by intro a b; cases a <;> cases b <;> decide)

end Interpretation

structure EvidenceLink where
  claimId : RecordId
  evidenceLinkId : RecordId
  interpretation : Interpretation
  linkedAt : String
  linkedBy : ActorRef
  selector : TextSelector
  sourceRevisionId : RecordId
  stance : Stance
  deriving DecidableEq

def EvidenceLink.codec : Codec EvidenceLink :=
  ((Fields.req "claim_id" Text.codec (.req "evidence_link_id" Text.codec
    (.req "interpretation" Interpretation.codec (.req "linked_at" .str
    (.req "linked_by" ActorRef.codec (.const "object_type" "EVIDENCE_LINK"
    (.req "selector" TextSelector.codec (.req "source_revision_id" Text.codec
    (.req "stance" Stance.codec .nil))))))))).object (by decide)).iso
    (fun p => ⟨p.1, p.2.1, p.2.2.1, p.2.2.2.1, p.2.2.2.2.1, p.2.2.2.2.2.1, p.2.2.2.2.2.2.1,
      p.2.2.2.2.2.2.2.1⟩)
    (fun l => (l.claimId, l.evidenceLinkId, l.interpretation, l.linkedAt, l.linkedBy, l.selector,
      l.sourceRevisionId, l.stance, ())) (fun _ => rfl) (fun _ => rfl)

end SharedMind
