import SharedMind.Kernel.Continuity

/-!
# Sources, claims, evidence and conflicts: the reducers

The part of `kernel.py` below `_apply_operation`.

* `familyKey`, `conflictKind`: which claims contradict each other.
* `assertClaim`, `attachEvidence`, `openConflicts`, `retractClaim`,
  `resolveConflict`: the reducers.
* `applyOperation`: one operation of a proposal.
-/

namespace SharedMind

open Py

/-! ### Conflict identifiers -/

/-- `sha256_json(members)`. -/
def membersDigest (members : List RecordId) : Hash :=
  sha256Json (.arr (members.map fun m => .str (m : String)))

theorem conflictId_admitted {digits : List Char} (hlen : digits.length = 64)
    (hhex : ∀ c ∈ digits, isHexChar c = true) :
    recordIdPattern.search (String.ofList ("conflict_".toList ++ digits.take 24)) = true := by
  have htake : (digits.take 24).length = 24 := by rw [List.length_take, hlen]; rfl
  refine Pattern.search_of_fullmatch (recordId_admitted (by decide) (by omega) (by omega) ?_)
  exact fun c hc => alnumChar_of_isHexChar (hhex c (List.mem_of_mem_take hc))

/-- `"conflict_" + digest.split(":", 1)[1][:24]`. -/
def conflictIdOf (members : List RecordId) : RecordId :=
  ⟨String.ofList ("conflict_".toList ++ (membersDigest members).digits.take 24),
    conflictId_admitted (by rw [membersDigest, sha256Json, sha256Bytes_digits, sha256Hex_length])
      (by rw [membersDigest, sha256Json, sha256Bytes_digits]; exact sha256Hex_digit _)⟩

variable [Host]

/-! ### Times -/

/-- `_parse_time`, as microseconds of UTC. -/
def parseTime (value : Option String) : Kernel (Option Int) :=
  match value with
  | none => .ok none
  | some s => do
    let t ← orRaise (fromisoformat (replaceZ s)) .valueError
    let utc ← (astimezoneUtc Host.localOffset t).mapError ofTimeError
    return some utc

/-- `_overlaps`: an open end reaches to the first or the last moment there is. -/
def overlaps (left right : ValidTime) : Kernel Bool := do
  let leftStart := (← parseTime left.from).getD 0
  let rightStart := (← parseTime right.from).getD 0
  let leftEnd := (← parseTime left.to).getD maxMicros
  let rightEnd := (← parseTime right.to).getD maxMicros
  return decide (max leftStart rightStart < min leftEnd rightEnd)

/-! ### Families and contradiction -/

/-- The values at a dotted path, from the outside in. -/
def getPath (value : Json) (path : String) : Json :=
  (path.toList.splitOn '.').foldl (fun v part => (v.get? (String.ofList part)).getD .null) value

/-- The values whose hash is the family key. -/
def familyValues (proposition : Proposition) (predicate : PredicateDefinition) : Json :=
  .arr (predicate.familyKeyFields.1.map fun path =>
    getPath (Proposition.codec.enc proposition) path)

/-- `_family_key`. -/
def familyKey (proposition : Proposition) (predicate : PredicateDefinition) : Hash :=
  sha256Json (familyValues proposition predicate)

/-- `_conflict_kind`. -/
def conflictKind (incoming other : Proposition) (predicate : PredicateDefinition) :
    Kernel (Option ConflictKind) := do
  let apart ←
    if .temporalOverlap ∈ predicate.rules then
      (do return !(← overlaps incoming.validTime other.validTime))
    else pure false
  if apart then return none
  else if .oppositePolarity ∈ predicate.rules ∧ incoming.object.pyEq other.object = true ∧
      incoming.polarity ≠ other.polarity then
    return some .polarityConflict
  else if .exclusiveObject ∈ predicate.rules ∧ predicate.cardinality = .one ∧
      incoming.polarity = .positive ∧ other.polarity = .positive ∧
      incoming.object.pyEq other.object = false then
    return some .exclusiveValueConflict
  else return none

/-- `_active_family_members`. -/
def activeFamilyMembers (reg : Registry) (t : Tables) (family : Hash) :
    List (RecordId × ClaimRow) :=
  t.claims.toList.filter fun c => c.2.status = .active ∧
    (reg.predicate? c.2.proposition.predicate).any
      fun predicate => familyKey c.2.proposition predicate = family

/-- `_active_set_digest`. -/
def activeSetDigest (reg : Registry) (t : Tables) (family : Hash) : Hash :=
  sha256Json (.arr ((activeFamilyMembers reg t family).map fun c => .obj
    [("claim_id", .str (c.1 : String)), ("proposition_hash", .str (c.2.propositionHash : String)),
      ("version", .num (.int c.2.version))]))

/-! ### Semantics of a proposition -/

/-- `_validate_evidence_interpretations`. -/
def validateEvidenceInterpretations (predicate : PredicateDefinition)
    (evidence : List EvidenceLink) : Kernel Unit :=
  require (∀ link ∈ evidence,
    link.interpretation ∈ predicate.evidencePolicy.allowedInterpretations.1)
    .evidenceInterpretationNotAllowed

/-- The scope fields in the order of the schema. -/
def scopeFields : List ScopeField := [.component, .environment, .region, .tenant]

/-- `_validate_predicate_semantics`. -/
def validatePredicateSemantics (proposition : Proposition) (predicate : PredicateDefinition)
    (evidence : List EvidenceLink) : Kernel Unit := do
  require (proposition.object.kind = predicate.object.kind) .objectKindMismatch
  match predicate.object, proposition.object with
  | .entity types, .entity ref => require (ref.entityType ∈ types.1) .objectEntityTypeMismatch
  | .enum values, .enum value => require (value ∈ values.1) .objectEnumValueNotAllowed
  | _, _ => pure ()
  require (∀ f ∈ scopeFields, proposition.scope.get f.text ≠ none →
    f ∈ predicate.scope.allowedFields.1) .scopeFieldNotAllowed
  require (∀ f ∈ predicate.scope.requiredFields.1, proposition.scope.get f.text ≠ none)
    .requiredScopeMissing
  let start ← parseTime proposition.validTime.from
  let stop ← parseTime proposition.validTime.to
  require (predicate.temporal = .required → start ≠ none) .validTimeRequired
  require (predicate.temporal = .forbidden → start = none ∧ stop = none) .validTimeForbidden
  require (∀ s ∈ start, ∀ e ∈ stop, s < e) .invalidValidTimeRange
  validateEvidenceInterpretations predicate evidence

/-! ### Sources -/

/-- `_content_from_blob_ref`. -/
def contentFromBlobRef (blobRef : String) : Option Bytes :=
  let cs := blobRef.toList
  if "data:".toList.isPrefixOf cs = true ∧ ',' ∈ cs then
    let header := (cs.drop 5).takeWhile (· ≠ ',')
    let payload := ((cs.drop 5).dropWhile (· ≠ ',')).drop 1
    if ";base64".toList.isSuffixOf header then b64decode? payload
    else some (unquoteToBytes (String.ofList payload))
  else none

def registerSourceRevision (w : Txn) (source : SourceRevision) : Kernel Txn :=
  match w.tables.sources[source.revisionId]? with
  | some row => do
    require (row.contentHash = source.contentHash) .sourceRevisionImmutabilityViolation
    require (sha256Bytes row.content = source.contentHash) .sourceContentHashMismatch
    return w.emit w.tables (.sourceRevisionRegistered source)
  | none => do
    let content ← orRaise (contentFromBlobRef source.blobRef)
      (.validationFailure .sourceContentUnavailable)
    require (sha256Bytes content = source.contentHash) .sourceContentHashMismatch
    return w.emit { w.tables with
        sources := w.tables.sources.insert source.revisionId ⟨source.contentHash, source, content⟩ }
      (.sourceRevisionRegistered source)

/-! ### Evidence -/

/-- An index of a slice: an `int`, or `TypeError` for a float. -/
def sliceIndex (n : PyNum) : Kernel Nat :=
  match n with
  | .int i => .ok i.toNat
  | .float _ => .error .typeError

/-- `_validate_and_insert_evidence`. -/
def validateAndInsertEvidence (t : Tables) (link : EvidenceLink) (claimId : RecordId) :
    Kernel Tables := do
  require (link.claimId = claimId) .evidenceClaimMismatch
  let source ← orRaise t.sources[link.sourceRevisionId]?
    (.validationFailure .sourceRevisionNotFound)
  let start ← sliceIndex link.selector.startByte.1
  let stop ← sliceIndex link.selector.endByte.1
  let excerpt := slice source.content start stop
  let decoded ← orRaise (utf8Decode? excerpt) .valueError
  require (decoded = link.selector.excerpt.1 ∧ sha256Bytes excerpt = link.selector.excerptHash)
    .evidenceSelectorMismatch
  ensure (t.evidence.contains link.evidenceLinkId = false) (.integrityError .unique)
  ensure (t.claims.contains claimId = true) (.integrityError .foreignKey)
  return { t with evidence :=
    t.evidence.insert link.evidenceLinkId ⟨claimId, link.sourceRevisionId, link⟩ }

def attachEvidence (reg : Registry) (w : Txn) (link : EvidenceLink) : Kernel Txn := do
  let row ← orRaise w.tables.claims[link.claimId]? (.transactionConflict .claimStatusMismatch)
  requireNow (row.status = .active) .claimStatusMismatch
  let predicate ← orRaise (reg.predicate? row.proposition.predicate)
    (.validationFailure .unknownPredicate)
  validateEvidenceInterpretations predicate [link]
  let t ← validateAndInsertEvidence w.tables link link.claimId
  return w.emit { t with
      claims := t.claims.modify link.claimId fun r => { r with version := r.version + 1 } }
    (.evidenceAttached link)

/-! ### Conflicts -/

/-- `_conflict_document`. -/
def conflictDocument (id : RecordId) (row : ConflictRow) : ConflictDoc where
  conflictId := id
  episode := .int row.episode
  familyKey := row.familyKey
  kind := row.kind
  memberClaimIds := row.members
  memberDigest := row.memberDigest
  openedSeq := .int row.openedSeq
  resolution := row.resolution
  status := row.status

/-- The active claims that contradict the incoming one, each with the kind. -/
def contradicting (t : Tables) (incoming : Claim) (predicate : PredicateDefinition)
    (ignored : List RecordId) : Kernel (List (RecordId × ConflictKind)) :=
  t.claims.toList.foldlM (fun found c =>
    if c.2.status = .active ∧ c.1 ≠ incoming.claimId ∧ c.1 ∉ ignored ∧
        familyKey c.2.proposition predicate = familyKey incoming.proposition predicate then do
      match ← conflictKind incoming.proposition c.2.proposition predicate with
      | some kind => return found ++ [(c.1, kind)]
      | none => return found
    else pure found) []

/-- The open conflict of a family and kind. -/
def openConflict? (t : Tables) (family : Hash) (kind : ConflictKind) :
    Option (RecordId × ConflictRow) :=
  t.conflicts.toList.find? fun c =>
    c.2.familyKey = family ∧ c.2.kind = kind ∧ c.2.status = .open

/-- The row of the highest episode, the first of them. -/
def latest (rows : List (RecordId × ConflictRow)) : Option (RecordId × ConflictRow) :=
  rows.foldl (fun best c => match best with
    | none => some c
    | some b => if b.2.episode < c.2.episode then some c else some b) none

/-- The conflict of a family and kind that a new contradiction reopens. -/
def resolvedConflict? (t : Tables) (family : Hash) (kind : ConflictKind) :
    Option (RecordId × ConflictRow) :=
  latest (t.conflicts.toList.filter fun c =>
    c.2.familyKey = family ∧ c.2.kind = kind ∧ c.2.status = .resolved)

/-- An open conflict takes the new members in. -/
def ConflictRow.merge (row : ConflictRow) (members : List RecordId) : ConflictRow :=
  { row with
    members := sortedSet (row.members ++ members)
    memberDigest := membersDigest (sortedSet (row.members ++ members))
    version := row.version + 1 }

/-- A resolved conflict opens again, with the new members only. -/
def ConflictRow.reopen (row : ConflictRow) (members : List RecordId) (openedSeq : Nat) :
    ConflictRow :=
  { row with
    members := sortedSet members
    memberDigest := membersDigest (sortedSet members)
    status := .open
    episode := row.episode + 1
    version := row.version + 1
    resolution := none
    openedSeq := openedSeq }

/-- The first episode of a conflict. -/
def ConflictRow.new (family : Hash) (kind : ConflictKind) (members : List RecordId)
    (openedSeq : Nat) : ConflictRow :=
  ⟨family, kind, membersDigest (sortedSet members), sortedSet members, .open, 1, 1, none, openedSeq⟩

/-- The conflict row one kind of contradiction leaves behind: merged, reopened or
new. -/
def conflictRowFor (t : Tables) (family : Hash) (kind : ConflictKind) (members : List RecordId)
    (openedSeq : Nat) : Kernel (RecordId × ConflictRow) :=
  match openConflict? t family kind, resolvedConflict? t family kind with
  | some c, _ => .ok (c.1, c.2.merge members)
  | none, some c => .ok (c.1, c.2.reopen members openedSeq)
  | none, none => do
    ensure (t.conflicts.contains (conflictIdOf (sortedSet members)) = false)
      (.integrityError .unique)
    return (conflictIdOf (sortedSet members), .new family kind members openedSeq)

/-- Open or extend the conflict of one kind; nothing when no claim contradicts. -/
def openConflictOf (w : Txn) (incoming : Claim) (family : Hash) (kind : ConflictKind)
    (found : List (RecordId × ConflictKind)) (openedSeq : Nat) : Kernel Txn :=
  match (found.filter fun f => f.2 = kind).map Prod.fst with
  | [] => .ok w
  | members => do
    let c ← conflictRowFor w.tables family kind (incoming.claimId :: members) openedSeq
    let w' := w.emit { w.tables with conflicts := w.tables.conflicts.insert c.1 c.2 }
      (.conflictOpened (conflictDocument c.1 c.2))
    return { w' with conflictIds := w'.conflictIds ++ [c.1] }

/-- `_open_conflicts`, the kinds in the order of their names. -/
def openConflicts (w : Txn) (incoming : Claim) (predicate : PredicateDefinition)
    (ignored : List RecordId) (openedSeq : Nat) : Kernel Txn := do
  let family := familyKey incoming.proposition predicate
  let found ← contradicting w.tables incoming predicate ignored
  let w ← openConflictOf w incoming family .exclusiveValueConflict found openedSeq
  openConflictOf w incoming family .polarityConflict found openedSeq

/-! ### Claims -/

def Claim.row (claim : Claim) : ClaimRow :=
  ⟨claim.propositionHash, claim.proposition, claim, .active, 1, none⟩

/-- The checks `_assert_claim` and `_replay_assert_claim` make before they insert the
claim; the claim's predicate. -/
def validateClaim (reg : Registry) (claim : Claim) (evidence : List EvidenceLink) :
    Kernel PredicateDefinition := do
  require (sha256Json (Proposition.codec.enc claim.proposition) = claim.propositionHash)
    .propositionHashMismatch
  let predicate ← orRaise (reg.predicate? claim.proposition.predicate)
    (.validationFailure .unknownPredicate)
  require (claim.proposition.subject.entityType ∈ predicate.subjectTypes.1) .subjectTypeMismatch
  validatePredicateSemantics claim.proposition predicate evidence
  require (predicate.evidencePolicy.minimum ≤ evidence.length) .insufficientEvidence
  return predicate

/-- The claim's row and its evidence. -/
def insertClaim (t : Tables) (claim : Claim) (evidence : List EvidenceLink) : Kernel Tables := do
  ensure (t.claims.contains claim.claimId = false) (.integrityError .unique)
  evidence.foldlM (fun t link => validateAndInsertEvidence t link claim.claimId)
    { t with claims := t.claims.insert claim.claimId claim.row }

def assertClaim (reg : Registry) (w : Txn) (claim : Claim) (evidence : List EvidenceLink)
    (ignored : List RecordId) (openedSeq : Nat) : Kernel Txn := do
  let predicate ← validateClaim reg claim evidence
  let t ← insertClaim w.tables claim evidence
  openConflicts (w.emit t (.claimAsserted claim evidence)) claim predicate ignored openedSeq

def ClaimRow.supersede (row : ClaimRow) (by' : RecordId) : ClaimRow :=
  { row with status := .superseded, version := row.version + 1, supersededBy := some by' }

/-- The `SUPERSEDE_CLAIM` branch. -/
def supersedeClaim (reg : Registry) (w : Txn) (op : SupersedeClaim) (openedSeq : Nat) :
    Kernel Txn := do
  let target ← orRaise w.tables.claims[op.targetClaimId]?
    (.transactionConflict .claimStatusMismatch)
  requireNow (target.status = .active) .claimStatusMismatch
  let w ← assertClaim reg w op.replacementClaim op.initialEvidence.1 [op.targetClaimId] openedSeq
  return w.emit { w.tables with
      claims := w.tables.claims.modify op.targetClaimId
        fun r => r.supersede op.replacementClaim.claimId }
    (.claimSuperseded op.rationale op.replacementClaim.claimId op.targetClaimId)

/-- `_actor_is_authorized`. -/
def actorIsAuthorized (actor authority : ActorRef) : Bool :=
  actor.actorType = .human || actor.actorId = authority.actorId

def ClaimRow.retract (row : ClaimRow) : ClaimRow :=
  { row with status := .retracted, version := row.version + 1 }

def retractClaim (w : Txn) (proposer : ActorRef) (op : RetractClaim) : Kernel Txn := do
  let row ← orRaise w.tables.claims[op.targetClaimId]? (.transactionConflict .claimStatusMismatch)
  requireNow (row.status = .active) .claimStatusMismatch
  require (actorIsAuthorized proposer row.document.assertedBy = true) .actorNotAuthorized
  require (∀ id ∈ op.evidenceLinkIds.1, ∃ e ∈ w.tables.evidence[id]?,
    e.claimId = op.targetClaimId) .evidenceReferenceNotFound
  return w.emit { w.tables with
      claims := w.tables.claims.modify op.targetClaimId ClaimRow.retract }
    (.claimRetracted proposer op.authorityPolicyVersion op.rationale op.targetClaimId)

def ConflictRow.resolve (row : ConflictRow) (resolution : Resolution) : ConflictRow :=
  { row with status := .resolved, version := row.version + 1, resolution := some resolution }

def resolveConflict (w : Txn) (proposer : ActorRef) (op : ResolveConflict) : Kernel Txn := do
  let row ← orRaise w.tables.conflicts[op.conflictId]?
    (.transactionConflict .conflictStatusMismatch)
  requireNow (row.status = .open) .conflictStatusMismatch
  requireNow (row.memberDigest = op.expectedMemberDigest) .conflictMemberDigestMismatch
  requireNow (op.resolution.resolutionEpoch.eqInt row.episode = true)
    .conflictResolutionEpochMismatch
  require (actorIsAuthorized proposer op.resolution.resolver = true) .actorNotAuthorized
  let selected := op.resolution.selectedClaimIds.1
  let rejected := op.resolution.rejectedClaimIds.1
  require ((∀ id ∈ selected, id ∉ rejected) ∧
    sortedSet (selected ++ rejected) = sortedSet row.members) .invalidConflictResolution
  require (∀ id ∈ op.resolution.evidenceLinkIds.1, ∃ e ∈ w.tables.evidence[id]?,
    e.claimId ∈ row.members) .evidenceReferenceNotFound
  return w.emit { w.tables with
      conflicts := w.tables.conflicts.modify op.conflictId fun r => r.resolve op.resolution }
    (.conflictResolved op.conflictId op.resolution)

/-! ### Operations -/

/-- `_apply_operation`. -/
def applyOperation (reg : Registry) (proposer : ActorRef) (openedSeq : Nat) (w : Txn)
    (op : Operation) : Kernel Txn :=
  match applyContinuityOperation w op with
  | some run => run
  | none =>
    match op with
    | .registerSourceRevision _ source => registerSourceRevision w source
    | .assertClaim claim evidence _ => assertClaim reg w claim evidence.1 [] openedSeq
    | .attachEvidence link _ => attachEvidence reg w link
    | .supersedeClaim op => supersedeClaim reg w op openedSeq
    | .retractClaim op => retractClaim w proposer op
    | .resolveConflict op => resolveConflict w proposer op
    | _ => .ok w

/-- The operations of a proposal in order. -/
def applyOperations (reg : Registry) (proposer : ActorRef) (openedSeq : Nat) (t : Tables)
    (ops : List Operation) : Kernel Txn :=
  ops.foldlM (applyOperation reg proposer openedSeq) ⟨t, [], []⟩

end SharedMind
