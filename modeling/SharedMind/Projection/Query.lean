import SharedMind.Projection.Build

/-!
# Structured queries

* `QuerySpec`: what may be asked; `querySpec` checks it.
* `Candidate`: a record of the projection with what a filter reads of it.
* `query`: one page of the matching records.

The sets a record is filtered by are sets of texts, listed.
-/

namespace SharedMind.Projection

open Py

/-! ### What may be asked -/

inductive QueryKind where
  | sourceRevision
  | claim
  | evidenceLink
  | conflict
  | decisionRecord
  | openQuestion
  | workItem
  deriving DecidableEq

namespace QueryKind

/-- `QUERY_KINDS`. -/
def all : List QueryKind :=
  [sourceRevision, claim, evidenceLink, conflict, decisionRecord, openQuestion, workItem]

def text : QueryKind → String
  | sourceRevision => "SOURCE_REVISION"
  | claim => "CLAIM"
  | evidenceLink => "EVIDENCE_LINK"
  | conflict => "CONFLICT"
  | decisionRecord => "DECISION_RECORD"
  | openQuestion => "OPEN_QUESTION"
  | workItem => "WORK_ITEM"

/-- The place in `QUERY_KINDS`. -/
def index (k : QueryKind) : Nat := all.idxOf k

def of? (s : String) : Option QueryKind := all.find? fun k => k.text = s

end QueryKind

structure QuerySpec where
  kinds : List QueryKind
  ids : List String
  titleContains : Option String
  predicates : List String
  sourceIds : List String
  sourceRevisionIds : List String
  statuses : List String
  limit : Nat
  offset : Nat
  includeRecord : Bool
  limit_pos : 1 ≤ limit
  limit_le : limit ≤ 1000

/-- The arguments of a `QuerySpec`. -/
structure QueryArgs where
  kinds : List String
  ids : List String
  titleContains : Option String
  predicates : List String
  sourceIds : List String
  sourceRevisionIds : List String
  statuses : List String
  limit : Int
  offset : Int
  includeRecord : Bool

def statusPattern : Pattern :=
  ⟨[[.one upperChar, ⟨orElse (orElse upperChar digitChar) (oneOf "_"), 0, some 63⟩]]⟩

/-- `_string_values`. -/
def stringValues (name : String) (values : List String) : Except ProjectionExc (List String) := do
  ensure (∀ v ∈ values, v ≠ "") (.valueError (name ++ " must contain only non-empty strings"))
  ensure values.Nodup (.valueError (name ++ " must not contain duplicates"))
  return values.insertionSort (· ≤ ·)

/-- `_require_pattern`. -/
def requirePattern (name : String) (values : List String) (pattern : Pattern) :
    Except ProjectionExc Unit :=
  ensure (∀ v ∈ values, pattern.fullmatch v = true)
    (.valueError (name ++ " contains an invalid value"))

/-- `QuerySpec.__post_init__`. -/
def querySpec (args : QueryArgs) : Except ProjectionExc QuerySpec := do
  let kinds ← stringValues "kinds" args.kinds
  let ids ← stringValues "ids" args.ids
  let predicates ← stringValues "predicates" args.predicates
  let sourceIds ← stringValues "source_ids" args.sourceIds
  let sourceRevisionIds ← stringValues "source_revision_ids" args.sourceRevisionIds
  let statuses ← stringValues "statuses" args.statuses
  let kinds ← orRaise (kinds.mapM QueryKind.of?)
    (.valueError "kinds contains an unsupported object kind")
  requirePattern "ids" ids recordIdPattern
  requirePattern "predicates" predicates predicateKeyPattern
  requirePattern "source_ids" sourceIds semanticIdPattern
  requirePattern "source_revision_ids" sourceRevisionIds recordIdPattern
  requirePattern "statuses" statuses statusPattern
  ensure (args.titleContains ≠ some "") (.valueError "title_contains must be a non-empty string")
  if h : 1 ≤ args.limit ∧ args.limit ≤ 1000 then do
    ensure (0 ≤ args.offset) (.valueError "offset must be greater than or equal to zero")
    return ⟨kinds, ids, args.titleContains, predicates, sourceIds, sourceRevisionIds, statuses,
      args.limit.toNat, args.offset.toNat, args.includeRecord, by omega, by omega⟩
  else .error (.valueError "limit must be between 1 and 1000")

def queryVersion : String := "structured-query@1"

namespace QuerySpec

def normalized (spec : QuerySpec) : Json :=
  let texts (values : List String) : Json := .arr (values.map .str)
  .obj [
    ("ids", texts spec.ids),
    ("include_record", .bool spec.includeRecord),
    ("kinds", texts (spec.kinds.map QueryKind.text)),
    ("limit", intColumn spec.limit),
    ("offset", intColumn spec.offset),
    ("predicates", texts spec.predicates),
    ("query_version", .str queryVersion),
    ("source_ids", texts spec.sourceIds),
    ("source_revision_ids", texts spec.sourceRevisionIds),
    ("statuses", texts spec.statuses),
    ("title_contains", optText spec.titleContains)]

/-- The same question from another offset on. -/
def from_ (spec : QuerySpec) (offset : Nat) : QuerySpec := { spec with offset := offset }

end QuerySpec

/-! ### Reading -/

/-- `value[key]`. -/
def item (value : Json) (key : String) : Except ProjectionExc Json :=
  orRaise (value.get? key) (.keyError key)

def textOf (value : Json) : Except ProjectionExc String := orRaise value.str? .typeError

def textAt (value : Json) (key : String) : Except ProjectionExc String := do
  textOf (← item value key)

def itemsOf : Json → Except ProjectionExc (List Json)
  | .arr items => .ok items
  | _ => .error .typeError

def itemsAt (value : Json) (key : String) : Except ProjectionExc (List Json) := do
  itemsOf (← item value key)

/-- `value.get(key)`. -/
def getOrNone (value : Json) (key : String) : Json := (value.get? key).getD .null

/-- `value.get(key, ())`. -/
def optItemsAt (value : Json) (key : String) : Except ProjectionExc (List Json) :=
  match value.get? key with
  | none => .ok []
  | some items => itemsOf items

/-- A dict of the pairs; a later one takes the place of an earlier one. -/
def lookup {α : Type} (pairs : List (String × α)) (key : String) : Option α :=
  (pairs.findRev? fun p => p.1 = key).map Prod.snd

/-! ### Candidates -/

/-- What the records of a projection are joined by. -/
structure Joins where
  sourceIdByRevision : List (String × String)
  evidence : List (String × String)
  claimById : List (String × Json)

namespace Joins

/-- `evidence_revisions_by_claim.get(claim_id, set())`. -/
def revisionsOf (j : Joins) (claimId : String) : List String :=
  ((j.evidence.filter fun e => e.1 = claimId).map Prod.snd).dedup

/-- `_source_ids`. -/
def sourceIds (j : Joins) (revisionIds : List String) : List String :=
  revisionIds.filterMap (lookup j.sourceIdByRevision)

/-- The predicates of those claims that are in the projection. -/
def predicatesOf (j : Joins) (claimIds : List String) : Except ProjectionExc (List String) :=
  (claimIds.filterMap (lookup j.claimById)).mapM fun record => do
    textAt (← item record "proposition") "predicate"

end Joins

def joins (projection : Json) : Except ProjectionExc Joins := do
  let sources ← (← itemsAt projection "sources").mapM fun record => do
    let document ← item record "source_revision"
    return (← textAt document "revision_id", ← textAt document "source_id")
  let evidence ← (← itemsAt projection "evidence").mapM fun record => do
    return (← textAt record "claim_id", ← textAt record "source_revision_id")
  let claims ← (← itemsAt projection "claims").mapM fun record => do
    return (← textAt (← item record "claim") "claim_id", record)
  return ⟨sources, evidence, claims⟩

structure Candidate where
  objectType : QueryKind
  objectId : String
  projectionRef : Json
  title : Option String
  predicates : List String
  sourceIds : List String
  sourceRevisionIds : List String
  status : Option String
  summary : Json
  record : Json

/-- A text or `None`. -/
def optTextOf (value : Option Json) (e : ProjectionExc) : Except ProjectionExc (Option String) :=
  match value with
  | none => .ok none
  | some .null => .ok none
  | some (.str s) => .ok (some s)
  | some _ => .error e

/-- `_candidate`. -/
def candidate (kind : QueryKind) (objectId record : Json) (title : Option Json)
    (predicates sourceIds sourceRevisionIds : List String) (status : Option Json)
    (summary : Json) : Except ProjectionExc Candidate := do
  let id ← orRaise (objectId.str?.filter fun s => s ≠ "")
    (.valueError (kind.text ++ " projection record has no stable object id"))
  let title ← optTextOf title (.valueError (kind.text ++ " projection title must be a string"))
  let status ← optTextOf status (.valueError (kind.text ++ " projection status must be a string"))
  let reference ← item record "projection_ref"
  return {
    objectType := kind
    objectId := id
    projectionRef := reference
    title := title
    predicates := predicates
    sourceIds := sourceIds
    sourceRevisionIds := sourceRevisionIds
    status := status
    summary := summary
    record := record }

/-- `_source_candidate`. -/
def sourceCandidate (record : Json) : Except ProjectionExc Candidate := do
  let document ← item record "source_revision"
  let revisionId ← item document "revision_id"
  let sourceId ← item document "source_id"
  candidate .sourceRevision revisionId record (document.get? "title") [] [← textOf sourceId]
    [← textOf revisionId] none (.obj [
      ("content_hash", getOrNone document "content_hash"),
      ("media_type", getOrNone document "media_type"),
      ("revision_id", revisionId),
      ("source_id", sourceId),
      ("title", getOrNone document "title")])

/-- `_claim_candidate`. -/
def claimCandidate (j : Joins) (record : Json) : Except ProjectionExc Candidate := do
  let document ← item record "claim"
  let proposition ← item record "proposition"
  let claimId ← item document "claim_id"
  let predicate ← item proposition "predicate"
  let status ← item record "status"
  let version ← item record "version"
  let conflictIds ← itemsAt record "conflict_ids"
  let revisions := j.revisionsOf (← textOf claimId)
  candidate .claim claimId record none [← textOf predicate] (j.sourceIds revisions) revisions
    (some status) (.obj [
      ("claim_id", claimId),
      ("conflict_count", intColumn conflictIds.length),
      ("predicate", predicate),
      ("source_revision_count", intColumn revisions.length),
      ("status", status),
      ("version", version)])

/-- `_evidence_candidate`. -/
def evidenceCandidate (j : Joins) (record : Json) : Except ProjectionExc Candidate := do
  let document ← item record "evidence_link"
  let linkId ← item record "evidence_link_id"
  let claimId ← item record "claim_id"
  let revisionId ← item record "source_revision_id"
  let revisions := [← textOf revisionId]
  candidate .evidenceLink linkId record none [] (j.sourceIds revisions) revisions none (.obj [
    ("claim_id", claimId),
    ("evidence_link_id", linkId),
    ("source_revision_id", revisionId),
    ("stance", getOrNone document "stance")])

/-- `_conflict_candidate`. -/
def conflictCandidate (j : Joins) (record : Json) : Except ProjectionExc Candidate := do
  let members := (← (← itemsAt record "members").mapM textOf).dedup
  let revisions := (members.flatMap j.revisionsOf).dedup
  let predicates ← j.predicatesOf members
  let conflictId ← item record "conflict_id"
  let kind ← item record "kind"
  let digest ← item record "member_digest"
  let status ← item record "status"
  candidate .conflict conflictId record none predicates (j.sourceIds revisions) revisions
    (some status) (.obj [
      ("conflict_id", conflictId),
      ("kind", kind),
      ("member_count", intColumn members.length),
      ("member_digest", digest),
      ("status", status)])

/-- The identifiers of the references to records of a type. -/
def referencesTo (recordType : String) (references : List Json) :
    Except ProjectionExc (List String) :=
  (references.filter fun r => (r.get? "record_type").bind JsonOf.str? = some recordType).mapM
    fun r => textAt r "record_id"

/-- `_continuity_candidate`. -/
def continuityCandidate (j : Joins) (kind : QueryKind) (idField : String) (record : Json) :
    Except ProjectionExc Candidate := do
  let document ← item record "document"
  ensure (isMapping document = true)
    (.valueError (kind.text ++ " projection record has no structured document"))
  let objectId ← item document idField
  let namedClaims ← (← optItemsAt document "related_claim_ids").mapM textOf
  let namedRevisions ← (← optItemsAt document "related_source_revision_ids").mapM textOf
  let references ← optItemsAt document "related_objects"
  let claims := (namedClaims ++ (← referencesTo "CLAIM" references)).dedup
  let revisions := namedRevisions ++ (← referencesTo "SOURCE_REVISION" references)
  let revisions := (revisions ++ claims.flatMap j.revisionsOf).dedup
  let predicates ← j.predicatesOf claims
  candidate kind objectId record (document.get? "title") predicates (j.sourceIds revisions)
    revisions (document.get? "status") (.obj (insertMember idField objectId [
      ("status", getOrNone document "status"),
      ("title", getOrNone document "title"),
      ("version", getOrNone document "version")]))

/-- `_candidates`. -/
def candidates (projection : Json) : Except ProjectionExc (List Candidate) := do
  let j ← joins projection
  let sources ← (← itemsAt projection "sources").mapM sourceCandidate
  let claims ← (← itemsAt projection "claims").mapM (claimCandidate j)
  let evidence ← (← itemsAt projection "evidence").mapM (evidenceCandidate j)
  let conflicts ← (← itemsAt projection "conflicts").mapM (conflictCandidate j)
  let continuity ← item projection "continuity"
  let decisions ← (← itemsAt continuity "decisions").mapM
    (continuityCandidate j .decisionRecord "decision_id")
  let questions ← (← itemsAt continuity "questions").mapM
    (continuityCandidate j .openQuestion "question_id")
  let workItems ← (← itemsAt continuity "work_items").mapM
    (continuityCandidate j .workItem "work_item_id")
  return sources ++ claims ++ evidence ++ conflicts ++ decisions ++ questions ++ workItems

/-! ### Filters -/

/-- A filter that is not given, or the two have a text in common. -/
def intersects (filter values : List String) : Bool :=
  decide (filter = []) || values.any fun v => decide (v ∈ filter)

/-- `_matches`. -/
def matches_ (c : Candidate) (spec : QuerySpec) : Bool :=
  (decide (spec.kinds = []) || decide (c.objectType ∈ spec.kinds)) &&
    intersects spec.ids [c.objectId] &&
    (match spec.titleContains with
      | none => true
      | some part => c.title.any fun title => decide (part.toList <:+: title.toList)) &&
    intersects spec.predicates c.predicates &&
    intersects spec.sourceIds c.sourceIds &&
    intersects spec.sourceRevisionIds c.sourceRevisionIds &&
    intersects spec.statuses c.status.toList

/-- `_matched_fields`. -/
def matchedFields (spec : QuerySpec) : List String :=
  [("id", decide (spec.ids ≠ [])), ("title", spec.titleContains.isSome),
    ("predicate", decide (spec.predicates ≠ [])), ("source_id", decide (spec.sourceIds ≠ [])),
    ("source_revision_id", decide (spec.sourceRevisionIds ≠ [])),
    ("status", decide (spec.statuses ≠ []))].filterMap fun f => if f.2 then some f.1 else none

/-! ### Pages -/

structure Hit where
  objectType : QueryKind
  objectId : String
  projectionRef : Json
  matchedFields : List String
  summary : String
  record : Option Json

structure QueryResult where
  queryVersion : String
  projectionVersion : String
  stateRoot : String
  ledgerSequence : Int
  normalizedQuery : Json
  hits : List Hit
  totalMatches : Nat
  truncated : Bool

/-- What the matching records are sorted by. -/
def Candidate.key (c : Candidate) : Nat ×ₗ String := toLex (c.objectType.index, c.objectId)

def hitOf (spec : QuerySpec) (c : Candidate) : Hit where
  objectType := c.objectType
  objectId := c.objectId
  projectionRef := c.projectionRef
  matchedFields := matchedFields spec
  summary := c.summary.dumps
  record := if spec.includeRecord then some c.record else none

/-- `int(value)` of a number. -/
def intOf (value : Json) : Except ProjectionExc Int :=
  match value with
  | .num n => orRaise n.toInt? .typeError
  | _ => .error .typeError

/-- `query`. -/
def query (db : Db) (spec : QuerySpec) : Except ProjectionExc QueryResult := do
  let projection ← orRaise (loads (← projectJson db)) .jsonDecodeError
  let all ← candidates projection
  let matching := (all.filter fun c => matches_ c spec).insertionSort fun c d => c.key ≤ d.key
  let selected := (matching.drop spec.offset).take spec.limit
  return {
    queryVersion := queryVersion
    projectionVersion := ← textAt projection "projection_version"
    stateRoot := ← textAt projection "state_root"
    ledgerSequence := ← intOf (← item (← item projection "ledger") "head_sequence")
    normalizedQuery := spec.normalized
    hits := selected.map (hitOf spec)
    totalMatches := matching.length
    truncated := decide (spec.offset + selected.length < matching.length) }

end SharedMind.Projection
