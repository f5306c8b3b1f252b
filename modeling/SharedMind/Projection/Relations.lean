import SharedMind.Law.EventsValid
import SharedMind.Projection.Lossless
import SharedMind.Projection.Query

/-!
# What a query means

* `Naming`: what a filter reads of a stored record, and which claims and revisions it names.
* `Meets`: the conjunction of the filters.
* `Joins.Of`: what the records of a projection are joined by is what the tables relate.
* `Tells`: a candidate says of a record what the tables say.
-/

namespace SharedMind.Projection

open Py

/-! ### Relations of the tables -/

/-- An evidence link of the claim cites the revision. -/
def Cites (t : Tables) (claim : RecordId) (revision : String) : Prop :=
  ∃ (link : RecordId) (row : EvidenceRow), t.evidence[link]? = some row ∧ row.claimId = claim ∧
    (row.sourceRevisionId : String) = revision

def HasPredicate (t : Tables) (claim : RecordId) (predicate : String) : Prop :=
  ∃ row : ClaimRow, t.claims[claim]? = some row ∧ (row.proposition.predicate : String) = predicate

def HasSource (t : Tables) (revision source : String) : Prop :=
  ∃ (id : RecordId) (row : SourceRow), t.sources[id]? = some row ∧ (id : String) = revision ∧
    (row.document.sourceId : String) = source

/-- What a filter reads of a record; a claim names itself. -/
structure Naming where
  title : Option String := none
  status : Option String := none
  claims : List RecordId := []
  revisions : List RecordId := []

namespace Naming

variable (t : Tables) (n : Naming)

/-- It names the revision, or a claim of which a link cites it. -/
def Revision (revision : String) : Prop :=
  (∃ id ∈ n.revisions, (id : String) = revision) ∨ ∃ claim ∈ n.claims, Cites t claim revision

def Predicate (predicate : String) : Prop := ∃ claim ∈ n.claims, HasPredicate t claim predicate

def Source (source : String) : Prop :=
  ∃ revision, n.Revision t revision ∧ HasSource t revision source

end Naming

/-- The records of a type that are referred to. -/
def referred (type : RecordType) (references : List RecordRef) : List RecordId :=
  (references.filter fun r => r.recordType = type).map RecordRef.recordId

def sourceNaming (id : RecordId) (row : SourceRow) : Naming where
  title := row.document.title.join.map Text.text
  revisions := [id]

def claimNaming (id : RecordId) (row : ClaimRow) : Naming where
  status := some row.status.text
  claims := [id]

def evidenceNaming (row : EvidenceRow) : Naming where
  revisions := [row.sourceRevisionId]

def conflictNaming (row : ConflictRow) : Naming where
  status := some row.status.text
  claims := row.members

def decisionNaming (row : DecisionRow) : Naming where
  title := some row.document.title.text
  status := some row.status.text
  claims := row.document.relatedClaimIds.1
  revisions := row.document.relatedSourceRevisionIds.1

def questionNaming (row : QuestionRow) : Naming where
  status := some row.status.text
  claims := referred .claim row.document.relatedObjects.1
  revisions := referred .sourceRevision row.document.relatedObjects.1

def workItemNaming (row : WorkItemRow) : Naming where
  status := some row.status.text
  claims := referred .claim row.document.relatedObjects.1
  revisions := referred .sourceRevision row.document.relatedObjects.1

/-- The stored record of a kind. -/
def naming (t : Tables) (k : QueryKind) (id : RecordId) : Option Naming :=
  match k with
  | .sourceRevision => t.sources[id]?.map (sourceNaming id)
  | .claim => t.claims[id]?.map (claimNaming id)
  | .evidenceLink => t.evidence[id]?.map evidenceNaming
  | .conflict => t.conflicts[id]?.map conflictNaming
  | .decisionRecord => t.decisionRecords[id]?.map decisionNaming
  | .openQuestion => t.openQuestions[id]?.map questionNaming
  | .workItem => t.workItems[id]?.map workItemNaming

/-- A filter that is not given, or one of its values is meant. -/
def Admits (filter : List String) (meant : String → Prop) : Prop :=
  filter = [] ∨ ∃ v ∈ filter, meant v

/-- Every filter is met. -/
structure Meets (t : Tables) (spec : QuerySpec) (k : QueryKind) (id : RecordId) (n : Naming) :
    Prop where
  kind : spec.kinds = [] ∨ k ∈ spec.kinds
  id : Admits spec.ids fun v => v = id
  title : ∀ part ∈ spec.titleContains, ∃ title ∈ n.title, part.toList <:+: title.toList
  predicate : Admits spec.predicates (n.Predicate t)
  source : Admits spec.sourceIds (n.Source t)
  revision : Admits spec.sourceRevisionIds (n.Revision t)
  status : Admits spec.statuses fun v => n.status = some v

/-- A record that meets the filters, by its kind and its identifier. -/
def Matching (t : Tables) (spec : QuerySpec) (key : QueryKind × String) : Prop :=
  ∃ (id : RecordId) (n : Naming), (id : String) = key.2 ∧ naming t key.1 id = some n ∧
    Meets t spec key.1 id n

/-! ### Joins -/

theorem lookup_eq_some {α : Type} {pairs : List (String × α)} (h : (pairs.map Prod.fst).Nodup)
    {k : String} {v : α} : lookup pairs k = some v ↔ (k, v) ∈ pairs := by
  rw [lookup, List.findRev?_eq_find?_reverse, Option.map_eq_some_iff]
  constructor
  · intro hfound
    obtain ⟨⟨k', v'⟩, hp, hv⟩ := hfound
    obtain rfl : k' = k := by simpa using List.find?_some hp
    obtain rfl : v' = v := hv
    exact List.mem_reverse.mp (List.mem_of_find?_eq_some hp)
  · intro hmem
    obtain ⟨p, hp⟩ : ∃ p, pairs.reverse.find? (fun p => p.1 = k) = some p := by
      rw [← Option.isSome_iff_exists, List.find?_isSome]
      exact ⟨(k, v), List.mem_reverse.mpr hmem, by simp⟩
    have hkey : p.1 = k := by simpa using List.find?_some hp
    have hin : p ∈ pairs := List.mem_reverse.mp (List.mem_of_find?_eq_some hp)
    obtain rfl := List.inj_on_of_nodup_map h hin hmem hkey
    exact ⟨_, hp, rfl⟩

/-- The joins are those of the tables. -/
structure Joins.Of (t : Tables) (j : Joins) : Prop where
  source : ∀ revision source, lookup j.sourceIdByRevision revision = some source ↔
    HasSource t revision source
  evidence : ∀ (claim : RecordId) (revision : String),
    ((claim : String), revision) ∈ j.evidence ↔ Cites t claim revision
  claim : ∀ (id : RecordId) (record : Json), lookup j.claimById id = some record →
    ∃ row : ClaimRow, t.claims[id]? = some row ∧
      record.get? "proposition" = some (Proposition.codec.enc row.proposition)
  claimed : ∀ (id : RecordId) (row : ClaimRow), t.claims[id]? = some row →
    ∃ record, lookup j.claimById id = some record

section

variable {t : Tables} {j : Joins}

theorem Joins.Of.mem_revisionsOf (h : j.Of t) {claim : RecordId} {revision : String} :
    revision ∈ j.revisionsOf claim ↔ Cites t claim revision := by
  rw [Joins.revisionsOf, List.mem_dedup, List.mem_map, ← h.evidence]
  constructor
  · intro hmem
    obtain ⟨e, he, rfl⟩ := hmem
    obtain ⟨hin, hclaim⟩ := List.mem_filter.mp he
    rw [← of_decide_eq_true hclaim]
    exact hin
  · intro hmem
    exact ⟨_, List.mem_filter.mpr ⟨hmem, decide_eq_true rfl⟩, rfl⟩

theorem Joins.Of.mem_sourceIds (h : j.Of t) {revisions : List String} {source : String} :
    source ∈ j.sourceIds revisions ↔ ∃ revision ∈ revisions, HasSource t revision source := by
  simp only [Joins.sourceIds, List.mem_filterMap, h.source]

theorem get?_predicate (p : Proposition) :
    (Proposition.codec.enc p).get? "predicate" = some (idColumn p.predicate) := rfl

theorem hasPredicate_iff {id : RecordId} {row : ClaimRow} {predicate : String}
    (hrow : t.claims[id]? = some row) :
    HasPredicate t id predicate ↔ predicate = row.proposition.predicate := by
  constructor
  · intro h
    obtain ⟨found, hfound, rfl⟩ := h
    rw [hrow] at hfound
    rw [Option.some.inj hfound]
  · intro h
    exact ⟨row, hrow, h.symm⟩

theorem Joins.Of.predicatesOf_returns (h : j.Of t) (claims : List RecordId) :
    ∃ ps, j.predicatesOf (claims.map Text.text) = .ok ps ∧
      ∀ p, p ∈ ps ↔ ∃ claim ∈ claims, HasPredicate t claim p := by
  induction claims with
  | nil => exact ⟨[], rfl, by simp⟩
  | cons id claims ih =>
    obtain ⟨ps, hps, hmem⟩ := ih
    rw [Joins.predicatesOf] at hps
    cases hlookup : lookup j.claimById id.text with
    | none =>
      have hnone : ∀ p, ¬HasPredicate t id p := by
        rintro p ⟨row, hrow, -⟩
        obtain ⟨record, hrecord⟩ := h.claimed id row hrow
        exact nomatch hlookup.symm.trans hrecord
      refine ⟨ps, ?_, ?_⟩
      · rw [Joins.predicatesOf, List.map_cons, List.filterMap_cons_none hlookup]
        exact hps
      · intro p
        simp [hmem, hnone]
    | some record =>
      obtain ⟨row, hrow, hprop⟩ := h.claim id record hlookup
      refine ⟨(row.proposition.predicate : String) :: ps, ?_, ?_⟩
      · have hitem : item record "proposition" = .ok (Proposition.codec.enc row.proposition) := by
          rw [item, hprop]
          rfl
        rw [Joins.predicatesOf, List.map_cons, List.filterMap_cons_some hlookup, List.mapM_cons,
          hps, hitem, ok_bind, textAt, item, get?_predicate]
        rfl
      · intro p
        simp [hmem, hasPredicate_iff hrow]

end

/-! ### Candidates -/

/-- The candidate says of the record what the tables say. -/
structure Tells (t : Tables) (c : Candidate) (k : QueryKind) (id : RecordId) (n : Naming) :
    Prop where
  objectType : c.objectType = k
  objectId : c.objectId = id
  title : c.title = n.title
  status : c.status = n.status
  predicates : ∀ p, p ∈ c.predicates ↔ n.Predicate t p
  revisions : ∀ r, r ∈ c.sourceRevisionIds ↔ n.Revision t r
  sources : ∀ s, s ∈ c.sourceIds ↔ n.Source t s

theorem intersects_iff {filter values : List String} {meant : String → Prop}
    (h : ∀ v, v ∈ values ↔ meant v) : intersects filter values = true ↔ Admits filter meant := by
  rw [intersects, Bool.or_eq_true, decide_eq_true_eq, List.any_eq_true, Admits]
  apply or_congr_right
  constructor
  · intro hany
    obtain ⟨v, hv, hin⟩ := hany
    exact ⟨v, of_decide_eq_true hin, (h v).mp hv⟩
  · intro hany
    obtain ⟨v, hin, hv⟩ := hany
    exact ⟨v, (h v).mpr hv, decide_eq_true hin⟩

/-- **A candidate matches when its record meets the filters.** -/
theorem Tells.matches_iff {t : Tables} {c : Candidate} {k : QueryKind} {id : RecordId} {n : Naming}
    {spec : QuerySpec} (h : Tells t c k id n) :
    matches_ c spec = true ↔ Meets t spec k id n := by
  have hkind : (decide (spec.kinds = []) || decide (c.objectType ∈ spec.kinds)) = true ↔
      spec.kinds = [] ∨ k ∈ spec.kinds := by
    rw [Bool.or_eq_true, decide_eq_true_eq, decide_eq_true_eq, h.objectType]
  have hid : ∀ v, v ∈ [c.objectId] ↔ v = (id : String) := by
    intro v
    rw [List.mem_singleton, h.objectId]
  have hstatus : ∀ v, v ∈ c.status.toList ↔ n.status = some v := by
    intro v
    rw [Option.mem_toList, h.status]
  rw [matches_]
  simp only [Bool.and_eq_true, hkind, intersects_iff hid, intersects_iff h.predicates,
    intersects_iff h.sources, intersects_iff h.revisions, intersects_iff hstatus]
  constructor
  · rintro ⟨⟨⟨⟨⟨⟨h1, h2⟩, h3⟩, h4⟩, h5⟩, h6⟩, h7⟩
    refine ⟨h1, h2, ?_, h4, h5, h6, h7⟩
    intro part hpart
    rw [Option.mem_def.mp hpart, h.title] at h3
    obtain ⟨title, ht, hin⟩ := (Option.any_eq_true _ _).mp h3
    exact ⟨title, ht, of_decide_eq_true hin⟩
  · intro hm
    refine ⟨⟨⟨⟨⟨⟨hm.kind, hm.id⟩, ?_⟩, hm.predicate⟩, hm.source⟩, hm.revision⟩, hm.status⟩
    cases hpart : spec.titleContains with
    | none => rfl
    | some part =>
      obtain ⟨title, ht, hin⟩ := hm.title part hpart
      rw [h.title, Option.mem_def.mp ht]
      exact decide_eq_true hin

theorem candidate_returns {k : QueryKind} {id : RecordId} {record reference summary : Json}
    {title status : Option Json} {title' status' : Option String}
    {predicates sourceIds sourceRevisionIds : List String}
    (htitle : ∀ e, optTextOf title e = .ok title') (hstatus : ∀ e, optTextOf status e = .ok status')
    (href : item record "projection_ref" = .ok reference) :
    candidate k (idColumn id) record title predicates sourceIds sourceRevisionIds status summary =
      .ok ⟨k, id, reference, title', predicates, sourceIds, sourceRevisionIds, status', summary,
        record⟩ := by
  have hid : orRaise ((idColumn id).str?.filter fun s => s ≠ "")
      (ProjectionExc.valueError (k.text ++ " projection record has no stable object id")) =
      .ok (id : String) := by
    rw [orRaise_eq_ok]
    exact Option.filter_eq_some_iff.mpr ⟨rfl, decide_eq_true (recordId_ne_empty id)⟩
  rw [candidate, hid, ok_bind, htitle, ok_bind, hstatus, ok_bind, href, ok_bind]
  rfl

section

variable {t : Tables} {j : Joins} {history : List HistoryEntry} {id : RecordId} {index : Nat}

/-- What a record says when its sets are those of the claims and the revisions it names. -/
theorem Joins.Of.tells (h : j.Of t) {k : QueryKind} {n : Naming} {c : Candidate}
    (hkind : c.objectType = k) (hid : c.objectId = id) (htitle : c.title = n.title)
    (hstatus : c.status = n.status) (hpredicates : ∀ p, p ∈ c.predicates ↔ n.Predicate t p)
    (hrevisions : ∀ r, r ∈ c.sourceRevisionIds ↔ n.Revision t r)
    (hsources : c.sourceIds = j.sourceIds c.sourceRevisionIds) : Tells t c k id n := by
  refine ⟨hkind, hid, htitle, hstatus, hpredicates, hrevisions, ?_⟩
  intro s
  rw [hsources, h.mem_sourceIds]
  simp only [hrevisions]
  rfl

theorem hasSource_iff {row : SourceRow} {source : String} (hrow : t.sources[id]? = some row) :
    HasSource t id source ↔ source = row.document.sourceId := by
  constructor
  · intro h
    obtain ⟨id', row', hrow', hid, rfl⟩ := h
    obtain rfl := Text.ext hid
    rw [hrow] at hrow'
    rw [Option.some.inj hrow']
  · intro h
    exact ⟨id, row, hrow, rfl, h.symm⟩

theorem textOf_idColumn {p : String → Bool} (s : Text p) : textOf (idColumn s) = .ok (s : String) :=
  rfl

theorem mapM_textOf (ids : List RecordId) :
    (ids.map idColumn).mapM textOf = .ok (ids.map Text.text) := by
  induction ids with
  | nil => rfl
  | cons id ids ih =>
    rw [List.map_cons, List.mapM_cons, ih]
    rfl

theorem item_revisionId (d : SourceRevision) :
    item (SourceRevision.codec.enc d) "revision_id" = .ok (idColumn d.revisionId) := by
  rw [item, get?_revisionId]
  rfl

theorem item_sourceId (d : SourceRevision) :
    item (SourceRevision.codec.enc d) "source_id" = .ok (idColumn d.sourceId) := by
  obtain ⟨_, _, _, _, _, _, _, locator, title⟩ := d
  cases locator <;> cases title <;> rfl

theorem sourceCandidate_tells {row : SourceRow} (hrow : t.sources[id]? = some row)
    (hkey : row.document.revisionId = id) :
    ∃ c, sourceCandidate (sourceRecord history id row index) = .ok c ∧
      Tells t c .sourceRevision id (sourceNaming id row) := by
  have hdocument : item (sourceRecord history id row index) "source_revision" =
      .ok (SourceRevision.codec.enc row.document) := rfl
  have hrevision : item (SourceRevision.codec.enc row.document) "revision_id" =
      .ok (idColumn id) := by rw [item_revisionId, hkey]
  have htitle : ∀ e, optTextOf ((SourceRevision.codec.enc row.document).get? "title") e =
      .ok (row.document.title.join.map Text.text) := by
    intro e
    obtain ⟨_, _, _, _, _, _, _, locator, title⟩ := row.document
    rcases title with _ | _ | title <;> cases locator <;> rfl
  obtain ⟨summary, hc⟩ : ∃ summary, sourceCandidate (sourceRecord history id row index) =
      candidate .sourceRevision (idColumn id) (sourceRecord history id row index)
        ((SourceRevision.codec.enc row.document).get? "title") [] [row.document.sourceId] [id] none
        summary :=
    ⟨_, by
      simp only [sourceCandidate, hdocument, hrevision, item_sourceId, ok_bind, textOf_idColumn]
      rfl⟩
  refine ⟨_, hc.trans (candidate_returns htitle (fun _ => rfl) rfl), rfl, rfl, rfl, rfl, ?_, ?_, ?_⟩
  · simp [Naming.Predicate, sourceNaming]
  · simp [Naming.Revision, sourceNaming, eq_comm]
  · intro s
    simp only [Naming.Source, Naming.Revision, sourceNaming, List.mem_singleton,
      exists_eq_left, List.not_mem_nil, false_and, exists_false, or_false, exists_eq_left',
      hasSource_iff hrow]

theorem claimCandidate_tells (h : j.Of t) {row : ClaimRow} (hrow : t.claims[id]? = some row)
    (hkey : row.document.claimId = id) :
    ∃ c, claimCandidate j (claimRecord history t id row index) = .ok c ∧
      Tells t c .claim id (claimNaming id row) := by
  have hdocument : item (claimRecord history t id row index) "claim" =
      .ok (Claim.codec.enc row.document) := rfl
  have hproposition : item (claimRecord history t id row index) "proposition" =
      .ok (Proposition.codec.enc row.proposition) := rfl
  have hid : item (Claim.codec.enc row.document) "claim_id" = .ok (idColumn id) := by
    rw [← hkey]
    rfl
  have hpredicate : item (Proposition.codec.enc row.proposition) "predicate" =
      .ok (idColumn row.proposition.predicate) := rfl
  have hstatus : item (claimRecord history t id row index) "status" = .ok (.str row.status.text) :=
    rfl
  have hversion : item (claimRecord history t id row index) "version" =
      .ok (intColumn row.version) := rfl
  have hconflicts : itemsAt (claimRecord history t id row index) "conflict_ids" =
      .ok (((conflictIdsOf t id).insertionSort (· ≤ ·)).map idColumn) := rfl
  obtain ⟨summary, hc⟩ : ∃ summary, claimCandidate j (claimRecord history t id row index) =
      candidate .claim (idColumn id) (claimRecord history t id row index) none
        [row.proposition.predicate] (j.sourceIds (j.revisionsOf id)) (j.revisionsOf id)
        (some (.str row.status.text)) summary :=
    ⟨_, by
      simp only [claimCandidate, hdocument, hproposition, hid, hpredicate, hstatus, hversion,
        hconflicts, ok_bind, textOf_idColumn]
      rfl⟩
  refine ⟨_, hc.trans (candidate_returns (fun _ => rfl) (fun _ => rfl) rfl),
    h.tells rfl rfl rfl rfl ?_ ?_ rfl⟩
  · intro p
    simp [Naming.Predicate, claimNaming, hasPredicate_iff hrow]
  · intro r
    simp [Naming.Revision, claimNaming, h.mem_revisionsOf]

theorem evidenceCandidate_tells (h : j.Of t) (row : EvidenceRow) :
    ∃ c, evidenceCandidate j (evidenceRecord history id row index) = .ok c ∧
      Tells t c .evidenceLink id (evidenceNaming row) := by
  have hdocument : item (evidenceRecord history id row index) "evidence_link" =
      .ok (EvidenceLink.codec.enc row.document) := rfl
  have hlink : item (evidenceRecord history id row index) "evidence_link_id" =
      .ok (idColumn id) := rfl
  have hclaim : item (evidenceRecord history id row index) "claim_id" =
      .ok (idColumn row.claimId) := rfl
  have hrevision : item (evidenceRecord history id row index) "source_revision_id" =
      .ok (idColumn row.sourceRevisionId) := rfl
  obtain ⟨summary, hc⟩ : ∃ summary, evidenceCandidate j (evidenceRecord history id row index) =
      candidate .evidenceLink (idColumn id) (evidenceRecord history id row index) none []
        (j.sourceIds [row.sourceRevisionId]) [row.sourceRevisionId] none summary :=
    ⟨_, by
      simp only [evidenceCandidate, hdocument, hlink, hclaim, hrevision, ok_bind, textOf_idColumn]
      rfl⟩
  refine ⟨_, hc.trans (candidate_returns (fun _ => rfl) (fun _ => rfl) rfl),
    h.tells rfl rfl rfl rfl ?_ ?_ rfl⟩
  · simp [Naming.Predicate, evidenceNaming]
  · simp [Naming.Revision, evidenceNaming, eq_comm]

/-- The revisions of claims that are named. -/
theorem Joins.Of.mem_flatMap (h : j.Of t) {claims : List RecordId} {revision : String} :
    revision ∈ (claims.map Text.text).flatMap j.revisionsOf ↔
      ∃ claim ∈ claims, Cites t claim revision := by
  rw [List.mem_flatMap]
  constructor
  · intro hmem
    obtain ⟨_, hclaim, hrevision⟩ := hmem
    obtain ⟨claim, hin, rfl⟩ := List.mem_map.mp hclaim
    exact ⟨claim, hin, h.mem_revisionsOf.mp hrevision⟩
  · intro hmem
    obtain ⟨claim, hin, hcites⟩ := hmem
    exact ⟨_, List.mem_map_of_mem hin, h.mem_revisionsOf.mpr hcites⟩

theorem dedup_map_text (ids : List RecordId) :
    (ids.map Text.text).dedup = ids.dedup.map Text.text :=
  List.dedup_map_of_injective (fun _ _ h => Text.ext h) ids

theorem conflictCandidate_tells (h : j.Of t) (row : ConflictRow) :
    ∃ c, conflictCandidate j (conflictRecord history id row index) = .ok c ∧
      Tells t c .conflict id (conflictNaming row) := by
  have hmembers : itemsAt (conflictRecord history id row index) "members" =
      .ok ((row.members.insertionSort (· ≤ ·)).map idColumn) := rfl
  have hid : item (conflictRecord history id row index) "conflict_id" = .ok (idColumn id) := rfl
  have hkind : item (conflictRecord history id row index) "kind" = .ok (.str row.kind.text) := rfl
  have hdigest : item (conflictRecord history id row index) "member_digest" =
      .ok (idColumn row.memberDigest) := rfl
  have hstatus : item (conflictRecord history id row index) "status" =
      .ok (.str row.status.text) := rfl
  have hin : ∀ m, m ∈ (row.members.insertionSort (· ≤ ·)).dedup ↔ m ∈ row.members := by
    intro m
    rw [List.mem_dedup, List.mem_insertionSort]
  obtain ⟨ps, hps, hpredicates⟩ :=
    h.predicatesOf_returns (row.members.insertionSort (· ≤ ·)).dedup
  obtain ⟨summary, hc⟩ : ∃ summary, conflictCandidate j (conflictRecord history id row index) =
      candidate .conflict (idColumn id) (conflictRecord history id row index) none ps
        (j.sourceIds ((((row.members.insertionSort (· ≤ ·)).dedup.map Text.text).flatMap
          j.revisionsOf).dedup))
        ((((row.members.insertionSort (· ≤ ·)).dedup.map Text.text).flatMap j.revisionsOf).dedup)
        (some (.str row.status.text)) summary :=
    ⟨_, by
      simp only [conflictCandidate, hmembers, mapM_textOf, dedup_map_text, hps, hid, hkind, hdigest,
        hstatus, ok_bind]
      rfl⟩
  refine ⟨_, hc.trans (candidate_returns (fun _ => rfl) (fun _ => rfl) rfl),
    h.tells rfl rfl rfl rfl ?_ ?_ rfl⟩
  · intro p
    simp only [hpredicates, hin]
    rfl
  · intro r
    rw [List.mem_dedup, h.mem_flatMap]
    simp only [hin, Naming.Revision, conflictNaming, List.not_mem_nil, false_and, exists_false,
      false_or]

/-! ### Continuity -/

theorem recordType_text_inj {a b : RecordType} (h : a.text = b.text) : a = b := by
  cases a <;> cases b <;> first | rfl | exact absurd h (by decide)

theorem referencesTo_returns (type : RecordType) (references : List RecordRef) :
    referencesTo type.text (references.map RecordRef.codec.enc) =
      .ok ((referred type references).map Text.text) := by
  induction references with
  | nil => rfl
  | cons r references ih =>
    have htype : ((RecordRef.codec.enc r).get? "record_type").bind JsonOf.str? =
        some r.recordType.text := rfl
    have hid : textAt (RecordRef.codec.enc r) "record_id" = .ok (r.recordId : String) := rfl
    rw [referencesTo] at ih
    by_cases heq : r.recordType = type
    · have hkept : ((RecordRef.codec.enc r).get? "record_type").bind JsonOf.str? =
          some type.text := by rw [htype, heq]
      have hreferred : referred type (r :: references) =
          r.recordId :: referred type references := by
        rw [referred, List.filter_cons, if_pos (decide_eq_true heq), List.map_cons, ← referred]
      rw [referencesTo, List.map_cons, List.filter_cons, if_pos (decide_eq_true hkept),
        List.mapM_cons, hid, ih, hreferred]
      rfl
    · have hdropped : ¬decide (((RecordRef.codec.enc r).get? "record_type").bind JsonOf.str? =
          some type.text) = true := by
        rw [htype, decide_eq_true_eq, Option.some.injEq]
        exact fun h => heq (recordType_text_inj h)
      have hother : ¬decide (r.recordType = type) = true := by
        rw [decide_eq_true_eq]
        exact heq
      rw [referencesTo, List.map_cons, List.filter_cons, if_neg hdropped, ih, referred, referred,
        List.filter_cons, if_neg hother]

/-- A document names claims and revisions, directly or through what it is related to. -/
structure Names (document : Json) (idField : String) (id : RecordId) (n : Naming) : Prop where
  dict : isMapping document = true
  id : item document idField = .ok (idColumn id)
  title : ∀ e, optTextOf (document.get? "title") e = .ok n.title
  status : ∀ e, optTextOf (document.get? "status") e = .ok n.status
  named : ∃ (claims revisions : List RecordId) (references : List RecordRef),
    optItemsAt document "related_claim_ids" = .ok (claims.map idColumn) ∧
    optItemsAt document "related_source_revision_ids" = .ok (revisions.map idColumn) ∧
    optItemsAt document "related_objects" = .ok (references.map RecordRef.codec.enc) ∧
    (∀ claim, claim ∈ claims ++ referred .claim references ↔ claim ∈ n.claims) ∧
    ∀ revision, revision ∈ revisions ++ referred .sourceRevision references ↔
      revision ∈ n.revisions

theorem continuityCandidate_tells (h : j.Of t) {k : QueryKind} {idField : String}
    {record document reference : Json} {n : Naming}
    (hdocument : item record "document" = .ok document)
    (href : item record "projection_ref" = .ok reference) (hnames : Names document idField id n) :
    ∃ c, continuityCandidate j k idField record = .ok c ∧ Tells t c k id n := by
  obtain ⟨claims, revisions, references, hclaims, hrevisions, hreferences, hinClaims,
    hinRevisions⟩ := hnames.named
  obtain ⟨ps, hps, hpredicates⟩ :=
    h.predicatesOf_returns (claims ++ referred .claim references).dedup
  have hdict : ensure (isMapping document = true)
      (ProjectionExc.valueError (k.text ++ " projection record has no structured document")) =
      .ok () := ensure_eq_ok.mpr hnames.dict
  obtain ⟨summary, hc⟩ : ∃ summary, continuityCandidate j k idField record =
      candidate k (idColumn id) record (document.get? "title") ps
        (j.sourceIds (((revisions ++ referred .sourceRevision references).map Text.text ++
          ((claims ++ referred .claim references).dedup.map Text.text).flatMap
            j.revisionsOf).dedup))
        (((revisions ++ referred .sourceRevision references).map Text.text ++
          ((claims ++ referred .claim references).dedup.map Text.text).flatMap j.revisionsOf).dedup)
        (document.get? "status") summary :=
    ⟨_, by
      simp only [continuityCandidate, hdocument, hdict, hnames.id, hclaims, hrevisions, hreferences,
        mapM_textOf, ok_bind, show "CLAIM" = RecordType.claim.text from rfl,
        show "SOURCE_REVISION" = RecordType.sourceRevision.text from rfl, referencesTo_returns,
        ← List.map_append, dedup_map_text, hps]
      rfl⟩
  refine ⟨_, hc.trans (candidate_returns hnames.title hnames.status href),
    h.tells rfl rfl rfl rfl ?_ ?_ rfl⟩
  · intro p
    simp only [hpredicates, List.mem_dedup, hinClaims]
    rfl
  · intro r
    rw [List.mem_dedup, List.mem_append, h.mem_flatMap, List.mem_map]
    simp only [List.mem_dedup, hinClaims, hinRevisions]
    rfl

theorem decision_names {row : DecisionRow} (h : row.Sound id) :
    Names (DecisionDoc.codec.enc row.document) "decision_id" id (decisionNaming row) := by
  have hid : item (DecisionDoc.codec.enc row.document) "decision_id" =
      .ok (idColumn row.document.decisionId) := rfl
  refine ⟨rfl, hid.trans (by rw [h.id_eq]), fun _ => rfl, fun _ => ?_, ?_⟩
  · show _ = Except.ok (some row.status.text)
    rw [← h.status]
    rfl
  · refine ⟨row.document.relatedClaimIds.1, row.document.relatedSourceRevisionIds.1, [], rfl, rfl,
      rfl, ?_, ?_⟩
    · simp [referred, decisionNaming]
    · simp [referred, decisionNaming]

theorem question_names {row : QuestionRow} (h : row.Sound id) :
    Names (QuestionDoc.codec.enc row.document) "question_id" id (questionNaming row) := by
  have hid : item (QuestionDoc.codec.enc row.document) "question_id" =
      .ok (idColumn row.document.questionId) := rfl
  refine ⟨rfl, hid.trans (by rw [h.id_eq]), fun _ => rfl, fun _ => ?_, ?_⟩
  · show _ = Except.ok (some row.status.text)
    rw [← h.status]
    rfl
  · exact ⟨[], [], row.document.relatedObjects.1, rfl, rfl, rfl, fun _ => Iff.rfl, fun _ => Iff.rfl⟩

theorem workItem_names {row : WorkItemRow} (h : row.Sound id) :
    Names (WorkItemDoc.codec.enc row.document) "work_item_id" id (workItemNaming row) := by
  have hid : item (WorkItemDoc.codec.enc row.document) "work_item_id" =
      .ok (idColumn row.document.workItemId) := rfl
  refine ⟨rfl, hid.trans (by rw [h.id_eq]), fun _ => rfl, fun _ => ?_, ?_⟩
  · show _ = Except.ok (some row.status.text)
    rw [← h.status]
    rfl
  · exact ⟨[], [], row.document.relatedObjects.1, rfl, rfl, rfl, fun _ => Iff.rfl, fun _ => Iff.rfl⟩

end

end SharedMind.Projection
