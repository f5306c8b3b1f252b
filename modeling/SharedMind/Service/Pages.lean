import SharedMind.Service.WorkItems
import SharedMind.Projection.Pages

/-!
# Pages of work items

* `workItemDocuments`: the documents of the work items, by identifier.
* `page_of_run`: **in a reachable state a page of the query for work items is a slice of them**.
-/

namespace SharedMind.Service

open Py Projection

/-- The documents of the work items, by identifier. -/
def workItemDocuments (t : Tables) : List Json :=
  t.workItems.toList.map fun r => WorkItemDoc.codec.enc r.2.document

/-! ### Candidates and their records -/

theorem candidate_record {kind : QueryKind} {objectId record : Json} {title status : Option Json}
    {predicates sourceIds revisions : List String} {summary : Json} {c : Candidate}
    (h : candidate kind objectId record title predicates sourceIds revisions status summary =
      .ok c) : c.objectType = kind ∧ c.record = record ∧ objectId.str? = some c.objectId := by
  simp only [candidate, bind_eq_ok, pure_eq_ok, orRaise_eq_ok] at h
  obtain ⟨id, hid, _, _, _, _, _, _, rfl⟩ := h
  exact ⟨rfl, rfl, (Option.filter_eq_some_iff.mp hid).1⟩

theorem continuityCandidate_record {j : Joins} {kind : QueryKind} {idField : String}
    {record : Json} {c : Candidate} (h : continuityCandidate j kind idField record = .ok c) :
    c.objectType = kind ∧ c.record = record ∧ ∃ document objectId,
      item record "document" = .ok document ∧ item document idField = .ok objectId ∧
      objectId.str? = some c.objectId := by
  simp only [continuityCandidate, bind_eq_ok] at h
  obtain ⟨document, hdocument, _, _, objectId, hid, _, _, _, _, _, _, _, _, _, _, _, _, _, _, _, _,
    h⟩ := h
  obtain ⟨hkind, hrecord, hobject⟩ := candidate_record h
  exact ⟨hkind, hrecord, document, objectId, hdocument, hid, hobject⟩

theorem sourceCandidate_kind {record : Json} {c : Candidate} (h : sourceCandidate record = .ok c) :
    c.objectType = .sourceRevision := by
  simp only [sourceCandidate, bind_eq_ok] at h
  obtain ⟨_, _, _, _, _, _, _, _, _, _, h⟩ := h
  exact (candidate_record h).1

theorem claimCandidate_kind {j : Joins} {record : Json} {c : Candidate}
    (h : claimCandidate j record = .ok c) : c.objectType = .claim := by
  simp only [claimCandidate, bind_eq_ok] at h
  obtain ⟨_, _, _, _, _, _, _, _, _, _, _, _, _, _, _, _, _, _, h⟩ := h
  exact (candidate_record h).1

theorem evidenceCandidate_kind {j : Joins} {record : Json} {c : Candidate}
    (h : evidenceCandidate j record = .ok c) : c.objectType = .evidenceLink := by
  simp only [evidenceCandidate, bind_eq_ok] at h
  obtain ⟨_, _, _, _, _, _, _, _, _, _, h⟩ := h
  exact (candidate_record h).1

theorem conflictCandidate_kind {j : Joins} {record : Json} {c : Candidate}
    (h : conflictCandidate j record = .ok c) : c.objectType = .conflict := by
  simp only [conflictCandidate, bind_eq_ok] at h
  obtain ⟨_, _, _, _, _, _, _, _, _, _, _, _, _, _, h⟩ := h
  exact (candidate_record h).1

/-- The candidates of work items are those of the section of work items. -/
theorem workItem_of_candidates {p : ProjectedState} {all : List Candidate}
    (h : candidates p.json = .ok all) {c : Candidate} (hc : c ∈ all)
    (hkind : c.objectType = .workItem) :
    ∃ r ∈ p.workItems, ∃ j, continuityCandidate j .workItem "work_item_id" r.json = .ok c := by
  simp only [candidates, bind_eq_ok, pure_eq_ok] at h
  obtain ⟨j, _, _, _, sources, hsources, _, _, claims, hclaims, _, _, evidence, hevidence, _, _,
    conflicts, hconflicts, continuity, hcontinuity, _, _, decisions, hdecisions, _, _, questions,
    hquestions, items, hitems, workItems, hworkItems, rfl⟩ := h
  have hother {k : QueryKind} (hk : c.objectType = k) (hne : k ≠ .workItem) : False :=
    hne (hk.symm.trans hkind)
  simp only [List.mem_append] at hc
  rcases hc with (((((hc | hc) | hc) | hc) | hc) | hc) | hc
  · obtain ⟨r, _, hr⟩ := mem_of_mapM hsources hc
    exact (hother (sourceCandidate_kind hr) (by decide)).elim
  · obtain ⟨r, _, hr⟩ := mem_of_mapM hclaims hc
    exact (hother (claimCandidate_kind hr) (by decide)).elim
  · obtain ⟨r, _, hr⟩ := mem_of_mapM hevidence hc
    exact (hother (evidenceCandidate_kind hr) (by decide)).elim
  · obtain ⟨r, _, hr⟩ := mem_of_mapM hconflicts hc
    exact (hother (conflictCandidate_kind hr) (by decide)).elim
  · obtain ⟨r, _, hr⟩ := mem_of_mapM hdecisions hc
    exact (hother (continuityCandidate_record hr).1 (by decide)).elim
  · obtain ⟨r, _, hr⟩ := mem_of_mapM hquestions hc
    exact (hother (continuityCandidate_record hr).1 (by decide)).elim
  · obtain ⟨r, hr, hread⟩ := mem_of_mapM hworkItems hc
    have hcontinuity' : item p.json "continuity" = .ok continuity := hcontinuity
    obtain rfl : items = p.workItems.map ProjectedRecord.json := by
      have hcont := Except.ok.inj (hcontinuity'.symm.trans
        (show item p.json "continuity" = .ok _ from rfl))
      subst hcont
      exact (Except.ok.inj hitems).symm
    obtain ⟨record, hrecord, rfl⟩ := List.mem_map.mp hr
    exact ⟨record, hrecord, j, hread⟩

/-! ### The documents of a page -/

/-- A record of the section of work items carries the document of its row. -/
theorem document_of_record {t : Tables} {history : List HistoryEntry} {p : ProjectedState}
    (hof : p.Of t history) {r : ProjectedRecord} (hr : r ∈ p.workItems) :
    ∃ (id : RecordId) (row : WorkItemRow), t.workItems[id]? = some row ∧
      item r.json "document" = .ok (WorkItemDoc.codec.enc row.document) ∧
      r.json.get? "document" = some (WorkItemDoc.codec.enc row.document) := by
  rw [hof.workItems] at hr
  obtain ⟨a, ha, rfl⟩ := List.mem_map.mp hr
  have hmem := List.fst_mem_of_mem_zipIdx ha
  rw [optionalRecords, List.mem_insertionSort] at hmem
  obtain ⟨row, hrow, heq⟩ := List.mem_map.mp hmem
  refine ⟨row.1, row.2, Table.mem_toList.mp hrow, ?_, ?_⟩
  · rw [← heq]
    rfl
  · rw [← heq]
    rfl

/-- What a query for work items finds. -/
structure Found (t : Tables) (found : List Candidate) : Prop where
  record : ∀ c ∈ found, ∃ (id : RecordId) (row : WorkItemRow), t.workItems[id]? = some row ∧
    c.objectId = id ∧ c.record.get? "document" = some (WorkItemDoc.codec.enc row.document)
  complete : ∀ (id : RecordId) (row : WorkItemRow), t.workItems[id]? = some row →
    ∃ c ∈ found, c.objectId = id
  sorted : (found.map Candidate.objectId).Pairwise (· < ·)

theorem meets_pageSpec {t : Tables} {offset : Nat} {k : QueryKind} {id : RecordId} {n : Naming} :
    Meets t (pageSpec offset) k id n ↔ k = .workItem := by
  constructor
  · intro h
    rcases h.kind with hnil | hmem
    · cases hnil
    · exact List.mem_singleton.mp hmem
  · rintro rfl
    refine ⟨Or.inr (List.mem_singleton_self _), Or.inl rfl, ?_, Or.inl rfl, Or.inl rfl, Or.inl rfl,
      Or.inl rfl⟩
    intro part hpart
    cases hpart

theorem matching_pageSpec (offset : Nat) (all : List Candidate) :
    matching (pageSpec offset) all = matching (pageSpec 0) all := rfl

/-- The candidates that match are the work items. -/
theorem found_of {t : Tables} {history : List HistoryEntry} {p : ProjectedState}
    {cs : QueryKind → List Candidate} (hof : p.Of t history) (hsound : Sound t)
    (hcs : candidates p.json = .ok (QueryKind.all.flatMap cs)) (hlists : ∀ k, Lists t k (cs k)) :
    Found t (matching (pageSpec 0) (QueryKind.all.flatMap cs)) := by
  have hmatching : ∀ key, key ∈ (matching (pageSpec 0) (QueryKind.all.flatMap cs)).map
      Candidate.pair ↔ Matching t (pageSpec 0) key := mem_matching hlists
  have hkind : ∀ c ∈ matching (pageSpec 0) (QueryKind.all.flatMap cs),
      c.objectType = .workItem := by
    intro c hc
    obtain ⟨id, n, -, -, hmeets⟩ := (hmatching c.pair).mp (List.mem_map_of_mem hc)
    exact meets_pageSpec.mp hmeets
  refine ⟨fun c hc => ?_, fun id row hrow => ?_, ?_⟩
  · have hall : c ∈ QueryKind.all.flatMap cs :=
      List.mem_of_mem_filter ((List.mem_insertionSort _).mp hc)
    obtain ⟨r, hr, j, hread⟩ := workItem_of_candidates hcs hall (hkind c hc)
    obtain ⟨-, hrecord, document, objectId, hdocument, hid, hobject⟩ :=
      continuityCandidate_record hread
    obtain ⟨id, row, hrow, hitem, hget⟩ := document_of_record hof hr
    obtain rfl := Except.ok.inj (hitem.symm.trans hdocument)
    have hnames := workItem_names (hsound.workItems id row hrow)
    obtain rfl := Except.ok.inj (hnames.id.symm.trans hid)
    refine ⟨id, row, hrow, (Option.some.inj hobject).symm, ?_⟩
    rw [hrecord]
    exact hget
  · have hkey : ((QueryKind.workItem, (id : String)) : QueryKind × String) ∈
        (matching (pageSpec 0) (QueryKind.all.flatMap cs)).map Candidate.pair := by
      refine (hmatching _).mpr ⟨id, workItemNaming row, rfl, ?_, meets_pageSpec.mpr rfl⟩
      show t.workItems[id]?.map workItemNaming = _
      rw [hrow]
      rfl
    obtain ⟨c, hc, heq⟩ := List.mem_map.mp hkey
    exact ⟨c, hc, congrArg Prod.snd heq⟩
  · have hpairs : ((matching (pageSpec 0) (QueryKind.all.flatMap cs)).map Candidate.pair).Pairwise
        Before := matching_sorted hlists
    have hsorted := List.pairwise_map.mp hpairs
    refine List.pairwise_map.mpr (hsorted.imp_of_mem fun {c d} hc hd hbefore => ?_)
    have hlt : toLex (c.objectType.index, c.objectId) < toLex (d.objectType.index, d.objectId) :=
      hbefore
    rw [hkind c hc, hkind d hd, Prod.Lex.toLex_lt_toLex] at hlt
    rcases hlt with hlt | hlt
    · exact absurd hlt (lt_irrefl _)
    · exact hlt.2

/-- What is found is the work items in order, with their documents. -/
theorem Found.map_eq {t : Tables} {found : List Candidate} (h : Found t found) :
    found.map (fun c => (c.objectId, c.record.get? "document")) =
      t.workItems.toList.map fun r =>
        ((r.1 : String), some (WorkItemDoc.codec.enc r.2.document)) := by
  have hfound := List.pairwise_map.mp h.sorted
  have hrows : (t.workItems.toList.map fun r =>
      ((r.1 : String), some (WorkItemDoc.codec.enc r.2.document))).Pairwise fun a b => a.1 < b.1 :=
    List.pairwise_map.mpr t.workItems.toList_sorted
  have hcandidates : (found.map fun c => (c.objectId, c.record.get? "document")).Pairwise
      fun a b => a.1 < b.1 := List.pairwise_map.mpr hfound
  have hmem : ∀ a, a ∈ found.map (fun c => (c.objectId, c.record.get? "document")) ↔
      a ∈ t.workItems.toList.map fun r =>
        ((r.1 : String), some (WorkItemDoc.codec.enc r.2.document)) := by
    intro a
    rw [List.mem_map, List.mem_map]
    constructor
    · rintro ⟨c, hc, rfl⟩
      obtain ⟨id, row, hrow, hid, hdocument⟩ := h.record c hc
      exact ⟨(id, row), Table.mem_toList.mpr hrow, by rw [hid, hdocument]⟩
    · rintro ⟨r, hr, rfl⟩
      have hrow := Table.mem_toList.mp hr
      obtain ⟨c, hc, hid⟩ := h.complete r.1 r.2 hrow
      obtain ⟨id, row, hrow', hid', hdocument⟩ := h.record c hc
      obtain rfl : r.1 = id := Text.ext (hid.symm.trans hid')
      obtain rfl := Option.some.inj (hrow.symm.trans hrow')
      exact ⟨c, hc, by rw [hid, hdocument]⟩
  have hnodup {l : List (String × Option Json)} (hl : l.Pairwise fun a b => a.1 < b.1) : l.Nodup :=
    hl.imp fun hlt heq => hlt.ne (congrArg Prod.fst heq)
  have hperm := (List.perm_ext_iff_of_nodup (hnodup hcandidates) (hnodup hrows)).mpr hmem
  exact hperm.eq_of_pairwise (fun a b _ _ hab hba => absurd hab (lt_asymm hba)) hcandidates hrows

/-- A slice of what is found has the documents of that slice of the work items. -/
theorem documents_slice {t : Tables} {found : List Candidate}
    (h : found.map (fun c => (c.objectId, c.record.get? "document")) =
      t.workItems.toList.map fun r => ((r.1 : String), some (WorkItemDoc.codec.enc r.2.document)))
    (offset : Nat) :
    ((found.drop offset).take 1000).filterMap (fun c =>
      (c.record.get? "document").filter isMapping) =
      ((workItemDocuments t).drop offset).take 1000 := by
  have hdocuments := congrArg (List.map Prod.snd) h
  rw [List.map_map, List.map_map] at hdocuments
  have hfound : ((found.drop offset).take 1000).filterMap (fun c =>
      (c.record.get? "document").filter isMapping) =
      (((found.map fun c => c.record.get? "document").drop offset).take 1000).filterMap
        fun d => d.filter isMapping := by
    rw [← List.map_drop, ← List.map_take, List.filterMap_map]
    rfl
  have hrows : t.workItems.toList.map (Prod.snd ∘ fun r : RecordId × WorkItemRow =>
      ((r.1 : String), some (WorkItemDoc.codec.enc r.2.document))) =
      (workItemDocuments t).map some := by
    rw [workItemDocuments, List.map_map]
    rfl
  have hmapping : ∀ d ∈ workItemDocuments t, isMapping d = true := by
    intro d hd
    obtain ⟨r, _, rfl⟩ := List.mem_map.mp hd
    rfl
  rw [hfound]
  show (((found.map (Prod.snd ∘ fun c => (c.objectId, c.record.get? "document"))).drop
    offset).take 1000).filterMap _ = _
  rw [hdocuments, hrows, ← List.map_drop, ← List.map_take, List.filterMap_map]
  refine (List.filterMap_congr fun d hd => ?_).trans List.filterMap_some
  show (some d).filter isMapping = some d
  rw [Option.filter_some, if_pos (hmapping d (List.mem_of_mem_drop (List.mem_of_mem_take hd)))]

/-- A page of the query for work items. -/
structure IsSlice (documents : List Json) (offset : Nat) (page : QueryResult) : Prop where
  read : documentsOf page = (documents.drop offset).take 1000
  hits : page.hits.length = ((documents.drop offset).take 1000).length
  truncated : page.truncated = decide (offset + 1000 < documents.length)

/-- **A page of the query for work items is a slice of their documents**, in every state that any
interleaving reaches. -/
theorem page_of_run [Host] {reg : Registry} {ι : Type} [DecidableEq ι] {es : List (Event ι)}
    {s : Sys ι} (hrun : SharedMind.Run reg (.start .empty) es s) (offset : Nat) :
    ∃ page, query s.db (pageSpec offset) = .ok page ∧
      IsSlice (workItemDocuments s.db.tables) offset page := by
  obtain ⟨p, hp⟩ := buildProjection_returns hrun
  obtain ⟨history, hof⟩ := buildProjection_of hp
  obtain ⟨cs, hcs, hlists⟩ := candidates_returns hof (sound_of_run hrun)
  have hfound := found_of hof (sound_of_run hrun) hcs hlists
  obtain ⟨page, hpage, hresult⟩ := query_returns hp hcs (pageSpec offset)
  rw [matching_pageSpec] at hresult
  set found := matching (pageSpec 0) (QueryKind.all.flatMap cs) with hset
  have hmap := hfound.map_eq
  have hlength : found.length = (workItemDocuments s.db.tables).length := by
    have hlen := congrArg List.length hmap
    rw [List.length_map, List.length_map] at hlen
    rw [workItemDocuments, List.length_map, hlen]
  refine ⟨page, hpage, ?_, ?_, ?_⟩
  · rw [documentsOf, hresult.hits]
    show (((found.drop offset).take 1000).map (hitOf (pageSpec offset))).filterMap _ = _
    rw [List.filterMap_map, ← documents_slice hmap offset]
    rfl
  · rw [hresult.hits]
    show (((found.drop offset).take 1000).map (hitOf (pageSpec offset))).length = _
    rw [List.length_map, List.length_take, List.length_take, List.length_drop, List.length_drop,
      hlength]
  · rw [hresult.truncated, hlength]
    rfl

end SharedMind.Service
