import SharedMind.Projection.Relations

/-!
# Structured queries page exactly

* `Lists`: the candidates of a kind are those of its records, one for each.
* `candidates_returns`: so they are for every kind in a reachable state.
* `query_pages`: the pages of a query put together list the matching records in order, each once.
-/

namespace SharedMind.Projection

open Py

/-! ### Computations over lists -/

section

variable {ε α β γ : Type} {f : α → Except ε β} {as : List α} {bs : List β}

theorem mapM_map_eq {f : β → Except ε γ} {g : α → β} {g' : α → γ}
    (h : ∀ a ∈ as, f (g a) = .ok (g' a)) : (as.map g).mapM f = .ok (as.map g') := by
  induction as with
  | nil => rfl
  | cons a as ih =>
    rw [List.map_cons, List.mapM_cons, h a List.mem_cons_self, ok_bind,
      ih fun b hb => h b (List.mem_cons_of_mem a hb)]
    rfl

theorem exists_of_mapM (h : as.mapM f = .ok bs) {a : α} (ha : a ∈ as) :
    ∃ b ∈ bs, f a = .ok b := by
  induction as generalizing bs with
  | nil => exact absurd ha List.not_mem_nil
  | cons c as ih =>
    simp only [List.mapM_cons, bind_eq_ok, pure_eq_ok] at h
    obtain ⟨d, hd, ds, hds, rfl⟩ := h
    obtain rfl | ha := List.mem_cons.mp ha
    · exact ⟨d, List.mem_cons_self, hd⟩
    · obtain ⟨b, hb, hfa⟩ := ih hds ha
      exact ⟨b, List.mem_cons_of_mem d hb, hfa⟩

theorem map_eq_of_mapM {g : β → γ} {g' : α → γ} (h : as.mapM f = .ok bs)
    (hg : ∀ a ∈ as, ∀ b, f a = .ok b → g b = g' a) : bs.map g = as.map g' := by
  induction as generalizing bs with
  | nil =>
    rw [List.mapM_nil, pure_eq_ok] at h
    rw [← h]
    rfl
  | cons a as ih =>
    simp only [List.mapM_cons, bind_eq_ok, pure_eq_ok] at h
    obtain ⟨b, hb, cs, hcs, rfl⟩ := h
    rw [List.map_cons, List.map_cons, hg a List.mem_cons_self b hb,
      ih hcs fun c hc => hg c (List.mem_cons_of_mem a hc)]

end

/-! ### Joins -/

/-- Rows have different identifiers. -/
theorem nodup_keys {ρ : Type} (rows : Table RecordId ρ) :
    (rows.toList.map fun r => (r.1 : String)).Nodup := by
  apply List.pairwise_map.mpr
  apply rows.toList_sorted.imp
  intro a b hlt heq
  exact hlt.ne (Text.ext heq)

theorem zipIdx_map_fst {α β : Type} (as : List α) (g : α → β) :
    (as.zipIdx.map fun a => g a.1) = as.map g := by
  rw [← List.zipIdx_map_fst 0 as, List.map_map, List.zipIdx_map_fst 0 as]
  rfl

section

variable {t : Tables} {history : List HistoryEntry}

/-- What the records of a projection are joined by. -/
def joinsOf (history : List HistoryEntry) (t : Tables) : Joins where
  sourceIdByRevision := t.sources.toList.map fun s => (s.1, s.2.document.sourceId)
  evidence := t.evidence.toList.map fun e => (e.2.claimId, e.2.sourceRevisionId)
  claimById := t.claims.toList.zipIdx.map fun c =>
    (c.1.1, claimRecord history t c.1.1 c.1.2 c.2)

theorem joinsOf_of (history : List HistoryEntry) (t : Tables) : (joinsOf history t).Of t := by
  have hsources : ((joinsOf history t).sourceIdByRevision.map Prod.fst).Nodup := by
    rw [joinsOf, List.map_map]
    exact nodup_keys t.sources
  have hclaims : ((joinsOf history t).claimById.map Prod.fst).Nodup := by
    rw [joinsOf, List.map_map]
    show (t.claims.toList.zipIdx.map fun c => ((c.1.1 : RecordId) : String)).Nodup
    rw [zipIdx_map_fst t.claims.toList fun c => (c.1 : String)]
    exact nodup_keys t.claims
  refine ⟨?_, ?_, ?_, ?_⟩
  · intro revision source
    rw [lookup_eq_some hsources, joinsOf, List.mem_map]
    constructor
    · intro h
      obtain ⟨s, hs, heq⟩ := h
      obtain ⟨hid, hsource⟩ := Prod.mk.inj heq
      exact ⟨s.1, s.2, Table.mem_toList.mp hs, hid, hsource⟩
    · intro h
      obtain ⟨id, row, hrow, hid, hsource⟩ := h
      exact ⟨(id, row), Table.mem_toList.mpr hrow, Prod.ext hid hsource⟩
  · intro claim revision
    rw [joinsOf, List.mem_map]
    constructor
    · intro h
      obtain ⟨e, he, heq⟩ := h
      obtain ⟨hclaim, hrevision⟩ := Prod.mk.inj heq
      exact ⟨e.1, e.2, Table.mem_toList.mp he, Text.ext hclaim, hrevision⟩
    · intro h
      obtain ⟨link, row, hrow, hclaim, hrevision⟩ := h
      exact ⟨(link, row), Table.mem_toList.mpr hrow, Prod.ext (congrArg Text.text hclaim) hrevision⟩
  · intro id record h
    rw [lookup_eq_some hclaims, joinsOf, List.mem_map] at h
    obtain ⟨c, hc, heq⟩ := h
    obtain ⟨hid, hrecord⟩ := Prod.mk.inj heq
    obtain rfl := Text.ext hid
    exact ⟨c.1.2, Table.mem_toList.mp (List.fst_mem_of_mem_zipIdx hc), hrecord ▸ rfl⟩
  · intro id row hrow
    have hmem : (id, row) ∈ t.claims.toList.zipIdx.map Prod.fst := by
      rw [List.zipIdx_map_fst]
      exact Table.mem_toList.mpr hrow
    obtain ⟨c, hc, heq⟩ := List.mem_map.mp hmem
    refine ⟨claimRecord history t c.1.1 c.1.2 c.2,
      (lookup_eq_some hclaims).mpr (List.mem_map.mpr ⟨c, hc, ?_⟩)⟩
    exact Prod.ext (congrArg (fun r : RecordId × ClaimRow => (r.1 : String)) heq) rfl

/-- The records of a projection are those of the rows. -/
structure ProjectedState.Of (t : Tables) (history : List HistoryEntry) (p : ProjectedState) :
    Prop where
  sources : p.sources.map ProjectedRecord.json =
    t.sources.toList.zipIdx.map fun s => sourceRecord history s.1.1 s.1.2 s.2
  claims : p.claims.map ProjectedRecord.json =
    t.claims.toList.zipIdx.map fun c => claimRecord history t c.1.1 c.1.2 c.2
  evidence : p.evidence.map ProjectedRecord.json =
    t.evidence.toList.zipIdx.map fun e => evidenceRecord history e.1.1 e.1.2 e.2
  conflicts : p.conflicts.map ProjectedRecord.json =
    t.conflicts.toList.zipIdx.map fun c => conflictRecord history c.1.1 c.1.2 c.2
  decisions : p.decisions = (optionalRecords history "decision_records" decisionColumns
    (fun r => DecisionDoc.codec.enc r.document) t.decisionRecords).zipIdx.map fun r =>
      r.1.placed "continuity/decisions" r.2
  questions : p.questions = (optionalRecords history "open_questions" questionColumns
    (fun r => QuestionDoc.codec.enc r.document) t.openQuestions).zipIdx.map fun r =>
      r.1.placed "continuity/questions" r.2
  workItems : p.workItems = (optionalRecords history "work_items" workItemColumns
    (fun r => WorkItemDoc.codec.enc r.document) t.workItems).zipIdx.map fun r =>
      r.1.placed "continuity/work_items" r.2

theorem buildProjection_of {db : Db} {p : ProjectedState} (h : buildProjection db = .ok p) :
    ∃ history, p.Of db.tables history := by
  simp only [buildProjection, bind_eq_ok, pure_eq_ok] at h
  obtain ⟨entries, -, -, -, -, -, -, -, -, -, rfl⟩ := h
  refine ⟨entries.map Prod.snd, ?_, ?_, ?_, ?_, rfl, rfl, rfl⟩
  all_goals
    rw [List.map_map]
    rfl

/-- The records of a projection are joined as their rows are. -/
theorem joins_returns {p : ProjectedState} (h : p.Of t history)
    (hkeyed : Keyed t) : joins p.json = .ok (joinsOf history t) := by
  have hsources : (p.sources.map ProjectedRecord.json).mapM (fun record => do
      let document ← item record "source_revision"
      return (← textAt document "revision_id", ← textAt document "source_id")) =
      Except.ok (joinsOf history t).sourceIdByRevision := by
    rw [h.sources, joinsOf, ← zipIdx_map_fst t.sources.toList]
    apply mapM_map_eq
    intro s hs
    have hrow := Table.mem_toList.mp (List.fst_mem_of_mem_zipIdx hs)
    have hdocument : item (sourceRecord history s.1.1 s.1.2 s.2) "source_revision" =
        .ok (SourceRevision.codec.enc s.1.2.document) := rfl
    rw [hdocument, ok_bind, textAt, textAt, item_revisionId, item_sourceId,
      hkeyed.sources _ _ hrow]
    rfl
  have hevidence : (p.evidence.map ProjectedRecord.json).mapM (fun record => do
      return (← textAt record "claim_id", ← textAt record "source_revision_id")) =
      Except.ok (joinsOf history t).evidence := by
    rw [h.evidence, joinsOf, ← zipIdx_map_fst t.evidence.toList]
    apply mapM_map_eq
    intro e _
    rfl
  have hclaims : (p.claims.map ProjectedRecord.json).mapM (fun record => do
      return (← textAt (← item record "claim") "claim_id", record)) =
      Except.ok (joinsOf history t).claimById := by
    rw [h.claims, joinsOf]
    apply mapM_map_eq
    intro c hc
    have hrow := Table.mem_toList.mp (List.fst_mem_of_mem_zipIdx hc)
    rw [← hkeyed.claims _ _ hrow]
    rfl
  have hsections : itemsAt p.json "sources" = .ok (p.sources.map ProjectedRecord.json) ∧
      itemsAt p.json "evidence" = .ok (p.evidence.map ProjectedRecord.json) ∧
      itemsAt p.json "claims" = .ok (p.claims.map ProjectedRecord.json) := ⟨rfl, rfl, rfl⟩
  rw [joins, hsections.1, ok_bind, hsources, ok_bind, hsections.2.1, ok_bind, hevidence, ok_bind,
    hsections.2.2, ok_bind, hclaims]
  rfl

/-! ### Candidates -/

/-- The candidates of a kind are those of its records, one for each. -/
structure Lists (t : Tables) (k : QueryKind) (cs : List Candidate) : Prop where
  sound : ∀ c ∈ cs, ∃ id n, naming t k id = some n ∧ Tells t c k id n
  complete : ∀ id n, naming t k id = some n → ∃ c ∈ cs, Tells t c k id n
  nodup : (cs.map Candidate.objectId).Nodup

/-- The records that are made of the rows of a table are read one by one. -/
theorem lists_of_rows {ρ α : Type} {k : QueryKind} {rows : Table RecordId ρ}
    {named : RecordId → ρ → Naming} {made : List α} {row : α → RecordId × ρ} {record : α → Json}
    {read : Json → Except ProjectionExc Candidate}
    (hnaming : ∀ id, naming t k id = rows[id]?.map (named id))
    (hmade : (made.map row).Perm rows.toList)
    (hread : ∀ a, rows[(row a).1]? = some (row a).2 →
      ∃ c, read (record a) = .ok c ∧ Tells t c k (row a).1 (named (row a).1 (row a).2)) :
    ∃ cs, (made.map record).mapM read = .ok cs ∧ Lists t k cs := by
  have hrow : ∀ a ∈ made, rows[(row a).1]? = some (row a).2 := by
    intro a ha
    exact Table.mem_toList.mp (hmade.mem_iff.mp (List.mem_map_of_mem ha))
  have htells : ∀ a ∈ made, ∀ c, read (record a) = .ok c →
      Tells t c k (row a).1 (named (row a).1 (row a).2) := by
    intro a ha c hc
    obtain ⟨c', hc', h⟩ := hread a (hrow a ha)
    rw [hc'] at hc
    obtain rfl := Except.ok.inj hc
    exact h
  have hreturns : ∀ a ∈ made, ∃ c, read (record a) = .ok c := by
    intro a ha
    obtain ⟨c, hc, -⟩ := hread a (hrow a ha)
    exact ⟨c, hc⟩
  obtain ⟨cs, hcs⟩ := mapM_returns hreturns
  refine ⟨cs, ?_, ?_, ?_, ?_⟩
  · rw [List.mapM_map]
    exact hcs
  · intro c hc
    obtain ⟨a, ha, hac⟩ := mem_of_mapM hcs hc
    refine ⟨_, _, ?_, htells a ha c hac⟩
    rw [hnaming, hrow a ha]
    rfl
  · intro id n hn
    rw [hnaming, Option.map_eq_some_iff] at hn
    obtain ⟨r, hr, rfl⟩ := hn
    obtain ⟨a, ha, har⟩ :=
      List.mem_map.mp (hmade.mem_iff.mpr (Table.mem_toList.mpr hr))
    obtain ⟨c, hc, hac⟩ := exists_of_mapM hcs ha
    have htell := htells a ha c hac
    rw [har] at htell
    exact ⟨c, hc, htell⟩
  · rw [map_eq_of_mapM hcs fun a ha c hac => (htells a ha c hac).objectId]
    have hkeys : made.map (fun a => ((row a).1 : String)) =
        (made.map row).map fun r => (r.1 : String) := by
      rw [List.map_map]
      rfl
    rw [hkeys]
    exact (hmade.map _).nodup_iff.mpr (nodup_keys rows)

/-- So are the records of a continuity table, in the order of their canonical forms. -/
theorem lists_of_optionalRecords {ρ : Type} {k : QueryKind} {rows : Table RecordId ρ}
    {named : RecordId → ρ → Naming} {columns : RecordId → ρ → List (String × Json)}
    {document : ρ → Json} {table «section» idField : String} {j : Joins} (hj : j.Of t)
    (hnaming : ∀ id, naming t k id = rows[id]?.map (named id))
    (hnames : ∀ id row, rows[id]? = some row → Names (document row) idField id (named id row)) :
    ∃ cs, (((optionalRecords history table columns document rows).zipIdx.map fun r =>
        r.1.placed («section») r.2).map ProjectedRecord.json).mapM
      (continuityCandidate j k idField) = .ok cs ∧ Lists t k cs := by
  let made (r : RecordId × ρ) : OptionalRecord :=
    ⟨table, columns r.1 r.2, document r.2, historySequences history r.1, historyRefs history r.1⟩
  let sorted := rows.toList.insertionSort fun r s => (made r).json.dumps ≤ (made s).json.dumps
  have hsorted : optionalRecords history table columns document rows = sorted.map made := by
    rw [optionalRecords]
    exact (List.map_insertionSort
      (fun r s : RecordId × ρ => (made r).json.dumps ≤ (made s).json.dumps)
      (fun r s : OptionalRecord => r.json.dumps ≤ s.json.dumps) made rows.toList
      fun _ _ _ _ => Iff.rfl).symm
  have hrecords : (((optionalRecords history table columns document rows).zipIdx.map fun r =>
      r.1.placed («section») r.2).map ProjectedRecord.json) =
      sorted.zipIdx.map fun r => ((made r.1).placed («section») r.2).json := by
    rw [hsorted, List.zipIdx_map, List.map_map, List.map_map]
    rfl
  have hperm : (sorted.zipIdx.map Prod.fst).Perm rows.toList := by
    rw [List.zipIdx_map_fst]
    exact List.perm_insertionSort
      (fun r s : RecordId × ρ => (made r).json.dumps ≤ (made s).json.dumps) rows.toList
  rw [hrecords]
  apply lists_of_rows hnaming hperm
  intro r hr
  exact continuityCandidate_tells hj rfl rfl (hnames _ _ hr)

/-- What the rows say of themselves, and their documents too. -/
structure Sound (t : Tables) : Prop where
  keyed : Keyed t
  decisions : ∀ (id : RecordId) (row : DecisionRow), t.decisionRecords[id]? = some row →
    row.Sound id
  questions : ∀ (id : RecordId) (row : QuestionRow), t.openQuestions[id]? = some row → row.Sound id
  workItems : ∀ (id : RecordId) (row : WorkItemRow), t.workItems[id]? = some row → row.Sound id

/-- One list for each kind. -/
def bySection (sources claims evidence conflicts decisions questions workItems : List Candidate)
    (k : QueryKind) : List Candidate :=
  match k with
  | .sourceRevision => sources
  | .claim => claims
  | .evidenceLink => evidence
  | .conflict => conflicts
  | .decisionRecord => decisions
  | .openQuestion => questions
  | .workItem => workItems

/-- The candidates of each kind, in the order of the kinds. -/
theorem candidates_returns {p : ProjectedState} (h : p.Of t history) (hsound : Sound t) :
    ∃ cs : QueryKind → List Candidate,
      candidates p.json = .ok (QueryKind.all.flatMap cs) ∧ ∀ k, Lists t k (cs k) := by
  have hj := joinsOf_of history t
  obtain ⟨sources, hsources, lsources⟩ : ∃ cs,
      (p.sources.map ProjectedRecord.json).mapM sourceCandidate = .ok cs ∧
      Lists t .sourceRevision cs := by
    rw [h.sources]
    apply lists_of_rows (fun _ => rfl) (by rw [List.zipIdx_map_fst])
    intro s hs
    exact sourceCandidate_tells hs (hsound.keyed.sources _ _ hs)
  obtain ⟨claims, hclaims, lclaims⟩ : ∃ cs,
      (p.claims.map ProjectedRecord.json).mapM (claimCandidate (joinsOf history t)) = .ok cs ∧
      Lists t .claim cs := by
    rw [h.claims]
    apply lists_of_rows (fun _ => rfl) (by rw [List.zipIdx_map_fst])
    intro c hc
    exact claimCandidate_tells hj hc (hsound.keyed.claims _ _ hc)
  obtain ⟨evidence, hevidence, levidence⟩ : ∃ cs,
      (p.evidence.map ProjectedRecord.json).mapM (evidenceCandidate (joinsOf history t)) = .ok cs ∧
      Lists t .evidenceLink cs := by
    rw [h.evidence]
    apply lists_of_rows (fun _ => rfl) (by rw [List.zipIdx_map_fst])
    intro e _
    exact evidenceCandidate_tells hj e.1.2
  obtain ⟨conflicts, hconflicts, lconflicts⟩ : ∃ cs,
      (p.conflicts.map ProjectedRecord.json).mapM (conflictCandidate (joinsOf history t)) =
        .ok cs ∧ Lists t .conflict cs := by
    rw [h.conflicts]
    apply lists_of_rows (fun _ => rfl) (by rw [List.zipIdx_map_fst])
    intro c _
    exact conflictCandidate_tells hj c.1.2
  obtain ⟨decisions, hdecisions, ldecisions⟩ : ∃ cs,
      (p.decisions.map ProjectedRecord.json).mapM
        (continuityCandidate (joinsOf history t) .decisionRecord "decision_id") = .ok cs ∧
      Lists t .decisionRecord cs := by
    rw [h.decisions]
    exact lists_of_optionalRecords hj (fun _ => rfl) fun id row hrow =>
      decision_names (hsound.decisions id row hrow)
  obtain ⟨questions, hquestions, lquestions⟩ : ∃ cs,
      (p.questions.map ProjectedRecord.json).mapM
        (continuityCandidate (joinsOf history t) .openQuestion "question_id") = .ok cs ∧
      Lists t .openQuestion cs := by
    rw [h.questions]
    exact lists_of_optionalRecords hj (fun _ => rfl) fun id row hrow =>
      question_names (hsound.questions id row hrow)
  obtain ⟨workItems, hworkItems, lworkItems⟩ : ∃ cs,
      (p.workItems.map ProjectedRecord.json).mapM
        (continuityCandidate (joinsOf history t) .workItem "work_item_id") = .ok cs ∧
      Lists t .workItem cs := by
    rw [h.workItems]
    exact lists_of_optionalRecords hj (fun _ => rfl) fun id row hrow =>
      workItem_names (hsound.workItems id row hrow)
  refine ⟨bySection sources claims evidence conflicts decisions questions workItems, ?_, ?_⟩
  · have hsections : itemsAt p.json "sources" = .ok (p.sources.map ProjectedRecord.json) ∧
        itemsAt p.json "claims" = .ok (p.claims.map ProjectedRecord.json) ∧
        itemsAt p.json "evidence" = .ok (p.evidence.map ProjectedRecord.json) ∧
        itemsAt p.json "conflicts" = .ok (p.conflicts.map ProjectedRecord.json) :=
      ⟨rfl, rfl, rfl, rfl⟩
    obtain ⟨continuity, hcontinuity, hitems⟩ : ∃ continuity,
        item p.json "continuity" = .ok continuity ∧
        itemsAt continuity "decisions" = .ok (p.decisions.map ProjectedRecord.json) ∧
        itemsAt continuity "questions" = .ok (p.questions.map ProjectedRecord.json) ∧
        itemsAt continuity "work_items" = .ok (p.workItems.map ProjectedRecord.json) :=
      ⟨_, rfl, rfl, rfl, rfl⟩
    simp only [candidates, joins_returns h hsound.keyed, hsections, hcontinuity, hitems, hsources,
      hclaims, hevidence, hconflicts, hdecisions, hquestions, hworkItems, ok_bind]
    simp [bySection, QueryKind.all, pure, Except.pure]
  · intro k
    cases k
    · exact lsources
    · exact lclaims
    · exact levidence
    · exact lconflicts
    · exact ldecisions
    · exact lquestions
    · exact lworkItems

end

/-! ### Reading the projection -/

theorem sorted_of_get? {value member : Json} {key : String} (h : value.Sorted)
    (hmember : value.get? key = some member) : member.Sorted := by
  cases h with
  | obj _ hmembers => exact hmembers _ (JsonOf.mem_of_get? hmember)
  | _ => exact nomatch hmember

theorem sorted_records {records : List ProjectedRecord} (h : ∀ r ∈ records, r.json.Sorted) :
    (JsonOf.arr (records.map ProjectedRecord.json)).Sorted := by
  apply JsonOf.Sorted.arr
  intro v hv
  obtain ⟨r, hr, rfl⟩ := List.mem_map.mp hv
  exact h r hr

theorem ProjectedState.Shown.headEntryHash_sorted {p : ProjectedState} (h : p.Shown) :
    p.headEntryHash.Sorted := by
  have hentries : ∀ r ∈ p.entries, r.json.Sorted := fun r hr =>
    (h.records ⟨"History", p.entries, some "sequence"⟩ (by simp [sections]) r hr).sorted
  rw [headEntryHash, head, Option.bind_map]
  cases hhead : p.entries.getLast? with
  | none => exact .null
  | some r =>
    rw [Option.bind_some, Function.comp_apply]
    cases hvalue : r.json.get? "entry_hash" with
    | none => exact .null
    | some v => exact sorted_of_get? (hentries r (List.mem_of_getLast? hhead)) hvalue

theorem ProjectedState.Shown.json_sorted {p : ProjectedState} (h : p.Shown) : p.json.Sorted := by
  have hrecords := h.records
  simp only [sections, List.forall_mem_cons] at hrecords
  obtain ⟨hsources, hclaims, hevidence, hconflicts, hdecisions, hquestions, hworkItems, hentries,
    -⟩ := hrecords
  have hsection {key : Option String} {records : List ProjectedRecord}
      (hshown : ∀ r ∈ records, Projection.Shown key r) :
      (JsonOf.arr (records.map ProjectedRecord.json)).Sorted :=
    sorted_records fun r hr => (hshown r hr).sorted
  have hsequence : p.headSequence.Sorted := by
    obtain ⟨n, hn⟩ := h.headSequence
    rw [hn]
    exact sorted_intColumn n
  apply sorted_obj ["claims", "conflicts", "continuity", "evidence", "ledger",
    "projection_version", "sources", "state_root"] rfl (by decide)
  simp only [List.map_cons, List.map_nil, List.forall_mem_cons]
  refine ⟨hsection hclaims, hsection hconflicts, ?_, hsection hevidence, ?_, .str _,
    hsection hsources, sorted_idColumn _, sorted_nil⟩
  · apply sorted_obj ["decisions", "questions", "work_items"] rfl (by decide)
    simp only [List.map_cons, List.map_nil, List.forall_mem_cons]
    exact ⟨hsection hdecisions, hsection hquestions, hsection hworkItems, sorted_nil⟩
  · apply sorted_obj ["entries", "head_entry_hash", "head_sequence"] rfl (by decide)
    simp only [List.map_cons, List.map_nil, List.forall_mem_cons]
    exact ⟨hsection hentries, h.headEntryHash_sorted, hsequence, sorted_nil⟩

/-! ### Matching records -/

/-- The matching candidates, sorted. -/
def matching (spec : QuerySpec) (all : List Candidate) : List Candidate :=
  (all.filter fun c => matches_ c spec).insertionSort fun c d => c.key ≤ d.key

/-- The kind and the identifier of a record. -/
def Candidate.pair (c : Candidate) : QueryKind × String := (c.objectType, c.objectId)

def Hit.pair (h : Hit) : QueryKind × String := (h.objectType, h.objectId)

/-- In the order of the kinds, and of the identifiers within a kind. -/
def Before (a b : QueryKind × String) : Prop := toLex (a.1.index, a.2) < toLex (b.1.index, b.2)

theorem index_inj {k k' : QueryKind} (h : k.index = k'.index) : k = k' := by
  cases k <;> cases k' <;> first | rfl | exact absurd h (by decide)

theorem mem_all (k : QueryKind) : k ∈ QueryKind.all := by cases k <;> decide

theorem pair_of_key {c d : Candidate} (h : c.key = d.key) : c.pair = d.pair := by
  obtain ⟨hindex, hid⟩ := Prod.mk.inj (toLex.injective h)
  exact Prod.ext (index_inj hindex) hid

theorem Lists.objectType {t : Tables} {k : QueryKind} {cs : List Candidate} (h : Lists t k cs)
    {c : Candidate} (hc : c ∈ cs) : c.objectType = k := by
  obtain ⟨id, n, -, htells⟩ := h.sound c hc
  exact htells.objectType

variable {t : Tables} {cs : QueryKind → List Candidate} {spec : QuerySpec}

/-- No two records have a kind and an identifier in common. -/
theorem nodup_pairs (h : ∀ k, Lists t k (cs k)) :
    ((QueryKind.all.flatMap cs).map Candidate.pair).Nodup := by
  rw [List.map_flatMap, List.nodup_flatMap]
  constructor
  · intro k _
    apply List.Nodup.of_map Prod.snd
    rw [List.map_map]
    exact (h k).nodup
  · apply List.Pairwise.imp (R := fun k k' => k ≠ k')
    · intro k k' hne
      rw [Function.onFun, List.disjoint_left]
      intro pair hpair hpair'
      obtain ⟨c, hc, rfl⟩ := List.mem_map.mp hpair
      obtain ⟨d, hd, heq⟩ := List.mem_map.mp hpair'
      apply hne
      rw [← (h k).objectType hc, ← (h k').objectType hd]
      exact (congrArg Prod.fst heq).symm
    · decide

theorem matching_sorted (h : ∀ k, Lists t k (cs k)) :
    ((matching spec (QueryKind.all.flatMap cs)).map Candidate.pair).Pairwise Before := by
  rw [List.pairwise_map]
  have hle : (matching spec (QueryKind.all.flatMap cs)).Pairwise fun c d => c.key ≤ d.key :=
    List.pairwise_insertionSort _ _
  have hne : (matching spec (QueryKind.all.flatMap cs)).Pairwise fun c d => c.pair ≠ d.pair := by
    rw [← List.pairwise_map]
    apply (List.Perm.nodup_iff ((List.perm_insertionSort _ _).map _)).mpr
    exact (nodup_pairs h).sublist (List.filter_sublist.map _)
  apply hle.imp₂ _ hne
  intro c d hcd hpair
  exact lt_of_le_of_ne hcd fun heq => hpair (pair_of_key heq)

/-- The candidates that match are those of the records that meet the filters. -/
theorem mem_matching (h : ∀ k, Lists t k (cs k)) (key : QueryKind × String) :
    key ∈ (matching spec (QueryKind.all.flatMap cs)).map Candidate.pair ↔ Matching t spec key := by
  simp only [matching, List.mem_map, List.mem_insertionSort, List.mem_filter, List.mem_flatMap]
  constructor
  · intro hkey
    obtain ⟨c, ⟨⟨k, -, hc⟩, hmatches⟩, rfl⟩ := hkey
    obtain ⟨id, n, hn, htells⟩ := (h k).sound c hc
    have hkind : c.pair.1 = k := htells.objectType
    refine ⟨id, n, htells.objectId.symm, ?_, ?_⟩
    · rw [hkind]
      exact hn
    · rw [hkind]
      exact htells.matches_iff.mp hmatches
  · intro hkey
    obtain ⟨id, n, hid, hn, hmeets⟩ := hkey
    obtain ⟨c, hc, htells⟩ := (h key.1).complete id n hn
    refine ⟨c, ⟨⟨key.1, mem_all key.1, hc⟩, htells.matches_iff.mpr hmeets⟩, ?_⟩
    exact Prod.ext htells.objectType (htells.objectId.trans hid)

/-! ### Pages -/

theorem flatMap_pages {α : Type} (as : List α) (limit count : Nat) :
    ((List.range count).flatMap fun i => (as.drop (i * limit)).take limit) =
      as.take (count * limit) := by
  induction count with
  | zero => simp
  | succ count ih =>
    rw [List.range_succ, List.flatMap_append, ih, List.flatMap_singleton, Nat.succ_mul,
      List.take_add]

/-- A page of these records. -/
structure Page (spec : QuerySpec) (found : List Candidate) (r : QueryResult) : Prop where
  hits : r.hits = ((found.drop spec.offset).take spec.limit).map (hitOf spec)
  totalMatches : r.totalMatches = found.length
  truncated : r.truncated = decide (spec.offset + spec.limit < found.length)

/-- A query returns a page of the matching records. -/
theorem query_returns {db : Db} {p : ProjectedState} {all : List Candidate}
    (hbuild : buildProjection db = .ok p) (hall : candidates p.json = .ok all)
    (spec : QuerySpec) : ∃ r, query db spec = .ok r ∧ Page spec (matching spec all) r := by
  have hshown := buildProjection_shown hbuild
  have hload : orRaise (loads (p.json.dumps ++ "\n")) ProjectionExc.jsonDecodeError =
      .ok p.json := by
    rw [loads_line hshown.json_sorted]
    rfl
  have hjson : projectJson db = .ok (p.json.dumps ++ "\n") := by
    rw [projectJson, hbuild]
    rfl
  have hversion : textAt p.json "projection_version" = .ok projectionVersion := rfl
  have hroot : textAt p.json "state_root" = .ok (p.stateRoot : String) := rfl
  obtain ⟨ledger, hledger, hhead⟩ : ∃ ledger, item p.json "ledger" = .ok ledger ∧
      item ledger "head_sequence" = .ok p.headSequence := ⟨_, rfl, rfl⟩
  obtain ⟨n, hn⟩ := hshown.headSequence
  have hsequence : intOf p.headSequence = .ok (n : Int) := by
    rw [hn]
    show orRaise (PyNum.int n).toInt? ProjectionExc.typeError = _
    rw [PyNum.toInt?_int]
    rfl
  have hquery : query db spec = .ok {
      queryVersion := queryVersion
      projectionVersion := projectionVersion
      stateRoot := p.stateRoot
      ledgerSequence := n
      normalizedQuery := spec.normalized
      hits := (((matching spec all).drop spec.offset).take spec.limit).map (hitOf spec)
      totalMatches := (matching spec all).length
      truncated := decide (spec.offset +
        (((matching spec all).drop spec.offset).take spec.limit).length <
          (matching spec all).length) } := by
    simp only [query, hjson, hload, hall, hversion, hroot, hledger, hhead, hsequence, ok_bind]
    rfl
  refine ⟨_, hquery, rfl, rfl, ?_⟩
  have hlimit := spec.limit_pos
  simp only [List.length_take, List.length_drop, decide_eq_decide]
  omega

/-- The pages of a query from the first record on. -/
def pages (db : Db) (spec : QuerySpec) (count : Nat) : Except ProjectionExc (List QueryResult) :=
  (List.range count).mapM fun i => query db (spec.from_ (i * spec.limit))

/-- The pages put together are the records. -/
theorem pages_hits {found : List Candidate} {count : Nat} {rs : List QueryResult}
    {db : Db} (h : pages db spec count = .ok rs)
    (hpage : ∀ i r, query db (spec.from_ (i * spec.limit)) = .ok r →
      Page (spec.from_ (i * spec.limit)) found r) :
    (rs.flatMap QueryResult.hits).map Hit.pair =
      (found.take (count * spec.limit)).map Candidate.pair := by
  have hhits : rs.map QueryResult.hits = (List.range count).map fun i =>
      ((found.drop (i * spec.limit)).take spec.limit).map (hitOf spec) :=
    map_eq_of_mapM h fun i _ r hr => (hpage i r hr).hits
  rw [List.flatMap_def, hhits, ← List.flatMap_def, List.map_flatMap, ← flatMap_pages,
    List.map_flatMap]
  simp only [List.map_map]
  rfl

/-- The pages of a query list the matching records in order, and only the last one ends them. -/
structure Complete (db : Db) (spec : QuerySpec) (before : List QueryResult) (last : QueryResult) :
    Prop where
  returned : pages db spec (before.length + 1) = .ok (before ++ [last])
  truncated : ∀ r ∈ before, r.truncated = true
  ended : last.truncated = false
  sorted : (((before ++ [last]).flatMap QueryResult.hits).map Hit.pair).Pairwise Before
  mem_iff : ∀ key, key ∈ ((before ++ [last]).flatMap QueryResult.hits).map Hit.pair ↔
    Matching db.tables spec key

/-- The last page begins before the last record and reaches it. -/
theorem last_page (length : Nat) {limit : Nat} (h : 1 ≤ limit) :
    (∀ i < (length - 1) / limit, i * limit + limit < length) ∧
      length ≤ ((length - 1) / limit + 1) * limit := by
  constructor
  · intro i hi
    have hstep : (i + 1) * limit ≤ (length - 1) / limit * limit := Nat.mul_le_mul_right limit hi
    have hlast := Nat.div_mul_le_self (length - 1) limit
    rw [Nat.succ_mul] at hstep
    omega
  · have hlast := Nat.lt_div_mul_add h (a := length - 1)
    rw [Nat.succ_mul]
    omega

theorem pages_complete {db : Db} {found : List Candidate}
    (hpage : ∀ offset, ∃ r, query db (spec.from_ offset) = .ok r ∧
      Page (spec.from_ offset) found r)
    (hsorted : (found.map Candidate.pair).Pairwise Before)
    (hmem : ∀ key, key ∈ found.map Candidate.pair ↔ Matching db.tables spec key) :
    ∃ before last, Complete db spec before last := by
  have hresult : ∀ i r, query db (spec.from_ (i * spec.limit)) = .ok r →
      Page (spec.from_ (i * spec.limit)) found r := by
    intro i r hr
    obtain ⟨r', hr', h⟩ := hpage (i * spec.limit)
    rw [hr] at hr'
    obtain rfl := Except.ok.inj hr'
    exact h
  obtain ⟨hbefore, hreach⟩ := last_page found.length spec.limit_pos
  set n := (found.length - 1) / spec.limit
  obtain ⟨before, hpages⟩ : ∃ before, pages db spec n = .ok before :=
    mapM_returns fun i _ => (hpage (i * spec.limit)).imp fun r hr => hr.1
  obtain ⟨last, hlast, -⟩ := hpage (n * spec.limit)
  have hall : pages db spec (n + 1) = .ok (before ++ [last]) := by
    rw [pages] at hpages
    rw [pages, List.range_succ, List.mapM_append, hpages, ok_bind, List.mapM_cons, hlast]
    rfl
  have hlength : before.length = n := by
    have hmap : before.map (fun _ => ()) = (List.range n).map fun _ => () :=
      map_eq_of_mapM hpages fun _ _ _ _ => rfl
    rw [← List.length_map (fun _ => ()), hmap, List.length_map, List.length_range]
  have hhits : ((before ++ [last]).flatMap QueryResult.hits).map Hit.pair =
      found.map Candidate.pair := by
    rw [pages_hits hall hresult, List.take_of_length_le hreach]
  refine ⟨before, last, by rw [hlength]; exact hall, ?_, ?_, ?_, ?_⟩
  · intro r hr
    obtain ⟨i, hi, hquery⟩ := mem_of_mapM hpages hr
    rw [(hresult i r hquery).truncated]
    exact decide_eq_true (hbefore i (List.mem_range.mp hi))
  · rw [(hresult n last hlast).truncated, decide_eq_false_iff_not, not_lt]
    rw [Nat.succ_mul] at hreach
    exact hreach
  · rw [hhits]
    exact hsorted
  · intro key
    rw [hhits]
    exact hmem key

/-! ### Reachable states -/

section

variable [Host] {reg : Registry} {ι : Type} [DecidableEq ι] {u : Sys ι} {es : List (Event ι)}

theorem sound_of_run (hrun : Run reg (.start .empty : Sys ι) es u) : Sound u.db.tables := by
  have hkeyed : Keyed u.db.tables := hrun.history (I := fun t _ => Keyed t) .empty
    fun _ _ _ _ _ _ h => applyOperation_keyed h
  have hlogged : RecordsLogged u.db.tables u.db.events :=
    hrun.history .empty fun _ _ _ _ _ _ h => applyOperation_logged h
  exact ⟨hkeyed, hlogged.decisions.sound, hlogged.questions.sound, hlogged.workItems.sound⟩

/-- **Structured queries equal their relational meaning and page exactly.** -/
theorem query_pages (hrun : Run reg (.start .empty : Sys ι) es u) (spec : QuerySpec) :
    (∃ r, query u.db spec = .ok r ∧
      r.totalMatches = {key | Matching u.db.tables spec key}.ncard) ∧
    ∃ before last, Complete u.db spec before last := by
  obtain ⟨p, hp⟩ := buildProjection_returns hrun
  obtain ⟨history, hof⟩ := buildProjection_of hp
  obtain ⟨cs, hcs, hlists⟩ := candidates_returns hof (sound_of_run hrun)
  set found := matching spec (QueryKind.all.flatMap cs) with hfound
  have hsorted : (found.map Candidate.pair).Pairwise Before := matching_sorted hlists
  have hmem : ∀ key, key ∈ found.map Candidate.pair ↔ Matching u.db.tables spec key :=
    mem_matching hlists
  have hpage : ∀ offset, ∃ r, query u.db (spec.from_ offset) = .ok r ∧
      Page (spec.from_ offset) found r := fun offset => query_returns hp hcs (spec.from_ offset)
  refine ⟨?_, ?_⟩
  · obtain ⟨r, hr, hresult⟩ := hpage spec.offset
    refine ⟨r, hr, ?_⟩
    have hset : {key | Matching u.db.tables spec key} = (found.map Candidate.pair).toFinset := by
      ext key
      simp [← hmem key]
    have hnodup : (found.map Candidate.pair).Nodup := hsorted.imp fun h heq => h.ne (by rw [heq])
    rw [hset, Set.ncard_coe_finset, List.toFinset_card_of_nodup hnodup, List.length_map]
    exact hresult.totalMatches
  · exact pages_complete hpage hsorted hmem

end

/-! ### Two claims in conflict -/

/-- The claims that cite the source of the owner, one on a page. -/
def citingClaims : QuerySpec :=
  ⟨[.claim], [], none, [], [], [ownerSource.revisionId], [], 1, 0, false, le_rfl, by decide⟩

theorem matching_rival :
    Matching rivalTables citingClaims (.claim, (rivalClaim.claimId : String)) := by
  have hclaim : rivalTables.claims[rivalClaim.claimId]? = some rivalClaim.row :=
    (Table.get_insert _ _ _ _).trans (if_pos rfl)
  have hlink : rivalTables.evidence[rivalLink.evidenceLinkId]? =
      some ⟨rivalClaim.claimId, ownerSource.revisionId, rivalLink⟩ :=
    (Table.get_insert _ _ _ _).trans (if_pos rfl)
  refine ⟨rivalClaim.claimId, claimNaming rivalClaim.claimId rivalClaim.row, rfl, ?_, ?_⟩
  · rw [naming, hclaim]
    rfl
  · refine ⟨Or.inr List.mem_cons_self, Or.inl rfl, (fun _ h => nomatch h), Or.inl rfl, Or.inl rfl,
      Or.inr ⟨_, List.mem_cons_self, Or.inr ?_⟩, Or.inl rfl⟩
    exact ⟨rivalClaim.claimId, List.mem_cons_self, _, _, hlink, rfl, rfl⟩

section

attribute [local instance] Host.utc

theorem rivals_paged : ∃ u : Sys Unit, u.db.tables = rivalTables ∧
    Matching u.db.tables citingClaims (.claim, (rivalClaim.claimId : String)) ∧
    (∃ r, query u.db citingClaims = .ok r ∧
      r.totalMatches = {key | Matching u.db.tables citingClaims key}.ncard) ∧
    ∃ before last, Complete u.db citingClaims before last := by
  obtain ⟨es, u, hrun, hu⟩ := rival_run
  refine ⟨u, hu, ?_, query_pages hrun citingClaims⟩
  rw [hu]
  exact matching_rival

end

end SharedMind.Projection
