import SharedMind.Projection.Markdown
import SharedMind.Projection.Reachable

/-!
# The Markdown projection is lossless

* `source_shown`, `claim_shown`, …: what a table gives is shown, whatever its texts are.
* `buildProjection_shown`: every projection is shown.
* `markdown_lossless`: the projection of a reachable state is read back from its text.
-/

namespace SharedMind.Projection

open Py Sections

/-! ### Values -/

theorem sorted_optColumn {α : Type} {column : α → Json} (h : ∀ a, (column a).Sorted)
    (a : Option α) : (optColumn column a).Sorted := by
  cases a with
  | none => exact .null
  | some a => exact h a

theorem sorted_idColumn {p : String → Bool} (s : Text p) : (idColumn s).Sorted := .str _

theorem sorted_intColumn (n : Nat) : (intColumn n).Sorted := .num _

theorem sorted_textColumn {α : Type} (c : Codec α) (a : α) : (textColumn c a).Sorted := .str _

theorem sorted_map {α : Type} {f : α → Json} (h : ∀ a, (f a).Sorted) (as : List α) :
    (JsonOf.arr (as.map f)).Sorted := by
  apply JsonOf.Sorted.arr
  intro v hv
  obtain ⟨a, _, rfl⟩ := List.mem_map.mp hv
  exact h a

theorem sorted_historySequences (history : List HistoryEntry) (identifier : String) :
    (historySequences history identifier).Sorted :=
  sorted_map (fun _ => sorted_intColumn _) _

theorem sorted_historyRefs (history : List HistoryEntry) (identifier : String) :
    (historyRefs history identifier).Sorted :=
  sorted_map (fun _ => .str _) _

theorem sorted_sortedTexts (texts : List RecordId) : (sortedTexts texts).Sorted :=
  sorted_map sorted_idColumn _

theorem sorted_loadJson {text : Option String} {default : Json} (h : default.Sorted) :
    (loadJson text default).Sorted := by
  rw [loadJson]
  cases hv : text.bind loads with
  | none => exact h
  | some v =>
    obtain ⟨s, -, hs⟩ := Option.bind_eq_some_iff.mp hv
    exact sorted_of_loads hs

/-- A dict with these keys is sorted when they are and its values are. -/
theorem sorted_obj {ms : List (String × Json)} (keys : List String) (hms : ms.map Prod.fst = keys)
    (hkeys : keys.Pairwise (· < ·)) (h : ∀ v ∈ ms.map Prod.snd, v.Sorted) :
    (JsonOf.obj ms).Sorted :=
  .obj (hms ▸ hkeys) fun m hm => h m.2 (List.mem_map_of_mem hm)

theorem sorted_nil : ∀ v ∈ ([] : List Json), v.Sorted := fun _ h => absurd h List.not_mem_nil

/-! ### Histories -/

theorem mapM_pyStr_intColumn (ns : List Nat) :
    (ns.map intColumn).mapM pyStr = .ok (ns.map fun n : Nat => String.ofList (intText n)) := by
  induction ns with
  | nil => rfl
  | cons n ns ih =>
    rw [List.map_cons, List.mapM_cons, ih]
    rfl

/-- The history of a record is a list of numbers. -/
theorem historyLines_returns {r : ProjectedRecord} (ns : List Nat)
    (h : r.json.get? "history_sequences" = some (.arr (ns.map intColumn))) :
    ∃ lines, historyLines r = .ok lines ∧ ∀ l ∈ lines, Plain l.toList := by
  cases ns with
  | nil => exact ⟨[], by rw [historyLines, h]; rfl, fun l hl => absurd hl List.not_mem_nil⟩
  | cons n ns =>
    have htexts := mapM_pyStr_intColumn (n :: ns)
    rw [List.map_cons] at h htexts
    refine ⟨_, by simp only [historyLines, h, htexts]; rfl, ?_⟩
    intro l hl
    obtain rfl | hl := List.mem_cons.mp hl
    · rw [String.toList_append, String.toList_intercalate]
      apply Plain.append (by simp [Plain])
      apply Plain.intercalate (by simp [Plain])
      intro s hs
      obtain ⟨k, hk, rfl⟩ := List.mem_map.mp hs
      obtain ⟨m, -, rfl⟩ := List.mem_map.mp hk
      rw [String.toList_ofList]
      exact plain_intText m
    · obtain rfl := List.mem_singleton.mp hl
      simp [Plain]

/-- A record with a history, whose identifier is that of a record. -/
theorem shown_of_history {key : Option String} {r : ProjectedRecord}
    (history : List HistoryEntry) (identifier : String) (id : RecordId) (hsorted : r.json.Sorted)
    (hdict : isMapping r.json = true)
    (hhistory : r.json.get? "history_sequences" = some (historySequences history identifier))
    (hid : recordIdentifier r key = .ok (id : String)) : Shown key r := by
  refine ⟨hsorted, hdict, ⟨id, hid, plain_recordId id⟩, ?_⟩
  apply historyLines_returns ((history.filter fun e => identifier ∈ e.ids).map fun e => e.sequence)
  rw [hhistory, historySequences, List.map_map]
  rfl

/-! ### Records -/

variable {history : List HistoryEntry} {t : Tables} {id : RecordId} {index : Nat}

theorem get?_revisionId (d : SourceRevision) :
    (SourceRevision.codec.enc d).get? "revision_id" = some (idColumn d.revisionId) := by
  obtain ⟨_, _, _, _, _, _, _, locator, title⟩ := d
  cases locator <;> cases title <;> rfl

theorem source_shown (row : SourceRow) :
    Shown (some "source_revision") { json := sourceRecord history id row index } := by
  apply shown_of_history history id row.document.revisionId
  · apply sorted_obj ["content_size_bytes", "history_refs", "history_sequences", "projection_ref",
      "source_revision", "verified_content_hash"] rfl (by decide)
    simp only [List.map_cons, List.map_nil, List.forall_mem_cons]
    exact ⟨sorted_intColumn _, sorted_historyRefs _ _, sorted_historySequences _ _, .str _,
      SourceRevision.codec.sorted _, sorted_idColumn _, sorted_nil⟩
  · rfl
  · rfl
  · have hvalue : (sourceRecord history id row index).get? "source_revision" =
        some (SourceRevision.codec.enc row.document) := rfl
    rw [recordIdentifier, Option.bind_some, hvalue]
    simp only [identifierFields, List.findSome?_cons, get?_revisionId]
    rfl

theorem claim_shown (row : ClaimRow) :
    Shown (some "claim") { json := claimRecord history t id row index } := by
  apply shown_of_history history id row.document.claimId
  · apply sorted_obj ["claim", "conflict_ids", "evidence_link_ids", "history_refs",
      "history_sequences", "projection_ref", "proposition", "proposition_hash", "status",
      "superseded_by", "version"] rfl (by decide)
    simp only [List.map_cons, List.map_nil, List.forall_mem_cons]
    exact ⟨Claim.codec.sorted _, sorted_sortedTexts _, sorted_sortedTexts _,
      sorted_historyRefs _ _, sorted_historySequences _ _, .str _, Proposition.codec.sorted _,
      sorted_idColumn _, .str _, sorted_optColumn sorted_idColumn _, sorted_intColumn _,
      sorted_nil⟩
  · rfl
  · rfl
  · rfl

theorem evidence_shown (row : EvidenceRow) :
    Shown (some "evidence_link") { json := evidenceRecord history id row index } := by
  apply shown_of_history history id row.document.claimId
  · apply sorted_obj ["claim_id", "evidence_link", "evidence_link_id", "history_refs",
      "history_sequences", "projection_ref", "source_revision_id"] rfl (by decide)
    simp only [List.map_cons, List.map_nil, List.forall_mem_cons]
    exact ⟨sorted_idColumn _, EvidenceLink.codec.sorted _, sorted_idColumn _,
      sorted_historyRefs _ _, sorted_historySequences _ _, .str _, sorted_idColumn _, sorted_nil⟩
  · rfl
  · rfl
  · rfl

theorem conflict_shown (row : ConflictRow) :
    Shown (some "conflict_id") { json := conflictRecord history id row index } := by
  apply shown_of_history history id id
  · apply sorted_obj ["conflict_id", "episode", "family_key", "history_refs", "history_sequences",
      "kind", "member_digest", "members", "opened_sequence", "projection_ref", "resolution",
      "status", "version"] rfl (by decide)
    simp only [List.map_cons, List.map_nil, List.forall_mem_cons]
    exact ⟨sorted_idColumn _, sorted_intColumn _, sorted_idColumn _, sorted_historyRefs _ _,
      sorted_historySequences _ _, .str _, sorted_idColumn _, sorted_sortedTexts _,
      sorted_intColumn _, .str _, sorted_optColumn Resolution.codec.sorted _, .str _,
      sorted_intColumn _, sorted_nil⟩
  · rfl
  · rfl
  · rfl

/-! ### Continuity -/

/-- The first column of a row is its identifier, and all are shown. -/
structure KeyedColumns (columns : List (String × Json)) (id : RecordId) : Prop where
  first : ∃ name rest, columns = (name, idColumn id) :: rest
  sorted : ∀ c ∈ columns, c.2.Sorted

theorem decision_columns (row : DecisionRow) : KeyedColumns (decisionColumns id row) id := by
  refine ⟨⟨_, _, rfl⟩, ?_⟩
  simp only [decisionColumns, List.forall_mem_cons]
  exact ⟨sorted_idColumn _, .str _, sorted_intColumn _, sorted_optColumn sorted_idColumn _,
    sorted_textColumn _ _, fun _ h => absurd h List.not_mem_nil⟩

theorem question_columns (row : QuestionRow) : KeyedColumns (questionColumns id row) id := by
  refine ⟨⟨_, _, rfl⟩, ?_⟩
  simp only [questionColumns, List.forall_mem_cons]
  exact ⟨sorted_idColumn _, .str _, sorted_intColumn _,
    sorted_optColumn (sorted_textColumn _) _, sorted_optColumn (sorted_textColumn _) _,
    sorted_textColumn _ _, fun _ h => absurd h List.not_mem_nil⟩

theorem workItem_columns (row : WorkItemRow) : KeyedColumns (workItemColumns id row) id := by
  refine ⟨⟨_, _, rfl⟩, ?_⟩
  simp only [workItemColumns, List.forall_mem_cons]
  exact ⟨sorted_idColumn _, .str _, sorted_intColumn _, sorted_optColumn sorted_idColumn _,
    .str _, sorted_textColumn _ _, fun _ h => absurd h List.not_mem_nil⟩

/-- What `_optional_records` makes of a row is shown. -/
theorem placed_shown {ρ : Type} {columns : RecordId → ρ → List (String × Json)}
    {document : ρ → Json} {rows : Table RecordId ρ} {table «section» : String}
    (hcolumns : ∀ id row, KeyedColumns (columns id row) id) (hdocument : ∀ row, (document row).Sorted)
    {o : OptionalRecord} (ho : o ∈ optionalRecords history table columns document rows) :
    Shown none (o.placed («section») index) := by
  rw [optionalRecords, List.mem_insertionSort] at ho
  obtain ⟨⟨id, row⟩, -, rfl⟩ := List.mem_map.mp ho
  obtain ⟨⟨name, rest, hfirst⟩, hsorted⟩ := hcolumns id row
  apply shown_of_history history id id
  · apply sorted_obj ["document", "history_refs", "history_sequences", "projection_ref", "row",
      "table"] rfl (by decide)
    simp only [List.map_cons, List.map_nil, List.forall_mem_cons]
    have hrow : (JsonOf.obj (dictOf (columns id row))).Sorted :=
      .obj (dictOf_sorted _) (dictOf_forall hsorted)
    exact ⟨hdocument row, sorted_historyRefs _ _, sorted_historySequences _ _, .str _, hrow, .str _,
      sorted_nil⟩
  · rfl
  · rfl
  · rw [recordIdentifier, Option.bind_none, OptionalRecord.placed]
    simp only [hfirst]
    rfl

/-! ### The state -/

theorem mem_of_mapM {ε α β : Type} {f : α → Except ε β} {as : List α} {bs : List β}
    (h : as.mapM f = .ok bs) {b : β} (hb : b ∈ bs) : ∃ a ∈ as, f a = .ok b := by
  induction as generalizing bs with
  | nil =>
    rw [List.mapM_nil, pure_eq_ok] at h
    exact absurd (h ▸ hb) List.not_mem_nil
  | cons a as ih =>
    simp only [List.mapM_cons, bind_eq_ok, pure_eq_ok] at h
    obtain ⟨c, hc, cs, hcs, rfl⟩ := h
    obtain rfl | hb := List.mem_cons.mp hb
    · exact ⟨a, List.mem_cons_self, hc⟩
    · obtain ⟨d, hd, hfd⟩ := ih hcs hb
      exact ⟨d, List.mem_cons_of_mem a hd, hfd⟩

/-- An entry of the ledger is shown under its number. -/
theorem entry_shown {row : LedgerRow} {e : Json × HistoryEntry}
    (h : ledgerEntry row index = .ok e) :
    Shown (some "sequence") { json := e.1 } ∧ e.1.get? "sequence" = some (intColumn row.seq) := by
  simp only [ledgerEntry, bind_eq_ok, pure_eq_ok] at h
  obtain ⟨-, -, rfl⟩ := h
  refine ⟨⟨?_, rfl, ⟨String.ofList (intText row.seq), rfl, ?_⟩, [], rfl, ?_⟩, rfl⟩
  · apply sorted_obj ["committed_at", "entry_hash", "events", "ledger_entry",
      "legacy_contract_incomplete", "pre_state_root", "previous_hash", "projection_ref", "proposal",
      "proposal_hash", "sequence", "state_root"] rfl (by decide)
    simp only [List.map_cons, List.map_nil, List.forall_mem_cons]
    have htext (s : Option String) : (optText s).Sorted := sorted_optColumn (fun _ => .str _) s
    have hempty : (JsonOf.obj [] : Json).Sorted := .obj .nil fun _ h => absurd h List.not_mem_nil
    exact ⟨htext _, .str _, sorted_loadJson (.arr sorted_nil), sorted_loadJson .null, .bool _,
      htext _, htext _, .str _, sorted_loadJson hempty, .str _, sorted_intColumn _, .str _,
      sorted_nil⟩
  · rw [String.toList_ofList]
    exact plain_intText row.seq
  · exact fun _ h => absurd h List.not_mem_nil

theorem newline_not_mem_sha256 (value : Bytes) : '\n' ∉ (sha256Bytes value : String).toList := by
  intro h
  rw [sha256Bytes, String.toList_ofList] at h
  obtain h | h := List.mem_append.mp h
  · simp at h
  · exact absurd (sha256Hex_digit value _ h) (by decide)

/-- **Every projection is shown.** -/
theorem buildProjection_shown {db : Db} {p : ProjectedState} (h : buildProjection db = .ok p) :
    p.Shown := by
  simp only [buildProjection, bind_eq_ok, pure_eq_ok] at h
  obtain ⟨entries, hentries, -, -, -, -, -, -, -, -, rfl⟩ := h
  have hentry : ∀ e ∈ entries, Shown (some "sequence") { json := e.1 } ∧
      ∃ n, e.1.get? "sequence" = some (intColumn n) := by
    intro e he
    obtain ⟨r, -, hr⟩ := mem_of_mapM hentries he
    exact ⟨(entry_shown hr).1, r.1.seq, (entry_shown hr).2⟩
  have hsections {α : Type} {made : α × ℕ → ProjectedRecord} {key : Option String} {rows : List α}
      (hmade : ∀ a ∈ rows, ∀ i, Shown key (made (a, i))) :
      ∀ r ∈ rows.zipIdx.map made, Shown key r := by
    intro r hr
    obtain ⟨⟨a, i⟩, ha, rfl⟩ := List.mem_map.mp hr
    exact hmade a (List.fst_mem_of_mem_zipIdx ha) i
  refine ⟨?_, ?_, newline_not_mem_sha256 _⟩
  · simp only [ProjectedState.sections, List.forall_mem_cons]
    refine ⟨hsections fun a _ i => source_shown a.2, hsections fun a _ i => claim_shown a.2,
      hsections fun a _ i => evidence_shown a.2, hsections fun a _ i => conflict_shown a.2,
      hsections fun a ha i => placed_shown (fun _ => decision_columns) ?_ ha,
      hsections fun a ha i => placed_shown (fun _ => question_columns) ?_ ha,
      hsections fun a ha i => placed_shown (fun _ => workItem_columns) ?_ ha, ?_,
      fun _ h => absurd h List.not_mem_nil⟩
    · exact fun row => DecisionDoc.codec.sorted _
    · exact fun row => QuestionDoc.codec.sorted _
    · exact fun row => WorkItemDoc.codec.sorted _
    · intro r hr
      obtain ⟨e, he, rfl⟩ := List.mem_map.mp hr
      exact (hentry e he).1
  · rw [ProjectedState.headSequence, ProjectedState.head, List.getLast?_map, Option.map_map]
    cases hlast : entries.getLast? with
    | none => exact ⟨0, rfl⟩
    | some e =>
      obtain ⟨n, hn⟩ := (hentry e (List.mem_of_getLast? hlast)).2
      refine ⟨n, ?_⟩
      rw [Option.map_some, Option.bind_some]
      show (e.1.get? "sequence").getD (intColumn 0) = _
      rw [hn, Option.getD_some]

/-! ### Reading back -/

/-- The text of a state tells its projection. -/
def MarkdownTells (db : Db) : Prop :=
  ∃ text p q, projectMarkdown db = .ok text ∧ readMarkdown text = some p ∧
    buildProjection db = .ok q ∧ p.json = q.json

theorem markdownTells_of_returns {db : Db} (h : ∃ q, buildProjection db = .ok q) :
    MarkdownTells db := by
  obtain ⟨q, hq⟩ := h
  obtain ⟨text, htext, hread⟩ := readMarkdown_renderMarkdown (buildProjection_shown hq)
  refine ⟨text, q.bare, q, ?_, hread, hq, q.bare_json⟩
  rw [projectMarkdown, hq, ok_bind, htext]

/-- States with one text have one projection. -/
theorem MarkdownTells.projectJson_eq {db db' : Db} (h : MarkdownTells db) (h' : MarkdownTells db')
    (htext : projectMarkdown db = projectMarkdown db') : projectJson db = projectJson db' := by
  obtain ⟨text, p, q, hmarkdown, hread, hbuild, hjson⟩ := h
  obtain ⟨text', p', q', hmarkdown', hread', hbuild', hjson'⟩ := h'
  rw [hmarkdown, hmarkdown'] at htext
  obtain rfl := Except.ok.inj htext
  obtain rfl := Option.some.inj (hread.symm.trans hread')
  rw [projectJson, projectJson, hbuild, hbuild', ok_bind, ok_bind, ← hjson, ← hjson']

section

variable [Host] {reg reg' : Registry} {ι ι' : Type} [DecidableEq ι] [DecidableEq ι'] {u : Sys ι}
  {u' : Sys ι'} {es : List (Event ι)} {es' : List (Event ι')}

/-- **The Markdown projection is lossless** on reachable states. -/
theorem markdown_lossless (hrun : Run reg (.start .empty : Sys ι) es u)
    (hrun' : Run reg' (.start .empty : Sys ι') es' u') :
    MarkdownTells u.db ∧ MarkdownTells u'.db ∧
    (projectMarkdown u.db = projectMarkdown u'.db → projectJson u.db = projectJson u'.db) := by
  have htells := markdownTells_of_returns (buildProjection_returns hrun)
  have htells' := markdownTells_of_returns (buildProjection_returns hrun')
  exact ⟨htells, htells', htells.projectJson_eq htells'⟩

end

section

attribute [local instance] Host.utc

/-- A state with two claims in conflict, and one with a question. -/
theorem rivals_lossless : ∃ (u u' : Sys Unit), u.db.tables = rivalTables ∧
    u'.db.tables = questionTables ∧ MarkdownTells u.db ∧ MarkdownTells u'.db ∧
    (projectMarkdown u.db = projectMarkdown u'.db → projectJson u.db = projectJson u'.db) := by
  obtain ⟨es, u, hrun, hu⟩ := rival_run
  obtain ⟨es', u', row, hrun', hu'⟩ := question_run
  refine ⟨u, u', hu, ?_, markdown_lossless hrun hrun'⟩
  rw [hu']
  rfl

end

end SharedMind.Projection
