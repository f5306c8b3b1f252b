import SharedMind.Contract.Text
import SharedMind.Gen.RankFusion
import SharedMind.Retrieval.Documents

/-!
# Hybrid search

The documents found by their words are fused with what a ranker answers, which nothing checks.

* `search`: `RetrievalService.search`.
* `Undisturbed`: ids that are unknown or named twice change none of the first places.
* `fusion_exact_iff`: **the search is the fusion of both rankings exactly when that is so.**
* `ghost_displaces`: an unknown id takes the place of a document.
-/

namespace SharedMind.Retrieval

open Py RankFusion

instance : LinearOrder PyStr :=
  LinearOrder.lift' PyStr.points PyStr.points_injective

/-- `xs[:limit]` leaves out what stands at `stop` or after. -/
def stop (limit : Int) (length : ℕ) : ℕ :=
  if 0 ≤ limit then limit.toNat else length - (-limit).toNat

/-! ### The search -/

/-- A document as a ranker sees it. -/
structure VectorDocument where
  documentId : String
  kind : String
  title : String
  body : String
  metadata : AnyObject

def VectorDocument.json (document : VectorDocument) : Json :=
  .obj [("body", .str document.body), ("document_id", .str document.documentId),
    ("kind", .str document.kind), ("metadata", document.metadata.json),
    ("title", .str document.title)]

/-- `VectorRanker`. -/
structure VectorRanker where
  rankerId : String
  rankerVersion : String
  rank : PyStr → List VectorDocument → Int → List PyStr

inductive SearchResult where
  | lexical (results : List Hit)
  /-- Each with its `rrf_score`. -/
  | hybrid (results : List (Hit × ℚ)) (vector : String)

/-- `all_documents`. -/
def allDocuments (documents : DocumentTable) (kinds : List PyStr) : List VectorDocument :=
  (documents.toList.filter fun row => OfKinds kinds row.2.kind).map fun row =>
    ⟨row.1, row.2.kind, row.2.title, row.2.body, row.2.metadata⟩

/-- What `by_id` holds of a document that was not found by its words. -/
def VectorDocument.hit (document : VectorDocument) : Hit where
  documentId := document.documentId
  kind := document.kind
  title := document.title
  body := document.body
  fingerprint := (sha256Json document.json : String)
  metadata := document.metadata
  score := 0

/-- `by_id`. -/
def byId (lexical : List Hit) (documents : List VectorDocument) (id : PyStr) : Option Hit :=
  (lexical.reverse.find? fun hit => PyStr.ofString hit.documentId = id).or
    ((documents.find? fun document => PyStr.ofString document.documentId = id).map
      VectorDocument.hit)

def lexicalIds (lexical : List Hit) : List PyStr :=
  lexical.map fun hit => PyStr.ofString hit.documentId

/-- The id and version of a ranker. -/
def VectorRanker.name (ranker : VectorRanker) : String :=
  ranker.rankerId ++ "@" ++ ranker.rankerVersion

/-- `_rrf`. -/
def rrf (rankings : List (List PyStr)) : List (PyStr × ℚ) := fuse 60 rankings

/-- `RetrievalService.search`. -/
def search (unicode : Unicode) (fts : Option Fts) (documents : DocumentTable) (query : PyStr)
    (kinds : List PyStr) (limit : Int) (vectorRanker : Option VectorRanker) :
    Except SearchExc SearchResult := do
  let lexical ← storeSearch unicode fts documents query kinds (max limit 50)
  match vectorRanker with
  | none => return .lexical (lexical.take (stop limit lexical.length))
  | some vectorRanker =>
    let documents := allDocuments documents kinds
    let vectorIds := vectorRanker.rank query documents (max limit 50)
    let combined := rrf [lexicalIds lexical, vectorIds]
    let results := (combined.take (stop limit combined.length)).filterMap fun entry =>
      (byId lexical documents entry.1).map fun hit => (hit, entry.2)
    return .hybrid results vectorRanker.name

/-! ### What is fused -/

/-- A document of the kinds asked for. -/
def Known (documents : DocumentTable) (kinds : List PyStr) (id : PyStr) : Prop :=
  ∃ row ∈ documents.toList, PyStr.ofString row.1 = id ∧ OfKinds kinds row.2.kind

instance (documents : DocumentTable) (kinds : List PyStr) :
    DecidablePred (Known documents kinds) := fun _ => inferInstanceAs (Decidable (∃ _ ∈ _, _))

section

variable {ι : Type} [LinearOrder ι]

/-- The ids that the rankings name. -/
def distinct (rankings : List (List ι)) : List ι := rankings.flatten.dedup

/-- Where every occurrence counts and unknown ids take part, the known ones that come before the
cut are those among the first `limit` of the known ones by their first occurrences, and in the same
order. -/
def Undisturbed (known : ι → Prop) [DecidablePred known] (rankings : List (List ι))
    (limit : Int) : Prop :=
  let ids := distinct rankings
  let candidates := ids.filter known
  let place := ahead (Before (firstScore 60 rankings)) candidates
  (∀ d ∈ candidates, ahead (Before (everyScore 60 rankings)) ids d < stop limit ids.length ↔
    place d < limit.toNat) ∧
  ∀ d ∈ candidates, ∀ e ∈ candidates, place d < limit.toNat → place e < limit.toNat →
    Before (firstScore 60 rankings) d e → Before (everyScore 60 rankings) d e

/-- The best known items by their first occurrence in each ranking. -/
def bestKnown (known : ι → Prop) [DecidablePred known] (rankings : List (List ι)) (limit : Int) :
    List ι :=
  (ranked (firstScore 60 rankings) (rankings.flatten.filter known)).take limit.toNat

theorem ahead_ranked (r : ι → ι → Prop) [DecidableRel r] (score : ι → ℚ) (items : List ι) (d : ι) :
    ahead r (ranked score items) d = ahead r items.dedup d :=
  (List.perm_insertionSort _ _).countP_eq _

/-- **What the cut leaves of the known ids** are the best of them when nothing disturbs them. -/
theorem filter_cut_eq_iff (known : ι → Prop) [DecidablePred known] (rankings : List (List ι))
    (limit : Int) :
    ((ranked (everyScore 60 rankings) rankings.flatten).take
        (stop limit (ranked (everyScore 60 rankings) rankings.flatten).length)).filter known =
        bestKnown known rankings limit ↔
      Undisturbed known rankings limit := by
  have hlength : (ranked (everyScore 60 rankings) rankings.flatten).length =
      rankings.flatten.dedup.length := (List.perm_insertionSort _ _).length_eq
  have hcandidates : ∀ d, d ∈ ranked (firstScore 60 rankings) (rankings.flatten.filter known) ↔
      d ∈ ranked (everyScore 60 rankings) rankings.flatten ∧ known d := by
    intro d
    rw [mem_ranked, mem_ranked, List.mem_filter, decide_eq_true_iff]
  have hperm : (rankings.flatten.filter known).dedup.Perm
      (rankings.flatten.dedup.filter known) := by
    refine (List.perm_ext_iff_of_nodup (List.nodup_dedup _) ((List.nodup_dedup _).filter _)).mpr ?_
    intro d
    rw [List.mem_dedup, List.mem_filter, List.mem_filter, List.mem_dedup]
  have hahead : ∀ d,
      ahead (Before (firstScore 60 rankings)) (rankings.flatten.filter known).dedup d =
        ahead (Before (firstScore 60 rankings)) (rankings.flatten.dedup.filter known) d :=
    fun d => hperm.countP_eq _
  rw [bestKnown, filter_take_eq_iff (before_asymm _) (before_asymm _) (ranked_sorted _ _)
    (ranked_sorted _ _) hcandidates]
  simp only [ahead_ranked, mem_ranked, hlength, hahead, Undisturbed, distinct]
  simp only [List.mem_filter, List.mem_dedup]

/-- Rankings that name known ids only, each once, are not disturbed. -/
theorem undisturbed_of_sound {known : ι → Prop} [DecidablePred known] {rankings : List (List ι)}
    {limit : Int} (hlimit : 0 ≤ limit) (hknown : ∀ d ∈ rankings.flatten, known d)
    (hnodup : ∀ ranking ∈ rankings, ranking.Nodup) : Undisturbed known rankings limit := by
  have hall : rankings.flatten.dedup.filter known = rankings.flatten.dedup :=
    List.filter_eq_self.mpr fun d hd => decide_eq_true (hknown d (List.mem_dedup.mp hd))
  rw [Undisturbed, distinct, hall, everyScore_eq_firstScore 60 hnodup, stop, if_pos hlimit]
  exact ⟨fun _ _ => Iff.rfl, fun _ _ _ _ _ _ h => h⟩

/-- An unknown id that is ranked first disturbs the only place. -/
theorem disturbed_by_unknown {known : ι → Prop} [DecidablePred known] {g d : ι} (hne : g ≠ d)
    (hg : ¬known g) (hd : known d) : ¬Undisturbed known [[], [g, d]] 1 := by
  intro h
  have hids : distinct [[], [g, d]] = [g, d] := by
    refine List.dedup_eq_self.mpr (List.nodup_cons.mpr ⟨?_, List.nodup_singleton d⟩)
    exact fun hmem => hne (List.mem_singleton.mp hmem)
  have hcandidates : (distinct [[], [g, d]]).filter known = [d] := by
    rw [hids]
    simp only [List.filter_cons, hg, hd, decide_true, decide_false, if_true, List.filter_nil,
      Bool.false_eq_true, if_false]
  have hbefore : Before (everyScore 60 [[], [g, d]]) g d := by
    rw [Before, Prod.Lex.toLex_lt_toLex]
    refine Or.inl ?_
    simp only [everyScore, ballot, List.flatMap_cons, List.flatMap_nil, List.map_nil,
      List.zipIdx_nil, List.zipIdx_cons, List.map_cons, List.nil_append, List.append_nil, total,
      List.filter_cons, List.filter_nil, hne, hne.symm, decide_true, decide_false, if_true,
      Bool.false_eq_true, if_false, List.sum_cons, List.sum_nil, reciprocal]
    norm_num
  have hplace := h.1 d (by
    rw [hcandidates]
    exact List.mem_cons_self)
  rw [hcandidates, hids, ahead_cons_of_pos hbefore, ahead_self, ahead_self] at hplace
  exact absurd (hplace.mpr Nat.one_pos) (Nat.not_lt.mpr (Nat.le_add_left 1 _))

end

/-! ### The search as a fusion -/

/-- The search answers with the best documents that either ranking names. -/
def FusesExactly (unicode : Unicode) (fts : Option Fts) (documents : DocumentTable) (query : PyStr)
    (kinds : List PyStr) (limit : Int) (ranker : VectorRanker) : Prop :=
  ∃ lexical results vector,
    storeSearch unicode fts documents query kinds (max limit 50) = .ok lexical ∧
    search unicode fts documents query kinds limit (some ranker) = .ok (.hybrid results vector) ∧
    results.map (fun result => PyStr.ofString result.1.documentId) =
      bestKnown (Known documents kinds) [lexicalIds lexical,
        ranker.rank query (allDocuments documents kinds) (max limit 50)] limit

section

variable {unicode : Unicode} {fts : Option Fts} {documents : DocumentTable} {query : PyStr}
  {kinds : List PyStr} {limit : Int} {lexical : List Hit} {id : PyStr}

theorem known_of_storeSearch {tokens : List (List Char)} {hits : List Hit} {n : ℕ}
    {fts : Fts} (h : ftsSearch unicode fts documents tokens kinds n = .ok hits) :
    ∀ hit ∈ hits, Known documents kinds (.ofString hit.documentId) := by
  rw [ftsSearch] at h
  split at h
  · rw [← Except.ok.inj h]
    intro hit hhit
    obtain ⟨row, hrow, rfl⟩ := List.mem_map.mp hhit
    obtain ⟨hmem, -, hkind⟩ := mem_ftsRows.mp (List.mem_of_mem_take hrow)
    exact ⟨row, hmem, rfl, hkind⟩
  · exact nomatch h

theorem known_of_fallbackSearch {tokens : List (List Char)} {n : ℕ} :
    ∀ hit ∈ fallbackSearch unicode documents tokens kinds n,
      Known documents kinds (.ofString hit.documentId) := by
  intro hit hhit
  obtain ⟨row, hrow, rfl⟩ := List.mem_map.mp hhit
  obtain ⟨hmem, hkind, -⟩ := mem_scoredRows.mp (List.mem_of_mem_take hrow)
  exact ⟨row, hmem, rfl, hkind⟩

/-- What is found by its words is a document of the kinds. -/
theorem known_of_lexical (h : storeSearch unicode fts documents query kinds limit = .ok lexical) :
    ∀ hit ∈ lexical, Known documents kinds (.ofString hit.documentId) := by
  rw [storeSearch] at h
  split at h
  · exact nomatch h
  · split at h
    · obtain rfl := Except.ok.inj h
      exact fun hit hhit => nomatch hhit
    · dsimp only at h
      split at h
      · obtain rfl := Except.ok.inj h
        exact fun hit hhit => nomatch hhit
      · cases fts with
        | some fts => exact known_of_storeSearch h
        | none =>
          rw [← Except.ok.inj h]
          exact known_of_fallbackSearch

/-- `by_id` holds the documents of the kinds, each under its id. -/
theorem byId_eq_some (hlexical : ∀ hit ∈ lexical, Known documents kinds (.ofString hit.documentId))
    {hit : Hit} (h : byId lexical (allDocuments documents kinds) id = some hit) :
    PyStr.ofString hit.documentId = id ∧ Known documents kinds id := by
  rcases Option.or_eq_some_iff.mp h with h | ⟨-, h⟩
  · have hid : PyStr.ofString hit.documentId = id := by simpa using List.find?_some h
    exact ⟨hid, hid ▸ hlexical hit (List.mem_reverse.mp (List.mem_of_find?_eq_some h))⟩
  · obtain ⟨document, hfound, rfl⟩ := Option.map_eq_some_iff.mp h
    have hid : PyStr.ofString document.documentId = id := by
      simpa using List.find?_some hfound
    obtain ⟨row, hrow, rfl⟩ := List.mem_map.mp (List.mem_of_find?_eq_some hfound)
    obtain ⟨hmem, hkind⟩ := List.mem_filter.mp hrow
    exact ⟨hid, row, hmem, hid, of_decide_eq_true hkind⟩

theorem byId_isSome (h : Known documents kinds id) :
    (byId lexical (allDocuments documents kinds) id).isSome = true := by
  obtain ⟨row, hrow, hid, hkind⟩ := h
  rw [byId, Option.isSome_or, Bool.or_eq_true]
  refine Or.inr ?_
  rw [Option.isSome_map, List.find?_isSome]
  refine ⟨⟨row.1, row.2.kind, row.2.title, row.2.body, row.2.metadata⟩, ?_, decide_eq_true hid⟩
  exact List.mem_map.mpr ⟨row, List.mem_filter.mpr ⟨hrow, decide_eq_true hkind⟩, rfl⟩

/-- The results are the known ones of what the cut leaves. -/
theorem results_eq (hlexical : ∀ hit ∈ lexical, Known documents kinds (.ofString hit.documentId))
    (entries : List (PyStr × ℚ)) :
    (entries.filterMap fun entry =>
        (byId lexical (allDocuments documents kinds) entry.1).map fun hit => (hit, entry.2)).map
      (fun result => PyStr.ofString result.1.documentId) =
      (entries.map Prod.fst).filter (Known documents kinds) := by
  induction entries with
  | nil => rfl
  | cons entry entries ih =>
    rw [List.map_cons]
    by_cases hknown : Known documents kinds entry.1
    · obtain ⟨hit, hhit⟩ := Option.isSome_iff_exists.mp (@byId_isSome _ _ _ _ hknown)
      have hentry := (byId_eq_some hlexical hhit).1
      simp only [List.filterMap_cons, hhit, Option.map_some, List.map_cons, ih, hentry,
        List.filter_cons, hknown, decide_true, if_true]
    · have hnone : byId lexical (allDocuments documents kinds) entry.1 = none := by
        refine Option.eq_none_iff_forall_not_mem.mpr fun hit hhit => hknown ?_
        exact (byId_eq_some hlexical hhit).2
      simp only [List.filterMap_cons, hnone, Option.map_none, ih, List.filter_cons, hknown,
        decide_false, Bool.false_eq_true, if_false]

theorem fusesExactly_iff (ranker : VectorRanker)
    (hlexical : storeSearch unicode fts documents query kinds (max limit 50) = .ok lexical) :
    FusesExactly unicode fts documents query kinds limit ranker ↔
      Undisturbed (Known documents kinds) [lexicalIds lexical,
        ranker.rank query (allDocuments documents kinds) (max limit 50)] limit := by
  have hmap := map_fst_fuse 60 [lexicalIds lexical,
    ranker.rank query (allDocuments documents kinds) (max limit 50)]
  rw [← filter_cut_eq_iff, ← hmap, List.length_map, ← List.map_take,
    ← results_eq (known_of_lexical hlexical)]
  constructor
  · intro h
    obtain ⟨lexical', results, vector, hlexical', hsearch, hresults⟩ := h
    obtain rfl := Except.ok.inj (hlexical.symm.trans hlexical')
    rw [search, hlexical] at hsearch
    injection Except.ok.inj hsearch with hresults'
    rw [← hresults, ← hresults']
    rfl
  · intro h
    refine ⟨lexical, _, ranker.name, hlexical, ?_, h⟩
    rw [search, hlexical]
    rfl

/-- **The search is exact reciprocal rank fusion** when the search by words answers, and no id that
is unknown or repeated disturbs the first places. -/
theorem fusion_exact_iff (unicode : Unicode) (fts : Option Fts) (documents : DocumentTable)
    (query : PyStr) (kinds : List PyStr) (limit : Int) (ranker : VectorRanker) :
    FusesExactly unicode fts documents query kinds limit ranker ↔
      ∃ lexical, storeSearch unicode fts documents query kinds (max limit 50) = .ok lexical ∧
        Undisturbed (Known documents kinds) [lexicalIds lexical,
          ranker.rank query (allDocuments documents kinds) (max limit 50)] limit := by
  constructor
  · intro h
    have hfuses := h
    obtain ⟨lexical, _, _, hlexical, -⟩ := h
    exact ⟨lexical, hlexical, (fusesExactly_iff ranker hlexical).mp hfuses⟩
  · intro h
    obtain ⟨lexical, hlexical, hundisturbed⟩ := h
    exact (fusesExactly_iff ranker hlexical).mpr hundisturbed

end

/-! ### An unknown id -/

/-- A ranker that puts an id first that no document has. -/
def ghostRanker : VectorRanker where
  rankerId := "ghost"
  rankerVersion := "1"
  rank _ _ _ := [.ofString "ghost", .ofString "n"]

theorem known_note (title : String) (id : PyStr) :
    Known (noteDocuments title) [] id ↔ id = .ofString "n" := by
  constructor
  · intro h
    obtain ⟨row, hrow, rfl, -⟩ := h
    have hget := Table.mem_toList.mp hrow
    rw [noteDocuments, Table.get_insert, Table.get_empty] at hget
    split at hget
    · next hid => rw [hid]
    · cases hget
  · intro h
    obtain rfl := h
    exact ⟨("n", noteRow title), Table.mem_toList.mpr (note_get title), rfl, Or.inl rfl⟩

/-- An unknown id takes the only place there is. -/
theorem ghost_displaces : ¬FusesExactly asciiUnicode none (noteDocuments "Red") (.ofString "") []
    1 ghostRanker := by
  intro h
  have hlexical : storeSearch asciiUnicode none (noteDocuments "Red") (.ofString "") []
      (max 1 50) = .ok [] := rfl
  have hundisturbed : Undisturbed (Known (noteDocuments "Red") [])
      [lexicalIds [], [PyStr.ofString "ghost", PyStr.ofString "n"]] 1 :=
    (fusesExactly_iff ghostRanker hlexical).mp h
  refine disturbed_by_unknown (by decide) ?_ ?_ hundisturbed
  · rw [known_note]
    decide
  · exact (known_note "Red" _).mpr rfl

end SharedMind.Retrieval
