import SharedMind.Gen.Bfs
import SharedMind.Retrieval.Documents

/-!
# The impact of a symbol

`impact_path` searches the code graph from a symbol, along its edges or against them.

* `CodeIndex`: `code_symbols` and `code_edges`, each under its primary key.
* `impactPath`: the search, with fuel for its loop.
* `Follows`: what a step of the search is, in a direction.
* `impact_path_exact`: **the search ends, and finds what is within the depth.**
-/

namespace SharedMind.Retrieval

open Py Bfs

/-- What `code_edges` answers for a row of its table. -/
structure CodeEdge where
  sourceSymbolId : String
  targetSymbolId : String
  edgeKind : String
  metadata : AnyObject

/-- `==` of two of these dicts. -/
def CodeEdge.pyEq (d e : CodeEdge) : Bool :=
  d.sourceSymbolId = e.sourceSymbolId ∧ d.targetSymbolId = e.targetSymbolId ∧
    d.edgeKind = e.edgeKind ∧ d.metadata.json.pyEq e.metadata.json

structure CodeIndex where
  codeSymbols : Table String AnyObject
  codeEdges : Table (String ×ₗ String ×ₗ String) AnyObject

namespace CodeIndex

variable (index : CodeIndex)

/-- `get_symbol`. -/
def getSymbol (symbolId : String) : Option AnyObject := index.codeSymbols[symbolId]?

/-- The rows of `code_edges`, in the order of their key. -/
def rows : List CodeEdge := index.codeEdges.toList.map fun row =>
  ⟨(ofLex row.1).1, (ofLex (ofLex row.1).2).1, (ofLex (ofLex row.1).2).2, row.2⟩

end CodeIndex

/-- What edges are sorted by. -/
def CodeEdge.sortKey (e : CodeEdge) : String ×ₗ String ×ₗ String :=
  toLex (e.edgeKind, toLex (e.sourceSymbolId, e.targetSymbolId))

def sortEdges (edges : List CodeEdge) : List CodeEdge :=
  edges.insertionSort fun d e => d.sortKey ≤ e.sortKey

/-- `code_edges`. -/
def CodeIndex.codeEdgesOf (index : CodeIndex) (symbolId : String) : List CodeEdge :=
  sortEdges (index.rows.filter fun e => e.sourceSymbolId = symbolId ∨ e.targetSymbolId = symbolId)

/-! ### The direction -/

inductive Direction where
  | forward
  | reverse
  | both
  deriving DecidableEq

def Direction.text : Direction → String
  | .forward => "FORWARD"
  | .reverse => "REVERSE"
  | .both => "BOTH"

/-- `str.upper` of a character whose upper case is one of `A` to `Z`; the others keep clear of
these. -/
def upperLetter (c : Char) : Char :=
  if 'a' ≤ c ∧ c ≤ 'z' then Char.ofNat (c.toNat - 32)
  else if c = 'ı' then 'I'
  else if c = 'ſ' then 'S'
  else c

def readDirection (direction : String) : Option Direction :=
  let direction := String.ofList (direction.toList.map upperLetter)
  let direction :=
    if direction = "INCOMING" then "REVERSE"
    else if direction = "OUTGOING" then "FORWARD"
    else direction
  if direction = "FORWARD" then some .forward
  else if direction = "REVERSE" then some .reverse
  else if direction = "BOTH" then some .both
  else none

/-! ### The search -/

/-- `sorted(adjacency.get(current, set()))`. -/
def adjacency (index : CodeIndex) (direction : Direction) (current : String) : List String :=
  sortedSet (index.rows.flatMap fun row =>
    (if direction ∈ [.forward, .both] ∧ row.sourceSymbolId = current
      then [row.targetSymbolId] else []) ++
    (if direction ∈ [.reverse, .both] ∧ row.targetSymbolId = current
      then [row.sourceSymbolId] else []))

/-- The inner loop over `code_edges(current)`. -/
def addRelevant (visited : List String) (relevantEdges : List CodeEdge) (edge : CodeEdge) :
    List CodeEdge :=
  if edge.sourceSymbolId ∈ visited ∧ edge.targetSymbolId ∈ visited ∧
      relevantEdges.any edge.pyEq = false
  then relevantEdges ++ [edge] else relevantEdges

/-- `relevant_edges`, before it is sorted. -/
def relevantEdges (index : CodeIndex) (visited : List String) : List CodeEdge :=
  (sortedSet visited).foldl
    (fun edges current => (index.codeEdgesOf current).foldl (addRelevant visited) edges) []

/-- What `impact_path` returns. -/
structure ImpactPath where
  symbolId : String
  direction : Direction
  maxDepth : Int
  impactedSymbolIds : List String
  paths : List (List String)
  edges : List CodeEdge

/-- What is returned of what the search has found. -/
def impactOf (index : CodeIndex) (symbolId : String) (direction : Direction) (maxDepth : Int)
    (found : State String) : ImpactPath where
  symbolId := symbolId
  direction := direction
  maxDepth := maxDepth
  impactedSymbolIds := sortedSet (found.visited.filter fun id => id ≠ symbolId)
  paths := found.paths
  edges := sortEdges (relevantEdges index found.visited)

def symbolNotFound (symbolId : String) : RetrievalError := ⟨"SYMBOL_NOT_FOUND", symbolId⟩

def impactDirectionInvalid : RetrievalError :=
  ⟨"IMPACT_DIRECTION_INVALID", "direction must be FORWARD, REVERSE, BOTH, INCOMING, or OUTGOING"⟩

def impactDepthInvalid : RetrievalError := ⟨"IMPACT_DEPTH_INVALID", "max_depth must be 1..16"⟩

/-- `impact_path`, or nothing when there is no fuel left for its loop. -/
def impactPath (index : CodeIndex) (symbolId : String) (maxDepth : Int) (direction : String)
    (fuel : ℕ) : Option (Except RetrievalError ImpactPath) :=
  if index.getSymbol symbolId = none then some (.error (symbolNotFound symbolId))
  else match readDirection direction with
  | none => some (.error impactDirectionInvalid)
  | some direction =>
    if maxDepth < 1 ∨ 16 < maxDepth then some (.error impactDepthInvalid)
    else (Bfs.search (adjacency index direction) maxDepth.toNat fuel (.start symbolId)).map
      fun found => .ok (impactOf index symbolId direction maxDepth found)

/-! ### Steps -/

/-- There is an edge to follow from `a` to `b`. -/
def Follows (index : CodeIndex) (direction : Direction) (a b : String) : Prop :=
  ∃ e ∈ index.rows, (direction ≠ .reverse ∧ e.sourceSymbolId = a ∧ e.targetSymbolId = b) ∨
    (direction ≠ .forward ∧ e.targetSymbolId = a ∧ e.sourceSymbolId = b)

section

variable {index : CodeIndex} {direction : Direction} {visited : List String} {a b : String}
  {edges : List CodeEdge} {d e : CodeEdge}

theorem mem_if_singleton {p : Prop} [Decidable p] :
    b ∈ (if p then [a] else []) ↔ p ∧ a = b := by
  by_cases h : p
  · rw [if_pos h, List.mem_singleton, and_iff_right h, eq_comm]
  · rw [if_neg h]
    exact iff_of_false List.not_mem_nil fun hp => h hp.1

theorem mem_adjacency : b ∈ adjacency index direction a ↔ Follows index direction a b := by
  have hforward : direction ∈ [Direction.forward, .both] ↔ direction ≠ .reverse := by
    cases direction <;> decide
  have hreverse : direction ∈ [Direction.reverse, .both] ↔ direction ≠ .forward := by
    cases direction <;> decide
  rw [adjacency, mem_sortedSet, List.mem_flatMap, Follows]
  refine exists_congr fun e => and_congr_right fun _ => ?_
  rw [List.mem_append, mem_if_singleton, mem_if_singleton, hforward, hreverse, and_assoc, and_assoc]

theorem leads_adjacency : Leads (adjacency index direction) = Follows index direction :=
  funext fun _ => funext fun _ => propext mem_adjacency

/-! ### The edges -/

/-- Two rows with one key are one row. -/
theorem eq_of_pyEq (hd : d ∈ index.rows) (he : e ∈ index.rows) (h : d.pyEq e = true) : d = e := by
  obtain ⟨⟨k, m⟩, hk, rfl⟩ := List.mem_map.mp hd
  obtain ⟨⟨l, n⟩, hl, rfl⟩ := List.mem_map.mp he
  obtain ⟨hsource, htarget, hkind, -⟩ := of_decide_eq_true h
  have hkl : k = l :=
    congrArg toLex (Prod.ext hsource (congrArg toLex (Prod.ext htarget hkind)))
  subst hkl
  have hrow := (Table.mem_toList.mp hk).symm.trans (Table.mem_toList.mp hl)
  rw [Option.some.inj hrow]

theorem pyEq_refl (e : CodeEdge) : e.pyEq e = true :=
  decide_eq_true ⟨rfl, rfl, rfl, JsonOf.pyEq_refl _⟩

theorem rows_nodup : index.rows.Nodup := by
  refine List.Nodup.map_on (fun r hr s hs h => ?_)
    (index.codeEdges.toList_sorted.imp fun hlt heq => absurd (congrArg Prod.fst heq) hlt.ne)
  obtain ⟨hsource, htarget, hkind, hmetadata⟩ := CodeEdge.mk.inj h
  exact Prod.ext (congrArg toLex (Prod.ext hsource (congrArg toLex (Prod.ext htarget hkind))))
    hmetadata

theorem mem_sortEdges : e ∈ sortEdges edges ↔ e ∈ edges := List.mem_insertionSort _

theorem mem_codeEdgesOf : e ∈ index.codeEdgesOf a ↔
    e ∈ index.rows ∧ (e.sourceSymbolId = a ∨ e.targetSymbolId = a) := by
  rw [CodeIndex.codeEdgesOf, mem_sortEdges, List.mem_filter, decide_eq_true_iff]

/-- What the loop has gathered: stored edges between nodes visited, each once. -/
def Gathered (index : CodeIndex) (visited : List String) (edges : List CodeEdge) : Prop :=
  edges.Nodup ∧ ∀ e ∈ edges,
    e ∈ index.rows ∧ e.sourceSymbolId ∈ visited ∧ e.targetSymbolId ∈ visited

theorem Gathered.add (h : Gathered index visited edges) (he : e ∈ index.rows) :
    Gathered index visited (addRelevant visited edges e) ∧
      (∀ d ∈ edges, d ∈ addRelevant visited edges e) ∧
      (e.sourceSymbolId ∈ visited → e.targetSymbolId ∈ visited →
        e ∈ addRelevant visited edges e) := by
  by_cases hadd : e.sourceSymbolId ∈ visited ∧ e.targetSymbolId ∈ visited ∧
      edges.any e.pyEq = false
  · rw [addRelevant, if_pos hadd]
    refine ⟨⟨?_, ?_⟩, fun d hd => List.mem_append_left _ hd,
      fun _ _ => List.mem_append_right _ (List.mem_singleton_self e)⟩
    · refine List.nodup_append.mpr ⟨h.1, List.nodup_singleton e, fun d hd c hc heq => ?_⟩
      obtain rfl := List.mem_singleton.mp hc
      have hany := List.any_eq_false.mp hadd.2.2 d hd
      exact hany (heq ▸ pyEq_refl d)
    · intro d hd
      rcases List.mem_append.mp hd with hd | hd
      · exact h.2 d hd
      · obtain rfl := List.mem_singleton.mp hd
        exact ⟨he, hadd.1, hadd.2.1⟩
  · rw [addRelevant, if_neg hadd]
    refine ⟨h, fun _ hd => hd, fun hsource htarget => ?_⟩
    have hany : edges.any e.pyEq = true := by
      by_contra hany
      exact hadd ⟨hsource, htarget, Bool.eq_false_iff.mpr hany⟩
    obtain ⟨d, hd, heq⟩ := List.any_eq_true.mp hany
    rwa [eq_of_pyEq he (h.2 d hd).1 heq]

theorem Gathered.foldl (new : List CodeEdge) (hnew : ∀ e ∈ new, e ∈ index.rows)
    (h : Gathered index visited edges) :
    Gathered index visited (new.foldl (addRelevant visited) edges) ∧
      (∀ d ∈ edges, d ∈ new.foldl (addRelevant visited) edges) ∧
      ∀ e ∈ new, e.sourceSymbolId ∈ visited → e.targetSymbolId ∈ visited →
        e ∈ new.foldl (addRelevant visited) edges := by
  induction new generalizing edges with
  | nil => exact ⟨h, fun _ hd => hd, fun _ he => nomatch he⟩
  | cons e new ih =>
    obtain ⟨hadded, hkept, hmem⟩ := h.add (hnew e List.mem_cons_self)
    obtain ⟨hall, hkept', hmem'⟩ := ih (fun d hd => hnew d (List.mem_cons_of_mem _ hd)) hadded
    refine ⟨hall, fun d hd => hkept' d (hkept d hd), fun d hd hsource htarget => ?_⟩
    rcases List.mem_cons.mp hd with rfl | hd
    · exact hkept' d (hmem hsource htarget)
    · exact hmem' d hd hsource htarget

/-- **The edges gathered are those between nodes visited.** -/
theorem gathered_relevantEdges (ids : List String) (h : Gathered index visited edges) :
    Gathered index visited
        (ids.foldl (fun edges current =>
          (index.codeEdgesOf current).foldl (addRelevant visited) edges) edges) ∧
      (∀ d ∈ edges, d ∈ ids.foldl (fun edges current =>
          (index.codeEdgesOf current).foldl (addRelevant visited) edges) edges) ∧
      ∀ e ∈ index.rows, e.sourceSymbolId ∈ ids → e.sourceSymbolId ∈ visited →
        e.targetSymbolId ∈ visited → e ∈ ids.foldl (fun edges current =>
          (index.codeEdgesOf current).foldl (addRelevant visited) edges) edges := by
  induction ids generalizing edges with
  | nil => exact ⟨h, fun _ hd => hd, fun _ _ hid => nomatch hid⟩
  | cons id ids ih =>
    obtain ⟨hadded, hkept, hmem⟩ :=
      h.foldl (index.codeEdgesOf id) fun e he => (mem_codeEdgesOf.mp he).1
    obtain ⟨hall, hkept', hmem'⟩ := ih hadded
    refine ⟨hall, fun d hd => hkept' d (hkept d hd), fun e he hid hsource htarget => ?_⟩
    rcases List.mem_cons.mp hid with hid | hid
    · exact hkept' e (hmem e (mem_codeEdgesOf.mpr ⟨he, Or.inl hid⟩) hsource htarget)
    · exact hmem' e he hid hsource htarget

theorem nodup_relevantEdges : (relevantEdges index visited).Nodup :=
  (gathered_relevantEdges (sortedSet visited) ⟨List.nodup_nil, fun _ he => nomatch he⟩).1.1

theorem mem_relevantEdges : e ∈ relevantEdges index visited ↔
    e ∈ index.rows ∧ e.sourceSymbolId ∈ visited ∧ e.targetSymbolId ∈ visited := by
  have hempty : Gathered index visited [] := ⟨List.nodup_nil, fun _ he => nomatch he⟩
  obtain ⟨hgathered, -, hmem⟩ := gathered_relevantEdges (sortedSet visited) hempty
  refine ⟨hgathered.2 e, fun h => ?_⟩
  exact hmem e h.1 (mem_sortedSet.mpr h.2.1) h.2.1 h.2.2

end

/-! ### The search -/

section

variable {index : CodeIndex} {direction : Direction} {symbolId : String}

/-- The symbols the search can come to. -/
def known (index : CodeIndex) (symbolId : String) : List String :=
  symbolId :: (index.rows.map CodeEdge.sourceSymbolId ++ index.rows.map CodeEdge.targetSymbolId)

theorem known_closed {a : String} (_ : a ∈ known index symbolId) :
    ∀ b ∈ adjacency index direction a, b ∈ known index symbolId := by
  intro b hb
  obtain ⟨e, he, h⟩ := mem_adjacency.mp hb
  refine List.mem_cons_of_mem _ (List.mem_append.mpr ?_)
  rcases h with ⟨-, -, rfl⟩ | ⟨-, -, rfl⟩
  · exact Or.inr (List.mem_map_of_mem he)
  · exact Or.inl (List.mem_map_of_mem he)

/-- With fuel for twice as many steps as there are edges, and one, the loop ends. -/
theorem exists_found (index : CodeIndex) (direction : Direction) (symbolId : String)
    (maxDepth : ℕ) : ∃ found,
      (∀ fuel, 2 * index.rows.length + 1 ≤ fuel →
        Bfs.search (adjacency index direction) maxDepth fuel (.start symbolId) = some found) ∧
      found.queue = [] ∧
      ∃ depth, Searched (adjacency index direction) symbolId maxDepth depth found := by
  have hlength : (known index symbolId).length = 2 * index.rows.length + 1 := by
    rw [known, List.length_cons, List.length_append, List.length_map, List.length_map, two_mul]
  have hvisited : ∀ a ∈ (State.start symbolId).visited, a ∈ known index symbolId := by
    intro a ha
    obtain rfl := List.mem_singleton.mp ha
    exact List.mem_cons_self
  have hfuel : (State.start symbolId).queue.length + (known index symbolId).length ≤
      (2 * index.rows.length + 1) + (State.start symbolId).visited.length := by
    rw [hlength, State.start, List.length_singleton, List.length_singleton, Nat.add_comm]
  obtain ⟨found, hfound, hqueue, hsearched⟩ := exists_search
    (fun _ => known_closed) _
    (@searched_start _ _ _ maxDepth) hvisited hfuel
  refine ⟨found, fun fuel hle => ?_, hqueue, hsearched⟩
  obtain ⟨k, rfl⟩ := Nat.exists_eq_add_of_le hle
  exact search_mono k hfound

/-- **The impact of a symbol is what is within the depth of it**, with a shortest path to each, and
the edges between what was visited. -/
theorem impact_path_exact (index : CodeIndex) (symbolId direction : String)
    (d : Direction) (maxDepth : Int) (hsymbol : index.getSymbol symbolId ≠ none)
    (hdirection : readDirection direction = some d) (hdepth : 1 ≤ maxDepth ∧ maxDepth ≤ 16) :
    ∃ impact : ImpactPath,
      (∀ fuel, 2 * index.rows.length + 1 ≤ fuel →
        impactPath index symbolId maxDepth direction fuel = some (.ok impact)) ∧
      (impact.impactedSymbolIds.Pairwise (· < ·) ∧ ∀ id, id ∈ impact.impactedSymbolIds ↔
        id ≠ symbolId ∧ ∃ n : ℕ, 1 ≤ n ∧ n ≤ maxDepth ∧
          Distance (Follows index d) symbolId id n) ∧
      (∀ path ∈ impact.paths, (∃ id, Walk (Follows index d) symbolId id path) ∧
        (path.length - 1 : ℕ) ≤ maxDepth) ∧
      (∀ id ∈ impact.impactedSymbolIds, ∃ path ∈ impact.paths,
        Walk (Follows index d) symbolId id path ∧
          Distance (Follows index d) symbolId id (path.length - 1)) ∧
      impact.edges.Nodup ∧ ∀ e, e ∈ impact.edges ↔ e ∈ index.rows ∧
        e.sourceSymbolId ∈ symbolId :: impact.impactedSymbolIds ∧
        e.targetSymbolId ∈ symbolId :: impact.impactedSymbolIds := by
  obtain ⟨found, hfound, hqueue, depth, hsearched⟩ :=
    exists_found index d symbolId maxDepth.toNat
  have himpacted : ∀ id, id ∈ (impactOf index symbolId d maxDepth found).impactedSymbolIds ↔
      id ∈ found.visited ∧ id ≠ symbolId := by
    intro id
    rw [impactOf, mem_sortedSet, List.mem_filter, decide_eq_true_iff]
  have hvisited : ∀ id,
      id ∈ symbolId :: (impactOf index symbolId d maxDepth found).impactedSymbolIds ↔
        id ∈ found.visited := by
    intro id
    rw [List.mem_cons, himpacted]
    by_cases h : id = symbolId
    · exact iff_of_true (Or.inl h) (h ▸ hsearched.start_mem)
    · exact ⟨fun hid => (hid.resolve_left h).1, fun hid => Or.inr ⟨hid, h⟩⟩
  refine ⟨impactOf index symbolId d maxDepth found, fun fuel hle => ?_,
    ⟨sortedSet_sorted _, fun id => ?_⟩, fun path hpath => ?_, fun id hid => ?_, ?_, fun e => ?_⟩
  · have hrange : ¬(maxDepth < 1 ∨ 16 < maxDepth) := by omega
    rw [impactPath, if_neg hsymbol, hdirection]
    simp only [if_neg hrange, hfound fuel hle, Option.map_some]
  · rw [himpacted, hsearched.mem_visited_iff hqueue, leads_adjacency, and_comm]
    refine and_congr_right fun hne => exists_congr fun n => ?_
    constructor
    · rintro ⟨hn, hdist⟩
      refine ⟨Nat.pos_of_ne_zero fun hzero => ?_, by omega, hdist⟩
      exact hne (hzero ▸ hdist).eq_of_zero
    · rintro ⟨-, hn, hdist⟩
      exact ⟨by omega, hdist⟩
  · obtain ⟨⟨id, hwalk⟩, hlength⟩ := hsearched.listed path hpath
    rw [leads_adjacency] at hwalk
    exact ⟨⟨id, hwalk⟩, by omega⟩
  · obtain ⟨hmem, hne⟩ := (himpacted id).mp hid
    obtain ⟨n, path, hpath, hwalk, hlength, hdist⟩ := hsearched.shortest hqueue hmem hne
    rw [leads_adjacency] at hwalk hdist
    exact ⟨path, hpath, hwalk, by rwa [hlength, Nat.add_sub_cancel]⟩
  · exact (List.perm_insertionSort _ _).nodup_iff.mpr nodup_relevantEdges
  · rw [hvisited, hvisited]
    exact mem_sortEdges.trans mem_relevantEdges

/-- Two symbols that call each other, one of them itself too. -/
def demoIndex : CodeIndex where
  codeSymbols := (∅ : Table String AnyObject).insert "a" AnyObject.empty
  codeEdges := (((∅ : Table (String ×ₗ String ×ₗ String) AnyObject).insert
    (toLex ("a", toLex ("b", "CALLS"))) AnyObject.empty).insert
    (toLex ("b", toLex ("a", "CALLS"))) AnyObject.empty).insert
    (toLex ("b", toLex ("b", "CALLS"))) AnyObject.empty

theorem impact_path_exact_demo : ∃ impact : ImpactPath, ∀ fuel,
    2 * demoIndex.rows.length + 1 ≤ fuel →
      impactPath demoIndex "a" 2 "outgoing" fuel = some (.ok impact) := by
  have hsymbol : demoIndex.getSymbol "a" ≠ none := by
    rw [CodeIndex.getSymbol, demoIndex, Table.get_insert, if_pos rfl]
    exact Option.some_ne_none _
  obtain ⟨impact, himpact, -⟩ :=
    impact_path_exact demoIndex "a" "outgoing" .forward 2 hsymbol (by decide) (by decide)
  exact ⟨impact, himpact⟩

end

end SharedMind.Retrieval
