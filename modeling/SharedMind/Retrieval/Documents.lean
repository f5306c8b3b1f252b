import SharedMind.Py.Freeform
import SharedMind.Py.Store
import SharedMind.Py.TextLines

/-!
# The documents that are searched

`ProductStore.search`, over FTS5 or without it.

* `RetrievalError`: what the retrieval service raises.
* `Unicode`: what the Unicode character database says of a character.
* `Fts`: what FTS5 does beyond splitting a text into words: it folds them and ranks rows.
* `literalSearchTokens`: the words of a query.
* `ftsSearch`, `fallbackSearch`, `search`: the rows found, the best ones first.
* `count_pos_iff`: a token counts where it occurs.
-/

namespace SharedMind.Retrieval

open Py

/-- `RetrievalError`. -/
structure RetrievalError where
  code : String
  message : String
  deriving DecidableEq

/-! ### Text -/

/-- What the Unicode character database says of a character. -/
structure Unicode where
  /-- `str.isalnum`: a letter or a digit. -/
  isAlnum : Char → Bool
  /-- `str.casefold`. -/
  casefold : Char → List Char

/-- The longest stretches of characters that `p` holds of. -/
def runs {α : Type} [DecidableEq α] (p : α → Bool) (s : List α) : List (List α) :=
  (s.splitOnP fun a => !p a).filter fun run => run ≠ []

/-- `haystack.count(token)` of a token that is not empty, past the `skip` characters of its last
occurrence. -/
def countFrom (token : List Char) : ℕ → List Char → ℕ
  | _, [] => 0
  | skip + 1, _ :: s => countFrom token skip s
  | 0, c :: s =>
    if token <+: c :: s then countFrom token (token.length - 1) s + 1 else countFrom token 0 s

/-- `haystack.count(token)`. -/
def count (haystack token : List Char) : ℕ :=
  if token = [] then haystack.length + 1 else countFrom token 0 haystack

theorem countFrom_pos_iff {token : List Char} (hne : token ≠ []) (haystack : List Char) :
    0 < countFrom token 0 haystack ↔ token <:+: haystack := by
  induction haystack with
  | nil => exact iff_of_false (lt_irrefl 0) fun h => hne (List.infix_nil.mp h)
  | cons c s ih =>
    rw [countFrom, List.infix_cons_iff]
    by_cases hprefix : token <+: c :: s
    · rw [if_pos hprefix]
      exact iff_of_true (Nat.succ_pos _) (Or.inl hprefix)
    · rw [if_neg hprefix, ih, or_iff_right hprefix]

theorem count_pos_iff {haystack token : List Char} :
    0 < count haystack token ↔ token <:+: haystack := by
  by_cases h : token = []
  · rw [count, if_pos h, h]
    exact iff_of_true (Nat.succ_pos _) (List.nil_infix)
  · rw [count, if_neg h]
    exact countFrom_pos_iff h haystack

/-! ### Documents -/

/-- A row of `retrieval_documents` but for its primary key and `updated_at`, which no search
reads. -/
structure DocumentRow where
  kind : String
  title : String
  body : String
  fingerprint : String
  metadata : AnyObject

/-- `retrieval_documents`, by `document_id`. -/
abbrev DocumentTable := Table String DocumentRow

/-- What `_search_row` answers. -/
structure Hit where
  documentId : String
  kind : String
  title : String
  body : String
  fingerprint : String
  metadata : AnyObject
  score : ℚ

def searchRow (row : String × DocumentRow) (score : ℚ) : Hit where
  documentId := row.1
  kind := row.2.kind
  title := row.2.title
  body := row.2.body
  fingerprint := row.2.fingerprint
  metadata := row.2.metadata
  score := score

inductive SearchExc where
  | store (code message : String)
  | unicodeEncodeError
  deriving DecidableEq

def invalidSearchLimit : SearchExc :=
  .store "INVALID_SEARCH_LIMIT" "Search limit must be 1..200."

section

variable (unicode : Unicode)

/-- `_literal_search_tokens`: the matches of `[^\W_]+`, case folded, each once. -/
def literalSearchTokens (query : PyStr) : List (List Char) :=
  let found := runs (fun p => (PyStr.toChar? p).any unicode.isAlnum) query.points
  let tokens := found.map fun run => (run.filterMap PyStr.toChar?).flatMap unicode.casefold
  tokens.reverse.dedup.reverse

/-- `str.strip` leaves nothing. -/
def isBlank (query : PyStr) : Bool := query.points.all fun p => (PyStr.toChar? p).any isSpace

/-- `kinds` is empty or names the kind. -/
def OfKinds (kinds : List PyStr) (kind : String) : Prop :=
  kinds = [] ∨ PyStr.ofString kind ∈ kinds

instance (kinds : List PyStr) (kind : String) : Decidable (OfKinds kinds kind) :=
  inferInstanceAs (Decidable (_ ∨ _))

/-! ### With FTS5 -/

/-- `unicode61` splits a text where it has neither letters nor digits. -/
structure Fts where
  /-- A character of a word, its case folded and its diacritics stripped. -/
  fold : Char → List Char
  bm25 : DocumentTable → List (List Char) → String → ℚ

variable (fts : Fts)

/-- The words of a text. -/
def Fts.words (text : List Char) : List (List Char) :=
  (runs unicode.isAlnum text).map fun word => word.flatMap fts.fold

/-- The words of a quoted term stand one after the other in a column. -/
def Fts.Phrase (term : List Char) (row : DocumentRow) : Prop :=
  fts.words unicode term <:+: fts.words unicode row.title.toList ∨
    fts.words unicode term <:+: fts.words unicode row.body.toList

instance (term : List Char) (row : DocumentRow) : Decidable (fts.Phrase unicode term row) :=
  inferInstanceAs (Decidable (_ ∨ _))

/-- `MATCH` of quoted terms beside each other.  A term without words is left out. -/
def Fts.Matches (terms : List (List Char)) (row : DocumentRow) : Prop :=
  (∃ term ∈ terms, fts.words unicode term ≠ []) ∧
    ∀ term ∈ terms, fts.words unicode term ≠ [] → fts.Phrase unicode term row

instance (terms : List (List Char)) (row : DocumentRow) :
    Decidable (fts.Matches unicode terms row) :=
  inferInstanceAs (Decidable (_ ∧ _))

variable (documents : DocumentTable) (tokens : List (List Char)) (kinds : List PyStr) (limit : ℕ)

/-- The rows `MATCH` selects, by `bm25` and `document_id`. -/
def ftsRows : List (String × DocumentRow) :=
  let rows := documents.toList.filter fun row =>
    fts.Matches unicode tokens row.2 ∧ OfKinds kinds row.2.kind
  rows.insertionSort fun r s => (toLex (fts.bm25 documents tokens r.1, r.1) : ℚ ×ₗ String) ≤
    toLex (fts.bm25 documents tokens s.1, s.1)

def ftsSearch : Except SearchExc (List Hit) :=
  if ∀ kind ∈ kinds, kind.toString?.isSome = true then
    .ok (((ftsRows unicode fts documents tokens kinds).take limit).map fun row =>
      searchRow row (-fts.bm25 documents tokens row.1))
  else .error .unicodeEncodeError

/-! ### Without FTS5 -/

def haystack (row : DocumentRow) : List Char :=
  (row.title.toList ++ '\n' :: row.body.toList).flatMap unicode.casefold

def tokenScore (row : DocumentRow) : ℕ :=
  (tokens.map fun token => count (haystack unicode row) token).sum

/-- `scored`, sorted. -/
def scoredRows : List (String × DocumentRow) :=
  let rows := documents.toList.filter fun row =>
    OfKinds kinds row.2.kind ∧ tokenScore unicode tokens row.2 ≠ 0
  rows.insertionSort fun r s =>
    (toLex (-(tokenScore unicode tokens r.2 : ℤ), r.1) : ℤ ×ₗ String) ≤
      toLex (-(tokenScore unicode tokens s.2 : ℤ), s.1)

def fallbackSearch : List Hit :=
  ((scoredRows unicode documents tokens kinds).take limit).map fun row =>
    searchRow row (tokenScore unicode tokens row.2)

end

/-- `ProductStore.search`; `fts` is FTS5, where it is there. -/
def storeSearch (unicode : Unicode) (fts : Option Fts) (documents : DocumentTable)
    (query : PyStr) (kinds : List PyStr) (limit : Int) : Except SearchExc (List Hit) :=
  if limit < 1 ∨ 200 < limit then .error invalidSearchLimit
  else if isBlank query then .ok []
  else
    let tokens := literalSearchTokens unicode query
    if tokens = [] then .ok []
    else match fts with
    | some fts => ftsSearch unicode fts documents tokens kinds limit.toNat
    | none => .ok (fallbackSearch unicode documents tokens kinds limit.toNat)

section

variable {unicode : Unicode} {fts : Fts} {documents : DocumentTable} {tokens : List (List Char)}
  {kinds : List PyStr} {row : String × DocumentRow}

theorem mem_ftsRows : row ∈ ftsRows unicode fts documents tokens kinds ↔
    row ∈ documents.toList ∧ fts.Matches unicode tokens row.2 ∧ OfKinds kinds row.2.kind := by
  rw [ftsRows, List.mem_insertionSort, List.mem_filter, decide_eq_true_iff]

theorem mem_scoredRows : row ∈ scoredRows unicode documents tokens kinds ↔
    row ∈ documents.toList ∧ OfKinds kinds row.2.kind ∧
      ∃ token ∈ tokens, token <:+: haystack unicode row.2 := by
  rw [scoredRows, List.mem_insertionSort, List.mem_filter, decide_eq_true_iff]
  refine and_congr_right fun _ => and_congr_right fun _ => ?_
  rw [tokenScore, Ne, List.sum_eq_zero_iff]
  constructor
  · intro h
    by_contra hnone
    refine h fun n hn => ?_
    obtain ⟨token, htoken, rfl⟩ := List.mem_map.mp hn
    by_contra hpos
    exact hnone ⟨token, htoken, count_pos_iff.mp (Nat.pos_of_ne_zero hpos)⟩
  · intro h hzero
    obtain ⟨token, htoken, hinfix⟩ := h
    exact (count_pos_iff.mpr hinfix).ne' (hzero _ (List.mem_map_of_mem htoken))

theorem ftsRows_nodup : (ftsRows unicode fts documents tokens kinds).Nodup := by
  rw [ftsRows, (List.perm_insertionSort _ _).nodup_iff]
  refine List.Nodup.filter _ (documents.toList_sorted.imp fun h heq => ?_)
  exact h.ne (congrArg Prod.fst heq)

end

/-! ### One document -/

/-- The database as it is for ASCII. -/
def asciiUnicode : Unicode where
  isAlnum := Char.isAlphanum
  casefold c := [c.toLower]

def asciiFts : Fts where
  fold c := [c.toLower]
  bm25 _ _ _ := -1

def noteRow (title : String) : DocumentRow where
  kind := "SOURCE_TEXT"
  title := title
  body := ""
  fingerprint := "0"
  metadata := .empty

/-- One document. -/
def noteDocuments (title : String) : DocumentTable := (∅ : DocumentTable).insert "n" (noteRow title)

theorem noteDocuments_length (title : String) : (noteDocuments title).toList.length = 1 := by
  rw [Std.ExtTreeMap.length_toList, noteDocuments, Std.ExtTreeMap.size_insert,
    Std.ExtTreeMap.contains_empty, Std.ExtTreeMap.size_empty]
  rfl

theorem note_get (title : String) : (noteDocuments title)["n"]? = some (noteRow title) := by
  rw [noteDocuments, Table.get_insert, if_pos rfl]

end SharedMind.Retrieval
