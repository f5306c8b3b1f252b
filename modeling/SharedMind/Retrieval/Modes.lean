import SharedMind.Retrieval.Documents

/-!
# Searching with FTS5 and without it

FTS5 finds the documents that hold each token of the query as a word.  Without it a document is
found that holds one of them, be it inside a word.

* `SameSearch`: both answer, and find the same documents.
* `search_modes_agree_iff`: **when that is so.**
* `search_modes_differ`: a document with one of two words.
-/

namespace SharedMind.Retrieval

open Py

/-- Both ways of searching answer, with the same documents. -/
def SameSearch (unicode : Unicode) (fts : Fts) (documents : DocumentTable) (query : PyStr)
    (kinds : List PyStr) (limit : Int) : Prop :=
  ∃ indexed scanned,
    storeSearch unicode (some fts) documents query kinds limit = .ok indexed ∧
    storeSearch unicode none documents query kinds limit = .ok scanned ∧
    ∀ id, id ∈ indexed.map Hit.documentId ↔ id ∈ scanned.map Hit.documentId

/-- The document holds all the tokens as words, one of them as it is written, or it holds none of
them, not even inside a word. -/
def AllOrNone (unicode : Unicode) (fts : Fts) (tokens : List (List Char)) (row : DocumentRow) :
    Prop :=
  (fts.Matches unicode tokens row ∧ ∃ token ∈ tokens, token <:+: haystack unicode row) ∨
    (¬fts.Matches unicode tokens row ∧ ∀ token ∈ tokens, ¬token <:+: haystack unicode row)

section

variable {unicode : Unicode} {fts : Fts} {documents : DocumentTable} {query : PyStr}
  {kinds : List PyStr} {limit : Int} {tokens : List (List Char)} {row : DocumentRow} {id : String}

theorem allOrNone_iff : AllOrNone unicode fts tokens row ↔
    (fts.Matches unicode tokens row ↔ ∃ token ∈ tokens, token <:+: haystack unicode row) := by
  have hnone : (∀ token ∈ tokens, ¬token <:+: haystack unicode row) ↔
      ¬∃ token ∈ tokens, token <:+: haystack unicode row := by
    refine ⟨fun h hsome => ?_, fun h token htoken hinfix => h ⟨token, htoken, hinfix⟩⟩
    obtain ⟨token, htoken, hinfix⟩ := hsome
    exact h token htoken hinfix
  rw [AllOrNone, hnone]
  exact iff_iff_and_or_not_and_not.symm

/-- With room for every document no row is cut off. -/
theorem take_of_room {rows : List (String × DocumentRow)}
    (hsub : rows.Subperm documents.toList) (hroom : documents.toList.length ≤ limit) :
    rows.take limit.toNat = rows := by
  have hlength := hsub.length_le
  exact List.take_of_length_le (by omega)

theorem ftsRows_subperm :
    (ftsRows unicode fts documents tokens kinds).Subperm documents.toList := by
  rw [ftsRows]
  exact ((List.perm_insertionSort _ _).subperm_right.mpr List.filter_sublist.subperm)

theorem scoredRows_subperm :
    (scoredRows unicode documents tokens kinds).Subperm documents.toList := by
  rw [scoredRows]
  exact ((List.perm_insertionSort _ _).subperm_right.mpr List.filter_sublist.subperm)

theorem ids_map (rows : List (String × DocumentRow)) (score : String × DocumentRow → ℚ) :
    (rows.map fun row => searchRow row (score row)).map Hit.documentId = rows.map Prod.fst := by
  rw [List.map_map]
  exact List.map_congr_left fun _ _ => rfl

theorem mem_ids {rows : List (String × DocumentRow)} {p : DocumentRow → Prop}
    (hrows : ∀ row, row ∈ rows ↔ row ∈ documents.toList ∧ p row.2) :
    id ∈ rows.map Prod.fst ↔ ∃ row, documents[id]? = some row ∧ p row := by
  rw [List.mem_map]
  constructor
  · intro h
    obtain ⟨⟨k, row⟩, hrow, rfl⟩ := h
    exact ⟨row, Table.mem_toList.mp ((hrows _).mp hrow).1, ((hrows _).mp hrow).2⟩
  · intro h
    obtain ⟨row, hrow, hp⟩ := h
    exact ⟨(id, row), (hrows _).mpr ⟨Table.mem_toList.mpr hrow, hp⟩, rfl⟩

/-- The documents FTS5 finds. -/
theorem mem_ftsSearch (hroom : documents.toList.length ≤ limit)
    {hits : List Hit} (h : ftsSearch unicode fts documents tokens kinds limit.toNat = .ok hits) :
    id ∈ hits.map Hit.documentId ↔ ∃ row, documents[id]? = some row ∧
      (fts.Matches unicode tokens row ∧ OfKinds kinds row.kind) := by
  rw [ftsSearch] at h
  split at h
  · rw [take_of_room ftsRows_subperm hroom] at h
    rw [← Except.ok.inj h, ids_map]
    exact mem_ids fun _ => mem_ftsRows
  · exact nomatch h

/-- The documents found without it. -/
theorem mem_fallbackSearch (hroom : documents.toList.length ≤ limit) :
    id ∈ (fallbackSearch unicode documents tokens kinds limit.toNat).map Hit.documentId ↔
      ∃ row, documents[id]? = some row ∧
        (OfKinds kinds row.kind ∧ ∃ token ∈ tokens, token <:+: haystack unicode row) := by
  rw [fallbackSearch, take_of_room scoredRows_subperm hroom, ids_map]
  exact mem_ids fun _ => mem_scoredRows

theorem storeSearch_of_limit (h : limit < 1 ∨ 200 < limit) (fts : Option Fts) :
    storeSearch unicode fts documents query kinds limit = .error invalidSearchLimit := if_pos h

theorem storeSearch_of_wordless (h : ¬(limit < 1 ∨ 200 < limit))
    (hwordless : isBlank query = true ∨ literalSearchTokens unicode query = [])
    (fts : Option Fts) : storeSearch unicode fts documents query kinds limit = .ok [] := by
  rw [storeSearch, if_neg h]
  by_cases hblank : isBlank query = true
  · rw [if_pos hblank]
  · rw [if_neg hblank, if_pos (hwordless.resolve_left hblank)]

theorem storeSearch_of_tokens (h : ¬(limit < 1 ∨ 200 < limit))
    (hwords : ¬(isBlank query = true ∨ literalSearchTokens unicode query = []))
    (fts : Option Fts) : storeSearch unicode fts documents query kinds limit =
      match fts with
      | some fts =>
        ftsSearch unicode fts documents (literalSearchTokens unicode query) kinds limit.toNat
      | none =>
        .ok (fallbackSearch unicode documents (literalSearchTokens unicode query) kinds
          limit.toNat) := by
  obtain ⟨hblank, htokens⟩ := not_or.mp hwords
  rw [storeSearch, if_neg h, if_neg hblank]
  exact if_neg htokens

/-- Both ways of searching agree where they agree on each document. -/
theorem same_iff_of_tokens (hroom : documents.toList.length ≤ limit)
    (h : ¬(limit < 1 ∨ 200 < limit))
    (hwords : ¬(isBlank query = true ∨ literalSearchTokens unicode query = [])) :
    SameSearch unicode fts documents query kinds limit ↔
      (∀ kind ∈ kinds, kind.toString?.isSome = true) ∧
      ∀ (id : String) (row : DocumentRow), documents[id]? = some row → OfKinds kinds row.kind →
        AllOrNone unicode fts (literalSearchTokens unicode query) row := by
  rw [SameSearch, storeSearch_of_tokens h hwords, storeSearch_of_tokens h hwords]
  constructor
  · intro hsame
    obtain ⟨indexed, scanned, hindexed, hscanned, hids⟩ := hsame
    rw [← Except.ok.inj hscanned] at hids
    refine ⟨?_, fun id row hrow hkinds => allOrNone_iff.mpr ?_⟩
    · by_contra hkinds
      dsimp only at hindexed
      rw [ftsSearch, if_neg hkinds] at hindexed
      exact nomatch hindexed
    · have hid := hids id
      rw [mem_ftsSearch hroom hindexed, mem_fallbackSearch hroom] at hid
      constructor
      · intro hmatches
        obtain ⟨row', hrow', -, hsome⟩ := hid.mp ⟨row, hrow, hmatches, hkinds⟩
        rwa [Option.some.inj (hrow.symm.trans hrow')]
      · intro hsome
        obtain ⟨row', hrow', hmatches, -⟩ := hid.mpr ⟨row, hrow, hkinds, hsome⟩
        rwa [Option.some.inj (hrow.symm.trans hrow')]
  · intro hagree
    obtain ⟨hkinds, hrows⟩ := hagree
    have hindexed : ∃ hits, ftsSearch unicode fts documents (literalSearchTokens unicode query)
        kinds limit.toNat = .ok hits := ⟨_, if_pos hkinds⟩
    obtain ⟨indexed, hindexed⟩ := hindexed
    refine ⟨indexed, _, hindexed, rfl, fun id => ?_⟩
    rw [mem_ftsSearch hroom hindexed, mem_fallbackSearch hroom]
    refine exists_congr fun row => and_congr_right fun hrow => ?_
    rw [and_comm]
    exact and_congr_right fun hkind => allOrNone_iff.mp (hrows id row hrow hkind)

/-- **Both ways of searching agree** when the limit is one they take, and the query has no word or
each document of the kinds asked for has all its tokens or none. -/
theorem search_modes_agree_iff (hroom : documents.toList.length ≤ limit) :
    SameSearch unicode fts documents query kinds limit ↔ (1 ≤ limit ∧ limit ≤ 200) ∧
      ((isBlank query = true ∨ literalSearchTokens unicode query = []) ∨
        (∀ kind ∈ kinds, kind.toString?.isSome = true) ∧
        ∀ (id : String) (row : DocumentRow), documents[id]? = some row →
          OfKinds kinds row.kind →
            AllOrNone unicode fts (literalSearchTokens unicode query) row) := by
  by_cases h : limit < 1 ∨ 200 < limit
  · refine iff_of_false (fun hsame => ?_) fun hrange => by omega
    obtain ⟨_, _, hindexed, -⟩ := hsame
    rw [storeSearch_of_limit h] at hindexed
    exact nomatch hindexed
  · rw [and_iff_right (by omega : 1 ≤ limit ∧ limit ≤ 200)]
    by_cases hwordless : isBlank query = true ∨ literalSearchTokens unicode query = []
    · refine iff_of_true ?_ (Or.inl hwordless)
      exact ⟨[], [], storeSearch_of_wordless h hwordless _, storeSearch_of_wordless h hwordless _,
        fun _ => Iff.rfl⟩
    · rw [or_iff_right hwordless]
      exact same_iff_of_tokens hroom h hwordless

end

/-! ### One word of two -/

theorem redFish_tokens : literalSearchTokens asciiUnicode (.ofString "red fish") =
    ["red".toList, "fish".toList] := by decide

theorem search_modes_agree_redFish : SameSearch asciiUnicode asciiFts
    (noteDocuments "Red fish") (.ofString "red fish") [] 1 := by
  have hroom : ((noteDocuments "Red fish").toList.length : Int) ≤ 1 := by
    rw [noteDocuments_length]
    exact le_rfl
  refine (search_modes_agree_iff hroom).mpr ⟨by decide, Or.inr ⟨by decide, fun id row hrow _ => ?_⟩⟩
  rw [noteDocuments, Table.get_insert, Table.get_empty] at hrow
  obtain ⟨rfl⟩ : row = noteRow "Red fish" := by
    split at hrow
    · exact (Option.some.inj hrow).symm
    · cases hrow
  rw [redFish_tokens]
  refine Or.inl ⟨by decide, "red".toList, List.mem_cons_self, ?_⟩
  decide

/-- A document with one of two words is found without FTS5 only. -/
theorem search_modes_differ : ¬SameSearch asciiUnicode asciiFts
    (noteDocuments "Red") (.ofString "red fish") [] 1 := by
  intro hsame
  have hroom : ((noteDocuments "Red").toList.length : Int) ≤ 1 := by
    rw [noteDocuments_length]
    exact le_rfl
  have hwords : ¬(isBlank (.ofString "red fish") = true ∨
      literalSearchTokens asciiUnicode (.ofString "red fish") = []) := by
    rw [redFish_tokens]
    decide
  have hagree := ((same_iff_of_tokens hroom (by decide) hwords).mp hsame).2 "n" _ (note_get "Red")
    (Or.inl rfl)
  rw [redFish_tokens, allOrNone_iff] at hagree
  have hmatches := hagree.mpr ⟨"red".toList, List.mem_cons_self, by decide⟩
  revert hmatches
  decide

end SharedMind.Retrieval
