import SharedMind.Gen.Paging
import SharedMind.Service.Pages
import SharedMind.Service.Status

/-!
# A lookup misses nothing that was there

A session reads the work items page by page, and between two pages others may add some.

* `Looking`: a document of the work item was read, or the work item stands at or behind the
  offset.
* `Looking.page`: **a page keeps that, and the last page leaves a document that was read**.
-/

namespace SharedMind.Service

open Py Projection

variable {t u : Tables} {id : RecordId} {n : Nat} {documents : List Json} {offset : Nat}

/-- The identifiers of the work items, in order. -/
def workItemIds (t : Tables) : List String := t.workItems.toList.map fun r => (r.1 : String)

/-- A document that carries an identifier. -/
def Carries (id : RecordId) (d : Json) : Prop :=
  (d.get? "work_item_id").bind JsonOf.str? = some (id : String)

/-- What a session has read that looks for a work item, which had version `n`. -/
structure Looking (t : Tables) (id : RecordId) (n : Nat) (documents : List Json) (offset : Nat) :
    Prop where
  there : ∃ row, t.workItems[id]? = some row ∧ n ≤ row.version
  read : ∀ d ∈ documents, Carries id d →
    ∃ row, Had t id row ∧ n ≤ row.version ∧ d = WorkItemDoc.codec.enc row.document
  ahead : (∃ d ∈ documents, Carries id d) ∨ offset ≤ Paging.rank (id : String) (workItemIds t)

theorem workItemIds_sorted (t : Tables) : (workItemIds t).Pairwise (· < ·) :=
  List.pairwise_map.mpr t.workItems.toList_sorted

theorem mem_workItemIds {s : String} :
    s ∈ workItemIds t ↔ ∃ (id : RecordId) (row : WorkItemRow),
      t.workItems[id]? = some row ∧ (id : String) = s := by
  rw [workItemIds, List.mem_map]
  constructor
  · intro h
    obtain ⟨r, hr, rfl⟩ := h
    exact ⟨r.1, r.2, Table.mem_toList.mp hr, rfl⟩
  · intro h
    obtain ⟨id, row, hrow, rfl⟩ := h
    exact ⟨(id, row), Table.mem_toList.mpr hrow, rfl⟩

/-- Work items are added, and none is lost. -/
theorem workItemIds_subset (hadv : t.Advance u) : workItemIds t ⊆ workItemIds u := by
  intro s hs
  obtain ⟨id, row, hrow, rfl⟩ := mem_workItemIds.mp hs
  obtain ⟨row', hrow', _⟩ := hadv.workItems id row hrow
  exact mem_workItemIds.mpr ⟨id, row', hrow', rfl⟩

namespace Looking

theorem start (h : ∃ row, t.workItems[id]? = some row ∧ n ≤ row.version) :
    Looking t id n [] 0 :=
  ⟨h, fun _ hd => absurd hd List.not_mem_nil, Or.inr (Nat.zero_le _)⟩

theorem advance (h : Looking t id n documents offset) (hadv : t.Advance u) :
    Looking u id n documents offset := by
  refine ⟨?_, fun d hd hcarries => ?_, ?_⟩
  · obtain ⟨row, hrow, hle⟩ := h.there
    obtain ⟨row', hrow', hkept⟩ := hadv.workItems id row hrow
    refine ⟨row', hrow', ?_⟩
    rcases hkept with rfl | hlt
    · exact hle
    · exact hle.trans hlt.le
  · obtain ⟨row, hhad, hle, heq⟩ := h.read d hd hcarries
    exact ⟨row, hhad.advance hadv, hle, heq⟩
  · rcases h.ahead with hread | hrank
    · exact Or.inl hread
    · right
      refine hrank.trans (Paging.rank_mono (id : String) ?_ (workItemIds_subset hadv))
      exact (workItemIds_sorted t).imp fun hlt => hlt.ne

/-- A document of the current table that carries the identifier is of the current row. -/
theorem of_current (hsound : Sound t) {d : Json} (hd : d ∈ workItemDocuments t)
    (hcarries : Carries id d) :
    ∃ row, t.workItems[id]? = some row ∧ d = WorkItemDoc.codec.enc row.document := by
  obtain ⟨r, hr, rfl⟩ := List.mem_map.mp hd
  have hrow := Table.mem_toList.mp hr
  have hid := (hsound.workItems r.1 r.2 hrow).id_eq
  have hcarries : some (r.2.document.workItemId : String) = some (id : String) := hcarries
  obtain rfl : r.1 = id := by
    rw [← hid]
    exact Text.ext (Option.some.inj hcarries)
  exact ⟨r.2, hrow, rfl⟩

theorem carries_current (hsound : Sound t) {row : WorkItemRow}
    (hrow : t.workItems[id]? = some row) : Carries id (WorkItemDoc.codec.enc row.document) := by
  show some (row.document.workItemId : String) = _
  rw [(hsound.workItems id row hrow).id_eq]

/-- What was read stays right with the documents of a page. -/
theorem read_page (h : Looking t id n documents offset) (hsound : Sound t) {page : QueryResult}
    (hpage : IsSlice (workItemDocuments t) offset page) :
    ∀ d ∈ documents ++ documentsOf page, Carries id d →
      ∃ row, Had t id row ∧ n ≤ row.version ∧ d = WorkItemDoc.codec.enc row.document := by
  intro d hd hcarries
  rcases List.mem_append.mp hd with hd | hd
  · exact h.read d hd hcarries
  · rw [hpage.read] at hd
    have hmem : d ∈ workItemDocuments t := List.mem_of_mem_drop (List.mem_of_mem_take hd)
    obtain ⟨row, hrow, heq⟩ := of_current hsound hmem hcarries
    obtain ⟨row', hrow', hle⟩ := h.there
    obtain rfl := Option.some.inj (hrow.symm.trans hrow')
    exact ⟨row, ⟨hsound.workItems id row hrow, row, hrow, Or.inl rfl⟩, hle, heq⟩

/-- The work item is on the page, or was read before, or comes later. -/
theorem page_or_later (h : Looking t id n documents offset) (hsound : Sound t) {page : QueryResult}
    (hpage : IsSlice (workItemDocuments t) offset page) :
    (∃ d ∈ documents ++ documentsOf page, Carries id d) ∨
      (offset + page.hits.length ≤ Paging.rank (id : String) (workItemIds t) ∧
        page.truncated = true) := by
  rcases h.ahead with hread | hrank
  · obtain ⟨d, hd, hcarries⟩ := hread
    exact Or.inl ⟨d, List.mem_append_left _ hd, hcarries⟩
  · obtain ⟨row, hrow, _⟩ := h.there
    have hmem : (id, row) ∈ t.workItems.toList := Table.mem_toList.mpr hrow
    have hlength : t.workItems.toList.length = (workItemDocuments t).length := by
      rw [workItemDocuments, List.length_map]
    have hkeys : (t.workItems.toList.map fun r => (r.1 : String)).Pairwise (· < ·) :=
      workItemIds_sorted t
    rcases @Paging.page_or_later _ _ _ _ _ hkeys _ hmem offset 1000 hrank with hon | hlater
    · left
      refine ⟨_, List.mem_append_right _ ?_, carries_current hsound hrow⟩
      rw [hpage.read, workItemDocuments, ← List.map_drop, ← List.map_take]
      exact List.mem_map_of_mem hon
    · right
      obtain ⟨hrank, hmore⟩ := hlater
      rw [hlength] at hmore
      refine ⟨?_, ?_⟩
      · have hhits : page.hits.length ≤ 1000 := by
          rw [hpage.hits, List.length_take]
          omega
        exact (Nat.add_le_add_left hhits offset).trans hrank
      · rw [hpage.truncated]
        exact decide_eq_true hmore

/-- **A page that is not the last keeps what was read.** -/
theorem page (h : Looking t id n documents offset) (hsound : Sound t) {page : QueryResult}
    (hpage : IsSlice (workItemDocuments t) offset page) :
    Looking t id n (documents ++ documentsOf page) (offset + page.hits.length) := by
  refine ⟨h.there, h.read_page hsound hpage, ?_⟩
  rcases h.page_or_later hsound hpage with hread | hlater
  · exact Or.inl hread
  · exact Or.inr hlater.1

/-- **After the last page the work item is found**, with a row it had. -/
theorem found (h : Looking t id n documents offset) (hsound : Sound t) {page : QueryResult}
    (hpage : IsSlice (workItemDocuments t) offset page) (hlast : page.truncated = false) :
    ∃ row, Had t id row ∧ n ≤ row.version ∧
      findWorkItem (documents ++ documentsOf page) id =
        some (WorkItemDoc.codec.enc row.document) := by
  rcases h.page_or_later hsound hpage with hread | hlater
  · obtain ⟨d, hd, hcarries⟩ := hread
    have hsome : (findWorkItem (documents ++ documentsOf page) id).isSome = true := by
      rw [findWorkItem, List.find?_isSome]
      exact ⟨d, hd, decide_eq_true hcarries⟩
    obtain ⟨d', hd'⟩ := Option.isSome_iff_exists.mp hsome
    have hfound := hd'
    rw [findWorkItem] at hfound
    have hcarries' : Carries id d' := by
      have hdecide := List.find?_some hfound
      simp only [decide_eq_true_eq] at hdecide
      exact hdecide
    obtain ⟨row, hhad, hle, rfl⟩ :=
      h.read_page hsound hpage d' (List.mem_of_find?_eq_some hd') hcarries'
    exact ⟨row, hhad, hle, hd'⟩
  · rw [hlast] at hlater
    exact absurd hlater.2 Bool.false_ne_true

end Looking

/-- What a session sees of the document it found. -/
theorem seenOf_document {row : WorkItemRow} (h : row.Sound id) :
    seenOf (WorkItemDoc.codec.enc row.document) = .ok (seenRow row) := by
  have hversion := h.version
  rw [AtLeast.eqInt, PyNum.pyEq_int_iff] at hversion
  have hint : intOf (.num row.document.version.1) = .ok (row.version : Int) := by
    rw [intOf, hversion]
    rfl
  have hstatus : textAt (WorkItemDoc.codec.enc row.document) "status" =
      .ok row.document.status.text := rfl
  have hitem : item (WorkItemDoc.codec.enc row.document) "version" =
      .ok (.num row.document.version.1) := rfl
  rw [seenOf, hitem, ok_bind, hint, ok_bind, hstatus, h.status]
  rfl

end SharedMind.Service
