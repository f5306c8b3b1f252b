import SharedMind.Py.Lines

/-!
# Archives and the paths of their entries

* `PurePosixPath`: the parts of a path, and its text.
* `Zip.Archive`: the entries of a zip file, in the order they were written.
* `Zip.read?_of_forall`: what is read back of an archive.
* `loads_line`: a JSON text with a newline is read.
-/

namespace Py

/-! ### Paths -/

/-- `PurePosixPath`: whether it is absolute, and its parts but for the root. -/
structure PurePosixPath where
  absolute : Bool
  parts : List (List Char)

namespace PurePosixPath

/-- The parts of a path; `.` and nothing are none. -/
def partsOf (path : List Char) : List (List Char) :=
  (path.splitOn '/').filter fun part => part ≠ [] ∧ part ≠ ['.']

def ofChars (path : List Char) : PurePosixPath := ⟨path.head? = some '/', partsOf path⟩

/-- `as_posix()` of a relative path. -/
def asPosix (parts : List (List Char)) : List Char :=
  if parts = [] then ['.'] else ['/'].intercalate parts

/-- A part has characters of the whole, and no separator. -/
theorem part_of_mem_splitOn {α : Type} [DecidableEq α] {sep : α} {xs part : List α}
    (h : part ∈ xs.splitOn sep) : sep ∉ part ∧ part ⊆ xs := by
  induction xs generalizing part with
  | nil =>
    rw [List.splitOn_nil, List.mem_singleton] at h
    simp [h]
  | cons x xs ih =>
    have hkeep : ∀ {p}, p ∈ xs.splitOn sep → sep ∉ p ∧ p ⊆ x :: xs := fun hp =>
      ⟨(ih hp).1, fun c hc => List.mem_cons_of_mem _ ((ih hp).2 hc)⟩
    rw [List.splitOn_cons_eq_if_modifyHead] at h
    split at h
    · rcases List.mem_cons.mp h with rfl | h
      · simp
      · exact hkeep h
    · next hx =>
      obtain ⟨first, rest, hsplit⟩ := List.exists_cons_of_ne_nil (List.splitOn_ne_nil sep xs)
      rw [hsplit] at h hkeep
      rcases List.mem_cons.mp h with rfl | h
      · obtain ⟨hsep, hsub⟩ := hkeep List.mem_cons_self
        refine ⟨?_, List.cons_subset.mpr ⟨List.mem_cons_self, hsub⟩⟩
        rw [List.mem_cons, not_or]
        exact ⟨fun heq => hx (beq_iff_eq.mpr heq.symm), hsep⟩
      · exact hkeep (List.mem_cons_of_mem _ h)

theorem mem_intercalate {α : Type} {sep c : α} {parts : List (List α)}
    (h : c ∈ [sep].intercalate parts) : c = sep ∨ ∃ part ∈ parts, c ∈ part := by
  induction parts with
  | nil => exact absurd h List.not_mem_nil
  | cons part parts ih =>
    by_cases hne : parts = []
    · rw [hne, List.intercalate_singleton] at h
      exact Or.inr ⟨part, List.mem_cons_self, h⟩
    · rw [List.intercalate_cons_of_ne_nil hne, List.append_assoc, List.mem_append,
        List.mem_append] at h
      rcases h with h | h | h
      · exact Or.inr ⟨part, List.mem_cons_self, h⟩
      · exact Or.inl (List.mem_singleton.mp h)
      · rcases ih h with h | ⟨other, hother, h⟩
        · exact Or.inl h
        · exact Or.inr ⟨other, List.mem_cons_of_mem _ hother, h⟩

/-- What a part is. -/
structure Part (path part : List Char) : Prop where
  ne_nil : part ≠ []
  ne_dot : part ≠ ['.']
  not_mem : '/' ∉ part
  subset : part ⊆ path

theorem part_of_mem_partsOf {path part : List Char} (h : part ∈ partsOf path) : Part path part := by
  rw [partsOf, List.mem_filter, decide_eq_true_eq] at h
  obtain ⟨hsplit, hne, hdot⟩ := h
  obtain ⟨hslash, hsub⟩ := part_of_mem_splitOn hsplit
  exact ⟨hne, hdot, hslash, hsub⟩

/-- The parts of a text of parts. -/
theorem partsOf_asPosix {path : List Char} {parts : List (List Char)}
    (h : ∀ part ∈ parts, Part path part) : partsOf (asPosix parts) = parts := by
  rw [asPosix]
  split
  · next hnil =>
    subst hnil
    rfl
  · next hne =>
    rw [partsOf, List.splitOn_intercalate _ (fun part hpart => (h part hpart).not_mem) hne,
      List.filter_eq_self]
    intro part hpart
    exact decide_eq_true ⟨(h part hpart).ne_nil, (h part hpart).ne_dot⟩

theorem head?_asPosix {path : List Char} {parts : List (List Char)}
    (h : ∀ part ∈ parts, Part path part) : (asPosix parts).head? ≠ some '/' := by
  rw [asPosix]
  split
  · simp
  · next hne =>
    obtain ⟨first, rest, rfl⟩ := List.exists_cons_of_ne_nil hne
    have hslash := (h first List.mem_cons_self).not_mem
    obtain ⟨c, cs, rfl⟩ := List.exists_cons_of_ne_nil (h first List.mem_cons_self).ne_nil
    intro hhead
    cases rest <;> simp [List.intercalate, List.intersperse] at hhead <;> simp [hhead] at hslash

/-- The characters of a text of parts. -/
theorem mem_asPosix {path : List Char} {parts : List (List Char)}
    (h : ∀ part ∈ parts, Part path part) {c : Char} (hc : c ∈ asPosix parts) :
    c = '.' ∨ c = '/' ∨ c ∈ path := by
  rw [asPosix] at hc
  split at hc
  · exact Or.inl (List.mem_singleton.mp hc)
  · rcases mem_intercalate hc with hc | ⟨part, hpart, hc⟩
    · exact Or.inr (Or.inl hc)
    · exact Or.inr (Or.inr ((h part hpart).subset hc))

end PurePosixPath

/-! ### Archives -/

namespace Zip

/-- The entries of an archive, in the order they were written. -/
abbrev Archive := List (String × Bytes)

/-- The name `ZipInfo` takes: it ends before its first NUL. -/
def infoName (name : String) : String := String.ofList (name.toList.takeWhile (· ≠ '\x00'))

/-- `writestr`.  A name may be written twice. -/
def writestr (archive : Archive) (name : String) (payload : Bytes) : Archive :=
  archive ++ [(infoName name, payload)]

def namelist (archive : Archive) : List String := archive.map Prod.fst

/-- `read`: the last entry of the name; `none` is a `KeyError`. -/
def read? (archive : Archive) (name : String) : Option Bytes :=
  (archive.reverse.find? fun e => e.1 = name).map Prod.snd

section

variable {archive : Archive} {name : String} {payload : Bytes}

theorem mem_of_read? (h : read? archive name = some payload) : (name, payload) ∈ archive := by
  obtain ⟨⟨n, p⟩, hfind, rfl⟩ := Option.map_eq_some_iff.mp h
  have hname : n = name := by simpa using List.find?_some hfind
  rw [← hname]
  exact List.mem_reverse.mp (List.mem_of_find?_eq_some hfind)

/-- **What is read** of a name all of whose entries are the same. -/
theorem read?_of_forall (hmem : (name, payload) ∈ archive)
    (h : ∀ p, (name, p) ∈ archive → p = payload) : read? archive name = some payload := by
  cases hfind : archive.reverse.find? fun e => e.1 = name with
  | none =>
    have hall := List.find?_eq_none.mp hfind (name, payload) (List.mem_reverse.mpr hmem)
    exact absurd (decide_eq_true rfl) hall
  | some e =>
    have hread : read? archive name = some e.2 := by rw [read?, hfind]; rfl
    rw [hread, h e.2 (mem_of_read? hread)]

theorem not_mem_infoName (name : String) : '\x00' ∉ (infoName name).toList := by
  rw [infoName, String.toList_ofList]
  intro h
  simpa using List.mem_takeWhile_imp h

theorem infoName_of_not_mem (h : '\x00' ∉ name.toList) : infoName name = name := by
  have hall : name.toList.takeWhile (· ≠ '\x00') = name.toList := by
    rw [List.takeWhile_eq_self_iff]
    intro c hc
    exact decide_eq_true fun heq => h (heq ▸ hc)
  rw [infoName, hall, String.ofList_toList]

end

end Zip

/-! ### JSON texts -/

/-- A JSON text with a newline is read. -/
theorem loads_line {v : Json} (h : v.Sorted) : loads (v.dumps ++ "\n") = some v := by
  have hend : NumEnd ['\n'] := numEnd_cons (by decide)
  have hskip := skipSpace_print v ['\n']
  have hread := readsBack_of_sorted h (2 * (v.print ++ ['\n']).length) ['\n']
    (by rw [List.length_append]; omega) hend
  have htext : (v.dumps ++ "\n").toList = v.print ++ ['\n'] := by
    rw [String.toList_append, JsonOf.dumps, String.toList_ofList]
    rfl
  rw [loads, htext, hskip]
  simp only [hread]
  rfl

/-- What `jsonLine` writes is decoded and read. -/
theorem decode_jsonLine (v : Json) : utf8Decode? (jsonLine v) = some (v.dumps ++ "\n") := by
  have htext : jsonLine v = utf8 (v.dumps ++ "\n") := by
    rw [jsonLine, utf8, utf8, String.toList_append, List.flatMap_append]
    rfl
  rw [htext, utf8Decode?_utf8]

end Py
