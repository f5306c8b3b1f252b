import Mathlib.Data.List.Basic
import Mathlib.Tactic

/-!
# Sections of lines

A text is lines with a separator between.  Some of its lines are headings; a section lasts to the
next heading, and some of its lines are records.

* `splitOn_intercalate`: what the lines of a text are when a line may have a separator of its own.
* `Shows`: lines that show these records and no heading.
* `splitOnP_sections`: **the sections come back**.
-/

namespace Sections

variable {α : Type} [DecidableEq α] {sep : α}

/-! ### Lines -/

omit [DecidableEq α] in
theorem intercalate_concat {lines : List (List α)} (h : lines ≠ []) (l : List α) :
    [sep].intercalate (lines ++ [l]) = [sep].intercalate lines ++ sep :: l := by
  induction lines with
  | nil => exact absurd rfl h
  | cons first rest ih =>
    rw [List.cons_append, List.intercalate_cons_of_ne_nil (List.concat_ne_nil l rest)]
    by_cases hrest : rest = []
    · rw [hrest, List.nil_append, List.intercalate_singleton, List.intercalate_singleton,
        List.append_assoc, List.singleton_append]
    · rw [ih hrest, List.intercalate_cons_of_ne_nil hrest]
      simp only [List.append_assoc]

/-- The pieces of the lines. -/
def pieces (sep : α) (lines : List (List α)) : List (List α) := lines.flatMap (List.splitOn sep)

@[simp] theorem pieces_append (lines rest : List (List α)) :
    pieces sep (lines ++ rest) = pieces sep lines ++ pieces sep rest := List.flatMap_append

@[simp] theorem pieces_cons (l : List α) (lines : List (List α)) :
    pieces sep (l :: lines) = l.splitOn sep ++ pieces sep lines := List.flatMap_cons

theorem splitOn_intercalate {lines : List (List α)} (h : lines ≠ []) :
    ([sep].intercalate lines).splitOn sep = pieces sep lines := by
  induction lines with
  | nil => exact absurd rfl h
  | cons first rest ih =>
    rw [pieces_cons]
    by_cases hrest : rest = []
    · rw [hrest, List.intercalate_singleton]
      exact (List.append_nil _).symm
    · rw [List.intercalate_cons_of_ne_nil hrest, List.append_assoc, List.singleton_append,
        List.splitOn_append_cons_self, ih hrest]

theorem pieces_of_not_mem {lines : List (List α)} (h : ∀ l ∈ lines, sep ∉ l) :
    pieces sep lines = lines := by
  induction lines with
  | nil => rfl
  | cons l lines ih =>
    rw [pieces_cons, List.splitOn_eq_singleton (h l List.mem_cons_self),
      ih fun k hk => h k (List.mem_cons_of_mem l hk), List.singleton_append]

/-! ### Sections -/

/-- The lines have no heading, and their records are these. -/
structure Shows (sep : α) (isHeading isRecord : List α → Bool) (lines records : List (List α)) :
    Prop where
  plain : ∀ p ∈ pieces sep lines, isHeading p = false
  records_eq : (pieces sep lines).filter isRecord = records

namespace Shows

variable {isHeading isRecord : List α → Bool} {lines rest records more : List (List α)}

theorem nil : Shows sep isHeading isRecord [] [] := ⟨fun _ h => absurd h List.not_mem_nil, rfl⟩

theorem append (h : Shows sep isHeading isRecord lines records)
    (hrest : Shows sep isHeading isRecord rest more) :
    Shows sep isHeading isRecord (lines ++ rest) (records ++ more) := by
  constructor
  · intro p hp
    rw [pieces_append, List.mem_append] at hp
    exact hp.elim (h.plain p) (hrest.plain p)
  · rw [pieces_append, List.filter_append, h.records_eq, hrest.records_eq]

/-- A line that is no heading and no record. -/
theorem skip {l : List α} (h : ∀ p ∈ l.splitOn sep, isHeading p = false ∧ isRecord p = false)
    (hrest : Shows sep isHeading isRecord rest more) :
    Shows sep isHeading isRecord (l :: rest) more := by
  constructor
  · intro p hp
    rw [pieces_cons, List.mem_append] at hp
    exact hp.elim (fun hp => (h p hp).1) (hrest.plain p)
  · rw [pieces_cons, List.filter_append, hrest.records_eq, List.filter_eq_nil_iff.mpr,
      List.nil_append]
    intro p hp
    rw [(h p hp).2]
    exact Bool.false_ne_true

theorem record {l : List α} (hsep : sep ∉ l) (hplain : isHeading l = false)
    (hrecord : isRecord l = true) (hrest : Shows sep isHeading isRecord rest more) :
    Shows sep isHeading isRecord (l :: rest) (l :: more) := by
  constructor
  · intro p hp
    rw [pieces_cons, List.splitOn_eq_singleton hsep, List.mem_append, List.mem_singleton] at hp
    obtain rfl | hp := hp
    · exact hplain
    · exact hrest.plain p hp
  · rw [pieces_cons, List.splitOn_eq_singleton hsep, List.filter_append, hrest.records_eq]
    simp [hrecord]

end Shows

/-- **The sections come back**, and what stands before the first. -/
theorem splitOnP_sections {α : Type} {isHeading : α → Bool} {head : List α}
    {parts : List (α × List α)} (hhead : ∀ l ∈ head, isHeading l = false)
    (hparts : ∀ s ∈ parts, isHeading s.1 = true ∧ ∀ l ∈ s.2, isHeading l = false) :
    (head ++ parts.flatMap fun s => s.1 :: s.2).splitOnP isHeading =
      head :: parts.map Prod.snd := by
  induction parts generalizing head with
  | nil =>
    rw [List.flatMap_nil, List.append_nil, List.splitOnP_eq_singleton hhead]
    rfl
  | cons s parts ih =>
    obtain ⟨hheading, hbody⟩ := hparts s List.mem_cons_self
    rw [List.flatMap_cons, List.cons_append,
      List.splitOnP_append_cons_of_forall_mem hhead _ hheading,
      ih hbody fun t ht => hparts t (List.mem_cons_of_mem s ht), List.map_cons]

end Sections
