import Mathlib

/-!
# Objects that open, grow, close and open again

The turns of an object, in order: each opens it, or extends it while it is open, or
closes it.

* `reopenings`: how often it was opened after it had been closed.
* `Counted`: an object whose episode and version count its turns; `Counted.first`,
  `Counted.extend`, `Counted.close` and `Counted.reopen` say what a turn does to them.
-/

namespace Episodes

inductive Turn where
  | opened
  | closed
  deriving DecidableEq

/-- How often an opening follows a closing. -/
def reopenings : List Turn → ℕ
  | [] => 0
  | [_] => 0
  | t :: t' :: ts => (if t = .closed ∧ t' = .opened then 1 else 0) + reopenings (t' :: ts)

theorem reopenings_concat (ts : List Turn) (t : Turn) : reopenings (ts ++ [t]) =
    reopenings ts + if ts.getLast? = some .closed ∧ t = .opened then 1 else 0 := by
  induction ts with
  | nil => simp [reopenings]
  | cons a as ih =>
    cases as with
    | nil => simp [reopenings]
    | cons b bs =>
      rw [List.cons_append, List.cons_append, reopenings, reopenings, ← List.cons_append, ih,
        List.getLast?_cons_cons, Nat.add_assoc]

/-- The episode counts the times the object was reopened and the version counts its turns,
both from one; and it is open when its last turn opened it. -/
structure Counted (ts : List Turn) (episode version : ℕ) (isOpen : Prop) : Prop where
  opened : ts ≠ []
  episode_eq : episode = 1 + reopenings ts
  version_eq : version = 1 + (ts.length - 1)
  last : ts.getLast? = some .opened ↔ isOpen

namespace Counted

variable {ts : List Turn} {episode version : ℕ} {isOpen : Prop}

theorem first {isOpen : Prop} (h : isOpen) : Counted [.opened] 1 1 isOpen :=
  ⟨by simp, rfl, rfl, by simpa using h⟩

/-- Another turn, as the object goes on. -/
theorem snoc (h : Counted ts episode version isOpen) (t : Turn) {isOpen' : Prop}
    (hopen : t = .opened ↔ isOpen') :
    Counted (ts ++ [t]) (episode + if ts.getLast? = some .closed ∧ t = .opened then 1 else 0)
      (version + 1) isOpen' := by
  have hlen := List.length_pos_iff.mpr h.opened
  refine ⟨by simp, ?_, ?_, by simpa using hopen⟩
  · rw [h.episode_eq, reopenings_concat, Nat.add_assoc]
  · rw [h.version_eq, List.length_append, List.length_singleton]
    omega

/-- A closed object is opened again. -/
theorem reopen (h : Counted ts episode version isOpen) (hclosed : ¬isOpen) {isOpen' : Prop}
    (hopen : isOpen') : Counted (ts ++ [.opened]) (episode + 1) (version + 1) isOpen' := by
  have hlast : ts.getLast? = some .closed := by
    have hne : ts.getLast? ≠ some .opened := fun hl => hclosed (h.last.mp hl)
    cases hl : ts.getLast? with
    | none => exact absurd (List.getLast?_eq_none_iff.mp hl) h.opened
    | some t =>
      cases t with
      | opened => exact absurd hl hne
      | closed => rfl
  have hsnoc := @snoc _ _ _ _ h .opened isOpen' (iff_of_true rfl hopen)
  rwa [if_pos ⟨hlast, rfl⟩] at hsnoc

/-- An open object grows. -/
theorem extend (h : Counted ts episode version isOpen) (hwas : isOpen) {isOpen' : Prop}
    (hopen : isOpen') : Counted (ts ++ [.opened]) episode (version + 1) isOpen' := by
  have hsnoc := @snoc _ _ _ _ h .opened isOpen' (iff_of_true rfl hopen)
  rwa [if_neg (by simp [h.last.mpr hwas])] at hsnoc

theorem close (h : Counted ts episode version isOpen) {isOpen' : Prop} (hclosed : ¬isOpen') :
    Counted (ts ++ [.closed]) episode (version + 1) isOpen' := by
  have hsnoc := @snoc _ _ _ _ h .closed isOpen' (iff_of_false (by simp) hclosed)
  rwa [if_neg (by simp)] at hsnoc

end Counted

end Episodes
