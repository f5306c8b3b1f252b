import SharedMind.Py.Store

/-!
# Rows that name their successors

A table of rows each of which may name another row, and the order in which the rows were
inserted.

* `Ordered`: the named row exists and was inserted later; `Ordered.insert` and
  `Ordered.modify` say which writes keep it.
* `Ordered.wellFounded`, `Ordered.exists_last`: **from every row the links lead, in
  finitely many steps, to a row that names none**.
* `Settled`: rows stay, and a row whose status is final keeps it.
-/

namespace Succession

open Py

variable {κ ρ σ : Type} [LinearOrder κ] {link : ρ → Option κ} {t u v : Table κ ρ} {order : List κ}
  {k k' : κ} {r : ρ}

/-! ### Links -/

/-- `order` lists the keys of the table, and every link leads further in it. -/
structure Ordered (link : ρ → Option κ) (t : Table κ ρ) (order : List κ) : Prop where
  nodup : order.Nodup
  mem : ∀ k : κ, k ∈ order ↔ ∃ r, t[k]? = some r
  later : ∀ (k : κ) (r : ρ) (k' : κ), t[k]? = some r → link r = some k' →
    k' ∈ order ∧ order.idxOf k < order.idxOf k'

namespace Ordered

theorem empty : Ordered link (∅ : Table κ ρ) [] where
  nodup := .nil
  mem k := by simp
  later k r k' h := by simp at h

theorem idxOf_append_of_mem (h : k ∈ order) (later : List κ) :
    (order ++ later).idxOf k = order.idxOf k := List.idxOf_append_of_mem h

/-- A new row that names none is the last. -/
theorem insert (h : Ordered link t order) (hk : t[k]? = none) (hlink : link r = none) :
    Ordered link (t.insert k r) (order ++ [k]) := by
  have hnew : k ∉ order := by
    intro hmem
    obtain ⟨r, hr⟩ := (h.mem k).mp hmem
    rw [hk] at hr
    exact nomatch hr
  refine ⟨List.nodup_append.mpr ⟨h.nodup, List.nodup_singleton k, ?_⟩, fun a => ?_, ?_⟩
  · rintro a ha b hb rfl
    exact hnew (List.mem_singleton.mp hb ▸ ha)
  · rw [List.mem_append, List.mem_singleton, h.mem, Table.get_insert]
    by_cases ha : a = k <;> simp [ha]
  · intro a b c hab hbc
    rw [Table.get_insert] at hab
    split at hab
    · cases hab
      rw [hlink] at hbc
      exact nomatch hbc
    · obtain ⟨hc, hlt⟩ := h.later a b c hab hbc
      have ha : a ∈ order := (h.mem a).mpr ⟨b, hab⟩
      refine ⟨List.mem_append_left _ hc, ?_⟩
      rw [idxOf_append_of_mem ha, idxOf_append_of_mem hc]
      exact hlt

/-- A row whose link stays, or leads further. -/
theorem modify (h : Ordered link t order) {f : ρ → ρ} (hk : t[k]? = some r)
    (hf : link (f r) = link r ∨
      ∃ k', link (f r) = some k' ∧ k' ∈ order ∧ order.idxOf k < order.idxOf k') :
    Ordered link (t.modify k f) order := by
  have hget : ∀ a : κ, (t.modify k f)[a]? = if a = k then some (f r) else t[a]? := by
    intro a
    rw [Table.get_modify]
    split
    · next ha => rw [ha, hk]; rfl
    · rfl
  refine ⟨h.nodup, fun a => ?_, ?_⟩
  · rw [h.mem, hget]
    by_cases ha : a = k
    · simp [ha, hk]
    · simp [ha]
  · intro a b c hab hbc
    rw [hget] at hab
    split at hab
    · next ha =>
      cases hab
      rw [ha]
      rcases hf with hf | ⟨k', hf, hmem, hlt⟩
      · exact h.later k r c hk (hf ▸ hbc)
      · rw [hf] at hbc
        cases hbc
        exact ⟨hmem, hlt⟩
    · exact h.later a b c hab hbc

/-- The last row comes after every other. -/
theorem idxOf_lt_last (h : Ordered link t (order ++ [k'])) (hk : k ∈ order) :
    (order ++ [k']).idxOf k < (order ++ [k']).idxOf k' := by
  have hnew : k' ∉ order := fun hmem =>
    (List.nodup_append.mp h.nodup).2.2 k' hmem k' (List.mem_singleton_self k') rfl
  rw [idxOf_append_of_mem hk, List.idxOf_append_of_notMem hnew, List.idxOf_cons_self, Nat.add_zero]
  exact List.idxOf_lt_length_of_mem hk

end Ordered

/-! ### Following links -/

/-- The row under `k` names `k'`. -/
def Successor (link : ρ → Option κ) (t : Table κ ρ) (k k' : κ) : Prop :=
  ∃ r, t[k]? = some r ∧ link r = some k'

theorem Ordered.wellFounded (h : Ordered link t order) :
    WellFounded fun k' k => Successor link t k k' := by
  refine Subrelation.wf ?_ (measure fun k => order.length - order.idxOf k).wf
  rintro k' k ⟨r, hr, hlink⟩
  obtain ⟨hmem, hlt⟩ := h.later k r k' hr hlink
  have hlen := List.idxOf_lt_length_of_mem hmem
  show order.length - order.idxOf k' < order.length - order.idxOf k
  omega

/-- From every row the links lead to one that names none. -/
theorem Ordered.exists_last (h : Ordered link t order) : ∀ (k : κ) (r : ρ), t[k]? = some r →
    ∃ k' r', Relation.ReflTransGen (Successor link t) k k' ∧ t[k']? = some r' ∧ link r' = none := by
  intro k
  induction k using h.wellFounded.induction with
  | _ k ih =>
    intro r hr
    cases hlink : link r with
    | none => exact ⟨k, r, .refl, hr, hlink⟩
    | some k₁ =>
      obtain ⟨r₁, hr₁⟩ := (h.mem k₁).mp (h.later k r k₁ hr hlink).1
      obtain ⟨k', r', hpath, hr', hlast⟩ := ih k₁ ⟨r, hr, hlink⟩ r₁ hr₁
      exact ⟨k', r', .head ⟨r, hr, hlink⟩ hpath, hr', hlast⟩

/-! ### Final statuses -/

/-- Rows stay, and one that is not `active` keeps its status. -/
def Settled (status : ρ → σ) (active : σ) (t u : Table κ ρ) : Prop :=
  ∀ (k : κ) (r : ρ), t[k]? = some r →
    ∃ r', u[k]? = some r' ∧ (status r ≠ active → status r' = status r)

namespace Settled

variable {status : ρ → σ} {active : σ}

theorem refl (t : Table κ ρ) : Settled status active t t := fun _ r hr => ⟨r, hr, fun _ => rfl⟩

theorem trans (h : Settled status active t u) (h' : Settled status active u v) :
    Settled status active t v := by
  intro k r hr
  obtain ⟨r₁, hr₁, hs₁⟩ := h k r hr
  obtain ⟨r₂, hr₂, hs₂⟩ := h' k r₁ hr₁
  refine ⟨r₂, hr₂, fun hne => ?_⟩
  rw [hs₂ (by rw [hs₁ hne]; exact hne), hs₁ hne]

theorem insert (hk : t[k]? = none) : Settled status active t (t.insert k r) := by
  intro a b hab
  have ha : a ≠ k := by
    rintro rfl
    rw [hk] at hab
    exact nomatch hab
  exact ⟨b, by rw [Table.get_insert, if_neg ha, hab], fun _ => rfl⟩

/-- Only an active row may change its status. -/
theorem modify {f : ρ → ρ} (hk : t[k]? = some r)
    (hf : status r = active ∨ status (f r) = status r) :
    Settled status active t (t.modify k f) := by
  intro a b hab
  by_cases ha : a = k
  · subst ha
    rw [hk] at hab
    cases hab
    refine ⟨f r, by rw [Table.get_modify, if_pos rfl, hk]; rfl, fun hne => ?_⟩
    exact hf.resolve_left hne
  · exact ⟨b, by rw [Table.get_modify, if_neg ha, hab], fun _ => rfl⟩

end Settled

end Succession
