import SharedMind.Py.Store

/-!
# Versioned records and their log

A table of rows that are inserted with version 1 and change by one version at a time,
beside a log of the documents they were inserted with and of their changes.

* `Spec`: what a row must satisfy, and when it is a later state of a document.
* `Logged`: the log tells each row's version, and what it was inserted with.
* `Logged.insert`, `Logged.modify`: the two writes keep it.
-/

namespace RecordLog

open Py

/-- What is asked of the rows under keys `κ`: `stamp` is how the log writes a version. -/
structure Spec (κ ρ δ ν : Type) where
  version : ρ → ℕ
  stamp : ℕ → ν
  sound : κ → ρ → Prop
  agrees : δ → ρ → Prop

variable {κ ρ δ ν : Type} (S : Spec κ ρ δ ν)

/-- The changes that lead from version 1 to version `v`. -/
def Spec.steps (v : ℕ) : List (ν × ν) :=
  (List.range' 1 (v - 1)).map fun n => (S.stamp n, S.stamp (n + 1))

@[simp] theorem Spec.steps_one : S.steps 1 = [] := rfl

@[simp] theorem Spec.length_steps (v : ℕ) : (S.steps v).length = v - 1 := by simp [steps]

theorem Spec.steps_succ {v : ℕ} (hv : 1 ≤ v) :
    S.steps (v + 1) = S.steps v ++ [(S.stamp v, S.stamp (v + 1))] := by
  obtain ⟨n, rfl⟩ := Nat.exists_eq_add_of_le' hv
  simp only [steps, Nat.add_sub_cancel, List.range'_concat, List.map_append, List.map_cons,
    List.map_nil, Nat.one_mul, Nat.add_comm 1 n]

/-- No two steps lead to the same version. -/
theorem Spec.nodup_steps (h : Function.Injective S.stamp) (v : ℕ) :
    ((S.steps v).map Prod.snd).Nodup := by
  rw [steps, List.map_map]
  apply List.Nodup.map ?_ List.nodup_range'
  intro m n heq
  have hstamp : S.stamp (m + 1) = S.stamp (n + 1) := heq
  have hsucc := h hstamp
  omega

variable [LinearOrder κ]

/-- Every row is sound, is a later state of what the log says was inserted, and has the
version the log leads to; and what the log says was inserted is there. -/
structure Logged (t : Table κ ρ) (news : List (κ × δ)) (changes : κ → List (ν × ν)) : Prop where
  sound : ∀ (k : κ) (r : ρ), t[k]? = some r → S.sound k r
  positive : ∀ (k : κ) (r : ρ), t[k]? = some r → 1 ≤ S.version r
  versions : ∀ (k : κ) (r : ρ), t[k]? = some r → changes k = S.steps (S.version r)
  untouched : ∀ k : κ, t[k]? = none → changes k = []
  inserted : ∀ (k : κ) (r : ρ), t[k]? = some r → ∃ d, (k, d) ∈ news
  stored : ∀ (k : κ) (d : δ), (k, d) ∈ news → ∃ r, t[k]? = some r ∧ S.agrees d r

namespace Logged

variable {S} {t : Table κ ρ} {news : List (κ × δ)} {changes : κ → List (ν × ν)} {k : κ} {r : ρ}

theorem empty : Logged S ∅ [] fun _ => [] where
  sound k r h := by simp at h
  positive k r h := by simp at h
  versions k r h := by simp at h
  untouched _ _ := rfl
  inserted k r h := by simp at h
  stored k d h := absurd h List.not_mem_nil

/-- A new row of version 1. -/
theorem insert (h : Logged S t news changes) {d : δ} (hk : t[k]? = none) (hsound : S.sound k r)
    (hversion : S.version r = 1) (hagrees : S.agrees d r) :
    Logged S (t.insert k r) (news ++ [(k, d)]) changes := by
  have hget : ∀ a : κ, (t.insert k r)[a]? = if a = k then some r else t[a]? := fun a =>
    Table.get_insert t k a r
  refine ⟨?_, ?_, ?_, ?_, ?_, ?_⟩
  · intro a b hab
    rw [hget] at hab
    split at hab
    · next ha => cases hab; exact ha ▸ hsound
    · exact h.sound a b hab
  · intro a b hab
    rw [hget] at hab
    split at hab
    · cases hab; exact hversion.ge
    · exact h.positive a b hab
  · intro a b hab
    rw [hget] at hab
    split at hab
    · next ha => cases hab; rw [hversion, Spec.steps_one, ha]; exact h.untouched k hk
    · exact h.versions a b hab
  · intro a ha
    rw [hget] at ha
    split at ha
    · exact nomatch ha
    · exact h.untouched a ha
  · intro a b hab
    rw [hget] at hab
    split at hab
    · next ha => exact ⟨d, List.mem_append_right _ (List.mem_singleton.mpr (by rw [ha]))⟩
    · obtain ⟨d', hd'⟩ := h.inserted a b hab
      exact ⟨d', List.mem_append_left _ hd'⟩
  · intro a d' hmem
    rw [hget]
    rcases List.mem_append.mp hmem with hmem | hmem
    · obtain ⟨b, hb, hagree⟩ := h.stored a d' hmem
      have ha : a ≠ k := by
        rintro rfl
        rw [hk] at hb
        exact nomatch hb
      exact ⟨b, by rw [if_neg ha, hb], hagree⟩
    · cases List.mem_singleton.mp hmem
      exact ⟨r, if_pos rfl, hagrees⟩

/-- A row that changes by one version. -/
theorem modify (h : Logged S t news changes) {f : ρ → ρ} {changes' : κ → List (ν × ν)}
    (hk : t[k]? = some r) (hsound : S.sound k r → S.sound k (f r))
    (hversion : S.version (f r) = S.version r + 1) (hagrees : ∀ d, S.agrees d r → S.agrees d (f r))
    (hchanges : ∀ a, changes' a = changes a ++
      if a = k then [(S.stamp (S.version r), S.stamp (S.version r + 1))] else []) :
    Logged S (t.modify k f) news changes' := by
  have hget : ∀ a : κ, (t.modify k f)[a]? = if a = k then some (f r) else t[a]? := by
    intro a
    rw [Table.get_modify]
    split
    · next ha => rw [ha, hk]; rfl
    · rfl
  refine ⟨?_, ?_, ?_, ?_, ?_, ?_⟩
  · intro a b hab
    rw [hget] at hab
    split at hab
    · next ha => cases hab; exact ha ▸ hsound (h.sound k r hk)
    · exact h.sound a b hab
  · intro a b hab
    rw [hget] at hab
    split at hab
    · cases hab; rw [hversion]; exact Nat.le_add_left 1 _
    · exact h.positive a b hab
  · intro a b hab
    rw [hget] at hab
    rw [hchanges]
    split at hab
    · next ha =>
      cases hab
      rw [if_pos ha, hversion, Spec.steps_succ S (h.positive k r hk), ha, h.versions k r hk]
    · next ha => rw [if_neg ha, List.append_nil]; exact h.versions a b hab
  · intro a ha
    rw [hget] at ha
    split at ha
    · exact nomatch ha
    · next hne => rw [hchanges, if_neg hne, List.append_nil]; exact h.untouched a ha
  · intro a b hab
    rw [hget] at hab
    split at hab
    · next ha => rw [ha]; exact h.inserted k r hk
    · exact h.inserted a b hab
  · intro a d hmem
    obtain ⟨b, hb, hagree⟩ := h.stored a d hmem
    rw [hget]
    split
    · next ha =>
      subst ha
      rw [hk] at hb
      cases hb
      exact ⟨f r, rfl, hagrees d hagree⟩
    · exact ⟨b, hb, hagree⟩

/-- What a row was inserted with. -/
theorem born (h : Logged S t news changes) (hk : t[k]? = some r) :
    ∃ d, (k, d) ∈ news ∧ S.agrees d r := by
  obtain ⟨d, hd⟩ := h.inserted k r hk
  obtain ⟨b, hb, hagree⟩ := h.stored k d hd
  rw [hk] at hb
  cases hb
  exact ⟨d, hd, hagree⟩

end Logged

end RecordLog
