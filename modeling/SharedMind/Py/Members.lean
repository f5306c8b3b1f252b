import SharedMind.Py.RawJson

/-!
# Dicts with the same members

* `JsonOf.obj_ext`: dicts listed by key are equal when every key has the same value.
* `JsonOf.insertMember_eq`: a member assigned to a dict, read off its members.
-/

namespace Py.JsonOf

theorem get?_eq_some {ms : List (String × Json)} (h : (ms.map Prod.fst).Pairwise (· < ·))
    {k : String} {v : Json} : (obj ms).get? k = some v ↔ (k, v) ∈ ms := by
  refine ⟨mem_of_get?, fun hmem => ?_⟩
  induction ms with
  | nil => exact absurd hmem List.not_mem_nil
  | cons m ms ih =>
    rw [List.map_cons, List.pairwise_cons] at h
    obtain ⟨hm, hms⟩ := h
    rw [get?_obj_cons fun n hn => (hm n.1 (List.mem_map_of_mem hn)).ne']
    obtain heq | hmem := List.mem_cons.mp hmem
    · rw [← heq, if_pos rfl]
    · rw [if_neg (hm k (List.mem_map_of_mem hmem)).ne]
      exact ih hms hmem

/-- Dicts listed by key are equal when every key has the same value. -/
theorem obj_ext {ms ns : List (String × Json)} (hms : (ms.map Prod.fst).Pairwise (· < ·))
    (hns : (ns.map Prod.fst).Pairwise (· < ·)) (h : ∀ k, (obj ms).get? k = (obj ns).get? k) :
    ms = ns := by
  have hms' := List.pairwise_map.mp hms
  have hns' := List.pairwise_map.mp hns
  have hnodup {ls : List (String × Json)} (hls : ls.Pairwise fun a b => a.1 < b.1) : ls.Nodup :=
    hls.imp fun hlt heq => hlt.ne (congrArg Prod.fst heq)
  have hperm : ms.Perm ns := by
    refine (List.perm_ext_iff_of_nodup (hnodup hms') (hnodup hns')).mpr fun m => ?_
    obtain ⟨k, v⟩ := m
    rw [← get?_eq_some hms, ← get?_eq_some hns, h]
  exact hperm.eq_of_pairwise (fun a b _ _ hab hba => absurd hab (lt_asymm hba)) hms' hns'

end Py.JsonOf
