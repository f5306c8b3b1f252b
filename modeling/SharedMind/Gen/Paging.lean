import Mathlib.Data.List.Nodup
import Mathlib.Data.List.Perm.Subperm
import Mathlib.Order.Lattice

/-!
# Reading a growing list page by page

A list in the order of its keys is read in pages, and between two pages it may grow.

* `rank`: how many keys come before a key; `rank_mono`: more when there are more keys.
* `page_or_later`: **what stands at or behind the offset is on the page, or stands at or behind
  the next offset, and then the page is not the last**.
-/

namespace Paging

variable {κ α : Type} [LinearOrder κ]

/-- How many of the keys come before `k`. -/
def rank (k : κ) (keys : List κ) : ℕ := keys.countP (· < k)

/-- More keys, and none of them twice, put a key further behind. -/
theorem rank_mono {keys keys' : List κ} (k : κ) (hnodup : keys.Nodup) (hsub : keys ⊆ keys') :
    rank k keys ≤ rank k keys' := by
  rw [rank, rank, List.countP_eq_length_filter, List.countP_eq_length_filter]
  refine (List.subperm_of_subset (hnodup.filter _) ?_).length_le
  intro a ha
  obtain ⟨hmem, hlt⟩ := List.mem_filter.mp ha
  exact List.mem_filter.mpr ⟨hsub hmem, hlt⟩

/-- The key stands behind just those that come before it. -/
theorem rank_append {before after : List κ} {k : κ}
    (h : (before ++ k :: after).Pairwise (· < ·)) :
    rank k (before ++ k :: after) = before.length := by
  obtain ⟨-, hafter, hbefore⟩ := List.pairwise_append.mp h
  have hall : before.countP (· < k) = before.length := by
    rw [List.countP_eq_length]
    intro a ha
    exact decide_eq_true (hbefore a ha k List.mem_cons_self)
  have hnone : (k :: after).countP (· < k) = 0 := by
    rw [List.countP_eq_zero]
    intro a ha hlt
    rcases List.mem_cons.mp ha with rfl | ha
    · exact lt_irrefl a (of_decide_eq_true hlt)
    · exact lt_asymm (of_decide_eq_true hlt) ((List.pairwise_cons.mp hafter).1 a ha)
  rw [rank, List.countP_append, hall, hnone]
  omega

/-- What stands at or behind the offset is on the page, or at or behind the next offset. -/
theorem page_or_later {l : List α} {key : α → κ} (h : (l.map key).Pairwise (· < ·)) {a : α}
    (ha : a ∈ l) {offset limit : ℕ} (hoffset : offset ≤ rank (key a) (l.map key)) :
    a ∈ (l.drop offset).take limit ∨
      (offset + limit ≤ rank (key a) (l.map key) ∧ offset + limit < l.length) := by
  obtain ⟨before, after, rfl⟩ := List.append_of_mem ha
  rw [List.map_append, List.map_cons] at h hoffset ⊢
  rw [rank_append h, List.length_map] at hoffset ⊢
  by_cases hlater : offset + limit ≤ before.length
  · right
    refine ⟨hlater, ?_⟩
    rw [List.length_append, List.length_cons]
    omega
  · left
    rw [List.drop_append_of_le_length hoffset, List.take_append, List.mem_append]
    right
    have hpos : 0 < limit - (before.drop offset).length := by
      rw [List.length_drop]
      omega
    obtain ⟨n, hn⟩ := Nat.exists_eq_succ_of_ne_zero (Nat.ne_of_gt hpos)
    rw [hn, List.take_succ_cons]
    exact List.mem_cons_self

end Paging
