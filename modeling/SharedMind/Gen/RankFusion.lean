import Mathlib.Algebra.BigOperators.Group.List.Lemmas
import Mathlib.Data.List.Sort
import Mathlib.Data.Prod.Lex
import Mathlib.Data.Rat.Lemmas
import Mathlib.Tactic

/-!
# Fusing rankings by reciprocal ranks

Several rankings of one kind of item are merged by the sum of `1 / (k + rank)`.

* `mem_take_iff`: an element of a sorted list is among its first `n` when fewer than `n` stand
  before it.
* `addScore`, `fuse`: the scores are summed in a dict, then sorted.
* `everyScore`: each occurrence counts; `firstScore`: the first one does.
* `ranked`: the items in order of a score; `map_fst_fuse`: **the fusion ranks by `everyScore`.**
-/

namespace RankFusion

/-! ### The first elements of a sorted list -/

section

variable {α : Type} {r : α → α → Prop} [DecidableRel r] {l : List α} {x : α}

/-- How many elements of the list stand before `x`. -/
def ahead (r : α → α → Prop) [DecidableRel r] (l : List α) (x : α) : ℕ :=
  l.countP fun y => r y x

theorem ahead_cons_of_pos {a : α} (h : r a x) (l : List α) :
    ahead r (a :: l) x = ahead r l x + 1 := List.countP_cons_of_pos (decide_eq_true h)

theorem mem_take_iff (hasymm : ∀ a b, r a b → ¬r b a) (h : l.Pairwise r) (n : ℕ) :
    x ∈ l.take n ↔ x ∈ l ∧ ahead r l x < n := by
  induction l generalizing n with
  | nil => simp only [List.take_nil, List.not_mem_nil, false_and]
  | cons a l ih =>
    obtain ⟨hfirst, hrest⟩ := List.pairwise_cons.mp h
    cases n with
    | zero => exact iff_of_false List.not_mem_nil fun h => Nat.not_lt_zero _ h.2
    | succ n =>
      rw [List.take_succ_cons, List.mem_cons, List.mem_cons, ih hrest n]
      by_cases hx : x ∈ l
      · rw [ahead_cons_of_pos (hfirst x hx), and_iff_right hx, and_iff_right (Or.inr hx), Nat.add_lt_add_iff_right]
        refine or_iff_right_of_imp ?_
        rintro rfl
        exact absurd (hfirst x hx) (hasymm x x (hfirst x hx))
      · rw [or_iff_left hx, or_iff_left fun h => hx h.1]
        refine (and_iff_left_of_imp ?_).symm
        rintro rfl
        have hnone : ahead r (x :: l) x = 0 := by
          refine List.countP_eq_zero.mpr fun y hy hyx => ?_
          rw [decide_eq_true_iff] at hyx
          rcases List.mem_cons.mp hy with rfl | hy
          · exact hasymm y y hyx hyx
          · exact hasymm x y (hfirst y hy) hyx
        rw [hnone]
        exact Nat.succ_pos n

/-- Two lists sorted in one order are equal when they have the same elements. -/
theorem eq_of_pairwise {s : α → α → Prop} {as bs : List α} (hasymm : ∀ a b, s a b → ¬s b a)
    (ha : as.Pairwise s) (hb : bs.Pairwise s) (h : ∀ x, x ∈ as ↔ x ∈ bs) : as = bs := by
  have hne : ∀ a b, s a b → a ≠ b := by
    rintro a _ hab rfl
    exact hasymm a a hab hab
  have hperm : as.Perm bs :=
    (List.perm_ext_iff_of_nodup (ha.imp (hne _ _)) (hb.imp (hne _ _))).mpr h
  exact hperm.eq_of_pairwise (fun a b _ _ hab hba => absurd hba (hasymm a b hab)) ha hb

omit [DecidableRel r] in
/-- A list sorted in two orders has no two elements on which these differ. -/
theorem agree_of_pairwise {s : α → α → Prop} (hasymm : ∀ a b, s a b → ¬s b a)
    (hr : l.Pairwise r) (hs : l.Pairwise s) {a b : α} (ha : a ∈ l) (hb : b ∈ l) (hab : s a b) :
    r a b := by
  have hboth := List.Pairwise.forall_of_forall_of_flip
    (R := fun x y => x = y ∨ (r x y ∧ s x y) ∨ (r y x ∧ s y x)) (fun x _ => Or.inl rfl)
    ((hr.and hs).imp fun h => Or.inr (Or.inl h)) ((hr.and hs).imp fun h => Or.inr (Or.inr h))
  rcases hboth ha hb with rfl | h | h
  · exact absurd hab (hasymm a a hab)
  · exact h.1
  · exact absurd hab (hasymm b a h.2)

/-- **The first elements in two orders.**  What `p` holds of among the first `m` of `as` is the
first `n` of `bs` when the same elements of `as` and `bs` get there, in the same order. -/
theorem filter_take_eq_iff {s : α → α → Prop} [DecidableRel s] {as bs : List α} {p : α → Prop}
    [DecidablePred p] (hr : ∀ a b, r a b → ¬r b a) (hs : ∀ a b, s a b → ¬s b a)
    (has : as.Pairwise r) (hbs : bs.Pairwise s) (hmem : ∀ x, x ∈ bs ↔ x ∈ as ∧ p x) (m n : ℕ) :
    (as.take m).filter p = bs.take n ↔
      (∀ x ∈ bs, ahead r as x < m ↔ ahead s bs x < n) ∧
      ∀ x ∈ bs, ∀ y ∈ bs, ahead s bs x < n → ahead s bs y < n → s x y → r x y := by
  have hleft : ∀ x, x ∈ (as.take m).filter p ↔ x ∈ bs ∧ ahead r as x < m := by
    intro x
    rw [List.mem_filter, mem_take_iff hr has, decide_eq_true_iff, hmem]
    exact and_right_comm
  have hright : ∀ x, x ∈ bs.take n ↔ x ∈ bs ∧ ahead s bs x < n := fun x => mem_take_iff hs hbs n
  have hsorted : ((as.take m).filter p).Pairwise r :=
    (has.sublist (List.take_sublist _ _)).sublist List.filter_sublist
  have hsorted' : (bs.take n).Pairwise s := hbs.sublist (List.take_sublist _ _)
  constructor
  · intro heq
    refine ⟨fun x hx => ?_, fun x hx y hy hxn hyn hxy => ?_⟩
    · have h := hright x
      rw [← heq, hleft, and_iff_right hx, and_iff_right hx] at h
      exact h
    · rw [heq] at hsorted
      exact agree_of_pairwise hs hsorted hsorted' ((hright x).mpr ⟨hx, hxn⟩)
        ((hright y).mpr ⟨hy, hyn⟩) hxy
  · intro h
    refine eq_of_pairwise hr hsorted (hsorted'.imp_of_mem fun hx hy hxy => ?_) fun x => ?_
    · obtain ⟨hx, hxn⟩ := (hright _).mp hx
      obtain ⟨hy, hyn⟩ := (hright _).mp hy
      exact h.2 _ hx _ hy hxn hyn hxy
    · rw [hleft, hright]
      exact and_congr_right (h.1 x)

end

/-! ### Scores -/

section

variable {ι : Type} [DecidableEq ι]

/-- What an item gets for a rank. -/
def reciprocal (k rank : ℕ) : ℚ := 1 / (k + rank)

/-- Each item with what it gets for each of its ranks, the first being 1. -/
def ballot (k : ℕ) (ranking : List ι) : List (ι × ℚ) :=
  (ranking.zipIdx 1).map fun entry => (entry.1, reciprocal k entry.2)

/-- What an item gets by a list of scores. -/
def total (scores : List (ι × ℚ)) (d : ι) : ℚ :=
  ((scores.filter fun entry => entry.1 = d).map Prod.snd).sum

/-- `scores[d] += x`. -/
def addScore (scores : List (ι × ℚ)) (entry : ι × ℚ) : List (ι × ℚ) :=
  if entry.1 ∈ scores.map Prod.fst then
    scores.map fun old => if old.1 = entry.1 then (old.1, old.2 + entry.2) else old
  else scores ++ [entry]

/-- Each occurrence counts. -/
def everyScore (k : ℕ) (rankings : List (List ι)) (d : ι) : ℚ :=
  total (rankings.flatMap (ballot k)) d

/-- The first occurrence in each ranking counts. -/
def firstScore (k : ℕ) (rankings : List (List ι)) (d : ι) : ℚ :=
  (rankings.map fun ranking =>
    if d ∈ ranking then reciprocal k (ranking.idxOf d + 1) else 0).sum

theorem total_nil (d : ι) : total ([] : List (ι × ℚ)) d = 0 := rfl

theorem total_append (scores new : List (ι × ℚ)) (d : ι) :
    total (scores ++ new) d = total scores d + total new d := by
  rw [total, List.filter_append, List.map_append, List.sum_append]
  rfl

theorem total_singleton (entry : ι × ℚ) (d : ι) :
    total [entry] d = if entry.1 = d then entry.2 else 0 := by
  by_cases h : entry.1 = d
  · simp [total, h]
  · simp [total, h]

theorem total_of_not_mem {scores : List (ι × ℚ)} {d : ι} (h : d ∉ scores.map Prod.fst) :
    total scores d = 0 := by
  have hnone : (scores.filter fun entry => entry.1 = d) = [] := by
    refine List.filter_eq_nil_iff.mpr fun entry hentry heq => h ?_
    exact List.mem_map.mpr ⟨entry, hentry, of_decide_eq_true heq⟩
  rw [total, hnone]
  rfl

omit [DecidableEq ι] in
theorem map_fst_ballot (k : ℕ) (ranking : List ι) : (ballot k ranking).map Prod.fst = ranking := by
  rw [ballot, List.map_map]
  exact List.zipIdx_map_fst 1 ranking

omit [DecidableEq ι] in
theorem map_fst_ballots (k : ℕ) (rankings : List (List ι)) :
    (rankings.flatMap (ballot k)).map Prod.fst = rankings.flatten := by
  induction rankings with
  | nil => rfl
  | cons ranking rankings ih =>
    rw [List.flatMap_cons, List.map_append, map_fst_ballot, ih, List.flatten_cons]

/-- A ranking that names no item twice gives each what its first occurrence gives. -/
theorem total_zipIdx (k : ℕ) {ranking : List ι} (h : ranking.Nodup) (n : ℕ) (d : ι) :
    total ((ranking.zipIdx n).map fun entry => (entry.1, reciprocal k entry.2)) d =
      if d ∈ ranking then reciprocal k (ranking.idxOf d + n) else 0 := by
  induction ranking generalizing n with
  | nil => rfl
  | cons a ranking ih =>
    obtain ⟨ha, hrest⟩ := List.nodup_cons.mp h
    have hcons : total (((a :: ranking).zipIdx n).map fun entry => (entry.1, reciprocal k entry.2))
        d = total [(a, reciprocal k n)] d + total ((ranking.zipIdx (n + 1)).map fun entry =>
          (entry.1, reciprocal k entry.2)) d := by
      rw [← total_append]
      rfl
    rw [hcons, ih hrest (n + 1), total_singleton]
    by_cases hd : a = d
    · subst hd
      rw [if_pos rfl, if_neg ha, if_pos List.mem_cons_self, List.idxOf_cons_self, zero_add,
        add_zero]
    · have hmem : d ∈ a :: ranking ↔ d ∈ ranking :=
        List.mem_cons.trans (or_iff_right (Ne.symm hd))
      rw [if_neg hd, zero_add, List.idxOf_cons_ne _ hd, Nat.succ_add_eq_add_succ]
      simp only [hmem]

theorem everyScore_eq_firstScore (k : ℕ) {rankings : List (List ι)}
    (h : ∀ ranking ∈ rankings, ranking.Nodup) : everyScore k rankings = firstScore k rankings := by
  funext d
  rw [everyScore, firstScore]
  induction rankings with
  | nil => rfl
  | cons ranking rankings ih =>
    rw [List.flatMap_cons, total_append, List.map_cons, List.sum_cons, ballot,
      total_zipIdx k (h ranking List.mem_cons_self) 1 d,
      ih fun other hother => h other (List.mem_cons_of_mem _ hother)]

/-- `dict` holds the sums of `scores`, each item once. -/
def Sums (scores dict : List (ι × ℚ)) : Prop :=
  (dict.map Prod.fst).Nodup ∧
    ∀ d x, (d, x) ∈ dict ↔ d ∈ scores.map Prod.fst ∧ x = total scores d

theorem Sums.mem_fst {scores dict : List (ι × ℚ)} (h : Sums scores dict) (d : ι) :
    d ∈ dict.map Prod.fst ↔ d ∈ scores.map Prod.fst := by
  constructor
  · intro hd
    obtain ⟨⟨_, x⟩, hmem, rfl⟩ := List.mem_map.mp hd
    exact ((h.2 _ x).mp hmem).1
  · intro hd
    exact List.mem_map.mpr ⟨(d, total scores d), (h.2 d _).mpr ⟨hd, rfl⟩, rfl⟩

/-- **One more score.** -/
theorem Sums.addScore {scores dict : List (ι × ℚ)} (h : Sums scores dict) (entry : ι × ℚ) :
    Sums (scores ++ [entry]) (addScore dict entry) := by
  have hfst : ∀ d, d ∈ (scores ++ [entry]).map Prod.fst ↔
      d ∈ scores.map Prod.fst ∨ d = entry.1 := by
    intro d
    rw [List.map_append, List.mem_append, List.map_singleton, List.mem_singleton]
  by_cases hold : entry.1 ∈ dict.map Prod.fst
  · rw [RankFusion.addScore, if_pos hold]
    have hkeys : (dict.map fun old : ι × ℚ =>
        if old.1 = entry.1 then (old.1, old.2 + entry.2) else old).map Prod.fst =
          dict.map Prod.fst := by
      rw [List.map_map]
      refine List.map_congr_left fun old _ => ?_
      rw [Function.comp]
      split <;> rfl
    refine ⟨hkeys ▸ h.1, fun d x => ?_⟩
    rw [List.mem_map, hfst, total_append, total_singleton]
    have hentry : entry.1 ∈ scores.map Prod.fst := (h.mem_fst _).mp hold
    constructor
    · rintro ⟨⟨c, y⟩, hmem, heq⟩
      obtain ⟨hc, rfl⟩ := (h.2 c y).mp hmem
      by_cases hce : c = entry.1
      · rw [if_pos hce] at heq
        obtain ⟨rfl, rfl⟩ := Prod.mk.inj heq
        exact ⟨Or.inl hc, by rw [if_pos hce.symm]⟩
      · rw [if_neg hce] at heq
        obtain ⟨rfl, rfl⟩ := Prod.mk.inj heq
        exact ⟨Or.inl hc, by rw [if_neg (Ne.symm hce), add_zero]⟩
    · rintro ⟨hd, rfl⟩
      have hd' : d ∈ scores.map Prod.fst := hd.elim id fun he => he ▸ hentry
      refine ⟨(d, total scores d), (h.2 d _).mpr ⟨hd', rfl⟩, ?_⟩
      by_cases hde : d = entry.1
      · rw [if_pos hde, if_pos hde.symm]
      · rw [if_neg hde, if_neg (Ne.symm hde), add_zero]
  · rw [RankFusion.addScore, if_neg hold]
    have hentry : entry.1 ∉ scores.map Prod.fst := fun hd => hold ((h.mem_fst _).mpr hd)
    refine ⟨?_, fun d x => ?_⟩
    · rw [List.map_append, List.map_singleton]
      refine List.nodup_append.mpr ⟨h.1, List.nodup_singleton _, fun c hc b hb hcb => ?_⟩
      rw [List.mem_singleton.mp hb] at hcb
      exact hold (hcb ▸ hc)
    · rw [List.mem_append, List.mem_singleton, hfst, total_append, total_singleton, h.2]
      constructor
      · rintro (⟨hd, rfl⟩ | rfl)
        · refine ⟨Or.inl hd, ?_⟩
          rw [if_neg fun he : entry.1 = d => hentry (he ▸ hd), add_zero]
        · refine ⟨Or.inr rfl, ?_⟩
          rw [if_pos rfl, total_of_not_mem hentry, zero_add]
      · rintro ⟨hd, rfl⟩
        by_cases hde : d = entry.1
        · subst hde
          refine Or.inr (Prod.ext rfl ?_)
          rw [if_pos rfl, total_of_not_mem hentry, zero_add]
        · refine Or.inl ⟨hd.resolve_right hde, ?_⟩
          rw [if_neg (Ne.symm hde), add_zero]

theorem sums_foldl (new : List (ι × ℚ)) {scores dict : List (ι × ℚ)} (h : Sums scores dict) :
    Sums (scores ++ new) (new.foldl addScore dict) := by
  induction new generalizing scores dict with
  | nil => rwa [List.append_nil]
  | cons entry new ih =>
    rw [List.append_cons]
    exact ih (h.addScore entry)

end

/-! ### Rankings -/

section

variable {ι : Type} [LinearOrder ι]

/-- The better score stands before, and of two that are equal the smaller item. -/
def Before (score : ι → ℚ) (d e : ι) : Prop :=
  (toLex (-score d, d) : ℚ ×ₗ ι) < toLex (-score e, e)

instance (score : ι → ℚ) : DecidableRel (Before score) :=
  fun _ _ => inferInstanceAs (Decidable (_ < _))

theorem before_asymm (score : ι → ℚ) (d e : ι) (h : Before score d e) : ¬Before score e d :=
  lt_asymm h

theorem ahead_self (score : ι → ℚ) (d : ι) : ahead (Before score) [d] d = 0 := by
  refine List.countP_eq_zero.mpr fun e he h => ?_
  obtain rfl := List.mem_singleton.mp he
  exact lt_irrefl _ (of_decide_eq_true h)

/-- The items, the best score first. -/
def ranked (score : ι → ℚ) (items : List ι) : List ι :=
  items.dedup.insertionSort fun d e =>
    (toLex (-score d, d) : ℚ ×ₗ ι) ≤ toLex (-score e, e)

theorem mem_ranked {score : ι → ℚ} {items : List ι} {d : ι} :
    d ∈ ranked score items ↔ d ∈ items := by
  rw [ranked, List.mem_insertionSort, List.mem_dedup]

theorem ranked_sorted (score : ι → ℚ) (items : List ι) :
    (ranked score items).Pairwise (Before score) := by
  have hle := List.pairwise_insertionSort
    (fun d e : ι => (toLex (-score d, d) : ℚ ×ₗ ι) ≤ toLex (-score e, e)) items.dedup
  have hne : (ranked score items).Nodup :=
    (List.perm_insertionSort _ _).nodup_iff.mpr (List.nodup_dedup items)
  refine (hle.and hne).imp fun h => lt_of_le_of_ne h.1 fun heq => h.2 ?_
  exact congrArg (fun key : ℚ ×ₗ ι => (ofLex key).2) heq

/-- The sums of the rankings' scores, sorted. -/
def fuse (k : ℕ) (rankings : List (List ι)) : List (ι × ℚ) :=
  ((rankings.flatMap (ballot k)).foldl addScore []).insertionSort fun d e =>
    (toLex (-d.2, d.1) : ℚ ×ₗ ι) ≤ toLex (-e.2, e.1)

/-- **The fusion ranks the items by all their occurrences.** -/
theorem map_fst_fuse (k : ℕ) (rankings : List (List ι)) :
    (fuse k rankings).map Prod.fst = ranked (everyScore k rankings) rankings.flatten := by
  have hsums : Sums (rankings.flatMap (ballot k))
      ((rankings.flatMap (ballot k)).foldl addScore []) := by
    have hempty : Sums ([] : List (ι × ℚ)) [] :=
      ⟨List.nodup_nil, fun _ _ => iff_of_false List.not_mem_nil fun h => List.not_mem_nil h.1⟩
    exact sums_foldl _ hempty
  have hperm := List.perm_insertionSort
    (fun d e : ι × ℚ => (toLex (-d.2, d.1) : ℚ ×ₗ ι) ≤ toLex (-e.2, e.1))
    ((rankings.flatMap (ballot k)).foldl addScore [])
  have hmem : ∀ entry ∈ fuse k rankings, entry.2 = everyScore k rankings entry.1 :=
    fun entry hentry => ((hsums.2 entry.1 entry.2).mp (hperm.mem_iff.mp hentry)).2
  have hnodup : ((fuse k rankings).map Prod.fst).Nodup :=
    (hperm.map Prod.fst).nodup_iff.mpr hsums.1
  have hsorted : (fuse k rankings).Pairwise fun d e =>
      (toLex (-d.2, d.1) : ℚ ×ₗ ι) ≤ toLex (-e.2, e.1) := List.pairwise_insertionSort _ _
  refine eq_of_pairwise (before_asymm _) ?_ (ranked_sorted _ _) fun d => ?_
  · refine List.pairwise_map.mpr ?_
    refine ((hsorted.and (List.pairwise_map.mp hnodup)).imp_of_mem fun hd he h => ?_)
    rw [hmem _ hd, hmem _ he] at h
    refine lt_of_le_of_ne h.1 fun heq => h.2 ?_
    exact congrArg (fun key : ℚ ×ₗ ι => (ofLex key).2) heq
  · rw [mem_ranked, ← map_fst_ballots k rankings, ← hsums.mem_fst]
    exact (hperm.map Prod.fst).mem_iff

end

end RankFusion
