import Mathlib.Data.List.Basic
import Mathlib.Tactic

/-!
# Blocks of lines

Some lines of a text have a mark.  A mark opens a block, or closes the one that is open.

* `Opens`, `InBlock`: which lines open a block and which stand in one, by the lines before.
* `scan`: one pass, which knows the mark of the open block.
* `scan_eq_outside`: **the pass keeps what stands outside of the blocks**.
* `scan_congr`: the pass depends on the marks and on what the other lines yield.
-/

namespace Blocks

section

variable {Line Mark : Type} (mark : Line → Option Mark) (closes : Mark → Mark → Prop)

/-! ### Lines in blocks -/

/-- The mark on line `i`. -/
def markAt (lines : List Line) (i : ℕ) : Option Mark := lines[i]?.bind mark

/-- The mark on line `k` closes what the mark on line `j` opens. -/
def Closes (lines : List Line) (j k : ℕ) : Prop :=
  ∃ m n, markAt mark lines j = some m ∧ markAt mark lines k = some n ∧ closes m n

/-- Line `j` opens a block: it has a mark, and what opened before it was closed before it. -/
def Opens (lines : List Line) (j : ℕ) : Prop :=
  (∃ m, markAt mark lines j = some m) ∧
    ∀ i, i < j → Opens lines i → ∃ k, i < k ∧ k < j ∧ Closes mark closes lines i k
termination_by j

/-- Line `i` stands in a block.  The lines that open and close a block stand in it. -/
def InBlock (lines : List Line) (i : ℕ) : Prop :=
  ∃ j ≤ i, Opens mark closes lines j ∧ ∀ k, j < k → k < i → ¬Closes mark closes lines j k

/-- The block of line `j` is open before line `i`. -/
def OpenAt (lines : List Line) (i j : ℕ) : Prop :=
  j < i ∧ Opens mark closes lines j ∧ ∀ k, j < k → k < i → ¬Closes mark closes lines j k

/-! ### One pass -/

/-- The mark of the open block after a line. -/
def next [DecidableRel closes] (block : Option Mark) (l : Line) : Option Mark :=
  match mark l, block with
  | none, _ => block
  | some m, none => some m
  | some m, some b => if closes b m then none else some b

/-- What the lines without a mark yield while no block is open. -/
def scan {β : Type} [DecidableRel closes] (emit : Line → Option β) (block : Option Mark) :
    List Line → List β
  | [] => []
  | l :: ls => (if mark l = none ∧ block = none then (emit l).toList else []) ++
      scan emit (next mark closes block l) ls

open Classical in
/-- What the lines outside of the blocks yield, in order. -/
noncomputable def outside {β : Type} (emit : Line → Option β) (lines : List Line) : List β :=
  (List.range lines.length).filterMap fun i =>
    if InBlock mark closes lines i then none else lines[i]?.bind emit

end

section

variable {Line Mark β : Type} {mark : Line → Option Mark} {closes : Mark → Mark → Prop}
  {lines : List Line} {i j : ℕ}

theorem opens_iff : Opens mark closes lines i ↔
    (∃ m, markAt mark lines i = some m) ∧ ∀ j, ¬OpenAt mark closes lines i j := by
  rw [Opens]
  refine and_congr_right fun _ => ⟨fun h j ⟨hj, hopens, hclosed⟩ => ?_, fun h j hj hopens => ?_⟩
  · obtain ⟨k, hjk, hki, hk⟩ := h j hj hopens
    exact hclosed k hjk hki hk
  · by_contra hnot
    push Not at hnot
    exact h j ⟨hj, hopens, hnot⟩

theorem openAt_succ : OpenAt mark closes lines (i + 1) j ↔
    OpenAt mark closes lines i j ∧ ¬Closes mark closes lines j i ∨
      j = i ∧ Opens mark closes lines i := by
  constructor
  · rintro ⟨hj, hopens, hclosed⟩
    rcases (Nat.lt_succ_iff_lt_or_eq.mp hj) with hlt | rfl
    · exact Or.inl ⟨⟨hlt, hopens, fun k hjk hki => hclosed k hjk (hki.trans (Nat.lt_succ_self i))⟩,
        hclosed i hlt (Nat.lt_succ_self i)⟩
    · exact Or.inr ⟨rfl, hopens⟩
  · rintro (⟨⟨hj, hopens, hclosed⟩, hi⟩ | ⟨rfl, hopens⟩)
    · refine ⟨hj.trans (Nat.lt_succ_self i), hopens, fun k hjk hki => ?_⟩
      rcases (Nat.lt_succ_iff_lt_or_eq.mp hki) with hlt | rfl
      · exact hclosed k hjk hlt
      · exact hi
    · exact ⟨Nat.lt_succ_self j, hopens, fun k hjk hki => absurd hjk (by omega)⟩

/-- A line is in a block when one is open before it, or it has a mark. -/
theorem inBlock_iff : InBlock mark closes lines i ↔
    (∃ j, OpenAt mark closes lines i j) ∨ ∃ m, markAt mark lines i = some m := by
  constructor
  · rintro ⟨j, hj, hopens, hclosed⟩
    rcases hj.lt_or_eq with hlt | rfl
    · exact Or.inl ⟨j, hlt, hopens, hclosed⟩
    · exact Or.inr (opens_iff.mp hopens).1
  · rintro (⟨j, hj, hopens, hclosed⟩ | hmark)
    · exact ⟨j, hj.le, hopens, hclosed⟩
    · by_cases hopen : ∃ j, OpenAt mark closes lines i j
      · obtain ⟨j, hj, hopens, hclosed⟩ := hopen
        exact ⟨j, hj.le, hopens, hclosed⟩
      · push Not at hopen
        exact ⟨i, le_rfl, opens_iff.mpr ⟨hmark, hopen⟩, fun k hik hki => absurd hik (by omega)⟩

variable [DecidableRel closes]

/-- The pass knows the mark of the block that is open. -/
theorem foldl_next_iff {m : Mark} : (lines.take i).foldl (next mark closes) none = some m ↔
    ∃ j, OpenAt mark closes lines i j ∧ markAt mark lines j = some m := by
  induction i generalizing m with
  | zero => simp [OpenAt]
  | succ i ih =>
    by_cases hi : i < lines.length
    · have hmarkAt : markAt mark lines i = mark lines[i] := by simp [markAt, hi]
      rw [List.take_add_one, List.getElem?_eq_getElem hi, Option.toList_some, List.foldl_append,
        List.foldl_cons, List.foldl_nil]
      cases hblock : (lines.take i).foldl (next mark closes) none with
      | none =>
        have hnone : ∀ j, ¬OpenAt mark closes lines i j := by
          intro j hj
          obtain ⟨m, hm⟩ := (opens_iff.mp hj.2.1).1
          have h := ih.mpr ⟨j, hj, hm⟩
          rw [hblock] at h
          exact nomatch h
        cases hmark : mark lines[i] with
        | none => simp [next, hmark, openAt_succ, opens_iff, hmarkAt, hnone]
        | some n => simp [next, hmark, openAt_succ, opens_iff, hmarkAt, hnone]
      | some b =>
        obtain ⟨j, hj, hb⟩ := ih.mp hblock
        have hopens : ¬Opens mark closes lines i := fun h => (opens_iff.mp h).2 j hj
        have hsame : ∀ j' m', OpenAt mark closes lines i j' → markAt mark lines j' = some m' →
            m' = b := by
          intro j' m' hj' hm'
          have h := ih.mpr ⟨j', hj', hm'⟩
          rw [hblock] at h
          exact (Option.some.inj h).symm
        have hstep : (∃ j', OpenAt mark closes lines (i + 1) j' ∧ markAt mark lines j' = some m) ↔
            m = b ∧ ∀ n, mark lines[i] = some n → ¬closes b n := by
          constructor
          · rintro ⟨j', hj', hm⟩
            rcases openAt_succ.mp hj' with ⟨hopen, hnot⟩ | ⟨-, hnot⟩
            · obtain rfl := hsame j' m hopen hm
              exact ⟨rfl, fun n hn hcl => hnot ⟨m, n, hm, hmarkAt.trans hn, hcl⟩⟩
            · exact absurd hnot hopens
          · rintro ⟨rfl, hnot⟩
            refine ⟨j, openAt_succ.mpr (Or.inl ⟨hj, ?_⟩), hb⟩
            rintro ⟨m', n, hm', hn, hcl⟩
            obtain rfl := hsame j m' hj hm'
            exact hnot n (hmarkAt.symm.trans hn) hcl
        rw [hstep]
        cases hmark : mark lines[i] with
        | none => simp [next, hmark, eq_comm]
        | some n =>
          by_cases hcl : closes b n
          · simp [next, hmark, hcl]
          · simp [next, hmark, hcl, eq_comm]
    · have hnone : markAt mark lines i = none := by
        rw [markAt, List.getElem?_eq_none (not_lt.mp hi)]
        rfl
      have hclosed : ∀ j, ¬Closes mark closes lines j i := by
        rintro j ⟨_, n, _, hn, _⟩
        rw [hnone] at hn
        exact nomatch hn
      have htake : lines.take (i + 1) = lines.take i := by
        rw [List.take_of_length_le (by omega), List.take_of_length_le (not_lt.mp hi)]
      rw [htake, ih]
      simp [openAt_succ, opens_iff, hnone, hclosed]

theorem foldl_next_eq_none : (lines.take i).foldl (next mark closes) none = none ↔
    ∀ j, ¬OpenAt mark closes lines i j := by
  rw [Option.eq_none_iff_forall_ne_some]
  constructor
  · intro h j hj
    obtain ⟨m, hm⟩ := (opens_iff.mp hj.2.1).1
    exact h m (foldl_next_iff.mpr ⟨j, hj, hm⟩)
  · intro h m hm
    obtain ⟨j, hj, _⟩ := foldl_next_iff.mp hm
    exact h j hj

/-- **The pass keeps what stands outside of the blocks.** -/
theorem scan_eq_outside (emit : Line → Option β) (lines : List Line) :
    scan mark closes emit none lines = outside mark closes emit lines := by
  have hrest : ∀ n i, i + n = lines.length →
      scan mark closes emit ((lines.take i).foldl (next mark closes) none) (lines.drop i) =
        (List.range' i n).filterMap fun i =>
          open Classical in if InBlock mark closes lines i then none else lines[i]?.bind emit := by
    intro n
    induction n with
    | zero =>
      intro i hi
      rw [List.drop_of_length_le (by omega)]
      rfl
    | succ n ih =>
      intro i hi
      have hlt : i < lines.length := by omega
      have hnext := ih (i + 1) (by omega)
      rw [List.take_add_one, List.getElem?_eq_getElem hlt, Option.toList_some, List.foldl_append,
        List.foldl_cons, List.foldl_nil] at hnext
      rw [List.drop_eq_getElem_cons hlt, scan, hnext, List.range'_succ, List.filterMap_cons]
      have hin : InBlock mark closes lines i ↔
          ¬(mark lines[i] = none ∧ (lines.take i).foldl (next mark closes) none = none) := by
        rw [inBlock_iff, foldl_next_eq_none, markAt, List.getElem?_eq_getElem hlt,
          Option.bind_some, ← Option.ne_none_iff_exists', not_and_or, not_forall_not, or_comm]
      by_cases hout : mark lines[i] = none ∧ (lines.take i).foldl (next mark closes) none = none
      · rw [if_pos hout, if_neg (mt hin.mp (not_not.mpr hout)), List.getElem?_eq_getElem hlt,
          Option.bind_some]
        cases emit lines[i] <;> rfl
      · rw [if_neg hout, if_pos (hin.mpr hout)]
        rfl
  have hall := hrest lines.length 0 (Nat.zero_add _)
  rw [List.take_zero, List.foldl_nil, List.drop_zero, ← List.range_eq_range'] at hall
  exact hall

/-! ### What a pass depends on -/

/-- The mark of a line, or what it yields. -/
def effect (mark : Line → Option Mark) (emit : Line → Option β) (l : Line) : Option (Mark ⊕ β) :=
  match mark l with
  | some m => some (.inl m)
  | none => (emit l).map .inr

/-- The pass over marks and yields. -/
def scanEffects (closes : Mark → Mark → Prop) [DecidableRel closes] (block : Option Mark) :
    List (Mark ⊕ β) → List β
  | [] => []
  | .inl m :: es => scanEffects closes (next some closes block m) es
  | .inr b :: es => (if block = none then [b] else []) ++ scanEffects closes block es

theorem scan_eq_scanEffects {emit : Line → Option β} {block : Option Mark} {lines : List Line} :
    scan mark closes emit block lines =
      scanEffects closes block (lines.filterMap (effect mark emit)) := by
  induction lines generalizing block with
  | nil => rfl
  | cons l ls ih =>
    rw [scan, ih]
    cases hmark : mark l with
    | some m =>
      rw [List.filterMap_cons_some (b := .inl m) (by rw [effect, hmark]), scanEffects]
      simp [next, hmark]
    | none =>
      cases hemit : emit l with
      | none =>
        rw [List.filterMap_cons_none (by rw [effect, hmark, hemit]; rfl)]
        simp [next, hmark]
      | some b =>
        rw [List.filterMap_cons_some (b := .inr b) (by rw [effect, hmark, hemit]; rfl), scanEffects]
        simp [next, hmark]

/-- **Texts with the same marks and yields scan alike.** -/
theorem scan_congr {emit : Line → Option β} {block : Option Mark} {lines lines' : List Line}
    (h : lines.filterMap (effect mark emit) = lines'.filterMap (effect mark emit)) :
    scan mark closes emit block lines = scan mark closes emit block lines' := by
  rw [scan_eq_scanEffects, scan_eq_scanEffects, h]

/-- Without marks nothing is left out. -/
theorem scan_unmarked {emit : Line → Option β} {lines : List Line}
    (h : ∀ l ∈ lines, mark l = none) :
    (scan mark closes emit none lines).map Sum.inr = lines.filterMap (effect mark emit) := by
  induction lines with
  | nil => rfl
  | cons l ls ih =>
    have hmark := h l List.mem_cons_self
    have hls := ih fun l' hl' => h l' (List.mem_cons_of_mem l hl')
    have hnext : next mark closes none l = none := by simp [next, hmark]
    rw [scan, hnext, if_pos ⟨hmark, rfl⟩, List.map_append, hls, List.filterMap_cons]
    cases hemit : emit l with
    | none => simp [effect, hmark, hemit]
    | some b => simp [effect, hmark, hemit]

end

end Blocks
