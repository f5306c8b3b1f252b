import Mathlib.Data.Finset.Card
import Mathlib.Data.Fintype.Card
import Mathlib.Data.Fintype.Order
import Mathlib.Logic.Relation
import Mathlib.Order.WellFounded
import Mathlib.Tactic

/-!
# Nested containers

A graph tells the items of each container in order; `none` is an item that is no container.  One
container may stand in several places, and in itself.

* `Chain`: containers nested in one another, from an item down.
* `Unfolds`: the places of the tree a graph unfolds to, in the order in which a stack meets them;
  an acyclic graph has one (`Acyclic.exists_unfolds`).
* `DeepApart`: a deep chain of different containers; `deepApart_container` takes its first off.
-/

namespace Nesting

variable {ι : Type} {items : ι → List (Option ι)} {x : Option ι} {i j : ι} {l : List ι}

/-! ### Chains -/

/-- Containers from the item down, each an item of the one before. -/
inductive Chain (items : ι → List (Option ι)) : Option ι → List ι → Prop
  | one (i : ι) : Chain items (some i) [i]
  | cons {i : ι} {c : Option ι} {l : List ι} : c ∈ items i → Chain items c l →
      Chain items (some i) (i :: l)

theorem not_chain_none : ¬Chain items none l := fun h => nomatch h

theorem chain_container :
    Chain items (some i) l ↔ l = [i] ∨ ∃ c ∈ items i, ∃ m, Chain items c m ∧ l = i :: m := by
  constructor
  · intro h
    cases h with
    | one => exact Or.inl rfl
    | cons hc h => exact Or.inr ⟨_, hc, _, h, rfl⟩
  · intro h
    obtain rfl | ⟨c, hc, m, hm, rfl⟩ := h
    · exact .one i
    · exact .cons hc hm

/-- The container `i` holds `j`. -/
def Holds (items : ι → List (Option ι)) (i j : ι) : Prop := some j ∈ items i

/-- No container from the item down is somewhere in itself. -/
def Acyclic (items : ι → List (Option ι)) (x : Option ι) : Prop :=
  ∀ r ∈ x, ∀ i, Relation.ReflTransGen (Holds items) r i → ¬Relation.TransGen (Holds items) i i

theorem Acyclic.item (h : Acyclic items (some i)) {c : Option ι} (hc : c ∈ items i) :
    Acyclic items c := by
  intro r hr j hj
  rw [Option.mem_def] at hr
  subst hr
  exact h i rfl j (.head hc hj)

theorem Chain.reaches (h : Chain items x l) :
    ∀ j ∈ l, ∃ r ∈ x, Relation.ReflTransGen (Holds items) r j := by
  induction h with
  | one i =>
    intro j hj
    rw [List.mem_singleton.mp hj]
    exact ⟨i, rfl, .refl⟩
  | @cons i c l hc _ ih =>
    intro j hj
    obtain rfl | hj := List.mem_cons.mp hj
    · exact ⟨j, rfl, .refl⟩
    · obtain ⟨r, hr, hreach⟩ := ih j hj
      rw [Option.mem_def] at hr
      subst hr
      exact ⟨i, rfl, .head hc hreach⟩

/-- Without a cycle the containers of a chain are different. -/
theorem Chain.nodup (h : Chain items x l) (hx : Acyclic items x) : l.Nodup := by
  induction h with
  | one i => exact List.nodup_singleton i
  | @cons i c l hc hchain ih =>
    refine List.nodup_cons.mpr ⟨?_, ih (hx.item hc)⟩
    intro hmem
    obtain ⟨r, hr, hreach⟩ := hchain.reaches i hmem
    rw [Option.mem_def] at hr
    subst hr
    exact hx i rfl i .refl (.head' hc hreach)

/-- Without a cycle, going from a container to its items ends. -/
theorem Acyclic.acc [Finite ι] (h : Acyclic items (some i)) :
    Acc (fun j k => Holds items k j) i := by
  let below := {j // Relation.ReflTransGen (Holds items) i j}
  let R (a b : below) : Prop := Relation.TransGen (Holds items) b.1 a.1
  have htrans : IsTrans below R := ⟨fun a b c hab hbc => hbc.trans hab⟩
  have hirrefl : Std.Irrefl R := ⟨fun a => h i rfl a.1 a.2⟩
  have hwf : WellFounded R := Finite.wellFounded_of_trans_of_irrefl R
  have hacc : ∀ a : below, Acc (fun j k => Holds items k j) a.1 := by
    intro a
    induction a using hwf.induction with
    | h a ih =>
      refine ⟨a.1, ?_⟩
      intro j hj
      exact ih ⟨j, a.2.tail hj⟩ (.single hj)
  exact hacc ⟨i, .refl⟩

/-! ### Unfolding -/

/-- The places met from a stack of items, each with the depth of what it is in, up to the last:
the containers with their own depths.  The last item of a container comes first. -/
inductive Unfolds (items : ι → List (Option ι)) : List (Option ι × ℕ) → List (ι × ℕ) → Prop
  | nil : Unfolds items [] []
  | other {d : ℕ} {s : List (Option ι × ℕ)} {p : List (ι × ℕ)} : Unfolds items s p →
      Unfolds items ((none, d) :: s) p
  | container {i : ι} {d : ℕ} {s : List (Option ι × ℕ)} {p : List (ι × ℕ)} :
      Unfolds items ((items i).reverse.map (fun c => (c, d + 1)) ++ s) p →
      Unfolds items ((some i, d) :: s) ((i, d + 1) :: p)

section

variable {s : List (Option ι × ℕ)} {p : List (ι × ℕ)}

/-- A place is deep if a chain leads there. -/
theorem Unfolds.deep_iff (h : Unfolds items s p) (m : ℤ) :
    (∃ e ∈ p, m < (e.2 : ℤ)) ↔ ∃ e ∈ s, ∃ l, Chain items e.1 l ∧ m < e.2 + (l.length : ℤ) := by
  induction h with
  | nil => simp
  | other _ ih =>
    rw [ih, List.exists_mem_cons_iff]
    constructor
    · exact Or.inr
    · intro h
      refine h.resolve_left ?_
      rintro ⟨l, hl, -⟩
      exact not_chain_none hl
  | @container i d s p _ ih =>
    rw [List.exists_mem_cons_iff, List.exists_mem_cons_iff, ih]
    constructor
    · intro h
      obtain h | ⟨e, he, l, hl, hm⟩ := h
      · exact Or.inl ⟨[i], .one i, by simpa using h⟩
      · obtain he | he := List.mem_append.mp he
        · obtain ⟨c, hc, rfl⟩ := List.mem_map.mp he
          refine Or.inl ⟨i :: l, .cons (List.mem_reverse.mp hc) hl, ?_⟩
          rw [List.length_cons]
          push_cast at hm ⊢
          omega
        · exact Or.inr ⟨e, he, l, hl, hm⟩
    · intro h
      obtain ⟨l, hl, hm⟩ | ⟨e, he, l, hl, hm⟩ := h
      · obtain rfl | ⟨c, hc, n, hn, rfl⟩ := chain_container.mp hl
        · exact Or.inl (by simpa using hm)
        · refine Or.inr ⟨(c, d + 1), ?_, n, hn, ?_⟩
          · exact List.mem_append_left _ (List.mem_map.mpr ⟨c, List.mem_reverse.mpr hc, rfl⟩)
          · rw [List.length_cons] at hm
            push_cast at hm ⊢
            omega
      · exact Or.inr ⟨e, List.mem_append_right _ he, l, hl, hm⟩

theorem exists_unfolds_append {d : ℕ} {cs : List (Option ι)}
    (hcs : ∀ c ∈ cs, ∀ d s, (∃ p, Unfolds items s p) → ∃ p, Unfolds items ((c, d) :: s) p)
    (h : ∃ p, Unfolds items s p) : ∃ p, Unfolds items (cs.map (fun c => (c, d)) ++ s) p := by
  induction cs with
  | nil => exact h
  | cons c cs ih =>
    exact hcs c List.mem_cons_self d _ (ih fun e he => hcs e (List.mem_cons_of_mem c he))

theorem exists_unfolds_cons (hx : ∀ i ∈ x, Acc (fun j k => Holds items k j) i) (d : ℕ)
    (h : ∃ p, Unfolds items s p) : ∃ p, Unfolds items ((x, d) :: s) p := by
  cases x with
  | none =>
    obtain ⟨p, hp⟩ := h
    exact ⟨p, .other hp⟩
  | some i =>
    have hacc := hx i rfl
    clear hx
    induction hacc generalizing d s with
    | intro i _ ih =>
      obtain ⟨p, hp⟩ : ∃ p, Unfolds items ((items i).reverse.map (fun c => (c, d + 1)) ++ s) p := by
        refine exists_unfolds_append ?_ h
        intro c hc d s hs
        cases c with
        | none =>
          obtain ⟨p, hp⟩ := hs
          exact ⟨p, .other hp⟩
        | some j => exact ih j (List.mem_reverse.mp hc) d hs
      exact ⟨_, .container hp⟩

/-- **Without a cycle a graph unfolds to a tree.** -/
theorem Acyclic.exists_unfolds [Finite ι] (h : Acyclic items x) :
    ∃ p, Unfolds items [(x, 0)] p := by
  refine exists_unfolds_cons ?_ 0 ⟨[], .nil⟩
  intro i hi
  rw [Option.mem_def] at hi
  subst hi
  exact h.acc

end

/-! ### Chains of different containers -/

section

/-- A chain of different containers, none of them in `active`, goes deeper than `m` from an item
inside `d` containers. -/
def DeepApart (items : ι → List (Option ι)) (m : ℤ) (active : Finset ι) (x : Option ι) (d : ℕ) :
    Prop :=
  ∃ l, Chain items x l ∧ l.Nodup ∧ (∀ i ∈ l, i ∉ active) ∧ m < d + (l.length : ℤ)

variable {m : ℤ} {active : Finset ι} {d : ℕ}

theorem not_deepApart_none : ¬DeepApart items m active none d := by
  rintro ⟨l, hl, -⟩
  exact not_chain_none hl

theorem not_deepApart_active (hi : i ∈ active) : ¬DeepApart items m active (some i) d := by
  rintro ⟨l, hl, -, hapart, -⟩
  obtain rfl | ⟨c, -, n, -, rfl⟩ := chain_container.mp hl
  · exact hapart i List.mem_cons_self hi
  · exact hapart i List.mem_cons_self hi

theorem deepApart_container [DecidableEq ι] (hi : i ∉ active) : DeepApart items m active (some i) d ↔
    m < (d : ℤ) + 1 ∨ ∃ c ∈ items i, DeepApart items m (insert i active) c (d + 1) := by
  constructor
  · rintro ⟨l, hl, hnodup, hapart, hm⟩
    obtain rfl | ⟨c, hc, n, hn, rfl⟩ := chain_container.mp hl
    · exact Or.inl (by simpa using hm)
    · rw [List.nodup_cons] at hnodup
      refine Or.inr ⟨c, hc, n, hn, hnodup.2, ?_, ?_⟩
      · intro j hj
        rw [Finset.mem_insert, not_or]
        refine ⟨?_, hapart j (List.mem_cons_of_mem i hj)⟩
        intro h
        exact hnodup.1 (h ▸ hj)
      · rw [List.length_cons] at hm
        push_cast at hm ⊢
        omega
  · intro h
    obtain h | ⟨c, hc, n, hn, hnodup, hapart, hm⟩ := h
    · refine ⟨[i], .one i, List.nodup_singleton i, ?_, by simpa using h⟩
      intro j hj
      rwa [List.mem_singleton.mp hj]
    · refine ⟨i :: n, .cons hc hn, List.nodup_cons.mpr ⟨?_, hnodup⟩, ?_, ?_⟩
      · intro hmem
        exact hapart i hmem (Finset.mem_insert_self i active)
      · intro j hj
        obtain rfl | hj := List.mem_cons.mp hj
        · exact hi
        · intro h
          exact hapart j hj (Finset.mem_insert_of_mem h)
      · rw [List.length_cons]
        push_cast at hm ⊢
        omega

end

end Nesting
