import SharedMind.Py.Store

/-!
# What a computation raises

`Raises P x`: whatever `x` raises is in `P`.  Each lemma says so of one way to build a
computation, so that a bound on the exceptions of a function follows its definition.

* `Raises.bind`, `raises_ensure`, `raises_orRaise`: the parts of a `do` block.
* `raises_forM`, `raises_foldlM`: loops; a fold carries an invariant.
-/

namespace Exceptions

open Py

variable {ε α β σ : Type}

/-- Whatever `x` raises is in `P`. -/
def Raises (P : ε → Prop) (x : Except ε α) : Prop := ∀ e, x = .error e → P e

variable {P Q : ε → Prop} {x : Except ε α}

theorem Raises.mono (h : Raises P x) (hPQ : ∀ e, P e → Q e) : Raises Q x :=
  fun e he => hPQ e (h e he)

theorem raises_ok (a : α) : Raises P (.ok a : Except ε α) := fun _ h => nomatch h

theorem raises_pure (a : α) : Raises P (pure a : Except ε α) := raises_ok a

theorem raises_error {e : ε} (h : P e) : Raises P (.error e : Except ε α) := by
  intro e' he
  obtain rfl := Except.error.inj he
  exact h

theorem raises_of_ok {a : α} (h : x = .ok a) : Raises P x := h ▸ raises_ok a

/-- A computation in two steps. -/
theorem Raises.bind {f : α → Except ε β} (hx : Raises P x)
    (hf : ∀ a, x = .ok a → Raises P (f a)) : Raises P (x >>= f) := by
  intro e h
  rcases bind_eq_error.mp h with h | ⟨a, ha, h⟩
  · exact hx e h
  · exact hf a ha e h

theorem raises_ensure {c : Prop} [Decidable c] {e : ε} (h : ¬c → P e) : Raises P (ensure c e) := by
  intro e' he
  obtain ⟨hc, rfl⟩ := ensure_eq_error.mp he
  exact h hc

theorem raises_orRaise {o : Option α} {e : ε} (h : o = none → P e) : Raises P (orRaise o e) := by
  intro e' he
  obtain ⟨ho, rfl⟩ := orRaise_eq_error.mp he
  exact h ho

theorem raises_ite {c : Prop} [Decidable c] {y : Except ε α} (hx : c → Raises P x)
    (hy : ¬c → Raises P y) : Raises P (if c then x else y) := by
  split
  · next h => exact hx h
  · next h => exact hy h

theorem raises_forM {f : α → Except ε Unit} {as : List α} (h : ∀ a ∈ as, Raises P (f a)) :
    Raises P (as.forM f) := by
  induction as with
  | nil => exact raises_ok ()
  | cons a as ih =>
    rw [List.forall_mem_cons] at h
    exact h.1.bind fun _ _ => ih h.2

/-- A fold whose steps keep an invariant of the items behind them, and raise what is in
`P` under it. -/
theorem raises_foldlM {f : σ → α → Except ε σ} {as : List α} {s : σ} (I : List α → σ → Prop)
    (h0 : I [] s)
    (hstep : ∀ pre a post s, as = pre ++ a :: post → I pre s →
      Raises P (f s a) ∧ ∀ s', f s a = .ok s' → I (pre ++ [a]) s') :
    Raises P (as.foldlM f s) := by
  induction as using List.reverseRecOn with
  | nil => exact raises_pure s
  | append_singleton as a ih =>
    have hpre : ∀ pre b post, as = pre ++ b :: post → as ++ [a] = pre ++ b :: (post ++ [a]) := by
      intro pre b post has
      rw [has, List.append_assoc, List.cons_append]
    rw [List.foldlM_append]
    refine (ih fun pre b post s has => hstep pre b _ s (hpre pre b post has)).bind fun t ht => ?_
    have hI : I as t := foldlM_prefix_inv h0
      (fun pre b post s s' has hs => (hstep pre b _ s (hpre pre b post has) hs).2 s') ht
    exact (hstep as a [] t rfl hI).1.bind fun _ _ => raises_pure _

end Exceptions
