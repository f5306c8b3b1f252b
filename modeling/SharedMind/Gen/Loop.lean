import Mathlib.Tactic

/-!
# Loops

A loop is a step that goes on in another state or ends with an answer.

* `run`: the loop with fuel.
* `Returns`: it ends with an answer, and more fuel changes nothing.
-/

namespace Loop

variable {σ α : Type}

/-- At most so many steps. -/
def run (step : σ → σ ⊕ α) : ℕ → σ → Option α
  | 0, _ => none
  | n + 1, s => match step s with
    | .inl t => run step n t
    | .inr a => some a

/-- The loop ends with the answer. -/
def Returns (step : σ → σ ⊕ α) (s : σ) (a : α) : Prop := ∃ n, ∀ m ≥ n, run step m s = some a

variable {step : σ → σ ⊕ α} {s t : σ} {a b : α}

theorem Returns.now (h : step s = .inr a) : Returns step s a := by
  refine ⟨1, ?_⟩
  intro m hm
  obtain ⟨k, rfl⟩ := Nat.exists_eq_add_of_le' hm
  rw [run, h]

theorem Returns.next (h : step s = .inl t) (ht : Returns step t a) : Returns step s a := by
  obtain ⟨n, hn⟩ := ht
  refine ⟨n + 1, ?_⟩
  intro m hm
  obtain ⟨k, rfl⟩ := Nat.exists_eq_add_of_le' (Nat.le_of_add_left_le hm)
  rw [run, h]
  exact hn k (Nat.le_of_add_le_add_right hm)

theorem Returns.unique (ha : Returns step s a) (hb : Returns step s b) : a = b := by
  obtain ⟨n, hn⟩ := ha
  obtain ⟨m, hm⟩ := hb
  have h := hn (max n m) (le_max_left n m)
  rw [hm (max n m) (le_max_right n m)] at h
  exact (Option.some.inj h).symm

theorem Returns.of_run {n : ℕ} (h : run step n s = some a) : Returns step s a := by
  induction n generalizing s with
  | zero => exact nomatch h
  | succ n ih =>
    rw [run] at h
    cases hs : step s with
    | inl t =>
      rw [hs] at h
      exact (ih h).next hs
    | inr c =>
      rw [hs] at h
      exact .now (hs.trans (congrArg _ (Option.some.inj h)))

end Loop
