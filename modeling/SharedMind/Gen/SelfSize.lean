import Mathlib.Logic.Function.Iterate
import Mathlib.Order.Monotone.Basic
import Mathlib.Tactic

/-!
# A document that states its own size

Stating the size of a document adds to its size.  Starting from nothing, the size is stated again
until it is right.

* `Slow`: how much a statement of a size may add.
* `stable`: the size after four statements; `next_stable`: **it is right then.**
* `settle`: the loop; `settle_eq`: it finds that size.
* `stable_strictMono`: more content is more size.
-/

namespace SelfSize

/-- Stating a size adds little, and for a tenfold size at most two more. -/
structure Slow (d : ℕ → ℕ) : Prop where
  mono : Monotone d
  pos : 0 < d 0
  tenfold : ∀ n, 0 < n → d (10 * n) ≤ d n + 2
  small : ∀ n, 0 < n → d n ≤ 2 * n

/-- The size of `k` bytes and a statement of the size `x`. -/
def next (d : ℕ → ℕ) (k x : ℕ) : ℕ := k + d x

def stable (d : ℕ → ℕ) (k : ℕ) : ℕ := next d k (next d k (next d k (next d k 0)))

/-- State the size until it is right. -/
def settle (d : ℕ → ℕ) (k : ℕ) : ℕ → ℕ → Option ℕ
  | 0, _ => none
  | n + 1, x => if next d k x = x then some x else settle d k n (next d k x)

section

variable {d : ℕ → ℕ} {k l x : ℕ}

theorem next_mono (h : Slow d) (k : ℕ) : Monotone (next d k) :=
  fun _ _ hxy => Nat.add_le_add_left (h.mono hxy) k

/-- **After four statements the size is right.** -/
theorem next_stable (h : Slow d) (k : ℕ) : next d k (stable d k) = stable d k := by
  have hmono := next_mono h k
  obtain ⟨x₁, h₁⟩ : ∃ x, next d k 0 = x := ⟨_, rfl⟩
  obtain ⟨x₂, h₂⟩ : ∃ x, next d k x₁ = x := ⟨_, rfl⟩
  obtain ⟨x₃, h₃⟩ : ∃ x, next d k x₂ = x := ⟨_, rfl⟩
  obtain ⟨x₄, h₄⟩ : ∃ x, next d k x₃ = x := ⟨_, rfl⟩
  obtain ⟨x₅, h₅⟩ : ∃ x, next d k x₄ = x := ⟨_, rfl⟩
  have h12 : x₁ ≤ x₂ := h₁ ▸ h₂ ▸ hmono (Nat.zero_le x₁)
  have h23 : x₂ ≤ x₃ := h₂ ▸ h₃ ▸ hmono h12
  have h34 : x₃ ≤ x₄ := h₃ ▸ h₄ ▸ hmono h23
  have h45 : x₄ ≤ x₅ := h₄ ▸ h₅ ▸ hmono h34
  rw [stable, h₁, h₂, h₃, h₄, h₅]
  unfold next at h₁ h₂ h₃ h₄ h₅
  have hpos : 0 < x₁ := by
    have := h.pos
    omega
  have hsmall := h.small x₁ hpos
  have htenfold := h.tenfold x₁ hpos
  -- no size reaches ten times the first one, so that the later ones differ by two at most
  have hbound : ∀ x, x ≤ 10 * x₁ → d x ≤ d x₁ + 2 := fun x hx => (h.mono hx).trans htenfold
  have hd₂ := hbound x₂ (by omega)
  have hd₃ := hbound x₃ (by omega)
  have hd₄ := hbound x₄ (by omega)
  by_cases h32 : x₃ = x₂
  · rw [h32] at h₄
    have h43 : x₄ = x₃ := by omega
    rw [h43, h32] at h₅
    omega
  · by_cases h43 : x₄ = x₃
    · rw [h43] at h₅
      omega
    · omega

theorem settle_of_next (n : ℕ) (h : next d k x = x) : settle d k (n + 1) x = some x := if_pos h

/-- The loop ends where one step more changes nothing. -/
theorem settle_iterate (m n : ℕ) (x : ℕ) (h : next d k ((next d k)^[m] x) = (next d k)^[m] x) :
    settle d k (n + m + 1) x = some ((next d k)^[m] x) := by
  induction m generalizing x with
  | zero => exact settle_of_next _ h
  | succ m ih =>
    by_cases hx : next d k x = x
    · rw [settle_of_next _ hx, Function.iterate_fixed hx]
    · rw [← Nat.add_assoc, settle, if_neg hx, Function.iterate_succ_apply]
      exact ih _ h

/-- **The loop finds the size.** -/
theorem settle_eq (h : Slow d) (k n : ℕ) : settle d k (n + 5) 0 = some (stable d k) :=
  settle_iterate 4 n 0 (next_stable h k)

theorem stable_eq (h : Slow d) (k : ℕ) : stable d k = k + d (stable d k) := (next_stable h k).symm

theorem stable_mono (h : Slow d) (hkl : k ≤ l) : stable d k ≤ stable d l := by
  have hnext : ∀ x y, x ≤ y → next d k x ≤ next d l y :=
    fun x y hxy => Nat.add_le_add hkl (h.mono hxy)
  exact hnext _ _ (hnext _ _ (hnext _ _ (hnext _ _ le_rfl)))

/-- A size that is stated in no more than what is left is not exceeded. -/
theorem stable_le_of_next_le (h : Slow d) (hx : next d k x ≤ x) : stable d k ≤ x := by
  have hmono := next_mono h k
  have hnext : ∀ y, y ≤ x → next d k y ≤ x := fun y hy => (hmono hy).trans hx
  exact hnext _ (hnext _ (hnext _ (hnext _ (Nat.zero_le x))))

theorem stable_strictMono (h : Slow d) (hkl : k < l) : stable d k < stable d l := by
  have hle := h.mono (stable_mono h hkl.le)
  rw [stable_eq h k, stable_eq h l]
  omega

theorem stable_le_iff (h : Slow d) : stable d k ≤ stable d l ↔ k ≤ l := by
  refine ⟨fun hle => ?_, stable_mono h⟩
  by_contra hlt
  exact absurd (stable_strictMono h (not_le.mp hlt)) (not_lt.mpr hle)

end

/-! ### Widths of numbers -/

/-- How many digits a number has. -/
def width (n : ℕ) : ℕ := (Nat.toDigits 10 n).length

theorem width_le_iff {n k : ℕ} (hk : 0 < k) : width n ≤ k ↔ n < 10 ^ k :=
  Nat.length_toDigits_le_iff (by decide) hk

theorem width_pos (n : ℕ) : 0 < width n := Nat.length_toDigits_pos

theorem width_mono : Monotone width := by
  intro m n hmn
  rw [width_le_iff (width_pos n)]
  exact hmn.trans_lt ((width_le_iff (width_pos n)).mp le_rfl)

theorem width_tenfold (n : ℕ) : width (10 * n) ≤ width n + 1 := by
  rw [width_le_iff (Nat.succ_pos _), pow_succ, mul_comm]
  exact Nat.mul_lt_mul_of_pos_right ((width_le_iff (width_pos n)).mp le_rfl) (by decide)

theorem width_le_self {n : ℕ} (hn : 0 < n) : width n ≤ n :=
  (width_le_iff hn).mpr (Nat.lt_pow_self (by decide))

/-- A size and a quarter of it, rounded up. -/
def sizeAndQuarter (n : ℕ) : ℕ := width n + width ((n + 3) / 4)

theorem slow_sizeAndQuarter : Slow sizeAndQuarter where
  mono m n hmn := Nat.add_le_add (width_mono hmn) (width_mono (by omega))
  pos := Nat.add_pos_left (width_pos 0) _
  tenfold n hn := by
    have hquarter : width ((10 * n + 3) / 4) ≤ width (10 * ((n + 3) / 4)) := width_mono (by omega)
    have hsize := width_tenfold n
    have htenfold := width_tenfold ((n + 3) / 4)
    unfold sizeAndQuarter
    omega
  small n hn := by
    have hquarter : width ((n + 3) / 4) ≤ width n := width_mono (by omega)
    have hsize := width_le_self hn
    unfold sizeAndQuarter
    omega

end SelfSize
