import Mathlib

/-!
# Hash chains

Entries that carry a place, the hash of the entry before them and a hash of their own.

* `Chained`: the places count up and every entry names the hash before it.
* `chained_append`: the entry that may follow a chain.
* `Chained.content_eq`: **two chains with the same last hash have the same contents**,
  when no two of their entries share a hash and differ in content.
-/

namespace HashChain

/-- Where an entry keeps its place and its hashes. -/
structure Links (ε η : Type) where
  seq : ε → ℕ
  prev : ε → Option η
  hash : ε → η

variable {ε η γ : Type} {L : Links ε η} {n : ℕ} {p : Option η}

/-- The hash the next entry names: of the last entry, or `p` before the first. -/
def head (L : Links ε η) (p : Option η) : List ε → Option η
  | [] => p
  | e :: es => head L (some (L.hash e)) es

/-- The places count up from `n` and the hashes follow on from `p`. -/
def Chained (L : Links ε η) (n : ℕ) (p : Option η) : List ε → Prop
  | [] => True
  | e :: es => L.seq e = n ∧ L.prev e = p ∧ Chained L (n + 1) (some (L.hash e)) es

@[simp] theorem head_nil : head L p [] = p := rfl

@[simp] theorem head_concat {es : List ε} {e : ε} : head L p (es ++ [e]) = some (L.hash e) := by
  induction es generalizing p with
  | nil => rfl
  | cons a es ih => exact ih

theorem head_eq_getLast? {es : List ε} : head L none es = es.getLast?.map L.hash := by
  cases es using List.reverseRecOn with
  | nil => rfl
  | append_singleton es e => rw [head_concat, List.getLast?_concat]; rfl

/-- The entry that may follow a chain. -/
theorem chained_append {es : List ε} {e : ε} :
    Chained L n p (es ++ [e]) ↔
      Chained L n p es ∧ L.seq e = n + es.length ∧ L.prev e = head L p es := by
  induction es generalizing n p with
  | nil => simp [Chained, head]
  | cons a es ih =>
    rw [List.cons_append, Chained, Chained, ih, head, List.length_cons]
    constructor
    · rintro ⟨hs, hp, hc, hseq, hprev⟩
      exact ⟨⟨hs, hp, hc⟩, by omega, hprev⟩
    · rintro ⟨⟨hs, hp, hc⟩, hseq, hprev⟩
      exact ⟨hs, hp, hc, by omega, hprev⟩

/-- The entries of a chain have their places in order. -/
theorem Chained.seq_eq {es : List ε} (h : Chained L n p es) :
    es.map L.seq = List.range' n es.length := by
  induction es generalizing n p with
  | nil => rfl
  | cons a es ih =>
    obtain ⟨hs, _, hc⟩ := h
    rw [List.map_cons, List.length_cons, List.range'_succ, ih hc, hs]

/-- **The head binds the history.**  `content` may be any view of an entry that fixes
the hash before it. -/
theorem Chained.content_eq {content : ε → γ} {xs ys : List ε} (hxs : Chained L n none xs)
    (hys : Chained L n none ys)
    (hprev : ∀ x ∈ xs, ∀ y ∈ ys, content x = content y → L.prev x = L.prev y)
    (hinj : ∀ x ∈ xs, ∀ y ∈ ys, L.hash x = L.hash y → content x = content y)
    (hhead : head L none xs = head L none ys) : xs.map content = ys.map content := by
  induction xs using List.reverseRecOn generalizing ys with
  | nil =>
    cases ys using List.reverseRecOn with
    | nil => rfl
    | append_singleton ys y =>
      rw [head_concat] at hhead
      exact nomatch hhead
  | append_singleton xs x ih =>
    cases ys using List.reverseRecOn with
    | nil =>
      rw [head_concat] at hhead
      exact nomatch hhead
    | append_singleton ys y =>
      obtain ⟨hxs, _, hpx⟩ := chained_append.mp hxs
      obtain ⟨hys, _, hpy⟩ := chained_append.mp hys
      rw [head_concat, head_concat, Option.some.injEq] at hhead
      have hx : x ∈ xs ++ [x] := by simp
      have hy : y ∈ ys ++ [y] := by simp
      have hcontent := hinj x hx y hy hhead
      -- the last entries name the same hash, so the chains before them end alike
      have hbefore : head L none xs = head L none ys := by
        rw [← hpx, ← hpy]
        exact hprev x hx y hy hcontent
      have hrest := ih hxs hys
        (fun a ha b hb => hprev a (List.mem_append_left _ ha) b (List.mem_append_left _ hb))
        (fun a ha b hb => hinj a (List.mem_append_left _ ha) b (List.mem_append_left _ hb)) hbefore
      rw [List.map_append, List.map_append, hrest, List.map_singleton, List.map_singleton, hcontent]

end HashChain
