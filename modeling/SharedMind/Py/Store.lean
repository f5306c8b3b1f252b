import Mathlib

/-!
# Keyed tables and computations that raise

* `Table κ ρ`: rows under a primary key, listed in key order.  `get_insert` and
  `get_modify` say what a write changes; two tables with the same rows are equal
  (`Table.ext`).
* `Table.Advances`: rows are kept, and change only with a larger version.
* `sortedSet`: the sorted list of the distinct elements of a list.
* `ensure`, `bind_eq_ok`: a computation in `Except` succeeds exactly when each of
  its steps does.
-/

namespace Py

/-! ### Tables -/

abbrev Table (κ ρ : Type) [LinearOrder κ] := Std.ExtTreeMap κ ρ

namespace Table

variable {κ ρ : Type} [LinearOrder κ]

instance transCmp : Std.TransCmp (compare : κ → κ → Ordering) := inferInstance

theorem ext {s t : Table κ ρ} (h : ∀ k : κ, s[k]? = t[k]?) : s = t := Std.ExtTreeMap.ext_getElem? h

@[simp] theorem get_empty (k : κ) : (∅ : Table κ ρ)[k]? = none := Std.ExtTreeMap.getElem?_empty

@[simp] theorem get_insert (t : Table κ ρ) (k a : κ) (r : ρ) :
    (t.insert k r)[a]? = if a = k then some r else t[a]? := by
  rw [Std.ExtTreeMap.getElem?_insert]
  by_cases h : a = k
  · rw [if_pos h, if_pos (by rw [h]; exact Std.ReflCmp.compare_self)]
  · rw [if_neg h, if_neg fun hc => h (Std.LawfulEqCmp.eq_of_compare hc).symm]

@[simp] theorem get_modify (t : Table κ ρ) (k a : κ) (f : ρ → ρ) :
    (t.modify k f)[a]? = if a = k then t[a]?.map f else t[a]? := by
  rw [Std.ExtTreeMap.getElem?_modify]
  by_cases h : a = k
  · subst h
    rw [if_pos rfl, if_pos Std.ReflCmp.compare_self]
  · rw [if_neg h, if_neg fun hc => h (Std.LawfulEqCmp.eq_of_compare hc).symm]

theorem mem_toList {t : Table κ ρ} {k : κ} {r : ρ} : (k, r) ∈ t.toList ↔ t[k]? = some r :=
  Std.ExtTreeMap.mem_toList_iff_getElem?_eq_some

theorem contains_iff {t : Table κ ρ} {k : κ} : t.contains k = true ↔ ∃ r, t[k]? = some r := by
  rw [Std.ExtTreeMap.contains_eq_isSome_getElem?, Option.isSome_iff_exists]

theorem contains_eq_false_iff {t : Table κ ρ} {k : κ} : t.contains k = false ↔ t[k]? = none := by
  rw [Std.ExtTreeMap.contains_eq_isSome_getElem?, Option.isSome_eq_false_iff,
    Option.isNone_iff_eq_none]

/-- Keys are listed in increasing order. -/
theorem toList_sorted (t : Table κ ρ) : t.toList.Pairwise fun a b => a.1 < b.1 :=
  Std.ExtTreeMap.ordered_keys_toList.imp fun h => compare_lt_iff_lt.mp h

/-! ### Versioned rows -/

/-- No row of `s` is lost in `t`, and a row that differs has a larger version. -/
def Advances (version : ρ → Nat) (s t : Table κ ρ) : Prop :=
  ∀ (k : κ) (r : ρ), s[k]? = some r → ∃ r', t[k]? = some r' ∧ (r' = r ∨ version r < version r')

namespace Advances

variable {version : ρ → Nat} {s t u : Table κ ρ}

theorem refl (s : Table κ ρ) : Advances version s s := fun _ r hr => ⟨r, hr, Or.inl rfl⟩

theorem trans (hst : Advances version s t) (htu : Advances version t u) :
    Advances version s u := by
  intro k r hr
  obtain ⟨r', hr', h⟩ := hst k r hr
  obtain ⟨r'', hr'', h'⟩ := htu k r' hr'
  refine ⟨r'', hr'', ?_⟩
  rcases h with rfl | h
  · exact h'
  · rcases h' with rfl | h'
    · exact Or.inr h
    · exact Or.inr (h.trans h')

/-- A row that is inserted lies above the one it replaces, if it replaces one. -/
theorem insert {k : κ} {r : ρ} (h : ∀ old, s[k]? = some old → version old < version r) :
    Advances version s (s.insert k r) := by
  intro a old hold
  rw [get_insert]
  by_cases ha : a = k
  · subst ha
    exact ⟨r, if_pos rfl, Or.inr (h old hold)⟩
  · exact ⟨old, by rw [if_neg ha, hold], Or.inl rfl⟩

theorem insert_new {k : κ} {r : ρ} (h : s[k]? = none) : Advances version s (s.insert k r) :=
  insert fun old hold => by rw [h] at hold; exact nomatch hold

theorem modify {k : κ} {f : ρ → ρ} (h : ∀ r, version r < version (f r)) :
    Advances version s (s.modify k f) := by
  intro a old hold
  rw [get_modify]
  by_cases ha : a = k
  · exact ⟨f old, by rw [if_pos ha, hold]; rfl, Or.inr (h old)⟩
  · exact ⟨old, by rw [if_neg ha, hold], Or.inl rfl⟩

/-- The version under a key never decreases. -/
theorem le (h : Advances version s t) {k : κ} {v : Nat} (hv : s[k]?.map version = some v) :
    ∃ v', t[k]?.map version = some v' ∧ v ≤ v' := by
  obtain ⟨r, hr, rfl⟩ := Option.map_eq_some_iff.mp hv
  obtain ⟨r', hr', hle⟩ := h k r hr
  refine ⟨version r', by rw [hr']; rfl, ?_⟩
  rcases hle with rfl | hlt
  · exact le_rfl
  · exact hlt.le

end Advances

end Table

/-! ### Sorted sets -/

variable {α : Type}

/-- `sorted(set(items))`. -/
def sortedSet [LinearOrder α] (items : List α) : List α := items.dedup.insertionSort (· ≤ ·)

@[simp] theorem mem_sortedSet [LinearOrder α] {items : List α} {a : α} :
    a ∈ sortedSet items ↔ a ∈ items := by
  rw [sortedSet, List.mem_insertionSort, List.mem_dedup]

theorem sortedSet_sorted [LinearOrder α] (items : List α) :
    (sortedSet items).Pairwise (· < ·) := by
  have hle : (sortedSet items).Pairwise (· ≤ ·) := List.pairwise_insertionSort (· ≤ ·) _
  have hnd : (sortedSet items).Nodup :=
    (List.perm_insertionSort (· ≤ ·) items.dedup).nodup_iff.mpr (List.nodup_dedup items)
  exact (hle.and hnd).imp fun h => lt_of_le_of_ne h.1 h.2

/-- Strictly sorted lists with the same elements are equal. -/
theorem eq_of_sorted [LinearOrder α] {as bs : List α} (ha : as.Pairwise (· < ·))
    (hb : bs.Pairwise (· < ·)) (h : ∀ x, x ∈ as ↔ x ∈ bs) : as = bs := by
  have hperm : as.Perm bs :=
    (List.perm_ext_iff_of_nodup (ha.imp ne_of_lt) (hb.imp ne_of_lt)).mpr h
  exact hperm.eq_of_pairwise (fun a b _ _ hab hba => absurd hab (lt_asymm hba)) ha hb

theorem sortedSet_of_sorted [LinearOrder α] {as : List α} (h : as.Pairwise (· < ·)) :
    sortedSet as = as :=
  eq_of_sorted (sortedSet_sorted as) h fun _ => mem_sortedSet

/-- A strictly monotone map keeps a set sorted. -/
theorem sortedSet_map {β : Type} [LinearOrder α] [LinearOrder β] {f : α → β} (hf : StrictMono f)
    (items : List α) : (sortedSet items).map f = sortedSet (items.map f) :=
  eq_of_sorted (List.pairwise_map.mpr ((sortedSet_sorted items).imp fun h => hf h))
    (sortedSet_sorted _) fun b => by simp

/-! ### Raising -/

variable {ε β : Type}

/-- Raise `e` unless the condition holds. -/
def ensure (c : Prop) [Decidable c] (e : ε) : Except ε Unit := if c then .ok () else .error e

@[simp] theorem ensure_eq_ok {c : Prop} [Decidable c] {e : ε} {u : Unit} :
    ensure c e = .ok u ↔ c := by
  rw [ensure]
  split <;> simp_all

theorem ensure_eq_error {c : Prop} [Decidable c] {e e' : ε} :
    ensure c e = .error e' ↔ ¬c ∧ e' = e := by
  rw [ensure]
  split <;> simp_all [eq_comm]

/-- The value, or raise `e`. -/
def orRaise (o : Option α) (e : ε) : Except ε α :=
  match o with
  | some a => .ok a
  | none => .error e

@[simp] theorem orRaise_eq_ok {o : Option α} {e : ε} {a : α} :
    orRaise o e = .ok a ↔ o = some a := by
  cases o <;> simp [orRaise]

theorem orRaise_eq_error {o : Option α} {e e' : ε} :
    orRaise o e = .error e' ↔ o = none ∧ e' = e := by
  cases o <;> simp [orRaise, eq_comm]

@[simp] theorem ok_bind {a : α} {f : α → Except ε β} : (Except.ok a >>= f) = f a := rfl

@[simp] theorem error_bind {e : ε} {f : α → Except ε β} :
    ((Except.error e : Except ε α) >>= f) = .error e := rfl

@[simp] theorem bind_eq_ok {x : Except ε α} {f : α → Except ε β} {b : β} :
    x >>= f = .ok b ↔ ∃ a, x = .ok a ∧ f a = .ok b := by
  cases x <;> simp [Bind.bind, Except.bind]

theorem bind_eq_error {x : Except ε α} {f : α → Except ε β} {e : ε} :
    x >>= f = .error e ↔ x = .error e ∨ ∃ a, x = .ok a ∧ f a = .error e := by
  cases x <;> simp [Bind.bind, Except.bind]

@[simp] theorem pure_eq_ok {a b : α} : (pure a : Except ε α) = .ok b ↔ a = b := by
  simp [pure, Except.pure]

theorem forM_eq_ok {f : α → Except ε Unit} {as : List α} {u : Unit} :
    as.forM f = .ok u ↔ ∀ a ∈ as, f a = .ok () := by
  induction as with
  | nil => exact ⟨fun _ _ ha => absurd ha List.not_mem_nil, fun _ => rfl⟩
  | cons a as ih =>
    show (f a >>= fun _ => as.forM f) = .ok u ↔ _
    rw [bind_eq_ok, List.forall_mem_cons, ← ih]
    exact ⟨fun ⟨_, ha, has⟩ => ⟨ha, has⟩, fun ⟨ha, has⟩ => ⟨(), ha, has⟩⟩

/-- What each step of a fold preserves, the fold preserves. -/
theorem foldlM_inv {σ : Type} {f : σ → α → Except ε σ} {P : σ → Prop} {as : List α}
    (hstep : ∀ s a s', a ∈ as → P s → f s a = .ok s' → P s') {s s' : σ} (h0 : P s)
    (h : as.foldlM f s = .ok s') : P s' := by
  induction as generalizing s with
  | nil =>
    simp only [List.foldlM_nil, pure_eq_ok] at h
    exact h ▸ h0
  | cons a as ih =>
    rw [List.foldlM_cons, bind_eq_ok] at h
    obtain ⟨t, ht, h⟩ := h
    exact ih (fun s b s' hb => hstep s b s' (List.mem_cons_of_mem _ hb))
      (hstep s a t List.mem_cons_self h0 ht) h

/-- What each step of a fold preserves, with the items before it in view. -/
theorem foldlM_prefix_inv {σ : Type} {f : σ → α → Except ε σ} {P : List α → σ → Prop} {as : List α}
    {s s' : σ} (h0 : P [] s)
    (hstep : ∀ pre a post s s', as = pre ++ a :: post → P pre s → f s a = .ok s' →
      P (pre ++ [a]) s') (h : as.foldlM f s = .ok s') : P as s' := by
  induction as using List.reverseRecOn generalizing s' with
  | nil =>
    simp only [List.foldlM_nil, pure_eq_ok] at h
    exact h ▸ h0
  | append_singleton as a ih =>
    rw [List.foldlM_append, bind_eq_ok] at h
    obtain ⟨t, ht, h⟩ := h
    simp only [List.foldlM_cons, List.foldlM_nil, bind_eq_ok, pure_eq_ok, exists_eq_right] at h
    refine hstep as a [] t s' rfl (ih ?_ ht) h
    intro pre b post s s' has
    exact hstep pre b (post ++ [a]) s s' (by rw [has]; simp)

/-- What holds of a step's two ends and composes, holds of a fold's two ends. -/
theorem foldlM_rel {σ : Type} {f : σ → α → Except ε σ} {R : σ → σ → Prop} (hrefl : ∀ s, R s s)
    (htrans : ∀ s t u, R s t → R t u → R s u) {as : List α}
    (hstep : ∀ s a s', a ∈ as → f s a = .ok s' → R s s') {s s' : σ}
    (h : as.foldlM f s = .ok s') : R s s' :=
  foldlM_inv (P := fun t => R s t)
    (fun t a t' ha ht hf => htrans s t t' ht (hstep t a t' ha hf)) (hrefl s) h

/-- A fold splits at each of its items. -/
theorem foldlM_split {σ : Type} {f : σ → α → Except ε σ} {as : List α} {a : α} (ha : a ∈ as)
    {s s' : σ} (h : as.foldlM f s = .ok s') : ∃ t t' pre post, as = pre ++ a :: post ∧
      pre.foldlM f s = .ok t ∧ f t a = .ok t' ∧ post.foldlM f t' = .ok s' := by
  obtain ⟨pre, post, rfl⟩ := List.append_of_mem ha
  rw [List.foldlM_append, bind_eq_ok] at h
  obtain ⟨t, ht, h⟩ := h
  rw [List.foldlM_cons, bind_eq_ok] at h
  obtain ⟨t', ht', h⟩ := h
  exact ⟨t, t', pre, post, rfl, ht, ht', h⟩

end Py
