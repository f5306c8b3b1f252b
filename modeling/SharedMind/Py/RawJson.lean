import SharedMind.Py.Json

/-!
# Raw values and their encodings

* `PyStr.toString?_eq_some`: a string encodes exactly when it is the one of a text.
* `JsonOf.get?_of_toJson?`: a member of an encodable dict encodes to the member of the
  encoded dict.
* `JsonOf.raw`: a `Json` as a raw value, with `toJson?_raw`.
-/

namespace Py

/-! ### Strings -/

namespace PyStr

theorem toChar?_ofChar (c : Char) : toChar? (ofChar c) = some c := by
  rw [toChar?, dif_pos (show Nat.isValidChar (ofChar c).val from c.valid)]
  exact congrArg some (Char.ext (UInt32.toNat_inj.mp rfl))

theorem ofChar_of_toChar? {p : Fin 0x110000} {c : Char} (h : toChar? p = some c) :
    ofChar c = p := by
  rw [toChar?] at h
  split at h
  · obtain rfl := Option.some.inj h
    exact Fin.ext (by simp [ofChar, Char.ofNatAux])
  · exact nomatch h

theorem mapM_toChar?_ofChar (s : List Char) : (s.map ofChar).mapM toChar? = some s := by
  induction s with
  | nil => rfl
  | cons c s ih => simp [List.mapM_cons, toChar?_ofChar, ih]

theorem map_ofChar_of_mapM {ps : List (Fin 0x110000)} {s : List Char}
    (h : ps.mapM toChar? = some s) : s.map ofChar = ps := by
  induction ps generalizing s with
  | nil => simp_all
  | cons p ps ih =>
    simp only [List.mapM_cons, Option.pure_def, Option.bind_eq_bind, Option.bind_eq_some_iff,
      Option.some.injEq] at h
    obtain ⟨c, hc, t, ht, rfl⟩ := h
    rw [List.map_cons, ofChar_of_toChar? hc, ih ht]

@[simp] theorem toString?_ofString (s : String) : (ofString s).toString? = some s := by
  rw [toString?, ofString, mapM_toChar?_ofChar, Option.map_some, String.ofList_toList]

/-- A string encodes exactly when it is the one of a text. -/
theorem toString?_eq_some {s : PyStr} {t : String} : s.toString? = some t ↔ s = ofString t := by
  constructor
  · intro h
    rw [toString?, Option.map_eq_some_iff] at h
    obtain ⟨l, hl, rfl⟩ := h
    rw [ofString, String.toList_ofList, map_ofChar_of_mapM hl]
  · rintro rfl
    exact toString?_ofString t

theorem ofString_injective {s t : String} (h : ofString s = ofString t) : s = t := by
  have hs := toString?_ofString s
  rw [h, toString?_ofString] at hs
  exact (Option.some.inj hs).symm

end PyStr

/-! ### Members -/

namespace JsonOf

variable {σ : Type} [DecidableEq σ]

theorem get?_obj_append {ms : List (σ × JsonOf σ)} {m : σ × JsonOf σ} {k : σ} :
    (obj (ms ++ [m])).get? k = if m.1 = k then some m.2 else (obj ms).get? k := by
  simp only [get?, List.findRev?_eq_find?_reverse, List.reverse_append, List.reverse_singleton,
    List.singleton_append, List.find?_cons]
  by_cases h : m.1 = k <;> simp [h]

/-- A key no member has. -/
theorem get?_obj_eq_none {ms : List (σ × JsonOf σ)} {k : σ} (h : ∀ m ∈ ms, m.1 ≠ k) :
    (obj ms).get? k = none := by
  rw [get?, List.findRev?_eq_find?_reverse, Option.map_eq_none_iff, List.find?_eq_none]
  intro m hm
  simpa using h m (List.mem_reverse.mp hm)

/-- With distinct keys, the member found first is the member found last. -/
theorem get?_obj_cons {ms : List (σ × JsonOf σ)} {m : σ × JsonOf σ} {k : σ}
    (h : ∀ n ∈ ms, n.1 ≠ m.1) :
    (obj (m :: ms)).get? k = if m.1 = k then some m.2 else (obj ms).get? k := by
  have hone : (obj [m]).get? k = if m.1 = k then some m.2 else none := by
    rw [show [m] = [] ++ [m] from rfl, get?_obj_append]
    rfl
  by_cases hk : m.1 = k
  · have hnone : (obj ms).get? k = none := get?_obj_eq_none fun n hn => hk ▸ h n hn
    rw [get?, List.findRev?_eq_find?_reverse, Option.map_eq_none_iff] at hnone
    rw [if_pos hk, get?, List.findRev?_eq_find?_reverse, List.reverse_cons, List.find?_append,
      hnone]
    simp [hk]
  · rw [if_neg hk, get?, get?, List.findRev?_eq_find?_reverse, List.findRev?_eq_find?_reverse,
      List.reverse_cons, List.find?_append]
    simp [hk]

theorem get?_insertMember {k l : String} {v : Json} {ms : List (String × Json)}
    (h : (ms.map Prod.fst).Pairwise (· < ·)) :
    (obj (insertMember k v ms)).get? l = if k = l then some v else (obj ms).get? l := by
  induction ms with
  | nil =>
    rw [insertMember, get?_obj_cons (fun n hn => absurd hn List.not_mem_nil)]
  | cons n ms ih =>
    obtain ⟨m, w⟩ := n
    rw [List.map_cons, List.pairwise_cons] at h
    obtain ⟨hm, hms⟩ := h
    have hne : ∀ n ∈ ms, n.1 ≠ m := fun n hn => (hm n.1 (List.mem_map_of_mem hn)).ne'
    rw [insertMember]
    split
    · next hlt =>
      refine get?_obj_cons fun n hn => ?_
      rcases List.mem_cons.mp hn with rfl | hn
      · exact hlt.ne'
      · exact (hlt.trans (hm n.1 (List.mem_map_of_mem hn))).ne'
    · split
      · next heq =>
        subst heq
        rw [get?_obj_cons hne, get?_obj_cons hne]
        split <;> rfl
      · next hkm =>
        have hne' : ∀ n ∈ insertMember k v ms, n.1 ≠ m := by
          intro n hn
          rcases mem_insertMember hn with rfl | hn
          · exact hkm
          · exact hne n hn
        rw [get?_obj_cons hne', get?_obj_cons hne, ih hms]
        by_cases hml : m = l
        · subst hml
          rw [if_pos rfl, if_neg hkm, if_pos rfl]
        · rw [if_neg hml, if_neg hml]

/-- A member that is found is there. -/
theorem mem_of_get? {ms : List (σ × JsonOf σ)} {k : σ} {v : JsonOf σ}
    (h : (obj ms).get? k = some v) : (k, v) ∈ ms := by
  rw [get?, List.findRev?_eq_find?_reverse, Option.map_eq_some_iff] at h
  obtain ⟨m, hm, rfl⟩ := h
  have hkey : m.1 = k := by simpa using List.find?_some hm
  have hmem := List.mem_reverse.mp (List.mem_of_find?_eq_some hm)
  rwa [← hkey]

/-- Assigning the value a key has changes nothing. -/
theorem insertMember_of_get? {k : String} {v : Json} {ms : List (String × Json)}
    (h : (ms.map Prod.fst).Pairwise (· < ·)) (hv : (obj ms).get? k = some v) :
    insertMember k v ms = ms := by
  induction ms with
  | nil => exact nomatch hv
  | cons n ms ih =>
    obtain ⟨m, w⟩ := n
    rw [List.map_cons, List.pairwise_cons] at h
    obtain ⟨hm, hms⟩ := h
    have hne : ∀ n ∈ ms, n.1 ≠ m := fun n hn => (hm n.1 (List.mem_map_of_mem hn)).ne'
    rw [get?_obj_cons hne] at hv
    by_cases heq : m = k
    · subst heq
      obtain rfl := Option.some.inj ((if_pos rfl).symm.trans hv)
      rw [insertMember, if_neg (lt_irrefl m), if_pos rfl]
    · rw [if_neg heq] at hv
      have hlt : m < k := hm k (List.mem_map_of_mem (mem_of_get? hv))
      rw [insertMember, if_neg (not_lt.mpr hlt.le), if_neg (Ne.symm heq), ih hms hv]

/-- Without the members under a key the others stay. -/
theorem get?_filter_ne {k l : σ} {ms : List (σ × JsonOf σ)} :
    (obj (ms.filter fun m => m.1 ≠ k)).get? l = if l = k then none else (obj ms).get? l := by
  by_cases hl : l = k
  · rw [if_pos hl]
    refine get?_obj_eq_none fun m hm => ?_
    have hne := (List.mem_filter.mp hm).2
    rw [hl]
    simpa using hne
  · rw [if_neg hl, get?, get?, List.findRev?_eq_find?_reverse, List.findRev?_eq_find?_reverse,
      ← List.filter_reverse, List.find?_filter]
    congr 2
    funext m
    by_cases hm : m.1 = l
    · simp [hm, hl]
    · simp [hm]

theorem toJsonMembers?_append {ms ns : List (PyStr × RawJson)} :
    toJsonMembers? (ms ++ ns) = do return (← toJsonMembers? ms) ++ (← toJsonMembers? ns) := by
  induction ms with
  | nil => simp [toJsonMembers?]
  | cons m ms ih =>
    obtain ⟨k, v⟩ := m
    rw [List.cons_append, toJsonMembers?, toJsonMembers?, ih]
    cases k.toString? <;> cases v.toJson? <;> cases toJsonMembers? ms <;>
      cases toJsonMembers? ns <;> rfl

/-- A list encodes when its items do. -/
theorem toJson?_arr_isSome {items : List RawJson} :
    (arr items).toJson?.isSome ↔ ∀ v ∈ items, v.toJson?.isSome := by
  rw [toJson?, Option.isSome_map]
  induction items with
  | nil => simp [toJsonItems?]
  | cons v vs ih =>
    rw [List.forall_mem_cons, ← ih, toJsonItems?]
    cases v.toJson? <;> cases toJsonItems? vs <;> simp

/-- A dict encodes when its keys and values do. -/
theorem toJson?_obj_isSome {ms : List (PyStr × RawJson)} :
    (obj ms).toJson?.isSome ↔ ∀ m ∈ ms, m.1.toString?.isSome ∧ m.2.toJson?.isSome := by
  rw [toJson?, Option.isSome_map]
  induction ms with
  | nil => simp [toJsonMembers?]
  | cons m ms ih =>
    obtain ⟨k, v⟩ := m
    rw [List.forall_mem_cons, ← ih, toJsonMembers?]
    cases k.toString? <;> cases v.toJson? <;> cases toJsonMembers? ms <;> simp

theorem dictOf_append {α : Type} (ms : List (String × α)) (m : String × α) :
    dictOf (ms ++ [m]) = insertMember m.1 m.2 (dictOf ms) := by
  rw [dictOf, List.foldl_append]
  rfl

theorem get?_dictOf (ms : List (String × Json)) (k : String) :
    (obj (dictOf ms)).get? k = (obj ms).get? k := by
  induction ms using List.reverseRecOn with
  | nil => rfl
  | append_singleton ms m ih =>
    rw [dictOf_append, get?_insertMember (dictOf_sorted ms), get?_obj_append, ih]

/-- A member of an encodable dict encodes to the member of the encoded dict. -/
theorem get?_of_toJsonMembers? {raws : List (PyStr × RawJson)} {ms : List (String × Json)}
    (h : toJsonMembers? raws = some ms) (k : String) :
    (∀ w, (obj raws).get? (PyStr.ofString k) = some w →
      ∃ v, w.toJson? = some v ∧ (obj (dictOf ms)).get? k = some v) ∧
    ((obj raws).get? (PyStr.ofString k) = none → (obj (dictOf ms)).get? k = none) := by
  induction raws using List.reverseRecOn generalizing ms with
  | nil =>
    simp only [toJsonMembers?, Option.some.injEq] at h
    subst h
    exact ⟨fun w hw => (nomatch hw), fun _ => rfl⟩
  | append_singleton raws m ih =>
    obtain ⟨l, w⟩ := m
    rw [toJsonMembers?_append] at h
    simp only [toJsonMembers?, Option.pure_def, Option.bind_eq_bind, Option.bind_eq_some_iff,
      Option.some.injEq] at h
    obtain ⟨ns, hns, one, ⟨s, hs, v, hv, _, rfl, rfl⟩, rfl⟩ := h
    obtain rfl := PyStr.toString?_eq_some.mp hs
    rw [dictOf_append, get?_insertMember (dictOf_sorted ns), get?_obj_append]
    by_cases hk : s = k
    · subst hk
      rw [if_pos rfl, if_pos rfl]
      refine ⟨fun u hu => ?_, fun hn => (nomatch hn)⟩
      obtain rfl := Option.some.inj hu
      exact ⟨v, hv, rfl⟩
    · rw [if_neg hk, if_neg fun he => hk (PyStr.ofString_injective he)]
      exact ih hns

/-- A member of a value that encodes. -/
theorem get?_of_toJson? {raw : RawJson} {v : Json} (h : raw.toJson? = some v) {k : String}
    {u : Json} (hu : v.get? k = some u) :
    ∃ w, raw.get? (PyStr.ofString k) = some w ∧ w.toJson? = some u := by
  cases raw with
  | obj raws =>
    rw [toJson?, Option.map_eq_some_iff] at h
    obtain ⟨ms, hms, rfl⟩ := h
    obtain ⟨hsome, hnone⟩ := get?_of_toJsonMembers? hms k
    cases hw : (obj raws).get? (PyStr.ofString k) with
    | none => rw [hnone hw] at hu; exact nomatch hu
    | some w =>
      obtain ⟨x, hx, hget⟩ := hsome w hw
      rw [hget] at hu
      exact ⟨w, rfl, hx.trans hu⟩
  | arr items =>
    rw [toJson?, Option.map_eq_some_iff] at h
    obtain ⟨_, _, rfl⟩ := h
    exact nomatch hu
  | str s =>
    rw [toJson?, Option.map_eq_some_iff] at h
    obtain ⟨_, _, rfl⟩ := h
    exact nomatch hu
  | null => cases h; exact nomatch hu
  | bool b => cases h; exact nomatch hu
  | num n => cases h; exact nomatch hu

theorem sorted_of_toJson? (raw : RawJson) : ∀ v, raw.toJson? = some v → v.Sorted := by
  induction raw using JsonOf.ind with
  | null => intro v h; cases h; exact .null
  | bool b => intro v h; cases h; exact .bool b
  | num n => intro v h; cases h; exact .num n
  | str s =>
    intro v h
    rw [toJson?, Option.map_eq_some_iff] at h
    obtain ⟨t, _, rfl⟩ := h
    exact .str t
  | arr items ih =>
    intro v h
    rw [toJson?, Option.map_eq_some_iff] at h
    obtain ⟨vs, hvs, rfl⟩ := h
    refine .arr ?_
    induction items generalizing vs with
    | nil => cases hvs; exact fun _ h => absurd h List.not_mem_nil
    | cons w ws ihs =>
      simp only [toJsonItems?, Option.pure_def, Option.bind_eq_bind, Option.bind_eq_some_iff,
        Option.some.injEq] at hvs
      obtain ⟨u, hu, us, hus, rfl⟩ := hvs
      rw [List.forall_mem_cons]
      exact ⟨ih w List.mem_cons_self u hu,
        ihs (fun w hw => ih w (List.mem_cons_of_mem _ hw)) us hus⟩
  | obj members ih =>
    intro v h
    rw [toJson?, Option.map_eq_some_iff] at h
    obtain ⟨ms, hms, rfl⟩ := h
    refine .obj (dictOf_sorted ms) (dictOf_forall ?_)
    induction members generalizing ms with
    | nil => cases hms; exact fun _ h => absurd h List.not_mem_nil
    | cons m members ihs =>
      obtain ⟨k, w⟩ := m
      simp only [toJsonMembers?, Option.pure_def, Option.bind_eq_bind, Option.bind_eq_some_iff,
        Option.some.injEq] at hms
      obtain ⟨ns, _, u, hu, us, hus, rfl⟩ := hms
      rw [List.forall_mem_cons]
      exact ⟨ih (k, w) List.mem_cons_self u hu,
        ihs (fun m hm => ih m (List.mem_cons_of_mem _ hm)) us hus⟩

/-! ### From encodings back -/

mutual
/-- The raw value of a `Json`. -/
def raw : Json → RawJson
  | null => null
  | bool b => bool b
  | num n => num n
  | str s => str (PyStr.ofString s)
  | arr items => arr (rawItems items)
  | obj members => obj (rawMembers members)

def rawItems : List Json → List RawJson
  | [] => []
  | v :: vs => raw v :: rawItems vs

def rawMembers : List (String × Json) → List (PyStr × RawJson)
  | [] => []
  | (k, v) :: ms => (PyStr.ofString k, raw v) :: rawMembers ms
end

theorem toJson?_raw {v : Json} (h : v.Sorted) : v.raw.toJson? = some v := by
  induction h with
  | null => rfl
  | bool b => rfl
  | num n => rfl
  | str s => rw [raw, toJson?, PyStr.toString?_ofString]; rfl
  | @arr items _ ih =>
    have hitems : ∀ vs : List Json, (∀ v ∈ vs, v.raw.toJson? = some v) →
        toJsonItems? (rawItems vs) = some vs := by
      intro vs
      induction vs with
      | nil => intro _; rfl
      | cons v vs ihs =>
        intro hvs
        rw [rawItems, toJsonItems?, hvs v List.mem_cons_self,
          ihs fun w hw => hvs w (List.mem_cons_of_mem _ hw)]
        rfl
    rw [raw, toJson?, hitems items ih]
    rfl
  | @obj members hkeys _ ih =>
    have hmembers : ∀ ms : List (String × Json), (∀ m ∈ ms, m.2.raw.toJson? = some m.2) →
        toJsonMembers? (rawMembers ms) = some ms := by
      intro ms
      induction ms with
      | nil => intro _; rfl
      | cons m ms ihs =>
        obtain ⟨k, v⟩ := m
        intro hms
        rw [rawMembers, toJsonMembers?, PyStr.toString?_ofString, hms (k, v) List.mem_cons_self,
          ihs fun m hm => hms m (List.mem_cons_of_mem _ hm)]
        rfl
    rw [raw, toJson?, hmembers members ih, Option.map_some, dictOf_of_sorted hkeys]

end JsonOf

end Py
