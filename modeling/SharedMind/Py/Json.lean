import Mathlib

/-!
# Decoded JSON values

The values `json.loads` returns: `None`, booleans, numbers, strings, lists and
dicts.  `JsonOf σ` is such a value with strings in `σ`.  A Python string may hold
lone surrogates, so an arbitrary decoded value is a `RawJson`, over `PyStr`; a
value whose strings are all encodable is a `Json`, over `String`.

* `PyNum.pyEq`, `JsonOf.pyEq`: Python's `==`, which compares numbers by value.
* `RawJson.toJson?`: the value with every string encoded, `none` at a lone
  surrogate.  A dict of a `Json` lists its members by increasing key
  (`JsonOf.Sorted`), so that two equal dicts are the same list.
-/

namespace Py

/-! ### Numbers -/

/-- A decimal `digits · 10 ^ exp` without trailing zero digits. -/
structure Decimal where
  digits : Nat
  exp : Int
  canon : digits % 10 ≠ 0 ∨ digits = 0 ∧ exp = 0
  deriving DecidableEq

/-- Strip the trailing zero digits of `m`, at most `fuel` of them. -/
def stripZeros : Nat → Nat → Int → Nat × Int
  | 0, m, e => (m, e)
  | fuel + 1, m, e => if m % 10 = 0 then stripZeros fuel (m / 10) (e + 1) else (m, e)

theorem stripZeros_canon : ∀ (fuel m : Nat) (e : Int), m ≠ 0 → m ≤ fuel →
    (stripZeros fuel m e).1 % 10 ≠ 0 := by
  intro fuel
  induction fuel with
  | zero => intro m e hm hf; omega
  | succ fuel ih =>
    intro m e hm hf
    rw [stripZeros]
    split
    · exact ih _ _ (by omega) (by omega)
    · assumption

/-- The decimal `m · 10 ^ e`. -/
def Decimal.ofParts (m : Nat) (e : Int) : Decimal :=
  if hm : m = 0 then ⟨0, 0, Or.inr ⟨rfl, rfl⟩⟩
  else ⟨(stripZeros m m e).1, (stripZeros m m e).2, Or.inl (stripZeros_canon m m e hm le_rfl)⟩

/-- A float.  A finite one is carried by its sign and the shortest decimal that
reads back to it, which is what `repr` prints. -/
inductive PyFloat where
  | finite (neg : Bool) (d : Decimal)
  | inf (neg : Bool)
  | nan
  deriving DecidableEq

inductive PyNum where
  | int (i : Int)
  | float (f : PyFloat)
  deriving DecidableEq

/-- Round half to even. -/
def roundHalfEven (q : ℚ) : Int :=
  let f := ⌊q⌋
  if q - f < 1 / 2 then f else if 1 / 2 < q - f then f + 1 else if f % 2 = 0 then f else f + 1

/-- The double nearest to `q`: 53 significant bits, or a multiple of `2 ^ -1074`. -/
def nearestDouble (q : ℚ) : ℚ :=
  let e := max (Int.log 2 |q| - 52) (-1074)
  roundHalfEven (q / (2 : ℚ) ^ e) * (2 : ℚ) ^ e

/-- What a number is compared by: its exact value, or the special it is. -/
inductive NumKey where
  | rat (q : ℚ)
  | inf (neg : Bool)
  | nan
  deriving DecidableEq

def PyFloat.key : PyFloat → NumKey
  | finite neg d =>
    let q := nearestDouble (d.digits * (10 : ℚ) ^ d.exp)
    .rat (if neg then -q else q)
  | inf neg => .inf neg
  | nan => .nan

def PyNum.key : PyNum → NumKey
  | int i => .rat i
  | float f => f.key

/-- `==` on numbers.  A decoded `NaN` is one object of the decoder, which Python's
container comparison takes as equal to itself. -/
def PyNum.pyEq (a b : PyNum) : Bool := a.key = b.key

@[simp] theorem PyNum.pyEq_refl (a : PyNum) : a.pyEq a = true := by simp [pyEq]

theorem PyNum.pyEq_comm (a b : PyNum) : a.pyEq b = b.pyEq a := by simp [pyEq, eq_comm]

/-- The integer a number is: an `int`, or a float of integer value. -/
def PyNum.toInt? (n : PyNum) : Option Int :=
  match n.key with
  | .rat q => if q.den = 1 then some q.num else none
  | _ => none

@[simp] theorem PyNum.toInt?_int (i : Int) : (PyNum.int i).toInt? = some i := by
  simp [toInt?, key]

theorem PyNum.toInt?_eq_of_pyEq {a b : PyNum} (h : a.pyEq b = true) : a.toInt? = b.toInt? := by
  simp only [pyEq, decide_eq_true_eq] at h
  simp only [toInt?, h]

/-- A number equals the integer `i` exactly when it is the integer `i`. -/
theorem PyNum.pyEq_int_iff (n : PyNum) (i : Int) :
    n.pyEq (.int i) = true ↔ n.toInt? = some i := by
  constructor
  · intro h
    rw [toInt?_eq_of_pyEq h, toInt?_int]
  · intro h
    simp only [toInt?] at h
    simp only [pyEq, decide_eq_true_eq]
    split at h
    · next q hq =>
      split at h
      · next hd =>
        rw [hq, PyNum.key]
        simp only [Option.some.injEq] at h
        rw [← h, NumKey.rat.injEq]
        exact (Rat.den_eq_one_iff q).mp hd |>.symm
      · simp at h
    · simp at h

/-! ### Values -/

/-- A decoded JSON value with strings in `σ`. -/
inductive JsonOf (σ : Type) where
  | null
  | bool (b : Bool)
  | num (n : PyNum)
  | str (s : σ)
  | arr (items : List (JsonOf σ))
  | obj (members : List (σ × JsonOf σ))

abbrev Json := JsonOf String

namespace JsonOf

variable {σ τ : Type}

/-- Induction on a value: a list or a dict holds if its items do. -/
@[elab_as_elim]
theorem ind {P : JsonOf σ → Prop} (null : P null) (bool : ∀ b, P (bool b)) (num : ∀ n, P (num n))
    (str : ∀ s, P (str s)) (arr : ∀ items, (∀ v ∈ items, P v) → P (arr items))
    (obj : ∀ members, (∀ m ∈ members, P m.2) → P (obj members)) (v : JsonOf σ) : P v :=
  @JsonOf.rec σ P (fun items => ∀ w ∈ items, P w) (fun members => ∀ m ∈ members, P m.2)
    (fun m => P m.2)
    null bool num str arr obj
    (fun _ hw => absurd hw List.not_mem_nil)
    (fun _ _ hw hws => List.forall_mem_cons.mpr ⟨hw, hws⟩)
    (fun _ hm => absurd hm List.not_mem_nil)
    (fun _ _ hm hms => List.forall_mem_cons.mpr ⟨hm, hms⟩)
    (fun _ _ hw => hw) v

mutual
/-- How deep containers nest. -/
def depth : JsonOf σ → Nat
  | arr items => depthItems items + 1
  | obj members => depthMembers members + 1
  | _ => 0

def depthItems : List (JsonOf σ) → Nat
  | [] => 0
  | v :: vs => max v.depth (depthItems vs)

def depthMembers : List (σ × JsonOf σ) → Nat
  | [] => 0
  | (_, v) :: ms => max v.depth (depthMembers ms)
end

mutual
/-- Python's `==`.  Dict members stand in key order on both sides. -/
def pyEq [DecidableEq σ] : JsonOf σ → JsonOf σ → Bool
  | null, null => true
  | bool a, bool b => a == b
  | bool a, num n => PyNum.pyEq (.int a.toNat) n
  | num n, bool b => n.pyEq (.int b.toNat)
  | num m, num n => m.pyEq n
  | str s, str t => s = t
  | arr xs, arr ys => pyEqItems xs ys
  | obj xs, obj ys => pyEqMembers xs ys
  | _, _ => false

def pyEqItems [DecidableEq σ] : List (JsonOf σ) → List (JsonOf σ) → Bool
  | [], [] => true
  | x :: xs, y :: ys => pyEq x y && pyEqItems xs ys
  | _, _ => false

def pyEqMembers [DecidableEq σ] : List (σ × JsonOf σ) → List (σ × JsonOf σ) → Bool
  | [], [] => true
  | (k, x) :: xs, (l, y) :: ys => decide (k = l) && (pyEq x y && pyEqMembers xs ys)
  | _, _ => false
end

@[simp] theorem pyEq_refl [DecidableEq σ] (v : JsonOf σ) : v.pyEq v = true := by
  induction v using ind with
  | null => rfl
  | bool b => simp [pyEq]
  | num n => simp [pyEq]
  | str s => simp [pyEq]
  | arr items ih =>
    rw [pyEq]
    induction items with
    | nil => rfl
    | cons v vs ihs => simp_all [pyEqItems]
  | obj members ih =>
    rw [pyEq]
    induction members with
    | nil => rfl
    | cons m ms ihs => obtain ⟨k, v⟩ := m; simp_all [pyEqMembers]

theorem pyEq_comm [DecidableEq σ] (v w : JsonOf σ) : v.pyEq w = w.pyEq v := by
  induction v using ind generalizing w with
  | null => cases w <;> simp [pyEq]
  | bool b => cases w <;> simp [pyEq, eq_comm, PyNum.pyEq_comm]
  | num n => cases w <;> simp [pyEq, PyNum.pyEq_comm]
  | str s => cases w <;> simp [pyEq, eq_comm]
  | arr items ih =>
    cases w with
    | arr others =>
      rw [pyEq, pyEq]
      induction items generalizing others with
      | nil => cases others <;> rfl
      | cons v vs ihs =>
        cases others with
        | nil => rfl
        | cons w ws =>
          rw [pyEqItems, pyEqItems, ih v List.mem_cons_self w,
            ihs (fun v hv => ih v (List.mem_cons_of_mem _ hv)) ws]
    | _ => simp [pyEq]
  | obj members ih =>
    cases w with
    | obj others =>
      rw [pyEq, pyEq]
      induction members generalizing others with
      | nil => cases others <;> rfl
      | cons m ms ihs =>
        obtain ⟨k, v⟩ := m
        cases others with
        | nil => rfl
        | cons m' ms' =>
          rw [pyEqMembers, pyEqMembers, ih (k, v) List.mem_cons_self m'.2,
            ihs (fun m hm => ih m (List.mem_cons_of_mem _ hm)) ms', decide_eq_decide.mpr eq_comm]
    | _ => simp [pyEq]

/-- `uniqueItems`: no two items are equal. -/
def uniqueItems [DecidableEq σ] (items : List (JsonOf σ)) : Prop :=
  items.Pairwise fun v w => v.pyEq w = false

instance [DecidableEq σ] (items : List (JsonOf σ)) : Decidable (uniqueItems items) :=
  inferInstanceAs (Decidable (items.Pairwise fun v w => v.pyEq w = false))

/-- `value.get(key)`: the member a dict was last given under `key`. -/
def get? [DecidableEq σ] : JsonOf σ → σ → Option (JsonOf σ)
  | obj members, key => (members.findRev? fun m => m.1 = key).map Prod.snd
  | _, _ => none

def str? : JsonOf σ → Option σ
  | str s => some s
  | _ => none

end JsonOf

/-! ### Sorted values -/

/-- Every dict lists its members by strictly increasing key. -/
inductive JsonOf.Sorted : Json → Prop
  | null : Sorted null
  | bool (b : Bool) : Sorted (bool b)
  | num (n : PyNum) : Sorted (num n)
  | str (s : String) : Sorted (str s)
  | arr {items : List Json} : (∀ v ∈ items, Sorted v) → Sorted (arr items)
  | obj {members : List (String × Json)} : (members.map Prod.fst).Pairwise (· < ·) →
      (∀ m ∈ members, Sorted m.2) → Sorted (obj members)

/-- `members[key] = value` on a dict listed by increasing key. -/
def insertMember {α : Type} (key : String) (value : α) : List (String × α) → List (String × α)
  | [] => [(key, value)]
  | (k, v) :: ms =>
    if key < k then (key, value) :: (k, v) :: ms
    else if key = k then (key, value) :: ms
    else (k, v) :: insertMember key value ms

/-- The dict built by assigning the pairs in order. -/
def dictOf {α : Type} (pairs : List (String × α)) : List (String × α) :=
  pairs.foldl (fun d m => insertMember m.1 m.2 d) []

theorem mem_insertMember {α : Type} {key : String} {value : α} {m : String × α} :
    ∀ {ms : List (String × α)}, m ∈ insertMember key value ms → m = (key, value) ∨ m ∈ ms := by
  intro ms
  induction ms with
  | nil => intro h; simpa [insertMember] using h
  | cons n ms ih =>
    obtain ⟨k, v⟩ := n
    intro h
    rw [insertMember] at h
    split at h
    · simpa using h
    · split at h
      · rcases List.mem_cons.mp h with h | h
        · exact Or.inl h
        · exact Or.inr (List.mem_cons_of_mem _ h)
      · rcases List.mem_cons.mp h with h | h
        · exact Or.inr (by simp [h])
        · rcases ih h with h | h
          · exact Or.inl h
          · exact Or.inr (List.mem_cons_of_mem _ h)

theorem insertMember_sorted {α : Type} {key : String} {value : α} :
    ∀ {ms : List (String × α)}, (ms.map Prod.fst).Pairwise (· < ·) →
      ((insertMember key value ms).map Prod.fst).Pairwise (· < ·) := by
  intro ms
  induction ms with
  | nil => intro _; simp [insertMember]
  | cons n ms ih =>
    obtain ⟨k, v⟩ := n
    intro h
    simp only [List.map_cons, List.pairwise_cons] at h
    obtain ⟨hk, hms⟩ := h
    rw [insertMember]
    split
    · next hlt =>
      simp only [List.map_cons, List.pairwise_cons, List.mem_cons]
      refine ⟨?_, hk, hms⟩
      rintro l (rfl | hl)
      · exact hlt
      · exact lt_trans hlt (hk l hl)
    · split
      · next heq =>
        subst heq
        simp only [List.map_cons, List.pairwise_cons]
        exact ⟨hk, hms⟩
      · next hnlt hne =>
        simp only [List.map_cons, List.pairwise_cons]
        refine ⟨?_, ih hms⟩
        intro l hl
        obtain ⟨m, hm, rfl⟩ := List.mem_map.mp hl
        rcases mem_insertMember hm with rfl | hm
        · exact lt_of_le_of_ne (not_lt.mp hnlt) (Ne.symm hne)
        · exact hk _ (List.mem_map_of_mem hm)

/-- Assigning to a key above every listed one appends. -/
theorem insertMember_append {α : Type} {key : String} {value : α} :
    ∀ {ms : List (String × α)}, (∀ m ∈ ms, m.1 < key) →
      insertMember key value ms = ms ++ [(key, value)] := by
  intro ms
  induction ms with
  | nil => intro _; rfl
  | cons n ms ih =>
    obtain ⟨k, v⟩ := n
    intro h
    have hk : k < key := h (k, v) (by simp)
    rw [insertMember, if_neg (not_lt.mpr hk.le), if_neg hk.ne',
      ih (fun m hm => h m (List.mem_cons_of_mem _ hm)), List.cons_append]

theorem foldl_insertMember_of_sorted {α : Type} : ∀ (ms done : List (String × α)),
    ((done ++ ms).map Prod.fst).Pairwise (· < ·) →
      ms.foldl (fun d m => insertMember m.1 m.2 d) done = done ++ ms := by
  intro ms
  induction ms with
  | nil => intro done _; simp
  | cons m ms ih =>
    intro done h
    have hlt : ∀ n ∈ done, n.1 < m.1 := by
      intro n hn
      rw [List.map_append, List.pairwise_append] at h
      exact h.2.2 n.1 (List.mem_map_of_mem hn) m.1 (by simp)
    have happ : done ++ m :: ms = (done ++ [m]) ++ ms := by simp
    rw [List.foldl_cons, insertMember_append hlt, ih _ (by rw [← happ]; exact h), happ]

/-- Members already in key order are the dict they build. -/
theorem dictOf_of_sorted {α : Type} {ms : List (String × α)}
    (h : (ms.map Prod.fst).Pairwise (· < ·)) : dictOf ms = ms := by
  simpa [dictOf] using foldl_insertMember_of_sorted ms [] (by simpa using h)

theorem foldl_insertMember_inv {α : Type} {P : α → Prop} : ∀ (ms done : List (String × α)),
    (done.map Prod.fst).Pairwise (· < ·) → (∀ m ∈ done, P m.2) → (∀ m ∈ ms, P m.2) →
      ((ms.foldl (fun d m => insertMember m.1 m.2 d) done).map Prod.fst).Pairwise (· < ·) ∧
        ∀ m ∈ ms.foldl (fun d m => insertMember m.1 m.2 d) done, P m.2 := by
  intro ms
  induction ms with
  | nil => intro done hs hd _; exact ⟨hs, hd⟩
  | cons m ms ih =>
    intro done hs hd hm
    refine ih _ (insertMember_sorted hs) ?_ (fun n hn => hm n (List.mem_cons_of_mem _ hn))
    intro n hn
    rcases mem_insertMember hn with rfl | hn
    · exact hm m (by simp)
    · exact hd n hn

theorem dictOf_sorted {α : Type} (ms : List (String × α)) :
    ((dictOf ms).map Prod.fst).Pairwise (· < ·) :=
  (foldl_insertMember_inv (P := fun _ => True) ms [] (by simp) (by simp) (by simp)).1

theorem dictOf_forall {α : Type} {P : α → Prop} {ms : List (String × α)} (h : ∀ m ∈ ms, P m.2) :
    ∀ m ∈ dictOf ms, P m.2 :=
  (foldl_insertMember_inv ms [] (by simp) (by simp) h).2

/-! ### Strings with lone surrogates -/

/-- A Python string: its code points, lone surrogates included. -/
structure PyStr where
  points : List (Fin 0x110000)
  deriving DecidableEq

namespace PyStr

def ofChar (c : Char) : Fin 0x110000 :=
  ⟨c.toNat, by have := c.valid; simp only [Char.toNat]; unfold UInt32.isValidChar at this; omega⟩

def toChar? (p : Fin 0x110000) : Option Char :=
  if h : Nat.isValidChar p.val then some (Char.ofNatAux p.val h) else none

def ofString (s : String) : PyStr := ⟨s.toList.map ofChar⟩

theorem points_injective : Function.Injective points := by
  intro s t h
  cases s
  cases t
  exact congrArg mk h

/-- The text of a string without lone surrogates. -/
def toString? (s : PyStr) : Option String := (s.points.mapM toChar?).map String.ofList

end PyStr

instance lawfulBEq_point : LawfulBEq (Fin 0x110000) := inferInstance

instance neZero_points : NeZero 0x110000 := inferInstance

instance lawfulBEq_chars : LawfulBEq (List Char) := inferInstance

abbrev RawJson := JsonOf PyStr

namespace JsonOf

mutual
/-- The value with its strings encoded; `none` when one holds a lone surrogate. -/
def toJson? : RawJson → Option Json
  | null => some null
  | bool b => some (bool b)
  | num n => some (num n)
  | str s => s.toString?.map str
  | arr items => (toJsonItems? items).map arr
  | obj members => (toJsonMembers? members).map fun ms => obj (dictOf ms)

def toJsonItems? : List RawJson → Option (List Json)
  | [] => some []
  | v :: vs => do return (← v.toJson?) :: (← toJsonItems? vs)

def toJsonMembers? : List (PyStr × RawJson) → Option (List (String × Json))
  | [] => some []
  | (k, v) :: ms => do return (← k.toString?, ← v.toJson?) :: (← toJsonMembers? ms)
end

end JsonOf

end Py
