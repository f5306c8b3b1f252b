import SharedMind.Py.Codec

/-!
# Objects of any members

* `JsonOf.isSorted`: whether every dict lists its members by increasing key.
* `AnyObject`: a dict, its members free.
-/

namespace Py

namespace JsonOf

mutual
/-- Every dict lists its members by strictly increasing key. -/
def isSorted : Json → Bool
  | arr items => isSortedItems items
  | obj members => decide ((members.map Prod.fst).Pairwise (· < ·)) && isSortedMembers members
  | _ => true

def isSortedItems : List Json → Bool
  | [] => true
  | v :: vs => v.isSorted && isSortedItems vs

def isSortedMembers : List (String × Json) → Bool
  | [] => true
  | (_, v) :: ms => v.isSorted && isSortedMembers ms
end

theorem isSortedItems_eq_all (items : List Json) : isSortedItems items = items.all isSorted := by
  induction items with
  | nil => rfl
  | cons v vs ih => rw [isSortedItems, ih, List.all_cons]

theorem isSortedMembers_eq_all (members : List (String × Json)) :
    isSortedMembers members = members.all fun m => m.2.isSorted := by
  induction members with
  | nil => rfl
  | cons m ms ih => rw [isSortedMembers, ih, List.all_cons]

theorem isSorted_of_sorted {v : Json} (h : v.Sorted) : v.isSorted = true := by
  induction h with
  | arr _ ih =>
    rw [isSorted, isSortedItems_eq_all, List.all_eq_true]
    exact ih
  | obj hkeys _ ih =>
    rw [isSorted, isSortedMembers_eq_all, Bool.and_eq_true, decide_eq_true_eq, List.all_eq_true]
    exact ⟨hkeys, ih⟩
  | _ => rfl

mutual
theorem sorted_of_isSorted : ∀ {v : Json}, v.isSorted = true → v.Sorted
  | null, _ => .null
  | bool b, _ => .bool b
  | num n, _ => .num n
  | str s, _ => .str s
  | arr items, h => .arr (sortedItems_of_isSorted (by rwa [isSorted] at h))
  | obj members, h => by
    rw [isSorted, Bool.and_eq_true, decide_eq_true_eq] at h
    exact .obj h.1 (sortedMembers_of_isSorted h.2)

theorem sortedItems_of_isSorted : ∀ {items : List Json}, isSortedItems items = true →
    ∀ v ∈ items, v.Sorted
  | [], _ => by simp
  | v :: vs, h => by
    rw [isSortedItems, Bool.and_eq_true] at h
    rw [List.forall_mem_cons]
    exact ⟨sorted_of_isSorted h.1, sortedItems_of_isSorted h.2⟩

theorem sortedMembers_of_isSorted : ∀ {members : List (String × Json)},
    isSortedMembers members = true → ∀ m ∈ members, m.2.Sorted
  | [], _ => by simp
  | (_, v) :: ms, h => by
    rw [isSortedMembers, Bool.and_eq_true] at h
    rw [List.forall_mem_cons]
    exact ⟨sorted_of_isSorted h.1, sortedMembers_of_isSorted h.2⟩
end

theorem isSorted_iff {v : Json} : v.isSorted = true ↔ v.Sorted :=
  ⟨sorted_of_isSorted, isSorted_of_sorted⟩

instance (v : Json) : Decidable v.Sorted := decidable_of_iff _ isSorted_iff

end JsonOf

/-- A dict, with any members. -/
structure AnyObject where
  members : List (String × Json)
  sorted : (JsonOf.obj members).Sorted

namespace AnyObject

def json (o : AnyObject) : Json := .obj o.members

def codec : Codec AnyObject where
  enc := json
  dec v := match v with
    | .obj ms => if h : (JsonOf.obj ms).Sorted then some ⟨ms, h⟩ else none
    | _ => none
  dec_enc o := dif_pos o.sorted
  enc_dec {v o} h := by
    cases v with
    | obj ms =>
      simp only at h
      split at h
      · obtain rfl := Option.some.inj h
        rfl
      · exact nomatch h
    | _ => exact nomatch h
  sorted o := o.sorted

theorem codec_enc (o : AnyObject) : codec.enc o = o.json := rfl

/-- `document.get(key)`. -/
def get? (o : AnyObject) (key : String) : Option Json := o.json.get? key

def empty : AnyObject := ⟨[], by decide⟩

end AnyObject

end Py
