import SharedMind.Py.Bytes
import SharedMind.Py.JsonText

/-!
# How long the text of a value is

* `JsonOf.sizeBound`: a bound on the length of `dumps`, which looks at no character.
* `JsonOf.length_utf8_dumps_le`: the encoded text is at most four times as long.
-/

namespace Py

/-! ### Strings -/

theorem length_utf8_le (s : List Char) : (utf8 (String.ofList s)).length ≤ 4 * s.length := by
  rw [utf8_ofList]
  induction s with
  | nil => simp
  | cons c cs ih =>
    have hc : (String.utf8EncodeChar c).length ≤ 4 := by
      rw [String.length_utf8EncodeChar]
      exact Char.utf8Size_le_four c
    simp only [List.flatMap_cons, List.length_append, List.length_cons]
    omega

/-- A character takes at least one byte. -/
theorem length_toList_le (s : String) : s.toList.length ≤ s.utf8ByteSize := by
  have hsize : s.utf8ByteSize = (utf8 s).length := by
    show s.toByteArray.size = _
    rw [← toByteArray_utf8, List.size_toByteArray]
  rw [hsize, utf8]
  generalize s.toList = cs
  induction cs with
  | nil => simp
  | cons c cs ih =>
    have hc : 1 ≤ (String.utf8EncodeChar c).length := by
      rw [String.length_utf8EncodeChar]
      exact c.utf8Size_pos
    simp only [List.flatMap_cons, List.length_append, List.length_cons]
    omega

/-- An escape has at most six characters. -/
theorem length_escapeChar_le (c : Char) : (escapeChar c).length ≤ 6 := by
  unfold escapeChar
  split_ifs <;> simp

theorem length_quote_le (s : String) : (quote s.toList).length ≤ 6 * s.utf8ByteSize + 2 := by
  have hflat : (s.toList.flatMap escapeChar).length ≤ 6 * s.toList.length := by
    generalize s.toList = cs
    induction cs with
    | nil => simp
    | cons c cs ih =>
      have hc := length_escapeChar_le c
      simp only [List.flatMap_cons, List.length_append, List.length_cons]
      omega
  have hlen := length_toList_le s
  simp only [quote, List.length_cons, List.length_append, List.length_nil]
  omega

/-! ### Values -/

namespace JsonOf

mutual
def sizeBound : Json → Nat
  | null => 4
  | .bool _ => 5
  | num n => n.text.length
  | str s => 6 * s.utf8ByteSize + 2
  | arr items => itemsBound items + 2
  | obj members => membersBound members + 2

def itemsBound : List Json → Nat
  | [] => 0
  | v :: vs => v.sizeBound + 1 + itemsBound vs

def membersBound : List (String × Json) → Nat
  | [] => 0
  | (k, v) :: ms => 6 * k.utf8ByteSize + v.sizeBound + 4 + membersBound ms
end

mutual
theorem length_print_le : ∀ v : Json, v.print.length ≤ v.sizeBound
  | null => by decide
  | .bool true => by decide
  | .bool false => by decide
  | num n => by simp [print, sizeBound]
  | str s => length_quote_le s
  | arr items => by
    have h := length_printItems_le items
    simp only [print, sizeBound, List.length_cons, List.length_append, List.length_nil]
    omega
  | obj members => by
    have h := length_printMembers_le members
    simp only [print, sizeBound, List.length_cons, List.length_append, List.length_nil]
    omega

theorem length_printItems_le : ∀ vs : List Json, (printItems vs).length ≤ itemsBound vs
  | [] => by simp [printItems, itemsBound]
  | [v] => by
    have h := length_print_le v
    simp only [printItems, itemsBound]
    omega
  | v :: w :: vs => by
    have h := length_print_le v
    have hs := length_printItems_le (w :: vs)
    rw [printItems, itemsBound]
    simp only [List.length_append, List.length_cons]
    omega

theorem length_printMembers_le :
    ∀ ms : List (String × Json), (printMembers ms).length ≤ membersBound ms
  | [] => by simp [printMembers, membersBound]
  | [(k, v)] => by
    have h := length_print_le v
    have hk := length_quote_le k
    simp only [printMembers, membersBound, List.length_append, List.length_cons]
    omega
  | (k, v) :: m :: ms => by
    have h := length_print_le v
    have hk := length_quote_le k
    have hs := length_printMembers_le (m :: ms)
    rw [printMembers, membersBound]
    simp only [List.length_append, List.length_cons]
    omega
end

theorem length_utf8_dumps_le {v : Json} {n : Nat} (h : 4 * v.sizeBound ≤ n) :
    (utf8 v.dumps).length ≤ n :=
  calc (utf8 v.dumps).length
    _ ≤ 4 * v.print.length := length_utf8_le v.print
    _ ≤ 4 * v.sizeBound := Nat.mul_le_mul_left 4 v.length_print_le
    _ ≤ n := h

end JsonOf

end Py
