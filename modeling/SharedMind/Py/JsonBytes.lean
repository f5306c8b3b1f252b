import SharedMind.Gen.SelfSize
import SharedMind.Py.Bytes
import SharedMind.Py.JsonText

/-!
# How many bytes a canonical text has

* `bytesOf`: the bytes of a list of characters.
* `JsonOf.bytes`: the bytes of a value's canonical text; `bytes_obj`: those of a dict are the sum of
  its members'.
* `bytes_nat`: those of a number are its digits.
-/

namespace Py

/-- The bytes of some characters in UTF-8. -/
def bytesOf (s : List Char) : ℕ := (utf8 (String.ofList s)).length

theorem bytesOf_append (s t : List Char) : bytesOf (s ++ t) = bytesOf s + bytesOf t := by
  rw [bytesOf, utf8_ofList, List.flatMap_append, List.length_append, ← utf8_ofList, ← utf8_ofList]
  rfl

theorem bytesOf_cons (c : Char) (s : List Char) : bytesOf (c :: s) = bytesOf [c] + bytesOf s :=
  bytesOf_append [c] s

/-- A digit is one byte. -/
theorem bytesOf_digits {s : List Char} (h : ∀ c ∈ s, c.isDigit = true) : bytesOf s = s.length := by
  induction s with
  | nil => rfl
  | cons c s ih =>
    have hc : bytesOf [c] = 1 := by
      have hsize : (String.utf8EncodeChar c).length = 1 := by
        have hdigit := h c List.mem_cons_self
        rw [Char.isDigit, Bool.and_eq_true, decide_eq_true_iff, decide_eq_true_iff] at hdigit
        rw [String.length_utf8EncodeChar, Char.utf8Size_eq_one_iff]
        have hle : c.val.toNat ≤ '9'.val.toNat := UInt32.le_iff_toNat_le.mp hdigit.2
        exact UInt32.le_iff_toNat_le.mpr (hle.trans (by decide))
      rw [bytesOf, utf8_ofList, List.flatMap_singleton, hsize]
    rw [bytesOf_cons, hc, ih fun d hd => h d (List.mem_cons_of_mem _ hd), List.length_cons,
      Nat.add_comm]

namespace JsonOf

/-- The bytes of the canonical text. -/
def bytes (v : Json) : ℕ := (utf8 v.dumps).length

theorem bytes_eq (v : Json) : v.bytes = bytesOf v.print := rfl

/-- The bytes of a member, with its colon and what closes it. -/
def memberBytes (m : String × Json) : ℕ := bytesOf (quote m.1.toList) + m.2.bytes + 2

theorem bytesOf_printMembers {ms : List (String × Json)} (h : ms ≠ []) :
    bytesOf (printMembers ms) + 1 = (ms.map memberBytes).sum := by
  have hcolon : bytesOf [':'] = 1 := by decide
  have hcomma : bytesOf [','] = 1 := by decide
  induction ms with
  | nil => exact absurd rfl h
  | cons m ms ih =>
    obtain ⟨k, v⟩ := m
    cases ms with
    | nil =>
      rw [printMembers, bytesOf_append, bytesOf_cons, hcolon, List.map_singleton,
        List.sum_singleton, memberBytes, bytes_eq]
      show bytesOf (quote k.toList) + (1 + bytesOf v.print) + 1 =
        bytesOf (quote k.toList) + bytesOf v.print + 2
      omega
    | cons m ms =>
      have hrest := ih (List.cons_ne_nil _ _)
      rw [printMembers, bytesOf_append, bytesOf_cons, hcolon, bytesOf_append,
        bytesOf_cons ',', hcomma, List.map_cons, List.sum_cons, ← hrest, memberBytes, bytes_eq]
      show bytesOf (quote k.toList) +
          (1 + (bytesOf v.print + (1 + bytesOf (printMembers (m :: ms))))) + 1 =
        bytesOf (quote k.toList) + bytesOf v.print + 2 + (bytesOf (printMembers (m :: ms)) + 1)
      omega

/-- **The bytes of a dict** are the sum of its members'. -/
theorem bytes_obj {ms : List (String × Json)} (h : ms ≠ []) :
    (obj ms).bytes = (ms.map memberBytes).sum + 1 := by
  have hopen : bytesOf ['{'] = 1 := by decide
  have hclose : bytesOf ['}'] = 1 := by decide
  rw [bytes_eq, print, bytesOf_cons, bytesOf_append, hopen, hclose, ← bytesOf_printMembers h]
  omega

/-- The bytes of a number are its digits. -/
theorem bytes_nat (n : ℕ) : (num (.int n)).bytes = SelfSize.width n := by
  rw [bytes_eq, print, PyNum.text, intText, if_neg (not_lt.mpr (Int.natCast_nonneg n)),
    List.nil_append, Int.natAbs_natCast, bytesOf_digits fun c hc => Nat.isDigit_of_mem_toDigits
      (by decide) (by decide) hc]
  rfl

end JsonOf

end Py
