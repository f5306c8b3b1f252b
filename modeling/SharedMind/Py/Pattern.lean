import Mathlib

/-!
# Regular expressions of bounded character classes

The patterns of the contract are sequences of character classes, each repeated
between two bounds.

* `fullmatch`: the whole string matches, as `re.fullmatch` and `^…$` without the
  newline rule.
* `search`: `re.search` on `^…$`.  `$` also matches before a trailing newline, so
  a string with one more newline at its end is found too.
-/

namespace Py

/-- A character class and how often it repeats; no upper bound is `none`. -/
structure Piece where
  cls : Char → Bool
  lo : Nat
  hi : Option Nat

namespace Piece

/-- A class exactly once. -/
def one (cls : Char → Bool) : Piece := ⟨cls, 1, some 1⟩

/-- A class any number of times. -/
def star (cls : Char → Bool) : Piece := ⟨cls, 0, none⟩

/-- A class once or more. -/
def plus (cls : Char → Bool) : Piece := ⟨cls, 1, none⟩

/-- One character. -/
def lit (c : Char) : Piece := one (· == c)

/-- The characters of a text, one after the other. -/
def text (s : String) : List Piece := s.toList.map lit

/-- How long a run of the class may be. -/
def admits (p : Piece) (n : Nat) : Bool := p.lo ≤ n && p.hi.all (n ≤ ·)

end Piece

/-- The whole list of characters is runs of the pieces in order. -/
def matchPieces : List Piece → List Char → Bool
  | [], s => s.isEmpty
  | p :: ps, s => (List.range (s.length + 1)).any fun n =>
      p.admits n && ((s.take n).all p.cls && matchPieces ps (s.drop n))

theorem matchPieces_nil : matchPieces [] [] = true := rfl

/-- A run of the first piece, and the rest. -/
theorem matchPieces_cons_iff {p : Piece} {ps : List Piece} {s : List Char} :
    matchPieces (p :: ps) s = true ↔ ∃ a b, s = a ++ b ∧ p.admits a.length = true ∧
      a.all p.cls = true ∧ matchPieces ps b = true := by
  rw [matchPieces]
  simp only [List.any_eq_true, List.mem_range, Bool.and_eq_true]
  constructor
  · rintro ⟨n, hn, hadm, hall, hrest⟩
    refine ⟨s.take n, s.drop n, (List.take_append_drop n s).symm, ?_, hall, hrest⟩
    rw [List.length_take, Nat.min_eq_left (by omega)]
    exact hadm
  · rintro ⟨a, b, rfl, hadm, hall, hrest⟩
    refine ⟨a.length, by simp, hadm, ?_, ?_⟩
    · rw [List.take_left]
      exact hall
    · rw [List.drop_left]
      exact hrest

theorem matchPieces_append {ps qs : List Piece} {s t : List Char} (hs : matchPieces ps s = true)
    (ht : matchPieces qs t = true) : matchPieces (ps ++ qs) (s ++ t) = true := by
  induction ps generalizing s with
  | nil =>
    rw [matchPieces, List.isEmpty_iff] at hs
    subst hs
    exact ht
  | cons p ps ih =>
    obtain ⟨a, b, rfl, hadm, hall, hb⟩ := matchPieces_cons_iff.mp hs
    exact matchPieces_cons_iff.mpr ⟨a, b ++ t, List.append_assoc a b t, hadm, hall, ih hb⟩

theorem matchPieces_singleton {p : Piece} {s : List Char} (hadm : p.admits s.length = true)
    (hall : s.all p.cls = true) : matchPieces [p] s = true :=
  matchPieces_cons_iff.mpr ⟨s, [], (List.append_nil s).symm, hadm, hall, rfl⟩

/-- A character that starts no match of the first piece starts no match. -/
theorem matchPieces_head {cls : Char → Bool} {ps : List Piece} {s : List Char}
    (h : matchPieces (Piece.one cls :: ps) s = true) : ∃ c t, s = c :: t ∧ cls c = true := by
  obtain ⟨a, b, rfl, hadm, hall, _⟩ := matchPieces_cons_iff.mp h
  cases a with
  | nil => simp [Piece.one, Piece.admits] at hadm
  | cons c a =>
    rw [List.all_cons, Bool.and_eq_true] at hall
    exact ⟨c, a ++ b, rfl, hall.1⟩

/-- The pattern `alternatives`, each a sequence of pieces. -/
structure Pattern where
  alternatives : List (List Piece)

namespace Pattern

def matches_ (p : Pattern) (s : List Char) : Bool := p.alternatives.any (matchPieces · s)

/-- `re.fullmatch`. -/
def fullmatch (p : Pattern) (s : String) : Bool := p.matches_ s.toList

/-- `re.search` on the pattern between `^` and `$`. -/
def search (p : Pattern) (s : String) : Bool :=
  p.matches_ s.toList || s.toList.getLast? == some '\n' && p.matches_ s.toList.dropLast

theorem search_of_fullmatch {p : Pattern} {s : String} (h : p.fullmatch s = true) :
    p.search s = true := by
  rw [fullmatch] at h
  rw [search, h, Bool.true_or]

end Pattern

/-! ### Classes -/

def lowerChar (c : Char) : Bool := 'a' ≤ c && c ≤ 'z'

def upperChar (c : Char) : Bool := 'A' ≤ c && c ≤ 'Z'

def digitChar (c : Char) : Bool := '0' ≤ c && c ≤ '9'

def oneOf (s : String) (c : Char) : Bool := s.toList.elem c

/-- A class that holds either. -/
def orElse (f g : Char → Bool) (c : Char) : Bool := f c || g c

end Py
