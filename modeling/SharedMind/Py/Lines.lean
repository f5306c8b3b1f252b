import SharedMind.Py.Bytes
import SharedMind.Py.JsonRoundTrip

/-!
# Lines of JSON

* `splitlines`: `bytes.splitlines`.
* `splitlines_jsonLines`: the lines of a file of JSON texts are the texts, as no printed
  value has a character that ends a line.
* `readLines_jsonLines`: the values come back.
-/

namespace Py

/-! ### Lines -/

/-- The lines from `line` on, which is under way and stands backwards. -/
def splitlinesFrom (line : Bytes) : Bytes → List Bytes
  | [] => if line = [] then [] else [line.reverse]
  | 13 :: 10 :: r => line.reverse :: splitlinesFrom [] r
  | b :: r =>
    if b = 10 ∨ b = 13 then line.reverse :: splitlinesFrom [] r else splitlinesFrom (b :: line) r

/-- `bytes.splitlines`. -/
def splitlines (content : Bytes) : List Bytes := splitlinesFrom [] content

theorem splitlinesFrom_line {line l r : Bytes} (hl : ∀ b ∈ l, 32 ≤ b.toNat) :
    splitlinesFrom line (l ++ 10 :: r) = (line.reverse ++ l) :: splitlinesFrom [] r := by
  induction l generalizing line with
  | nil =>
    rw [List.nil_append, List.append_nil]
    cases r <;> simp [splitlinesFrom]
  | cons b l ih =>
    have hb := hl b List.mem_cons_self
    have hne : b ≠ 10 ∧ b ≠ 13 := by
      constructor
      · rintro rfl
        exact absurd hb (by decide)
      · rintro rfl
        exact absurd hb (by decide)
    have hstep : splitlinesFrom line (b :: (l ++ 10 :: r)) =
        splitlinesFrom (b :: line) (l ++ 10 :: r) := by
      rw [splitlinesFrom]
      · rw [if_neg (by simp [hne])]
      · intro _ h _
        exact absurd h hne.2
    rw [List.cons_append, hstep, ih fun c hc => hl c (List.mem_cons_of_mem _ hc)]
    simp

/-! ### What ends no line -/

/-- A character of a printed value. -/
def Printed (s : List Char) : Prop := ∀ c ∈ s, 32 ≤ c.toNat

@[simp] theorem printed_nil : Printed [] := fun _ h => absurd h List.not_mem_nil

@[simp] theorem printed_cons {c : Char} {s : List Char} :
    Printed (c :: s) ↔ 32 ≤ c.toNat ∧ Printed s := List.forall_mem_cons

@[simp] theorem printed_append {s t : List Char} : Printed (s ++ t) ↔ Printed s ∧ Printed t :=
  List.forall_mem_append

theorem printed_toDigits {n : Nat} : Printed (Nat.toDigits 10 n) := by
  intro c hc
  have h := isDigit_toDigits c hc
  simp only [Char.isDigit, Bool.and_eq_true, decide_eq_true_eq, ge_iff_le] at h
  exact le_trans (by decide) (UInt32.le_iff_toNat_le.mp h.1)

theorem printed_replicate {n : Nat} : Printed (List.replicate n '0') := by
  intro c hc
  rw [List.eq_of_mem_replicate hc]
  decide

theorem printed_of_subset {s t : List Char} (ht : Printed t) (h : s ⊆ t) : Printed s :=
  fun c hc => ht c (h hc)

theorem printed_digitChar : ∀ n < 16, 32 ≤ (Nat.digitChar n).toNat := by decide

theorem printed_escapeChar (c : Char) : Printed (escapeChar c) := by
  rw [escapeChar]
  split_ifs with h1 h2 h3 h4 h5 h6 h7 h8
  · simp
  · simp
  · simp
  · simp
  · simp
  · simp
  · simp
  · have hhigh := printed_digitChar (c.toNat / 16) (by omega)
    have hlow := printed_digitChar (c.toNat % 16) (by omega)
    simp [hhigh, hlow]
  · simpa using not_lt.mp h8

theorem printed_quote (s : List Char) : Printed (quote s) := by
  rw [quote, printed_cons, printed_append]
  refine ⟨by simp, fun c hc => ?_, by simp⟩
  obtain ⟨d, _, hd⟩ := List.mem_flatMap.mp hc
  exact printed_escapeChar d c hd

theorem printed_sign (neg : Bool) : Printed (if neg then ['-'] else []) := by
  cases neg <;> simp

theorem printed_exponentText (e : Int) : Printed (exponentText e) := by
  simp only [exponentText]
  rw [printed_cons, printed_cons]
  refine ⟨by simp, by split <;> simp, ?_⟩
  split
  · exact printed_cons.mpr ⟨by simp, printed_toDigits⟩
  · exact printed_toDigits

theorem printed_decimal (d : Decimal) : Printed d.text := by
  have htake : ∀ n, Printed ((Nat.toDigits 10 d.digits).take n) := fun n =>
    printed_of_subset printed_toDigits (List.take_subset _ _)
  have hdrop : ∀ n, Printed ((Nat.toDigits 10 d.digits).drop n) := fun n =>
    printed_of_subset printed_toDigits (List.drop_subset _ _)
  simp only [Decimal.text]
  split_ifs <;> simp only [printed_append, printed_cons, printed_nil, printed_toDigits,
    printed_replicate, printed_exponentText, htake, hdrop, and_true, true_and] <;> simp

theorem printed_text (n : PyNum) : Printed n.text := by
  cases n with
  | int i =>
    rw [PyNum.text, intText, printed_append]
    exact ⟨by split <;> simp, printed_toDigits⟩
  | float f =>
    cases f with
    | finite neg d => exact printed_append.mpr ⟨printed_sign neg, printed_decimal d⟩
    | inf neg => exact printed_append.mpr ⟨printed_sign neg, by simp⟩
    | nan => simp [PyNum.text, PyFloat.text]

namespace JsonOf

mutual
theorem printed_print : ∀ v : Json, Printed v.print
  | null => by simp [print]
  | .bool true => by simp [print]
  | .bool false => by simp [print]
  | num n => printed_text n
  | str s => printed_quote s.toList
  | arr items => by
    rw [print, printed_cons, printed_append]
    exact ⟨by simp, printed_printItems items, by simp⟩
  | obj members => by
    rw [print, printed_cons, printed_append]
    exact ⟨by simp, printed_printMembers members, by simp⟩

theorem printed_printItems : ∀ vs : List Json, Printed (printItems vs)
  | [] => printed_nil
  | [v] => printed_print v
  | v :: w :: vs => by
    rw [printItems, printed_append, printed_cons]
    exact ⟨printed_print v, by simp, printed_printItems (w :: vs)⟩

theorem printed_printMembers : ∀ ms : List (String × Json), Printed (printMembers ms)
  | [] => printed_nil
  | [(k, v)] => by
    rw [printMembers, printed_append, printed_cons]
    exact ⟨printed_quote _, by simp, printed_print v⟩
  | (k, v) :: m :: ms => by
    rw [printMembers, printed_append, printed_cons, printed_append, printed_cons]
    exact ⟨printed_quote _, by simp, printed_print v, by simp, printed_printMembers (m :: ms)⟩
end

end JsonOf

theorem byte_utf8EncodeChar {c : Char} (hc : 32 ≤ c.toNat) :
    ∀ b ∈ String.utf8EncodeChar c, 32 ≤ b.toNat := by
  have hlt : c.val.toNat < 0x110000 := by
    have := c.valid
    unfold UInt32.isValidChar Nat.isValidChar at this
    omega
  have hval : c.toNat = c.val.toNat := rfl
  intro b hb
  simp only [String.utf8EncodeChar] at hb
  split_ifs at hb <;> simp only [List.mem_cons, List.not_mem_nil, or_false] at hb
  · subst hb
    simp only [UInt8.toNat_ofNat']
    omega
  · rcases hb with rfl | rfl <;> simp only [UInt8.toNat_ofNat'] <;> omega
  · rcases hb with rfl | rfl | rfl <;> simp only [UInt8.toNat_ofNat'] <;> omega
  · rcases hb with rfl | rfl | rfl | rfl <;> simp only [UInt8.toNat_ofNat'] <;> omega

/-! ### Files of JSON texts -/

/-- `(canonical_json(value) + "\n").encode("utf-8")`. -/
def jsonLine (value : Json) : Bytes := utf8 value.dumps ++ [10]

def jsonLines (values : List Json) : Bytes := values.flatMap jsonLine

/-- `json.loads` of each line. -/
def readLines (content : Bytes) : Option (List Json) :=
  (splitlines content).mapM fun line => do loads (← utf8Decode? line)

@[simp] theorem jsonLines_append (vs ws : List Json) :
    jsonLines (vs ++ ws) = jsonLines vs ++ jsonLines ws := List.flatMap_append

theorem jsonLines_singleton (v : Json) : jsonLines [v] = jsonLine v := List.flatMap_singleton _ _

theorem byte_dumps (v : Json) : ∀ b ∈ utf8 v.dumps, 32 ≤ b.toNat := by
  intro b hb
  rw [JsonOf.dumps, utf8_ofList] at hb
  obtain ⟨c, hc, hbc⟩ := List.mem_flatMap.mp hb
  exact byte_utf8EncodeChar (v.printed_print c hc) b hbc

/-- **The lines of a file of JSON texts are the texts.** -/
theorem splitlines_jsonLines (vs : List Json) :
    splitlines (jsonLines vs) = vs.map fun v => utf8 v.dumps := by
  induction vs with
  | nil => rfl
  | cons v vs ih =>
    rw [splitlines, jsonLines, List.flatMap_cons, jsonLine, List.append_assoc, List.singleton_append,
      splitlinesFrom_line (byte_dumps v), List.map_cons, ← ih]
    rfl

/-- **What was written as lines is read back.** -/
theorem readLines_jsonLines {vs : List Json} (h : ∀ v ∈ vs, v.Sorted) :
    readLines (jsonLines vs) = some vs := by
  rw [readLines, splitlines_jsonLines]
  induction vs with
  | nil => rfl
  | cons v vs ih =>
    rw [List.map_cons, List.mapM_cons, utf8Decode?_utf8,
      ih fun w hw => h w (List.mem_cons_of_mem _ hw)]
    simp [loads_dumps (h v List.mem_cons_self)]

end Py
