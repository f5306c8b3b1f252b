import SharedMind.Py.Lines
import SharedMind.Py.Url

/-!
# Lines of text

* `strip`: `str.strip`.
* `strSplitlines`: `str.splitlines`, which ends a line at ten characters, and
  `newlineLines`: the lines that end at CR, LF and CRLF alone.
* `splitlinesKeepends`: `bytes.splitlines(keepends=True)`.
* `splitlinesKeepends_utf8`: **the lines of encoded text are the encoded lines of the text that
  end at CR, LF and CRLF**.
* `strSplitlines_eq_newlineLines`: the two agree on a text without the other eight characters.
-/

namespace Py

/-! ### Blanks -/

def lstrip (s : List Char) : List Char := s.dropWhile isSpace

def rstrip (s : List Char) : List Char := (s.reverse.dropWhile isSpace).reverse

/-- `str.strip`. -/
def strip (s : List Char) : List Char := rstrip (lstrip s)

/-! ### Lines -/

/-- The characters at which `str.splitlines` ends a line. -/
def isLineEnd (c : Char) : Bool :=
  c.toNat ∈ [10, 11, 12, 13, 28, 29, 30, 0x85, 0x2028, 0x2029]

def isNewline (c : Char) : Bool := c = '\n' || c = '\r'

/-- The lines with what ends them, from `line` on, which is under way and stands backwards. -/
def textPiecesFrom (ends : Char → Bool) (line : List Char) :
    List Char → List (List Char × List Char)
  | [] => if line = [] then [] else [(line.reverse, [])]
  | '\r' :: '\n' :: r => (line.reverse, ['\r', '\n']) :: textPiecesFrom ends [] r
  | c :: r =>
    if ends c then (line.reverse, [c]) :: textPiecesFrom ends [] r
    else textPiecesFrom ends (c :: line) r

/-- `str.splitlines`. -/
def strSplitlines (s : List Char) : List (List Char) :=
  (textPiecesFrom isLineEnd [] s).map Prod.fst

/-- The lines that CR, LF and CRLF end. -/
def newlineLines (s : List Char) : List (List Char) :=
  (textPiecesFrom isNewline [] s).map Prod.fst

/-- The lines of bytes with what ends them, from `line` on, which stands backwards. -/
def splitlinesKeependsFrom (line : Bytes) : Bytes → List Bytes
  | [] => if line = [] then [] else [line.reverse]
  | 13 :: 10 :: r => (10 :: 13 :: line).reverse :: splitlinesKeependsFrom [] r
  | b :: r =>
    if b = 10 ∨ b = 13 then (b :: line).reverse :: splitlinesKeependsFrom [] r
    else splitlinesKeependsFrom (b :: line) r

/-- `bytes.splitlines(keepends=True)`. -/
def splitlinesKeepends (content : Bytes) : List Bytes := splitlinesKeependsFrom [] content

/-- `line.rstrip(b"\r\n")`. -/
def rstripNewlines (line : Bytes) : Bytes :=
  (line.reverse.dropWhile fun b => b = 10 || b = 13).reverse

section

variable {ends : Char → Bool} {line s : List Char}

/-- `str.splitlines` and the lines at newlines differ in eight characters. -/
theorem textPiecesFrom_congr {ends ends' : Char → Bool} (h : ∀ c ∈ s, ends c = ends' c) :
    textPiecesFrom ends line s = textPiecesFrom ends' line s := by
  induction line, s using textPiecesFrom.induct ends with
  | case1 => rfl
  | case2 line hne => rfl
  | case3 line r ih =>
    rw [textPiecesFrom, textPiecesFrom,
      ih fun c hc => h c (List.mem_cons_of_mem _ (List.mem_cons_of_mem _ hc))]
  | case4 line c r hnot hends ih =>
    rw [textPiecesFrom, textPiecesFrom, if_pos hends, if_pos (h c List.mem_cons_self ▸ hends),
      ih fun c hc => h c (List.mem_cons_of_mem _ hc)]
    · exact hnot
    · exact hnot
  | case5 line c r hnot hends ih =>
    rw [textPiecesFrom, textPiecesFrom, if_neg hends, if_neg (h c List.mem_cons_self ▸ hends),
      ih fun c hc => h c (List.mem_cons_of_mem _ hc)]
    · exact hnot
    · exact hnot

/-- **Both ways to cut a text agree when none of the other eight characters stands in it.** -/
theorem strSplitlines_eq_newlineLines (h : ∀ c ∈ s, isLineEnd c = true → isNewline c = true) :
    strSplitlines s = newlineLines s := by
  have hback : ∀ c : Char, isNewline c = true → isLineEnd c = true := by
    intro c hc
    rcases Bool.or_eq_true_iff.mp hc with hc | hc <;>
      rw [of_decide_eq_true hc] <;> decide
  rw [strSplitlines, newlineLines, textPiecesFrom_congr fun c hc =>
    Bool.eq_iff_iff.mpr ⟨h c hc, hback c⟩]

/-- What a line and its end consist of. -/
structure TextPiece (ends : Char → Bool) (p : List Char × List Char) : Prop where
  inside : ∀ c ∈ p.1, ends c = false
  atEnd : ∀ c ∈ p.2, ends c = true

theorem textPiecesFrom_textPiece (hcr : ends '\r' = true) (hlf : ends '\n' = true)
    (hline : ∀ c ∈ line, ends c = false) :
    ∀ p ∈ textPiecesFrom ends line s, TextPiece ends p := by
  induction line, s using textPiecesFrom.induct ends with
  | case1 => simp [textPiecesFrom]
  | case2 line hne =>
    rw [textPiecesFrom, if_neg hne]
    simpa using (⟨by simpa using hline, by simp⟩ : TextPiece ends (line.reverse, []))
  | case3 line r ih =>
    rw [textPiecesFrom]
    exact List.forall_mem_cons.mpr ⟨⟨by simpa using hline, by simp [hcr, hlf]⟩, ih (by simp)⟩
  | case4 line c r hnot hends ih =>
    rw [textPiecesFrom, if_pos hends]
    · exact List.forall_mem_cons.mpr ⟨⟨by simpa using hline, by simpa using hends⟩, ih (by simp)⟩
    · exact hnot
  | case5 line c r hnot hends ih =>
    rw [textPiecesFrom, if_neg hends]
    · exact ih (List.forall_mem_cons.mpr ⟨by simpa using hends, hline⟩)
    · exact hnot

/-- The lines with their ends make up the text. -/
theorem textPiecesFrom_flatMap :
    (textPiecesFrom ends line s).flatMap (fun p => p.1 ++ p.2) = line.reverse ++ s := by
  induction line, s using textPiecesFrom.induct ends with
  | case1 => rfl
  | case2 line hne => simp [textPiecesFrom, hne]
  | case3 line r ih => simp [textPiecesFrom, ih]
  | case4 line c r hnot hends ih =>
    rw [textPiecesFrom, if_pos hends, List.flatMap_cons, ih]
    · simp
    · exact hnot
  | case5 line c r hnot hends ih =>
    rw [textPiecesFrom, if_neg hends, ih]
    · simp
    · exact hnot

end

/-! ### Encoded lines -/

/-- A byte of a character that ends no line ends none. -/
theorem byte_of_not_isNewline {c : Char} (hc : isNewline c = false) :
    ∀ b ∈ String.utf8EncodeChar c, ¬(b = 10 ∨ b = 13) := by
  by_cases h : 32 ≤ c.toNat
  · intro b hb hbad
    have hlow := byte_utf8EncodeChar h b hb
    rcases hbad with rfl | rfl <;> exact absurd hlow (by decide)
  · have hval : c.val.toNat = c.toNat := rfl
    intro b hb
    rw [String.utf8EncodeChar, if_pos (by omega), List.mem_singleton] at hb
    subst hb
    have hne : c.toNat ≠ 10 ∧ c.toNat ≠ 13 := by
      constructor
      · intro h10
        have : c = '\n' := Char.toNat_inj.mp h10
        simp [isNewline, this] at hc
      · intro h13
        have : c = '\r' := Char.toNat_inj.mp h13
        simp [isNewline, this] at hc
    rw [← UInt8.toNat_inj, ← UInt8.toNat_inj, UInt8.toNat_ofNat']
    simp only [UInt8.reduceToNat]
    omega

theorem splitlinesKeependsFrom_append {line l r : Bytes} (hl : ∀ b ∈ l, ¬(b = 10 ∨ b = 13)) :
    splitlinesKeependsFrom line (l ++ r) = splitlinesKeependsFrom (l.reverse ++ line) r := by
  induction l generalizing line with
  | nil => rfl
  | cons b l ih =>
    have hb := hl b List.mem_cons_self
    rw [List.cons_append, splitlinesKeependsFrom, if_neg hb,
      ih fun c hc => hl c (List.mem_cons_of_mem _ hc), List.reverse_cons, List.append_assoc,
      List.singleton_append]
    intro _ h _
    exact absurd (Or.inr h) hb

def encode (s : List Char) : Bytes := s.flatMap String.utf8EncodeChar

@[simp] theorem encode_nil : encode [] = [] := rfl

@[simp] theorem encode_cons (c : Char) (s : List Char) :
    encode (c :: s) = String.utf8EncodeChar c ++ encode s := rfl

@[simp] theorem encode_append (s t : List Char) : encode (s ++ t) = encode s ++ encode t :=
  List.flatMap_append

theorem utf8_eq_encode (s : String) : utf8 s = encode s.toList := rfl

theorem utf8Decode?_encode (s : List Char) : utf8Decode? (encode s) = some (String.ofList s) := by
  rw [← utf8Decode?_utf8 (String.ofList s), utf8_ofList]
  rfl

theorem encode_head_ne {s : List Char} {b : UInt8} {r : Bytes} (h : encode s = b :: r)
    (hs : ∀ t, s ≠ '\n' :: t) : b ≠ 10 := by
  cases s with
  | nil => exact nomatch h
  | cons c t =>
    obtain ⟨a, as, has⟩ := List.exists_cons_of_ne_nil (String.utf8EncodeChar_ne_nil (c := c))
    rw [encode_cons, has, List.cons_append] at h
    obtain ⟨rfl, -⟩ := List.cons.inj h
    by_cases hc : isNewline c = true
    · rcases Bool.or_eq_true_iff.mp hc with hc | hc
      · exact absurd (congrArg (· :: t) (of_decide_eq_true hc)) (hs t)
      · obtain rfl := of_decide_eq_true hc
        obtain ⟨rfl, -⟩ := List.cons.inj has
        decide
    · exact fun h10 => byte_of_not_isNewline (Bool.not_eq_true _ ▸ hc) a (has ▸ List.mem_cons_self)
        (Or.inl h10)

theorem splitlinesKeependsFrom_encode (line s : List Char) :
    splitlinesKeependsFrom (encode line.reverse).reverse (encode s) =
      (textPiecesFrom isNewline line s).map fun p => encode p.1 ++ encode p.2 := by
  induction line, s using textPiecesFrom.induct isNewline with
  | case1 => rfl
  | case2 line hne =>
    have hbytes : (encode line.reverse).reverse ≠ [] := by
      cases line with
      | nil => exact absurd rfl hne
      | cons c r => simp [String.utf8EncodeChar_ne_nil]
    rw [textPiecesFrom, if_neg hne, encode_nil, splitlinesKeependsFrom, if_neg hbytes]
    simp
  | case3 line r ih =>
    show splitlinesKeependsFrom _ (13 :: 10 :: encode r) = _
    rw [textPiecesFrom, splitlinesKeependsFrom, List.map_cons, ← ih]
    simp
    rfl
  | case4 line c r hnot hends ih =>
    rw [textPiecesFrom, if_pos hends, List.map_cons, ← ih]
    · rcases Bool.or_eq_true_iff.mp hends with hc | hc
      · obtain rfl := of_decide_eq_true hc
        show splitlinesKeependsFrom _ (10 :: encode r) = _
        rw [splitlinesKeependsFrom, if_pos (Or.inl rfl)]
        · simp
          rfl
        · intro _ h _
          exact absurd h (by decide)
      · obtain rfl := of_decide_eq_true hc
        show splitlinesKeependsFrom _ (13 :: encode r) = _
        rw [splitlinesKeependsFrom, if_pos (Or.inr rfl)]
        · simp
          rfl
        · intro r' _ hr
          exact encode_head_ne hr (fun t ht => hnot t rfl ht) rfl
    · exact hnot
  | case5 line c r hnot hends ih =>
    rw [textPiecesFrom, if_neg hends, encode_cons,
      splitlinesKeependsFrom_append (byte_of_not_isNewline (Bool.not_eq_true _ ▸ hends)), ← ih]
    · simp
    · exact hnot

/-- **The lines of encoded text are the encoded lines of the text.** -/
theorem splitlinesKeepends_utf8 (s : String) : splitlinesKeepends (utf8 s) =
    (textPiecesFrom isNewline [] s.toList).map fun p => encode p.1 ++ encode p.2 :=
  splitlinesKeependsFrom_encode [] s.toList

/-- The end of a line is stripped from its bytes, and nothing else. -/
theorem rstripNewlines_textPiece {p : List Char × List Char} (h : TextPiece isNewline p) :
    rstripNewlines (encode p.1 ++ encode p.2) = encode p.1 := by
  have hend : ∀ b ∈ (encode p.2).reverse, (decide (b = 10) || decide (b = 13)) = true := by
    intro b hb
    obtain ⟨c, hc, hb⟩ := List.mem_flatMap.mp (List.mem_reverse.mp hb)
    rcases Bool.or_eq_true_iff.mp (h.atEnd c hc) with hc | hc
    · obtain rfl := of_decide_eq_true hc
      obtain rfl : b = 10 := List.mem_singleton.mp hb
      rfl
    · obtain rfl := of_decide_eq_true hc
      obtain rfl : b = 13 := List.mem_singleton.mp hb
      rfl
  rw [rstripNewlines, List.reverse_append, List.dropWhile_append_of_pos hend]
  cases hrev : (encode p.1).reverse with
  | nil => rw [List.reverse_eq_nil_iff.mp hrev]; rfl
  | cons b r =>
    have hb : b ∈ encode p.1 := List.mem_reverse.mp (hrev ▸ List.mem_cons_self)
    obtain ⟨c, hc, hbc⟩ := List.mem_flatMap.mp hb
    have hnot := byte_of_not_isNewline (h.inside c hc) b hbc
    rw [List.dropWhile_cons_of_neg (by simpa using hnot), ← hrev, List.reverse_reverse]

end Py
