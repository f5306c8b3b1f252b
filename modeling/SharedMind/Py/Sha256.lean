import SharedMind.Py.Bytes
import SharedMind.Py.JsonText

/-!
# Digests, evaluated

The digest of a text, computed with its words at hand: the sixteen words of the schedule and the
eight of the chain are arguments, each computed before it is passed on.  A value is printed byte by
byte, in front of the bytes that follow it.

* `fastRounds_eq`, `fastCompress_eq`, `fastBlocks_eq`, `fastDigest_eq`: this is `Sha256.digest`.
* `JsonOf.fastPrint_eq`: these are the bytes of `JsonOf.print`.
* `sha256Hex_of_fastPrint`: **the digest of a value, from the bytes it is printed with**.
-/

namespace Py.Sha256

/-- `k n`, with `n` evaluated first. -/
def force {α : Type} (n : Nat) (k : Nat → α) : α :=
  match n with
  | 0 => k 0
  | Nat.succ m => k (Nat.succ m)

@[simp] theorem force_eq {α : Type} (n : Nat) (k : Nat → α) : force n k = k n := by
  cases n <;> rfl

def fastAdd (x y : Nat) : Nat := Nat.mod (Nat.add x y) 4294967296

/-- `rotr n`, with `m` for `32 - n`. -/
def fastRotr (n m x : Nat) : Nat :=
  Nat.lor (Nat.shiftRight x n) (Nat.mod (Nat.shiftLeft x m) 4294967296)

/-- The next word of the schedule. -/
def fastWord (w0 w1 w9 w14 : Nat) : Nat :=
  Nat.mod (Nat.add (Nat.add (Nat.add w0
    (Nat.xor (Nat.xor (fastRotr 7 25 w1) (fastRotr 18 14 w1)) (Nat.shiftRight w1 3))) w9)
    (Nat.xor (Nat.xor (fastRotr 17 15 w14) (fastRotr 19 13 w14)) (Nat.shiftRight w14 10)))
    4294967296

def fastT1 (k w e f g h : Nat) : Nat :=
  Nat.add (Nat.add (Nat.add (Nat.add h
    (Nat.xor (Nat.xor (fastRotr 6 26 e) (fastRotr 11 21 e)) (fastRotr 25 7 e)))
    (Nat.xor (Nat.land e f) (Nat.land (Nat.xor 4294967295 e) g))) k) w

def fastT2 (a b c : Nat) : Nat :=
  Nat.add (Nat.xor (Nat.xor (fastRotr 2 30 a) (fastRotr 13 19 a)) (fastRotr 22 10 a))
    (Nat.xor (Nat.xor (Nat.land a b) (Nat.land a c)) (Nat.land b c))

def fastRounds : List Nat → Nat → Nat → Nat → Nat → Nat → Nat → Nat → Nat → Nat → Nat → Nat → Nat →
    Nat → Nat → Nat → Nat → Nat → Nat → Nat → Nat → Nat → Nat → Nat → Nat → Chain
  | [], _, _, _, _, _, _, _, _, _, _, _, _, _, _, _, _, a, b, c, d, e, f, g, h =>
    ⟨a, b, c, d, e, f, g, h⟩
  | k :: ks, w0, w1, w2, w3, w4, w5, w6, w7, w8, w9, w10, w11, w12, w13, w14, w15,
      a, b, c, d, e, f, g, h =>
    force (fastWord w0 w1 w9 w14) fun w16 =>
    force (fastT1 k w0 e f g h) fun t1 =>
    force (fastAdd t1 (fastT2 a b c)) fun a' =>
    force (fastAdd d t1) fun e' =>
    fastRounds ks w1 w2 w3 w4 w5 w6 w7 w8 w9 w10 w11 w12 w13 w14 w15 w16 a' a b c e' e f g

theorem fastRounds_eq (ks : List Nat) (w0 w1 w2 w3 w4 w5 w6 w7 w8 w9 w10 w11 w12 w13 w14 w15
    a b c d e f g h : Nat) :
    fastRounds ks w0 w1 w2 w3 w4 w5 w6 w7 w8 w9 w10 w11 w12 w13 w14 w15 a b c d e f g h =
      rounds ks [w0, w1, w2, w3, w4, w5, w6, w7, w8, w9, w10, w11, w12, w13, w14, w15]
        ⟨a, b, c, d, e, f, g, h⟩ := by
  induction ks generalizing w0 w1 w2 w3 w4 w5 w6 w7 w8 w9 w10 w11 w12 w13 w14 w15 a b c d e f g h with
  | nil => rfl
  | cons k ks ih =>
    rw [fastRounds, force_eq, force_eq, force_eq, force_eq, ih]
    rfl

/-- The chain after a block of sixteen words; any other block as `compress` has it. -/
def fastCompress (s : Chain) (block : List Nat) : Chain :=
  match words block with
  | [w0, w1, w2, w3, w4, w5, w6, w7, w8, w9, w10, w11, w12, w13, w14, w15] =>
    force w0 fun w0 => force w1 fun w1 => force w2 fun w2 => force w3 fun w3 =>
    force w4 fun w4 => force w5 fun w5 => force w6 fun w6 => force w7 fun w7 =>
    force w8 fun w8 => force w9 fun w9 => force w10 fun w10 => force w11 fun w11 =>
    force w12 fun w12 => force w13 fun w13 => force w14 fun w14 => force w15 fun w15 =>
    force s.a fun a => force s.b fun b => force s.c fun c => force s.d fun d =>
    force s.e fun e => force s.f fun f => force s.g fun g => force s.h fun h =>
    match fastRounds roundConstants w0 w1 w2 w3 w4 w5 w6 w7 w8 w9 w10 w11 w12 w13 w14 w15
        a b c d e f g h with
    | ⟨a', b', c', d', e', f', g', h'⟩ =>
      ⟨fastAdd a a', fastAdd b b', fastAdd c c', fastAdd d d', fastAdd e e', fastAdd f f',
        fastAdd g g', fastAdd h h'⟩
  | _ => compress s block

theorem fastCompress_eq (s : Chain) (block : List Nat) : fastCompress s block = compress s block := by
  unfold fastCompress
  split
  · next hwords =>
    simp only [force_eq, fastRounds_eq]
    rw [compress, hwords]
    rfl
  · rfl

def fastBlocks : Nat → Chain → List Nat → Chain
  | 0, s, _ => s
  | n + 1, s, data => fastBlocks n (fastCompress s (data.take 64)) (data.drop 64)

theorem fastBlocks_eq (n : Nat) (s : Chain) (data : List Nat) :
    fastBlocks n s data = blocks n s data := by
  induction n generalizing s data with
  | zero => rfl
  | succ n ih => rw [fastBlocks, blocks, fastCompress_eq, ih]

/-- The words of the digest of these bytes. -/
def fastDigest (data : List Nat) : List Nat :=
  let padded := pad data
  match fastBlocks (padded.length / 64) initial padded with
  | ⟨a, b, c, d, e, f, g, h⟩ => [a, b, c, d, e, f, g, h]

theorem fastDigest_eq (data : Bytes) : fastDigest (data.map UInt8.toNat) = digest data := by
  unfold fastDigest
  simp only [fastBlocks_eq]
  rfl

end Py.Sha256

namespace Py

/-- The bytes of characters, as numbers. -/
def codes (l : List Char) : List Nat := (l.flatMap String.utf8EncodeChar).map UInt8.toNat

@[simp] theorem codes_nil : codes [] = [] := rfl

theorem codes_cons (c : Char) (l : List Char) : codes (c :: l) = codes [c] ++ codes l := by
  simp [codes]

@[simp] theorem codes_append (l l' : List Char) : codes (l ++ l') = codes l ++ codes l' := by
  simp [codes]

/-- The bytes of a text, read off where they are stored. -/
def stored (s : String) : List Nat := s.toByteArray.data.toList.map UInt8.toNat

theorem stored_eq (s : String) : stored s = codes s.toList := by
  have h := toByteArray_utf8 s
  rw [stored, codes, ← h]
  simp [utf8]

/-- The bytes of a character as it is printed, in front of `rest`. -/
def escapeByte (b : Nat) (rest : List Nat) : List Nat :=
  bif Nat.ble 93 b || (Nat.ble 35 b && Nat.ble b 91) then b :: rest
  else codes (escapeChar (Char.ofNat b)) ++ rest

theorem escapeByte_ascii : ∀ n < 128, escapeByte n [] = codes (escapeChar (Char.ofNat n)) := by
  decide

theorem escapeByte_eq (b : Nat) (rest : List Nat) : escapeByte b rest = escapeByte b [] ++ rest := by
  unfold escapeByte
  cases Nat.ble 93 b || (Nat.ble 35 b && Nat.ble b 91) <;> simp

theorem escapeByte_high {b : Nat} (h : 128 ≤ b) : escapeByte b [] = [b] := by
  have hle : Nat.ble 93 b = true := Nat.ble_eq.mpr (by omega)
  rw [escapeByte, hle, Bool.true_or, cond_true]

theorem codes_ascii {c : Char} (h : c.toNat < 128) : codes [c] = [c.toNat] := by
  have hle : c.val.toNat ≤ 127 := Nat.le_of_lt_succ h
  have hbyte : (UInt8.ofNat c.val.toNat).toNat = c.toNat := by
    rw [UInt8.toNat_ofNat', Nat.mod_eq_of_lt (by omega)]
    rfl
  rw [codes, List.flatMap_singleton, String.utf8EncodeChar]
  simp only [hle, if_true, List.map_cons, List.map_nil, hbyte]

theorem codes_high {c : Char} (h : 128 ≤ c.toNat) : ∀ b ∈ codes [c], 128 ≤ b := by
  have hle : ¬c.val.toNat ≤ 127 := by
    have : c.toNat = c.val.toNat := rfl
    omega
  intro b hb
  simp only [codes, List.flatMap_cons, List.flatMap_nil, List.append_nil, String.utf8EncodeChar,
    hle, if_false] at hb
  split at hb
  · simp at hb
    omega
  · split at hb
    · simp at hb
      omega
    · simp at hb
      omega

theorem escapeChar_high {c : Char} (h : 128 ≤ c.toNat) : escapeChar c = [c] := by
  have hne : ∀ d : Char, d.toNat < 128 → c ≠ d := by
    intro d hd heq
    rw [heq] at h
    omega
  simp only [escapeChar, hne '"' (by decide), hne '\\' (by decide), hne '\n' (by decide),
    hne '\r' (by decide), hne '\t' (by decide), hne '\x0c' (by decide), hne '\x08' (by decide),
    if_false, if_neg (show ¬c.toNat < 32 by omega)]

/-- A character is printed byte by byte. -/
theorem codes_escapeChar (c : Char) :
    codes (escapeChar c) = (codes [c]).flatMap fun b => escapeByte b [] := by
  by_cases h : c.toNat < 128
  · rw [codes_ascii h, List.flatMap_singleton, escapeByte_ascii _ h, Char.ofNat_toNat]
  · have hhigh := codes_high (Nat.le_of_not_lt h)
    rw [escapeChar_high (Nat.le_of_not_lt h), List.flatMap_congr fun b hb =>
      escapeByte_high (hhigh b hb), List.flatMap_singleton']

/-- The bytes of a quoted text, in front of `rest`. -/
def fastQuote (bytes rest : List Nat) : List Nat := 34 :: bytes.foldr escapeByte (34 :: rest)

theorem foldr_escapeByte (bytes rest : List Nat) :
    bytes.foldr escapeByte rest = (bytes.flatMap fun b => escapeByte b []) ++ rest := by
  induction bytes with
  | nil => rfl
  | cons b bytes ih => rw [List.foldr_cons, escapeByte_eq, ih, List.flatMap_cons, List.append_assoc]

theorem fastQuote_eq (l : List Char) (rest : List Nat) :
    fastQuote (codes l) rest = codes (quote l) ++ rest := by
  have hchars : codes (l.flatMap escapeChar) = (codes l).flatMap fun b => escapeByte b [] := by
    induction l with
    | nil => rfl
    | cons c l ih =>
      rw [List.flatMap_cons, codes_append, codes_escapeChar, ih, codes_cons c l,
        List.flatMap_append]
  have hquote : codes ['"'] = [34] := rfl
  rw [fastQuote, foldr_escapeByte, quote, codes_cons, codes_append, hchars, hquote]
  simp

namespace JsonOf

mutual
/-- The bytes `v` is printed with, in front of `rest`. -/
def fastPrint : Json → List Nat → List Nat
  | null, rest => 110 :: 117 :: 108 :: 108 :: rest
  | bool true, rest => 116 :: 114 :: 117 :: 101 :: rest
  | bool false, rest => 102 :: 97 :: 108 :: 115 :: 101 :: rest
  | num n, rest => codes n.text ++ rest
  | str s, rest => fastQuote (stored s) rest
  | arr items, rest => 91 :: fastItems items (93 :: rest)
  | obj members, rest => 123 :: fastMembers members (125 :: rest)

def fastItems : List Json → List Nat → List Nat
  | [], rest => rest
  | [v], rest => v.fastPrint rest
  | v :: w :: vs, rest => v.fastPrint (44 :: fastItems (w :: vs) rest)

def fastMembers : List (String × Json) → List Nat → List Nat
  | [], rest => rest
  | [(k, v)], rest => fastQuote (stored k) (58 :: v.fastPrint rest)
  | (k, v) :: m :: ms, rest =>
    fastQuote (stored k) (58 :: v.fastPrint (44 :: fastMembers (m :: ms) rest))
end

mutual
theorem fastPrint_eq : ∀ (v : Json) (rest : List Nat), v.fastPrint rest = codes v.print ++ rest
  | null, rest => by rw [fastPrint, print]; rfl
  | bool true, rest => by rw [fastPrint, print]; rfl
  | bool false, rest => by rw [fastPrint, print]; rfl
  | num n, rest => by rw [fastPrint, print]
  | str s, rest => by rw [fastPrint, print, stored_eq, fastQuote_eq]
  | arr items, rest => by
    rw [fastPrint, print, fastItems_eq items, codes_cons, codes_append]
    simp [show codes ['['] = [91] from rfl, show codes [']'] = [93] from rfl]
  | obj members, rest => by
    rw [fastPrint, print, fastMembers_eq members, codes_cons, codes_append]
    simp [show codes ['\x7b'] = [123] from rfl, show codes ['\x7d'] = [125] from rfl]

theorem fastItems_eq : ∀ (vs : List Json) (rest : List Nat),
    fastItems vs rest = codes (printItems vs) ++ rest
  | [], rest => by rw [fastItems, printItems]; rfl
  | [v], rest => by rw [fastItems, printItems, fastPrint_eq v]
  | v :: w :: vs, rest => by
    rw [fastItems, printItems, fastPrint_eq v, fastItems_eq (w :: vs), codes_append,
      codes_cons ',']
    simp [show codes [','] = [44] from rfl]

theorem fastMembers_eq : ∀ (ms : List (String × Json)) (rest : List Nat),
    fastMembers ms rest = codes (printMembers ms) ++ rest
  | [], rest => by rw [fastMembers, printMembers]; rfl
  | [(k, v)], rest => by
    rw [fastMembers, printMembers, stored_eq, fastQuote_eq, fastPrint_eq v, codes_append,
      codes_cons ':']
    simp [show codes [':'] = [58] from rfl]
  | (k, v) :: m :: ms, rest => by
    rw [fastMembers, printMembers, stored_eq, fastQuote_eq, fastPrint_eq v, fastMembers_eq (m :: ms),
      codes_append, codes_cons ':', codes_append, codes_cons ',']
    simp [show codes [':'] = [58] from rfl, show codes [','] = [44] from rfl]
end

end JsonOf

theorem codes_injective : Function.Injective codes := by
  intro l l' h
  have hbytes : utf8 (String.ofList l) = utf8 (String.ofList l') := by
    rw [utf8_ofList, utf8_ofList]
    exact List.map_injective_iff.mpr (fun _ _ => UInt8.toNat_inj.mp) h
  have htext := congrArg utf8Decode? hbytes
  rw [utf8Decode?_utf8, utf8Decode?_utf8] at htext
  exact String.ofList_injective (Option.some.inj htext)

/-- **The digest of a value**, from the bytes it is printed with. -/
theorem sha256Hex_of_fastPrint {v : Json} {digits : String}
    (h : ((Sha256.fastDigest (v.fastPrint [])).flatMap fun w => codes (Sha256.hexWord w)) =
      stored digits) : sha256Hex (utf8 v.dumps) = digits.toList := by
  have hdigest : Sha256.fastDigest (v.fastPrint []) = Sha256.digest (utf8 v.dumps) := by
    rw [JsonOf.fastPrint_eq, List.append_nil, codes, Sha256.fastDigest_eq, JsonOf.dumps, utf8_ofList]
  have hcodes (ws : List Nat) : (ws.flatMap fun w => codes (Sha256.hexWord w)) =
      codes (ws.flatMap Sha256.hexWord) := by
    induction ws with
    | nil => rfl
    | cons w ws ih => rw [List.flatMap_cons, List.flatMap_cons, codes_append, ih]
  rw [hcodes, hdigest, stored_eq] at h
  exact codes_injective h

end Py
