import Mathlib

/-!
# Bytes

* `utf8`, `utf8Decode?`: `str.encode("utf-8")` and `bytes.decode("utf-8")`.
* `sha256Hex`: `hashlib.sha256(data).hexdigest()`, with `sha256Hex_length` and
  `sha256Hex_digit` for the shape of its output.
* `b64decode?`: `base64.b64decode(payload, validate=True)`.
* `unquoteToBytes`: `urllib.parse.unquote_to_bytes`.
-/

namespace Py

abbrev Bytes := List UInt8

def utf8 (s : String) : Bytes := s.toList.flatMap String.utf8EncodeChar

def utf8Decode? (b : Bytes) : Option String := String.fromUTF8? b.toByteArray

theorem toByteArray_utf8 (s : String) : (utf8 s).toByteArray = s.toByteArray := by
  rw [← String.utf8Encode_toList]
  rfl

theorem utf8Decode?_utf8 (s : String) : utf8Decode? (utf8 s) = some s := by
  rw [utf8Decode?, toByteArray_utf8, String.fromUTF8?, dif_pos s.isValidUTF8]
  rfl

/-- Decoding accepts only the encoding of its result. -/
theorem utf8_of_utf8Decode? {b : Bytes} {s : String} (h : utf8Decode? b = some s) :
    utf8 s = b := by
  rw [utf8Decode?, String.fromUTF8?] at h
  split at h
  · simp only [Option.some.injEq] at h
    subst h
    rw [← List.toByteArray_inj, toByteArray_utf8]
    rfl
  · simp at h

theorem utf8_ofList (l : List Char) : utf8 (String.ofList l) = l.flatMap String.utf8EncodeChar := by
  rw [utf8, String.toList_ofList]

/-- `data[start:stop]` for bounds that are not negative: beyond the end it stops
at the end. -/
def slice (data : Bytes) (start stop : Nat) : Bytes := (data.take stop).drop start

/-! ### SHA-256 -/

namespace Sha256

def add32 (x y : Nat) : Nat := (x + y) % 2 ^ 32

def rotr (n x : Nat) : Nat := (x >>> n) ||| ((x <<< (32 - n)) % 2 ^ 32)

def roundConstants : List Nat :=
  [0x428a2f98, 0x71374491, 0xb5c0fbcf, 0xe9b5dba5, 0x3956c25b, 0x59f111f1, 0x923f82a4, 0xab1c5ed5,
   0xd807aa98, 0x12835b01, 0x243185be, 0x550c7dc3, 0x72be5d74, 0x80deb1fe, 0x9bdc06a7, 0xc19bf174,
   0xe49b69c1, 0xefbe4786, 0x0fc19dc6, 0x240ca1cc, 0x2de92c6f, 0x4a7484aa, 0x5cb0a9dc, 0x76f988da,
   0x983e5152, 0xa831c66d, 0xb00327c8, 0xbf597fc7, 0xc6e00bf3, 0xd5a79147, 0x06ca6351, 0x14292967,
   0x27b70a85, 0x2e1b2138, 0x4d2c6dfc, 0x53380d13, 0x650a7354, 0x766a0abb, 0x81c2c92e, 0x92722c85,
   0xa2bfe8a1, 0xa81a664b, 0xc24b8b70, 0xc76c51a3, 0xd192e819, 0xd6990624, 0xf40e3585, 0x106aa070,
   0x19a4c116, 0x1e376c08, 0x2748774c, 0x34b0bcb5, 0x391c0cb3, 0x4ed8aa4a, 0x5b9cca4f, 0x682e6ff3,
   0x748f82ee, 0x78a5636f, 0x84c87814, 0x8cc70208, 0x90befffa, 0xa4506ceb, 0xbef9a3f7, 0xc67178f2]

/-- The eight chaining words. -/
structure Chain where
  (a b c d e f g h : Nat)

def initial : Chain :=
  ⟨0x6a09e667, 0xbb67ae85, 0x3c6ef372, 0xa54ff53a, 0x510e527f, 0x9b05688c, 0x1f83d9ab, 0x5be0cd19⟩

def round (s : Chain) (k w : Nat) : Chain :=
  let s1 := rotr 6 s.e ^^^ rotr 11 s.e ^^^ rotr 25 s.e
  let ch := (s.e &&& s.f) ^^^ ((0xffffffff ^^^ s.e) &&& s.g)
  let t1 := s.h + s1 + ch + k + w
  let s0 := rotr 2 s.a ^^^ rotr 13 s.a ^^^ rotr 22 s.a
  let maj := (s.a &&& s.b) ^^^ (s.a &&& s.c) ^^^ (s.b &&& s.c)
  ⟨add32 t1 (s0 + maj), s.a, s.b, s.c, add32 s.d t1, s.e, s.f, s.g⟩

/-- The rounds, with the next sixteen schedule words at hand. -/
def rounds : List Nat → List Nat → Chain → Chain
  | k :: ks, w :: ws, s =>
    let w1 := ws.getD 0 0
    let w14 := ws.getD 13 0
    let s0 := rotr 7 w1 ^^^ rotr 18 w1 ^^^ (w1 >>> 3)
    let s1 := rotr 17 w14 ^^^ rotr 19 w14 ^^^ (w14 >>> 10)
    rounds ks (ws ++ [(w + s0 + ws.getD 8 0 + s1) % 2 ^ 32]) (round s k w)
  | _, _, s => s

/-- Big-endian words. -/
def words : List Nat → List Nat
  | a :: b :: c :: d :: r => (((a * 256 + b) * 256 + c) * 256 + d) :: words r
  | _ => []

def compress (s : Chain) (block : List Nat) : Chain :=
  let t := rounds roundConstants (words block) s
  ⟨add32 s.a t.a, add32 s.b t.b, add32 s.c t.c, add32 s.d t.d,
   add32 s.e t.e, add32 s.f t.f, add32 s.g t.g, add32 s.h t.h⟩

def blocks : Nat → Chain → List Nat → Chain
  | 0, s, _ => s
  | n + 1, s, data => blocks n (compress s (data.take 64)) (data.drop 64)

/-- The message, a one bit, zeros, and the length in bits as eight bytes. -/
def pad (data : List Nat) : List Nat :=
  data ++ 0x80 :: (List.replicate ((119 - data.length % 64) % 64) 0 ++
    (List.range 8).map fun i => (data.length * 8) >>> (56 - 8 * i) % 256)

def digest (data : Bytes) : List Nat :=
  let padded := pad (data.map UInt8.toNat)
  let s := blocks (padded.length / 64) initial padded
  [s.a, s.b, s.c, s.d, s.e, s.f, s.g, s.h]

/-- A word as eight hexadecimal digits. -/
def hexWord (w : Nat) : List Char :=
  (List.range 8).map fun i => Nat.digitChar (w >>> (28 - 4 * i) % 16)

end Sha256

/-- `hashlib.sha256(data).hexdigest()`. -/
def sha256Hex (data : Bytes) : List Char := (Sha256.digest data).flatMap Sha256.hexWord

def isHexChar (c : Char) : Bool := '0' ≤ c && c ≤ '9' || 'a' ≤ c && c ≤ 'f'

theorem isHexChar_digitChar : ∀ n < 16, isHexChar (Nat.digitChar n) = true := by decide

@[simp] theorem sha256Hex_length (data : Bytes) : (sha256Hex data).length = 64 := by
  simp [sha256Hex, Sha256.digest, Sha256.hexWord]

theorem sha256Hex_digit (data : Bytes) : ∀ c ∈ sha256Hex data, isHexChar c = true := by
  intro c hc
  obtain ⟨w, _, hw⟩ := List.mem_flatMap.mp hc
  obtain ⟨i, _, rfl⟩ := List.mem_map.mp hw
  exact isHexChar_digitChar _ (Nat.mod_lt _ (by decide))

example : sha256Hex [97, 98, 99] =
    "ba7816bf8f01cfea414140de5dae2223b00361a396177a9cb410ff61f20015ad".toList := by
  decide

/-! ### Base64 -/

/-- The six bits of a base64 character. -/
def sextet? (c : Char) : Option Nat :=
  if 'A' ≤ c ∧ c ≤ 'Z' then some (c.toNat - 65)
  else if 'a' ≤ c ∧ c ≤ 'z' then some (c.toNat - 71)
  else if '0' ≤ c ∧ c ≤ '9' then some (c.toNat + 4)
  else if c = '+' then some 62
  else if c = '/' then some 63
  else none

/-- `binascii.a2b_base64` in strict mode.  `quad` counts the characters of the
current group, `left` holds its bits not yet written out, `pads` the `=` read
since the last character. -/
def a2bBase64? (quad left pads : Nat) : List Char → Option Bytes
  | [] => if quad = 0 then some [] else none
  | c :: r =>
    if c = '=' then
      if 2 ≤ quad ∧ 4 ≤ quad + (pads + 1) then if r.isEmpty then some [] else none
      else a2bBase64? quad left (if 2 ≤ quad then pads + 1 else max pads 1) r
    else
      match sextet? c with
      | none => none
      | some v =>
        if 0 < pads then none
        else
          match quad with
          | 0 => a2bBase64? 1 v 0 r
          | 1 => (a2bBase64? 2 (v % 16) 0 r).map (UInt8.ofNat (left * 4 + v / 16) :: ·)
          | 2 => (a2bBase64? 3 (v % 4) 0 r).map (UInt8.ofNat (left * 16 + v / 4) :: ·)
          | _ => (a2bBase64? 0 0 0 r).map (UInt8.ofNat (left * 64 + v) :: ·)

/-- `base64.b64decode(payload, validate=True)`; padding may not come first. -/
def b64decode? (payload : List Char) : Option Bytes :=
  if payload.head? = some '=' then none else a2bBase64? 0 0 0 payload

/-! ### Percent escapes -/

def hexNibble? (b : UInt8) : Option Nat :=
  if 48 ≤ b ∧ b ≤ 57 then some (b.toNat - 48)
  else if 65 ≤ b ∧ b ≤ 70 then some (b.toNat - 55)
  else if 97 ≤ b ∧ b ≤ 102 then some (b.toNat - 87)
  else none

/-- The bytes of a text with its percent escapes read; an escape that is not two
hexadecimal digits stands for itself. -/
def unquoteBytes : Bytes → Bytes
  | 37 :: a :: b :: r =>
    match hexNibble? a, hexNibble? b with
    | some x, some y => UInt8.ofNat (16 * x + y) :: unquoteBytes r
    | _, _ => 37 :: unquoteBytes (a :: b :: r)
  | c :: r => c :: unquoteBytes r
  | [] => []

def unquoteToBytes (s : String) : Bytes := unquoteBytes (utf8 s)

end Py
