import SharedMind.Py.Codec
import SharedMind.Py.Pattern
import SharedMind.Py.Bytes
import SharedMind.Py.JsonText

/-!
# Texts of the kernel contract

A `Text p` is a string the contract admits under `p`, so an identifier or a hash
is checked once, when it is read.

* `Hash`, `RecordId`, `SemanticId`, …: the patterns of the schema, found with
  `re.search`, so each also admits one trailing newline.
* `AtLeast lo`: a JSON number of integer value, from `lo` on.
* `sha256Bytes`, `sha256Json`: hashes are admitted as `Hash`.
-/

namespace SharedMind

open Py

/-- A string that `p` admits. -/
def Text (p : String → Bool) : Type := {s : String // p s = true}

namespace Text

variable {p : String → Bool}

instance : CoeOut (Text p) String := ⟨Subtype.val⟩

instance : DecidableEq (Text p) := inferInstanceAs (DecidableEq {s : String // p s = true})

@[ext] theorem ext {s t : Text p} (h : (s : String) = t) : s = t := Subtype.ext h

def text (s : Text p) : String := s.1

/-- The text of a string that `p` admits. -/
def of? (s : String) : Option (Text p) := if h : p s = true then some ⟨s, h⟩ else none

def codec : Codec (Text p) := Codec.str.refine fun s => p s = true

theorem codec_enc (s : Text p) : codec.enc s = .str (s : String) := rfl

theorem codec_ne_null (s : Text p) : (codec.enc s) ≠ .null := by simp [codec_enc]

/-- The text, or `null`. -/
def nullable : Codec (Option (Text p)) := codec.nullable codec_ne_null

end Text

/-! ### Patterns -/

/-- `minLength` and `maxLength`. -/
def lengthIn (lo hi : Nat) (s : String) : Bool := lo ≤ s.length && s.length ≤ hi

def hashPattern : Pattern := ⟨[Piece.text "sha256:" ++ [⟨isHexChar, 64, some 64⟩]]⟩

/-- A letter or a digit. -/
def alnumChar : Char → Bool := orElse (orElse upperChar lowerChar) digitChar

/-- The part of a record identifier up to its underscore. -/
def recordIdStem : List Piece :=
  [.one lowerChar, ⟨orElse (orElse lowerChar digitChar) (oneOf "_"), 1, some 31⟩, .lit '_']

def recordIdPattern : Pattern :=
  ⟨[recordIdStem ++ [.one alnumChar, ⟨orElse alnumChar (oneOf "_-"), 7, some 127⟩]]⟩

def semanticIdPattern : Pattern :=
  ⟨[[.one lowerChar, ⟨orElse (orElse lowerChar digitChar) (oneOf "_-"), 1, some 31⟩, .lit ':',
    .one (orElse lowerChar digitChar),
    ⟨orElse (orElse lowerChar digitChar) (oneOf "._-"), 0, some 127⟩]]⟩

def semVerPattern : Pattern :=
  let core : List Piece :=
    [.plus digitChar, .lit '.', .plus digitChar, .lit '.', .plus digitChar]
  ⟨[core, core ++ [.lit '-', .plus (orElse (orElse (orElse digitChar upperChar) lowerChar)
    (oneOf ".-"))]]⟩

def entityTypePattern : Pattern :=
  ⟨[[.one lowerChar, ⟨orElse (orElse lowerChar digitChar) (oneOf "_"), 0, some 63⟩]]⟩

def enumValuePattern : Pattern :=
  ⟨[[.one upperChar, ⟨orElse (orElse upperChar digitChar) (oneOf "_"), 0, some 63⟩]]⟩

/-- `@` and a number without leading zero. -/
def versionSuffix : List Piece := [.lit '@', .one fun c => '1' ≤ c && c ≤ '9', .star digitChar]

def predicateKeyPattern : Pattern :=
  ⟨[[.one lowerChar, .star (orElse (orElse lowerChar digitChar) (oneOf "_."))] ++ versionSuffix]⟩

def ruleVersionPattern : Pattern :=
  ⟨[[.one lowerChar, .star (orElse (orElse lowerChar digitChar) (oneOf "-"))] ++ versionSuffix]⟩

def idempotencyKeyPattern : Pattern :=
  ⟨[[⟨orElse (orElse (orElse upperChar lowerChar) digitChar) (oneOf "._:-"), 8, some 128⟩]]⟩

def fieldPathPattern : Pattern :=
  ⟨[[.one lowerChar, ⟨orElse (orElse lowerChar digitChar) (oneOf "_."), 0, some 127⟩]]⟩

def registryIdPattern : Pattern :=
  ⟨[[.one lowerChar, ⟨orElse (orElse lowerChar digitChar) (oneOf ".-"), 2, some 127⟩]]⟩

def reasonCodePattern : Pattern :=
  ⟨[[.one upperChar, ⟨orElse (orElse upperChar digitChar) (oneOf "_"), 1, some 127⟩]]⟩

def dataUriPattern : Pattern :=
  ⟨[Piece.text "data:" ++ [.star (· ≠ ','), .lit ',', .star (· ≠ '\n')]]⟩

/-- A `data:` URI, or another URI of bounded length. -/
def isBlobRef (s : String) : Bool :=
  dataUriPattern.search s || s.length ≤ 2048 && !"data:".toList.isPrefixOf s.toList

abbrev Hash := Text hashPattern.search
abbrev RecordId := Text recordIdPattern.search
abbrev SemanticId := Text semanticIdPattern.search
abbrev SemVer := Text semVerPattern.search
abbrev EntityType := Text entityTypePattern.search
abbrev EnumValue := Text enumValuePattern.search
abbrev PredicateKey := Text predicateKeyPattern.search
abbrev RuleVersion := Text ruleVersionPattern.search
abbrev IdempotencyKey := Text idempotencyKeyPattern.search
abbrev BlobRef := Text isBlobRef

instance lawfulBEq_id : LawfulBEq RecordId := inferInstance

theorem recordId_ne_empty (id : RecordId) : (id : String) ≠ "" := by
  intro h
  have hadmit := id.2
  rw [h] at hadmit
  exact absurd hadmit (by decide)

/-- A string of `lo` to `hi` characters. -/
abbrev Bounded (lo hi : Nat) := Text (lengthIn lo hi)

/-- A stem and 8 to 128 letters and digits are a record identifier. -/
theorem recordId_admitted {stem tail : List Char} (hstem : matchPieces recordIdStem stem = true)
    (hlo : 8 ≤ tail.length) (hhi : tail.length ≤ 128) (htail : ∀ c ∈ tail, alnumChar c = true) :
    recordIdPattern.fullmatch (String.ofList (stem ++ tail)) = true := by
  rw [Pattern.fullmatch, String.toList_ofList, Pattern.matches_, recordIdPattern, List.any_cons,
    Bool.or_eq_true]
  left
  refine matchPieces_append hstem ?_
  cases tail with
  | nil => exact absurd hlo (by simp)
  | cons c r =>
    rw [List.length_cons] at hlo hhi
    refine @matchPieces_append [.one alnumChar] _ [c] _ ?_ ?_
    · refine matchPieces_singleton rfl ?_
      rw [List.all_cons, List.all_nil, Bool.and_true]
      exact htail c List.mem_cons_self
    · have hlo' : 7 ≤ r.length := by omega
      have hhi' : r.length ≤ 127 := by omega
      refine matchPieces_singleton (by simp [Piece.admits, hlo', hhi']) ?_
      refine List.all_eq_true.mpr fun d hd => ?_
      show orElse alnumChar (oneOf "_-") d = true
      rw [orElse, htail d (List.mem_cons_of_mem _ hd), Bool.true_or]

theorem alnumChar_of_isHexChar {c : Char} (h : isHexChar c = true) : alnumChar c = true := by
  have hle : 'f' ≤ 'z' := by decide
  simp only [isHexChar, Bool.or_eq_true, Bool.and_eq_true, decide_eq_true_eq] at h
  rcases h with ⟨h0, h9⟩ | ⟨ha, hf⟩
  · simp [alnumChar, orElse, digitChar, h0, h9]
  · simp [alnumChar, orElse, lowerChar, ha, hf.trans hle]

/-! ### Numbers -/

/-- An integer from `lo` on, also when it is written as a float. -/
def atLeast (lo : Int) (n : PyNum) : Bool := n.toInt?.any (lo ≤ ·)

def AtLeast (lo : Int) : Type := {n : PyNum // atLeast lo n = true}

namespace AtLeast

variable {lo : Int}

instance : DecidableEq (AtLeast lo) :=
  inferInstanceAs (DecidableEq {n : PyNum // atLeast lo n = true})

def codec : Codec (AtLeast lo) := Codec.num.refine fun n => atLeast lo n = true

/-- An `int`. -/
def ofInt (i : Int) (h : lo ≤ i) : AtLeast lo := ⟨.int i, by simp [atLeast, h]⟩

/-- The first version of a record. -/
def first : AtLeast 1 := ofInt 1 (by decide)

def one : AtLeast 0 := ofInt 1 (by decide)

/-- `number == i`. -/
def eqInt (n : AtLeast lo) (i : Int) : Bool := n.1.pyEq (.int i)

theorem eqInt_ofInt {i j : Int} {h : lo ≤ i} : (ofInt i h).eqInt j = true ↔ i = j := by
  rw [eqInt, ofInt, PyNum.pyEq_int_iff, PyNum.toInt?_int, Option.some.injEq]

end AtLeast

/-! ### Hashes -/

theorem isHash_of_hex {ds : List Char} (hlen : ds.length = 64) (hhex : ds.all isHexChar = true) :
    hashPattern.search (String.ofList ("sha256:".toList ++ ds)) = true := by
  apply Pattern.search_of_fullmatch
  rw [Pattern.fullmatch, String.toList_ofList, Pattern.matches_, hashPattern]
  rw [List.any_cons, Bool.or_eq_true]
  left
  have htext : matchPieces (Piece.text "sha256:") "sha256:".toList = true := by decide
  refine matchPieces_append htext (matchPieces_singleton ?_ hhex)
  rw [hlen]
  decide

/-- `sha256_bytes`. -/
def sha256Bytes (value : Bytes) : Hash :=
  ⟨String.ofList ("sha256:".toList ++ sha256Hex value),
    isHash_of_hex (sha256Hex_length value) (List.all_eq_true.mpr (sha256Hex_digit value))⟩

/-- `sha256_json`, on a value whose strings all encode. -/
def sha256Json (value : Json) : Hash := sha256Bytes (utf8 value.dumps)

/-- The hexadecimal digits after `sha256:`. -/
def Hash.digits (h : Hash) : List Char := (h : String).toList.drop 7

theorem sha256Bytes_digits (value : Bytes) : (sha256Bytes value).digits = sha256Hex value := by
  rw [Hash.digits, sha256Bytes, String.toList_ofList]
  exact List.drop_left' rfl

end SharedMind
