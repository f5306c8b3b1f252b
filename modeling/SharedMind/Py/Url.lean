import SharedMind.Py.Bytes
import SharedMind.Py.RawJson
import SharedMind.Py.Store

/-!
# URLs

* `unquote`: `urllib.parse.unquote`, which reads the percent escapes of every run of
  ASCII as UTF-8, with U+FFFD for what is none.
* `urlsplit`: `urllib.parse.urlsplit`, on a text.
* `PyStr.StartsWith`: `str.startswith`.
-/

namespace Py

/-! ### Strings -/

instance : LinearOrder PyStr :=
  LinearOrder.lift' PyStr.points PyStr.points_injective

namespace PyStr

/-- `s.startswith(prefix)`. -/
def StartsWith (s : PyStr) (start : String) : Prop := (ofString start).points <+: s.points

instance (s : PyStr) (start : String) : Decidable (s.StartsWith start) :=
  inferInstanceAs (Decidable ((ofString start).points <+: s.points))

end PyStr

/-- The characters `str.strip` removes. -/
def isSpace (c : Char) : Bool :=
  c.toNat ∈ [9, 10, 11, 12, 13, 28, 29, 30, 31, 32, 0x85, 0xA0, 0x1680, 0x2000, 0x2001, 0x2002, 0x2003,
    0x2004, 0x2005, 0x2006, 0x2007, 0x2008, 0x2009, 0x200A, 0x2028, 0x2029, 0x202F, 0x205F, 0x3000]

/-! ### Percent escapes -/

/-- Whether `b` can follow a lead byte of a character, and how many bytes more the
character has.  The first byte after the lead is bounded so that no character is spelled
too long, none is a surrogate and none is beyond U+10FFFF. -/
def utf8Lead? (b : Nat) : Option (Nat × Nat × Nat) :=
  if 0xC2 ≤ b ∧ b ≤ 0xDF then some (1, 0x80, 0xBF)
  else if b = 0xE0 then some (2, 0xA0, 0xBF)
  else if b = 0xED then some (2, 0x80, 0x9F)
  else if 0xE1 ≤ b ∧ b ≤ 0xEF then some (2, 0x80, 0xBF)
  else if b = 0xF0 then some (3, 0x90, 0xBF)
  else if 0xF1 ≤ b ∧ b ≤ 0xF3 then some (3, 0x80, 0xBF)
  else if b = 0xF4 then some (3, 0x80, 0x8F)
  else none

def replacementChar : Nat := 0xFFFD

/-- `bytes.decode("utf-8", errors="replace")`, as code points.  `need` bytes of the
character `acc` are still to come, the next of them between `lo` and `hi`; a sequence that
breaks off is one U+FFFD, and the byte that breaks it is read anew. -/
def utf8Replace (need acc lo hi : Nat) : List Nat → List Nat
  | [] => if need = 0 then [] else [replacementChar]
  | b :: r =>
    let start : List Nat :=
      if b < 0x80 then b :: utf8Replace 0 0 0 0 r
      else
        match utf8Lead? b with
        | some (n, lo, hi) => utf8Replace n (b % 2 ^ (6 - n)) lo hi r
        | none => replacementChar :: utf8Replace 0 0 0 0 r
    match need with
    | 0 => start
    | n + 1 =>
      if lo ≤ b ∧ b ≤ hi then
        let acc := acc * 64 + b % 64
        if n = 0 then acc :: utf8Replace 0 0 0 0 r else utf8Replace n acc 0x80 0xBF r
      else replacementChar :: start

/-- A code point, which every number `utf8Replace` gives is. -/
def codePoint (n : Nat) : Fin 0x110000 := if h : n < 0x110000 then ⟨n, h⟩ else ⟨replacementChar, by decide⟩

/-- The escapes of a run of ASCII, read. -/
def unquoteRun (run : List (Fin 0x110000)) : List (Fin 0x110000) :=
  (utf8Replace 0 0 0 0 ((unquoteBytes (run.map fun p => UInt8.ofNat p.val)).map UInt8.toNat)).map
    codePoint

/-- The runs of ASCII read, the rest as it stands; `run` is the run under way, backwards. -/
def unquoteRuns (run : List (Fin 0x110000)) : List (Fin 0x110000) → List (Fin 0x110000)
  | [] => unquoteRun run.reverse
  | p :: r =>
    if p.val < 128 then unquoteRuns (p :: run) r
    else unquoteRun run.reverse ++ p :: unquoteRuns [] r

/-- `unquote`. -/
def unquote (s : PyStr) : PyStr :=
  if PyStr.ofChar '%' ∈ s.points then ⟨unquoteRuns [] s.points⟩ else s

example : unquote (.ofString "a%2Fb%e2%82%ac%ffé%41%4") = .ofString "a/b€\ufffdéA%4" := by decide

/-! ### Splitting -/

/-- What stands before and after the first occurrence of `sep`. -/
def splitFirst {α : Type} [DecidableEq α] (sep : List α) : List α → Option (List α × List α)
  | [] => if sep = [] then some ([], []) else none
  | c :: r =>
    if sep <+: c :: r then some ([], (c :: r).drop sep.length)
    else (splitFirst sep r).map fun (a, b) => (c :: a, b)

structure SplitResult where
  scheme : List Char
  netloc : List Char
  path : List Char
  query : List Char
  fragment : List Char

/-- What `urlsplit` asks other modules: whether a network location in brackets holds an
address (`ipaddress`), and whether one beyond ASCII stays free of delimiters once it is
normalized (`unicodedata`). -/
class NetlocCheck where
  accepts : List Char → Bool

def schemeChar (c : Char) : Bool := c.isAlphanum || c = '+' || c = '-' || c = '.'

/-- `urlsplit`; none is a `ValueError`. -/
def urlsplit [NetlocCheck] (url : String) : Option SplitResult :=
  let url := (url.toList.dropWhile fun c => c.toNat ≤ 32).filter fun c => c ∉ ['\t', '\r', '\n']
  let (scheme, url) : List Char × List Char :=
    match splitFirst [':'] url with
    | some (c :: before, after) =>
      if c.isAlpha && (c :: before).all schemeChar then ((c :: before).map Char.toLower, after)
      else ([], url)
    | _ => ([], url)
  let (netloc, url) : List Char × List Char :=
    match url with
    | '/' :: '/' :: r =>
      (r.takeWhile fun c => c ∉ ['/', '?', '#'], r.dropWhile fun c => c ∉ ['/', '?', '#'])
    | _ => ([], url)
  let (url, fragment) := (splitFirst ['#'] url).getD (url, [])
  let (url, query) := (splitFirst ['?'] url).getD (url, [])
  if ('[' ∈ netloc ↔ ']' ∈ netloc) ∧
      ('[' ∉ netloc ∧ netloc.all (fun c => c.toNat < 128) ∨ NetlocCheck.accepts netloc = true) then
    some ⟨scheme, netloc, url, query, fragment⟩
  else none

end Py
