import SharedMind.Py.Json

/-!
# JSON text

`Json.dumps` is `json.dumps(value, ensure_ascii=False, sort_keys=True,
separators=(",", ":"))` on a value whose dicts are listed in key order, and
`loads` is `json.loads`.  Both work on the list of characters; `loads` keeps the
last value of a repeated key and lists the members in key order.

A text in which an escape spells a lone surrogate has no `Json` value, and
`loads` gives none; `dumps` never prints such an escape.
-/

namespace Py

/-! ### Printing -/

/-- The characters `json` escapes, and how. -/
def escapeChar (c : Char) : List Char :=
  if c = '"' then ['\\', '"']
  else if c = '\\' then ['\\', '\\']
  else if c = '\n' then ['\\', 'n']
  else if c = '\r' then ['\\', 'r']
  else if c = '\t' then ['\\', 't']
  else if c = '\x0c' then ['\\', 'f']
  else if c = '\x08' then ['\\', 'b']
  else if c.toNat < 32 then
    ['\\', 'u', '0', '0', Nat.digitChar (c.toNat / 16), Nat.digitChar (c.toNat % 16)]
  else [c]

def quote (s : List Char) : List Char := '"' :: (s.flatMap escapeChar ++ ['"'])

/-- The exponent of a printed float: a sign and at least two digits. -/
def exponentText (e : Int) : List Char :=
  let es := Nat.toDigits 10 e.natAbs
  'e' :: (if e < 0 then '-' else '+') :: (if es.length = 1 then '0' :: es else es)

/-- A decimal as `repr` prints it: with an exponent when the point is more than
16 digits to the right or more than 3 zeros to the left. -/
def Decimal.text (d : Decimal) : List Char :=
  let ds := Nat.toDigits 10 d.digits
  let p : Int := ds.length + d.exp
  if -4 < p ∧ p ≤ 16 then
    if p ≤ 0 then '0' :: '.' :: (List.replicate (-p).toNat '0' ++ ds)
    else if p < ds.length then ds.take p.toNat ++ '.' :: ds.drop p.toNat
    else ds ++ (List.replicate (p - ds.length).toNat '0' ++ ['.', '0'])
  else
    ds.take 1 ++ ((if ds.length = 1 then [] else '.' :: ds.drop 1) ++ exponentText (p - 1))

def PyFloat.text : PyFloat → List Char
  | finite neg d => (if neg then ['-'] else []) ++ d.text
  | inf neg => (if neg then ['-'] else []) ++ "Infinity".toList
  | nan => "NaN".toList

def intText (i : Int) : List Char :=
  (if i < 0 then ['-'] else []) ++ Nat.toDigits 10 i.natAbs

def PyNum.text : PyNum → List Char
  | int i => intText i
  | float f => f.text

namespace JsonOf

mutual
def print : Json → List Char
  | null => "null".toList
  | bool true => "true".toList
  | bool false => "false".toList
  | num n => n.text
  | str s => quote s.toList
  | arr items => '[' :: (printItems items ++ [']'])
  | obj members => '{' :: (printMembers members ++ ['}'])

def printItems : List Json → List Char
  | [] => []
  | [v] => v.print
  | v :: w :: vs => v.print ++ ',' :: printItems (w :: vs)

def printMembers : List (String × Json) → List Char
  | [] => []
  | [(k, v)] => quote k.toList ++ ':' :: v.print
  | (k, v) :: m :: ms => quote k.toList ++ ':' :: (v.print ++ ',' :: printMembers (m :: ms))
end

/-- `json.dumps` with sorted keys and compact separators. -/
def dumps (v : Json) : String := String.ofList v.print

end JsonOf

/-! ### Reading -/

def isJsonSpace (c : Char) : Bool := c = ' ' || c = '\t' || c = '\n' || c = '\r'

def skipSpace (s : List Char) : List Char := s.dropWhile isJsonSpace

def hexValue? (c : Char) : Option Nat :=
  if c.isDigit then some (c.toNat - '0'.toNat)
  else if 'a' ≤ c ∧ c ≤ 'f' then some (c.toNat - 'a'.toNat + 10)
  else if 'A' ≤ c ∧ c ≤ 'F' then some (c.toNat - 'A'.toNat + 10)
  else none

def hex4? (a b c d : Char) : Option Nat := do
  return 4096 * (← hexValue? a) + 256 * (← hexValue? b) + 16 * (← hexValue? c) + (← hexValue? d)

def charOf? (n : Nat) : Option Char := if h : n.isValidChar then some (Char.ofNatAux n h) else none

/-- The escape after a backslash, with `\u` escapes of a surrogate pair read as
one character. -/
def readEscape : List Char → Option (Char × List Char)
  | 'u' :: a :: b :: c :: d :: '\\' :: 'u' :: a' :: b' :: c' :: d' :: r => do
    let hi ← hex4? a b c d
    if 0xD800 ≤ hi ∧ hi < 0xDC00 then
      let lo ← hex4? a' b' c' d'
      if 0xDC00 ≤ lo ∧ lo < 0xE000 then
        return (← charOf? (0x10000 + (hi - 0xD800) * 0x400 + (lo - 0xDC00)), r)
      else none
    else return (← charOf? hi, '\\' :: 'u' :: a' :: b' :: c' :: d' :: r)
  | 'u' :: a :: b :: c :: d :: r => do return (← charOf? (← hex4? a b c d), r)
  | 'n' :: r => some ('\n', r)
  | 'r' :: r => some ('\r', r)
  | 't' :: r => some ('\t', r)
  | 'f' :: r => some ('\x0c', r)
  | 'b' :: r => some ('\x08', r)
  | c :: r => if c = '"' ∨ c = '\\' ∨ c = '/' then some (c, r) else none
  | [] => none

/-- The rest of a string literal after its opening quote. -/
def readString : Nat → List Char → Option (List Char × List Char)
  | 0, _ => none
  | _ + 1, [] => none
  | fuel + 1, c :: r =>
    if c = '"' then some ([], r)
    else if c = '\\' then do
      let (e, r) ← readEscape r
      let (s, r) ← readString fuel r
      return (e :: s, r)
    else if c.toNat < 32 then none
    else do
      let (s, r) ← readString fuel r
      return (c :: s, r)

/-- The digits after the point, if any. -/
def readFraction : List Char → List Char × List Char
  | '.' :: r => if (r.takeWhile Char.isDigit).isEmpty then ([], '.' :: r)
    else (r.takeWhile Char.isDigit, r.dropWhile Char.isDigit)
  | s => ([], s)

def readSign : List Char → Bool × List Char
  | '-' :: r => (true, r)
  | '+' :: r => (false, r)
  | r => (false, r)

/-- The exponent, if any. -/
def readExponent : List Char → Option (Int × List Char)
  | [] => none
  | c :: s =>
    if c = 'e' ∨ c = 'E' then
      let (neg, r) := readSign s
      let ds := r.takeWhile Char.isDigit
      if ds.isEmpty then none
      else
        let e : Int := Nat.ofDigitChars 10 ds 0
        some (if neg then -e else e, r.dropWhile Char.isDigit)
    else none

/-- `0`, or the digits up to the next other character. -/
def wholePart : List Char → List Char
  | '0' :: _ => ['0']
  | s => s.takeWhile Char.isDigit

/-- A number without its sign: an `int` unless it has a fraction or an exponent. -/
def readUnsigned (neg : Bool) (s : List Char) : Option (PyNum × List Char) :=
  let whole := wholePart s
  if whole.isEmpty then none
  else
    let (frac, r) := readFraction (s.drop whole.length)
    let m := Nat.ofDigitChars 10 (whole ++ frac) 0
    match readExponent r with
    | some (e, r) => some (.float (.finite neg (.ofParts m (e - frac.length))), r)
    | none =>
      if frac.isEmpty then some (.int (if neg then -(m : Int) else m), r)
      else some (.float (.finite neg (.ofParts m (-frac.length))), r)

def readNumber : List Char → Option (PyNum × List Char)
  | '-' :: r => readUnsigned true r
  | s => readUnsigned false s

mutual
def readValue : Nat → List Char → Option (Json × List Char)
  | 0, _ => none
  | fuel + 1, s =>
    match s with
    | '"' :: r => (readString fuel r).map fun (t, r) => (.str (String.ofList t), r)
    | '{' :: r =>
      match skipSpace r with
      | '}' :: r => some (.obj [], r)
      | r => (readMembers fuel r).map fun (ms, r) => (.obj (dictOf ms), r)
    | '[' :: r =>
      match skipSpace r with
      | ']' :: r => some (.arr [], r)
      | r => (readItems fuel r).map fun (vs, r) => (.arr vs, r)
    | 'n' :: 'u' :: 'l' :: 'l' :: r => some (.null, r)
    | 't' :: 'r' :: 'u' :: 'e' :: r => some (.bool true, r)
    | 'f' :: 'a' :: 'l' :: 's' :: 'e' :: r => some (.bool false, r)
    | 'N' :: 'a' :: 'N' :: r => some (.num (.float .nan), r)
    | 'I' :: 'n' :: 'f' :: 'i' :: 'n' :: 'i' :: 't' :: 'y' :: r =>
      some (.num (.float (.inf false)), r)
    | '-' :: 'I' :: 'n' :: 'f' :: 'i' :: 'n' :: 'i' :: 't' :: 'y' :: r =>
      some (.num (.float (.inf true)), r)
    | s => (readNumber s).map fun (n, r) => (.num n, r)

def readItems : Nat → List Char → Option (List Json × List Char)
  | 0, _ => none
  | fuel + 1, s => do
    let (v, r) ← readValue fuel s
    match skipSpace r with
    | ',' :: r =>
      let (vs, r) ← readItems fuel (skipSpace r)
      return (v :: vs, r)
    | ']' :: r => return ([v], r)
    | _ => none

def readMembers : Nat → List Char → Option (List (String × Json) × List Char)
  | 0, _ => none
  | fuel + 1, s =>
    match s with
    | '"' :: r => do
      let (k, r) ← readString fuel r
      match skipSpace r with
      | ':' :: r =>
        let (v, r) ← readValue fuel (skipSpace r)
        match skipSpace r with
        | ',' :: r =>
          let (ms, r) ← readMembers fuel (skipSpace r)
          return ((String.ofList k, v) :: ms, r)
        | '}' :: r => return ([(String.ofList k, v)], r)
        | _ => none
      | _ => none
    | _ => none
end

/-- `json.loads`; `none` is a `JSONDecodeError`. -/
def loads (s : String) : Option Json :=
  let cs := skipSpace s.toList
  match readValue (2 * cs.length + 1) cs with
  | some (v, r) => if (skipSpace r).isEmpty then some v else none
  | none => none

end Py
