import SharedMind.Py.Pattern

/-!
# `datetime.fromisoformat` and `astimezone`

A moment is counted in microseconds from 0001-01-01T00:00:00, on a wall clock
(`DateTime.wall`) or in UTC.

* `fromisoformat`: the ISO 8601 formats of Python 3.11, `none` at a `ValueError`.
* `astimezoneUtc`: the UTC moment; it raises `OverflowError` when that lies
  outside the years 1 to 9999.
-/

namespace Py

/-- What date and time arithmetic raises. -/
inductive TimeError where
  | valueError
  | overflowError
  deriving DecidableEq

/-- A wall-clock moment, with the UTC offset it is given in when it has one. -/
structure DateTime where
  wall : Int
  utcoffset : Option Int
  deriving DecidableEq

def microsPerDay : Int := 86400000000

/-- The last microsecond of the year 9999. -/
def maxMicros : Int := 3652059 * microsPerDay - 1

namespace DateTime

/-! ### Calendar -/

def isLeap (y : Nat) : Bool := y % 4 == 0 && (y % 100 != 0 || y % 400 == 0)

/-- Days before the first of January of year `y`. -/
def daysBeforeYear (y : Nat) : Nat := (y - 1) * 365 + (y - 1) / 4 - (y - 1) / 100 + (y - 1) / 400

def daysInMonth (y m : Nat) : Nat :=
  if m = 2 then if isLeap y then 29 else 28
  else if m = 4 ∨ m = 6 ∨ m = 9 ∨ m = 11 then 30 else 31

def daysBeforeMonth (y m : Nat) : Nat :=
  ((List.range (m - 1)).map fun i => daysInMonth y (i + 1)).sum

/-- The days from 0001-01-01 to a date; `none` when there is no such date. -/
def daysOf? (y m d : Nat) : Option Nat :=
  if 1 ≤ y ∧ y ≤ 9999 ∧ 1 ≤ m ∧ m ≤ 12 ∧ 1 ≤ d ∧ d ≤ daysInMonth y m then
    some (daysBeforeYear y + daysBeforeMonth y m + (d - 1))
  else none

/-- The days from 0001-01-01 to a day of an ISO week. -/
def daysOfWeek? (y week day : Nat) : Option Nat :=
  let first := daysBeforeYear y + 1
  let long := first % 7 == 4 || first % 7 == 3 && isLeap y
  if 1 ≤ y ∧ y ≤ 9999 ∧ 1 ≤ week ∧ (week ≤ 52 ∨ week = 53 ∧ long) ∧ 1 ≤ day ∧ day ≤ 7 then
    let weekday := (first + 6) % 7
    let monday := if 3 < weekday then first + 7 - weekday else first - weekday
    let ordinal := monday + (week - 1) * 7 + (day - 1)
    if 1 ≤ ordinal ∧ ordinal ≤ 3652059 then some (ordinal - 1) else none
  else none

/-! ### Parsing -/

/-- The `k` digits at `pos`. -/
def digitsAt? (s : List Char) (pos k : Nat) : Option Nat :=
  let ds := (s.drop pos).take k
  if ds.length = k ∧ ds.all digitChar then some (Nat.ofDigitChars 10 ds 0) else none

/-- `_find_isoformat_datetime_separator`: where the date ends. -/
def separator? (s : List Char) : Option Nat :=
  if s.length < 7 then none
  else if s.length = 7 then some 7
  else if s[4]? = some '-' then
    if s[5]? = some 'W' then
      if 8 < s.length ∧ s[8]? = some '-' then
        if s.length = 9 then none
        else if 10 < s.length ∧ (s[10]?.any digitChar) then some 8
        else some 10
      else some 8
    else some 10
  else if s[4]? = some 'W' then
    let idx := 7 + ((s.drop 7).takeWhile digitChar).length
    if idx < 9 then some idx else if idx % 2 = 0 then some 7 else some 8
  else some 8

/-- `_parse_isoformat_date`, as days from 0001-01-01. -/
def parseDate? (s : List Char) : Option Nat := do
  let year ← digitsAt? s 0 4
  let hasSep := s[4]? == some '-'
  let pos := if hasSep then 5 else 4
  if s[pos]? = some 'W' then
    let week ← digitsAt? s (pos + 1) 2
    let pos := pos + 3
    if pos < s.length then
      if (s[pos]? == some '-') != hasSep then none
      else
        let pos := if hasSep then pos + 1 else pos
        let day ← digitsAt? s pos 1
        if pos + 1 = s.length then daysOfWeek? year week day else none
    else daysOfWeek? year week 1
  else
    let month ← digitsAt? s pos 2
    let pos := pos + 2
    if (s[pos]? == some '-') != hasSep then none
    else
      let pos := if hasSep then pos + 1 else pos
      let day ← digitsAt? s pos 2
      if pos + 2 = s.length then daysOf? year month day else none

/-- A fraction of a second in microseconds, from its first six digits, and whether
anything but digits follows. -/
def fraction? (s : List Char) : Option (Nat × Bool) :=
  let ds := s.take 6
  if ds.all digitChar then
    some (Nat.ofDigitChars 10 ds 0 * 10 ^ (6 - ds.length), !(s.drop 6).all digitChar)
  else none

/-- `parse_hh_mm_ss_ff` of the C module: the fields still to come and the
microseconds, and whether a character is left over.  Fields are separated by
colons or not at all, as the first one is. -/
def clock? (hasSep : Option Bool) : Nat → List Char → Option (List Nat × Bool)
  | 0, s => (fraction? s).map fun f => ([f.1], f.2)
  | n + 1, s =>
    match digitsAt? s 0 2, s.drop 2 with
    | none, _ => none
    | some v, [] => some (v :: List.replicate (n + 1) 0, false)
    | some v, [_] => some (v :: List.replicate (n + 1) 0, true)
    | some v, c :: r =>
      let sep := hasSep.getD (c == ':')
      if sep && c == ':' then (clock? (some sep) n r).map fun f => (v :: f.1, f.2)
      else if c = '.' ∨ c = ',' then
        (fraction? r).map fun f => (v :: (List.replicate n 0 ++ [f.1]), f.2)
      else if sep then none
      else (clock? (some sep) n (c :: r)).map fun f => (v :: f.1, f.2)

def seconds (t : List Nat) : Nat := (t.getD 0 0 * 60 + t.getD 1 0) * 60 + t.getD 2 0

def micros (t : List Nat) : Int := (seconds t * 1000000 + t.getD 3 0 : Nat)

/-- The UTC offset after its sign; one of zero seconds is UTC. -/
def parseOffset? (neg : Bool) (s : List Char) : Option Int :=
  match clock? none 3 s with
  | some (t, false) =>
    if seconds t = 0 then some 0
    else if micros t < microsPerDay then some (if neg then -micros t else micros t)
    else none
  | _ => none

def isSign (c : Char) : Bool := c == '+' || c == '-'

/-- `parse_isoformat_time`: microseconds of the day, and the offset.  A character
left over before an offset is ignored. -/
def parseTime? (s : List Char) : Option (Int × Option Int) := do
  let (t, more) ← clock? none 3 (s.takeWhile fun c => !isSign c)
  let offset ←
    match s.dropWhile fun c => !isSign c with
    | [] => if more then none else some none
    | c :: r => (parseOffset? (c = '-') r).map some
  if t.getD 0 0 < 24 ∧ t.getD 1 0 < 60 ∧ t.getD 2 0 < 60 then return (micros t, offset) else none

end DateTime

/-- `datetime.fromisoformat`; `none` is a `ValueError`. -/
def fromisoformat (s : List Char) : Option DateTime := do
  let loc ← DateTime.separator? s
  let days ← DateTime.parseDate? (s.take loc)
  match s.drop loc with
  | [] => return ⟨days * microsPerDay, none⟩
  | _ :: r =>
    let (time, offset) ← DateTime.parseTime? r
    return ⟨days * microsPerDay + time, offset⟩

/-- `value.replace("Z", "+00:00")`. -/
def replaceZ (s : String) : List Char :=
  s.toList.flatMap fun c => if c = 'Z' then ['+', '0', '0', ':', '0', '0'] else [c]

/-- `astimezone(timezone.utc)`, where `localOffset` gives the offset of local
time at a wall-clock moment that names none. -/
def astimezoneUtc (localOffset : Int → Except TimeError Int) (t : DateTime) :
    Except TimeError Int := do
  let offset ←
    match t.utcoffset with
    | some offset => pure offset
    | none => localOffset t.wall
  if 0 ≤ t.wall - offset ∧ t.wall - offset ≤ maxMicros then return t.wall - offset
  else throw .overflowError

example : (fromisoformat (replaceZ "2026-08-01T00:00:00Z")).map DateTime.utcoffset =
    some (some 0) := by decide

end Py
