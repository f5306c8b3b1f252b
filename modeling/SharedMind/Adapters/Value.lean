import SharedMind.Py.JsonText
import SharedMind.Py.RawJson
import SharedMind.Py.Store

/-!
# Python values

* `PyObj`: what code may hand over where a JSON document is expected.
* `canonicalText`: `canonical_json`, which also prints values that are no JSON documents.
* `PyObj.toRaw?`: the JSON document a value is; `get?_of_toRaw?`, `list_of_toRaw?` read it off.
-/

namespace SharedMind.Adapters

open Py

/-- A value of plain data, or an object of another kind. -/
inductive PyObj where
  | none
  | bool (b : Bool)
  | num (n : PyNum)
  | str (s : PyStr)
  | list (items : List PyObj)
  | tuple (items : List PyObj)
  | dict (members : List (PyObj × PyObj))
  | other

namespace PyObj

/-- The key of a member as a string, if it is one. -/
def key? (m : PyObj × PyObj) : Option PyStr :=
  match m.1 with
  | .str s => some s
  | _ => Option.none

/-- `value.get(key)` on a dict. -/
def get? : PyObj → PyStr → Option PyObj
  | dict members, key => (members.findRev? fun m => key? m = some key).map Prod.snd
  | _, _ => Option.none

mutual
def depth : PyObj → Nat
  | list items => depthItems items + 1
  | tuple items => depthItems items + 1
  | dict members => depthMembers members + 1
  | _ => 0

def depthItems : List PyObj → Nat
  | [] => 0
  | v :: vs => max v.depth (depthItems vs)

def depthMembers : List (PyObj × PyObj) → Nat
  | [] => 0
  | (_, v) :: ms => max v.depth (depthMembers ms)
end

/-! ### `canonical_json` -/

/-- Code points. -/
abbrev Points := List (Fin 0x110000)

def points (s : List Char) : Points := s.map PyStr.ofChar

def escapePoint (p : Fin 0x110000) : Points :=
  match PyStr.toChar? p with
  | some c => points (escapeChar c)
  | Option.none => [p]

def quotePoints (s : PyStr) : Points :=
  PyStr.ofChar '"' :: (s.points.flatMap escapePoint ++ [PyStr.ofChar '"'])

/-- How `json.dumps` spells a key; other objects are no keys. -/
def keyText : PyObj → Option PyStr
  | str s => some s
  | num n => some ⟨points n.text⟩
  | bool b => some (PyStr.ofString (if b then "true" else "false"))
  | none => some (PyStr.ofString "null")
  | _ => Option.none

def isStr : PyObj → Bool
  | str _ => true
  | _ => false

/-- The number a key is compared by, if it is one. -/
def number? : PyObj → Option PyNum
  | num n => some n
  | bool b => some (.int (if b then 1 else 0))
  | _ => Option.none

/-- `<` on numbers; nothing is below or above NaN. -/
def numLt (m n : PyNum) : Bool :=
  match m.key, n.key with
  | .rat p, .rat q => p < q
  | .rat _, .inf neg => !neg
  | .inf neg, .rat _ => neg
  | .inf neg, .inf neg' => neg && !neg'
  | _, _ => false

/-- `<` on keys that can be compared. -/
def keyLt : PyObj → PyObj → Bool
  | str s, str t => s.points < t.points
  | v, w =>
    match number? v, number? w with
    | some m, some n => numLt m n
    | _, _ => false

/-- Members in key order; keys of two kinds cannot be ordered. -/
def sortedMembers (ms : List (PyObj × Points)) : Option (List (PyObj × Points)) :=
  if ms.length ≤ 1 ∨ (ms.all fun m => isStr m.1) = true ∨
      (ms.all fun m => (number? m.1).isSome) = true then
    some (ms.insertionSort fun a b => keyLt b.1 a.1 = false)
  else Option.none

/-- Texts between brackets, with commas. -/
def bracketed (left right : Char) (texts : List Points) : Points :=
  PyStr.ofChar left :: (List.intercalate [PyStr.ofChar ','] texts ++ [PyStr.ofChar right])

def memberText (m : PyObj × Points) : Option Points :=
  (keyText m.1).map fun k => quotePoints k ++ PyStr.ofChar ':' :: m.2

mutual
/-- The text of a value; `none` is a `TypeError`. -/
def text : PyObj → Option Points
  | none => some (points "null".toList)
  | bool b => some (points (if b then "true".toList else "false".toList))
  | num n => some (points n.text)
  | str s => some (quotePoints s)
  | list items => (itemTexts items).map (bracketed '[' ']')
  | tuple items => (itemTexts items).map (bracketed '[' ']')
  | dict members => do
    let sorted ← sortedMembers (← memberTexts members)
    return bracketed '{' '}' (← sorted.mapM memberText)
  | other => Option.none

def itemTexts : List PyObj → Option (List Points)
  | [] => some []
  | v :: vs => do return (← v.text) :: (← itemTexts vs)

def memberTexts : List (PyObj × PyObj) → Option (List (PyObj × Points))
  | [] => some []
  | (k, v) :: ms => do return (k, ← v.text) :: (← memberTexts ms)
end

/-! ### JSON documents -/

mutual
/-- The JSON document a value is: lists, and dicts whose keys are strings. -/
def toRaw? : PyObj → Option RawJson
  | none => some .null
  | bool b => some (.bool b)
  | num n => some (.num n)
  | str s => some (.str s)
  | list items => (toRawItems? items).map .arr
  | dict members => (toRawMembers? members).map .obj
  | tuple _ => Option.none
  | other => Option.none

def toRawItems? : List PyObj → Option (List RawJson)
  | [] => some []
  | v :: vs => do return (← v.toRaw?) :: (← toRawItems? vs)

def toRawMembers? : List (PyObj × PyObj) → Option (List (PyStr × RawJson))
  | [] => some []
  | (k, v) :: ms =>
    match k with
    | .str s => do return (s, ← v.toRaw?) :: (← toRawMembers? ms)
    | _ => Option.none
end

theorem toRawItems?_eq_some {items : List PyObj} {raws : List RawJson}
    (h : toRawItems? items = some raws) :
    List.Forall₂ (fun v raw => v.toRaw? = some raw) items raws := by
  induction items generalizing raws with
  | nil =>
    obtain rfl := Option.some.inj h
    exact .nil
  | cons v vs ih =>
    simp only [toRawItems?, Option.bind_eq_bind, Option.pure_def, Option.bind_eq_some_iff,
      Option.some.injEq] at h
    obtain ⟨raw, hraw, rest, hrest, rfl⟩ := h
    exact .cons hraw (ih hrest)

/-- A list is the document of a list. -/
theorem list_of_toRaw? {v : PyObj} {raws : List RawJson} (h : v.toRaw? = some (.arr raws)) :
    ∃ items, v = list items ∧ List.Forall₂ (fun v raw => v.toRaw? = some raw) items raws := by
  cases v with
  | list items =>
    rw [toRaw?, Option.map_eq_some_iff] at h
    obtain ⟨raws', h, heq⟩ := h
    obtain rfl := JsonOf.arr.inj heq
    exact ⟨items, rfl, toRawItems?_eq_some h⟩
  | dict members =>
    rw [toRaw?, Option.map_eq_some_iff] at h
    obtain ⟨ms, -, h⟩ := h
    exact nomatch h
  | _ => exact nomatch h

theorem str_of_toRaw? {v : PyObj} {s : PyStr} (h : v.toRaw? = some (.str s)) : v = str s := by
  cases v with
  | str t => exact congrArg str (JsonOf.str.inj (Option.some.inj h))
  | list items =>
    rw [toRaw?, Option.map_eq_some_iff] at h
    obtain ⟨ms, -, h⟩ := h
    exact nomatch h
  | dict members =>
    rw [toRaw?, Option.map_eq_some_iff] at h
    obtain ⟨ms, -, h⟩ := h
    exact nomatch h
  | _ => exact nomatch h

/-- A member of a dict and the member of its document. -/
def MemberOf (m : PyObj × PyObj) (n : PyStr × RawJson) : Prop :=
  m.1 = str n.1 ∧ m.2.toRaw? = some n.2

theorem toRawMembers?_eq_some {members : List (PyObj × PyObj)} {ms : List (PyStr × RawJson)}
    (h : toRawMembers? members = some ms) : List.Forall₂ MemberOf members ms := by
  induction members generalizing ms with
  | nil =>
    obtain rfl := Option.some.inj h
    exact .nil
  | cons m members ih =>
    obtain ⟨k, v⟩ := m
    cases k with
    | str s =>
      simp only [toRawMembers?, Option.bind_eq_bind, Option.pure_def, Option.bind_eq_some_iff,
        Option.some.injEq] at h
      obtain ⟨raw, hraw, rest, hrest, rfl⟩ := h
      exact .cons ⟨rfl, hraw⟩ (ih hrest)
    | _ => exact nomatch h

theorem find?_memberOf {members : List (PyObj × PyObj)} {ms : List (PyStr × RawJson)} {key : PyStr}
    {n : PyStr × RawJson} (h : List.Forall₂ MemberOf members ms)
    (hn : ms.find? (fun m => m.1 = key) = some n) :
    ∃ m, members.find? (fun m => key? m = some key) = some m ∧ m.2.toRaw? = some n.2 := by
  induction h with
  | nil => exact nomatch hn
  | @cons m n' members ms hm _ ih =>
    have hkey : key? m = some n'.1 := by rw [key?, hm.1]
    by_cases heq : n'.1 = key
    · rw [List.find?_cons_of_pos (by simpa using heq)] at hn
      obtain rfl := Option.some.inj hn
      exact ⟨m, List.find?_cons_of_pos (by simp [hkey, heq]), hm.2⟩
    · rw [List.find?_cons_of_neg (by simpa using heq)] at hn
      obtain ⟨m', hfind, hraw⟩ := ih hn
      exact ⟨m', by rw [List.find?_cons_of_neg (by simp [hkey, heq]), hfind], hraw⟩

/-- A member of the document is one of the value. -/
theorem get?_of_toRaw? {v : PyObj} {raw w : RawJson} {key : PyStr} (h : v.toRaw? = some raw)
    (hw : raw.get? key = some w) : ∃ u, v.get? key = some u ∧ u.toRaw? = some w := by
  cases v with
  | dict members =>
    rw [toRaw?, Option.map_eq_some_iff] at h
    obtain ⟨ms, hms, rfl⟩ := h
    have hrelated := List.rel_reverse (toRawMembers?_eq_some hms)
    rw [JsonOf.get?, List.findRev?_eq_find?_reverse, Option.map_eq_some_iff] at hw
    obtain ⟨n, hn, rfl⟩ := hw
    obtain ⟨m, hm, hraw⟩ := find?_memberOf hrelated hn
    refine ⟨m.2, ?_, hraw⟩
    rw [get?, List.findRev?_eq_find?_reverse, hm]
    rfl
  | list items =>
    rw [toRaw?, Option.map_eq_some_iff] at h
    obtain ⟨raws, -, rfl⟩ := h
    cases hw
  | tuple items => cases h
  | other => cases h
  | _ =>
    obtain rfl := Option.some.inj h
    cases hw

end PyObj

end SharedMind.Adapters
