import SharedMind.Gen.Blocks
import SharedMind.Py.TextLines

/-!
# Directives

The lines of a document or of a conversation that say what to extract.

* `iterDirectives`, `iterCandidateDirectives`: the two scanners of `product_ingest.py`.
-/

namespace SharedMind.Ingest

open Py

structure Directive where
  kind : String
  payload : String
  startByte : Nat
  endByte : Nat
  excerpt : String
  deriving DecidableEq

/-! ### Patterns -/

/-- The words of `_DIRECTIVE`. -/
def directiveWords : List String := ["FACT", "DECISION", "QUESTION", "WORK", "SKILL"]

/-- Whether `c` matches the capital `letter` under `re.I`.  Four characters beyond ASCII do. -/
def matchesLetter (letter c : Char) : Bool :=
  c = letter || c = letter.toLower || (letter = 'I' && (c = '\u0130' || c = '\u0131')) ||
    (letter = 'S' && c = '\u017f') || (letter = 'K' && c = '\u212a')

/-- `str.upper` of a character that matches `letter`. -/
def upperMatched (letter c : Char) : Char := if c = '\u0130' || c = '\u212a' then c else letter

/-- What matches `word` at the start of the text, in upper case, and what follows. -/
def matchWord : List Char → List Char → Option (List Char × List Char)
  | [], s => some ([], s)
  | _ :: _, [] => none
  | letter :: word, c :: s =>
    if matchesLetter letter c then
      (matchWord word s).map fun (kind, r) => (upperMatched letter c :: kind, r)
    else none

/-- `_DIRECTIVE.match`, with its groups as the scanners use them.  The line holds no newline.  A
blank after the colon is enough: the pattern gives it to the payload. -/
def matchDirective (text : List Char) : Option (String × String) :=
  directiveWords.findSome? fun word =>
    match matchWord word.toList (lstrip text) with
    | none => none
    | some (kind, r) =>
      match lstrip r with
      | ':' :: payload =>
        if payload = [] then none else some (String.ofList kind, String.ofList (strip payload))
      | _ => none

/-- `_MARKDOWN_FENCE.match`: the character of the run, its length, and what follows it. -/
def matchMarkdownFence (text : List Char) : Option (Char × Nat × List Char) :=
  if 3 < (text.takeWhile (· = ' ')).length then none
  else
    match text.dropWhile (· = ' ') with
    | [] => none
    | c :: r =>
      if c = '\u0060' ∨ c = '~' then
        let length := (r.takeWhile (· = c)).length + 1
        if 3 ≤ length then some (c, length, r.dropWhile (· = c)) else none
      else none

/-- `line.startswith((" ", "\t"))`. -/
def isIndented : List Char → Bool
  | c :: _ => c = ' ' || c = '\t'
  | [] => false

/-! ### Messages -/

mutual
/-- `_message_texts`. -/
def messageTexts : Json → List String
  | .str s => [s]
  | .arr items => messageTextsItems items
  | .obj ms => messageTextsAt "content" ms ++ messageTextsAt "text" ms ++
      messageTextsAt "message" ms ++ messageTextsAt "output" ms ++ messageTextsAt "input" ms
  | _ => []

def messageTextsItems : List Json → List String
  | [] => []
  | v :: vs => messageTexts v ++ messageTextsItems vs

/-- The texts of a member.  What is neither a text nor a list has none. -/
def messageTextsAt (key : String) : List (String × Json) → List String
  | [] => []
  | (k, v) :: ms =>
    if k = key then
      match v with
      | .str s => [s]
      | .arr items => messageTextsItems items
      | _ => []
    else messageTextsAt key ms
end

/-! ### Scanners -/

/-- `_iter_candidate_directives`, over the lines left. -/
def iterCandidateLines (markdown : Bool) (fence : Option (Char × Nat)) :
    List (List Char) → List (String × String)
  | [] => []
  | line :: lines =>
    if markdown then
      match matchMarkdownFence line with
      | some (c, length, info) =>
        match fence with
        | none => iterCandidateLines markdown (some (c, length)) lines
        | some (c', length') =>
          if c = c' ∧ length' ≤ length ∧ strip info = [] then iterCandidateLines markdown none lines
          else iterCandidateLines markdown fence lines
      | none =>
        if fence ≠ none ∨ isIndented line then iterCandidateLines markdown fence lines
        else (matchDirective line).toList ++ iterCandidateLines markdown fence lines
    else (matchDirective line).toList ++ iterCandidateLines markdown fence lines

/-- `_iter_candidate_directives`. -/
def iterCandidateDirectives (markdown : Bool) (candidate : String) : List (String × String) :=
  iterCandidateLines markdown none (strSplitlines candidate.toList)

/-- The texts of a line of a conversation. -/
def candidatesOf (text : String) : List String :=
  match loads text with
  | none => [text]
  | some value =>
    match messageTexts value with
    | [] => [text]
    | extracted => extracted

/-- What a match of a line at `offset` yields. -/
def directiveAt (offset length : Nat) (text : String) (found : String × String) : Directive where
  kind := found.1
  payload := found.2
  startByte := offset
  endByte := offset + length
  excerpt := text

/-- `_iter_directives`, over the lines left; `none` is a `UnicodeDecodeError`. -/
def iterLines (conversation markdown : Bool) (offset : Nat) (fence : Option (Char × Nat)) :
    List Bytes → Option (List Directive)
  | [] => some []
  | rawLine :: rawLines =>
    let line := rstripNewlines rawLine
    let next := fun fence => iterLines conversation markdown (offset + rawLine.length) fence rawLines
    if line = [] then next fence
    else
      match utf8Decode? line with
      | none => none
      | some text =>
        let yields := List.map (directiveAt offset line.length text)
        if conversation then
          (next fence).map
            (yields ((candidatesOf text).flatMap (iterCandidateDirectives markdown)) ++ ·)
        else if markdown then
          match matchMarkdownFence text.toList with
          | some (c, length, info) =>
            match fence with
            | none => next (some (c, length))
            | some (c', length') =>
              if c = c' ∧ length' ≤ length ∧ strip info = [] then next none
              else next fence
          | none =>
            if fence ≠ none ∨ isIndented text.toList then next fence
            else (next fence).map (yields (matchDirective text.toList).toList ++ ·)
        else (next fence).map (yields (matchDirective text.toList).toList ++ ·)

/-- `_iter_directives`. -/
def iterDirectives (content : String) (conversation markdown : Bool) : Option (List Directive) :=
  iterLines conversation markdown 0 none (splitlinesKeepends (utf8 content))

end SharedMind.Ingest
