import SharedMind.Py.JsonText
import SharedMind.Py.Store
import SharedMind.Py.Url
import SharedMind.Py.Bytes

/-!
# Context packs

`build_context_pack` without a token counter.

* `ContextProjection`: what a state shows of itself.
* `Pack`, `Truncation`: the handoff object and what it says of its own size.
* `refreshTruncation`: the size is stated until it is right.
* `addClaims`, `dropClaims`: claims are added while they fit, and dropped while they do not.
-/

namespace SharedMind.Projection

open Py

inductive PackExc where
  | valueError (message : String)
  | projectionError (message : String)
  | contextBudgetError (requiredBytes budgetBytes : Nat)
  deriving DecidableEq

def contextPackVersion : String := "handoff-context@3"

def defaultContextBudgetBytes : Nat := 32000

def tokenBytesEstimate : Nat := 4

def tokenEstimatorVersion : String := "utf8-bytes-token-estimator@1"

def contextSelectionRuleVersion : String := "context-selection@3"

def contextSelectionRule : String :=
  "mandatory-purpose,open-conflicts,active-decisions,open-questions," ++
    "actionable-work-items;greedy:current_claims;stable-projection-order"

/-- What a state shows: the head, what a pack must hold, and the claims it may leave out. -/
structure ContextProjection where
  projectionVersion : String
  headSequence : Nat
  stateRoot : String
  openConflicts : List Json
  decisions : List Json
  questions : List Json
  workItems : List Json
  currentClaims : List Json

/-- `math.ceil(size / TOKEN_BYTES_ESTIMATE)`. -/
def estimatedTokensOf (size : Nat) : Nat := (size + 3) / tokenBytesEstimate

structure Truncation where
  truncated : Bool
  budgetBytes : Nat
  requestedBudgetBytes : Option Nat
  requestedBudgetTokens : Option Nat
  renderedBytes : Nat
  estimatedTokens : Nat
  includedClaims : Nat
  omittedClaims : Nat
  references : List Json

def natJson (n : Nat) : Json := .num (.int n)

def optNatJson : Option Nat → Json
  | none => .null
  | some n => natJson n

def Truncation.toJson (t : Truncation) : Json :=
  .obj [
    ("budget_bytes", natJson t.budgetBytes),
    ("estimated_tokens", natJson t.estimatedTokens),
    ("included_counts", .obj [("current_claims", natJson t.includedClaims)]),
    ("omitted_counts", .obj [("current_claims", natJson t.omittedClaims)]),
    ("references", .arr t.references),
    ("rendered_bytes", natJson t.renderedBytes),
    ("requested_budget_bytes", optNatJson t.requestedBudgetBytes),
    ("requested_budget_tokens", optNatJson t.requestedBudgetTokens),
    ("selection_rule", .str contextSelectionRule),
    ("selection_rule_version", .str contextSelectionRuleVersion),
    ("token_estimate_exact", .bool false),
    ("token_estimator", .str "ceil(utf8_bytes/4)"),
    ("token_estimator_version", .str tokenEstimatorVersion),
    ("truncated", .bool t.truncated)]

/-- `_truncation_metadata`. -/
def truncationMetadata (effectiveBudget : Nat) (requestedBytes requestedTokens : Option Nat)
    (included omitted : Nat) (references : List Json) (renderedBytes : Nat) : Truncation where
  truncated := omitted ≠ 0 || !references.isEmpty
  budgetBytes := effectiveBudget
  requestedBudgetBytes := requestedBytes
  requestedBudgetTokens := requestedTokens
  renderedBytes := renderedBytes
  estimatedTokens := estimatedTokensOf renderedBytes
  includedClaims := included
  omittedClaims := omitted
  references := references

structure Pack where
  shown : ContextProjection
  purpose : Option String
  currentClaims : List Json
  truncation : Truncation

def Pack.toJson (p : Pack) : Json :=
  .obj [
    ("context_pack_version", .str contextPackVersion),
    ("current_claims", .arr p.currentClaims),
    ("decisions", .arr p.shown.decisions),
    ("ledger_seq", natJson p.shown.headSequence),
    ("open_conflicts", .arr p.shown.openConflicts),
    ("open_questions", .arr p.shown.questions),
    ("projection_version", .str p.shown.projectionVersion),
    ("purpose", (p.purpose.map JsonOf.str).getD .null),
    ("purpose_missing", .bool p.purpose.isNone),
    ("state_root", .str p.shown.stateRoot),
    ("truncation", p.truncation.toJson),
    ("work_items", .arr p.shown.workItems)]

/-- `_finalize_size`. -/
def Pack.size (p : Pack) : Nat := (utf8 p.toJson.dumps).length

/-! ### References to what is left out -/

/-- The full history a record refers to, and how much of it the record leaves out. -/
def historyOmission (members : List (String × Json)) : List (String × Nat) :=
  match (JsonOf.obj members).get? "history_truncated", (JsonOf.obj members).get? "full_history_ref",
    (JsonOf.obj members).get? "history_omitted_count" with
  | some (.bool true), some (.str reference), some (.num (.int omitted)) =>
    if 0 < omitted then [(reference, omitted.toNat)] else []
  | _, _, _ => []

mutual
def historyOmissions : Json → List (String × Nat)
  | .obj members => historyOmission members ++ historyOmissionsMembers members
  | .arr items => historyOmissionsItems items
  | _ => []

def historyOmissionsItems : List Json → List (String × Nat)
  | [] => []
  | v :: vs => historyOmissions v ++ historyOmissionsItems vs

def historyOmissionsMembers : List (String × Json) → List (String × Nat)
  | [] => []
  | (_, v) :: ms => historyOmissions v ++ historyOmissionsMembers ms
end

def reference (sectionName projectionRef : String) (omittedCount : Nat) : Json :=
  .obj [
    ("omitted_count", natJson omittedCount),
    ("projection_ref", .str projectionRef),
    ("section", .str sectionName)]

/-- `_history_truncation_references`: each history once, with the most that is left out of it. -/
def historyTruncationReferences (p : Pack) : List Json :=
  let omitted := historyOmissionsItems (p.shown.openConflicts ++ p.shown.decisions ++
    p.shown.questions ++ p.shown.workItems ++ p.currentClaims)
  (sortedSet (omitted.map Prod.fst)).map fun ref =>
    reference "history" ref (((omitted.filter fun o => o.1 = ref).map Prod.snd).foldl max 0)

/-! ### The size -/

/-- The pack with a size stated. -/
def Pack.sized (p : Pack) (size : Nat) : Pack :=
  { p with truncation :=
    { p.truncation with renderedBytes := size, estimatedTokens := estimatedTokensOf size } }

/-- `_set_stable_rendered_size`, with as many turns. -/
def setStableRenderedSize : Nat → Pack → Except PackExc Pack
  | 0, _ => .error (.projectionError "context size metadata did not converge")
  | turns + 1, p =>
    if p.truncation.renderedBytes = p.size ∧
        p.truncation.estimatedTokens = estimatedTokensOf p.size then .ok p
    else setStableRenderedSize turns (p.sized p.size)

/-- The pack with what it says of itself for `included` claims. -/
def Pack.described (p : Pack) (effectiveBudget included : Nat) : Pack :=
  let omitted := p.shown.currentClaims.length - included
  let references := if omitted ≠ 0 then
    [reference "current_claims" "project.json#/claims" omitted] else []
  { p with
    truncation := truncationMetadata effectiveBudget p.truncation.requestedBudgetBytes
      p.truncation.requestedBudgetTokens included omitted
      (references ++ historyTruncationReferences p) 0 }

/-- `_refresh_truncation`. -/
def refreshTruncation (p : Pack) (effectiveBudget included : Nat) : Except PackExc Pack :=
  setStableRenderedSize 16 (p.described effectiveBudget included)

/-! ### The pack -/

/-- A budget that is given is positive. -/
def positiveBudget (name : String) : Option Int → Except PackExc (Option Nat)
  | none => .ok none
  | some value => do
    ensure (0 < value) (.valueError (name ++ " must be a positive integer"))
    return some value.toNat

/-- `_effective_budget`. -/
def effectiveBudget (budgetBytes budgetTokens : Option Nat) : Nat :=
  match budgetBytes, budgetTokens with
  | none, none => defaultContextBudgetBytes
  | some bytes, none => bytes
  | none, some tokens => tokens * tokenBytesEstimate
  | some bytes, some tokens => min bytes (tokens * tokenBytesEstimate)

/-- The pack before any claim is in it. -/
def mandatoryPack (shown : ContextProjection) (purpose : Option String)
    (budgetBytes budgetTokens : Option Nat) : Pack where
  shown := shown
  purpose := purpose
  currentClaims := []
  truncation := truncationMetadata (effectiveBudget budgetBytes budgetTokens) budgetBytes
    budgetTokens 0 shown.currentClaims.length [] 0

/-- Claims are added in order until one does not fit. -/
def addClaims (budget : Nat) : List Json → Nat → Pack → Except PackExc (Pack × Nat)
  | [], included, p => .ok (p, included)
  | item :: items, included, p => do
    let grown ← refreshTruncation { p with currentClaims := p.currentClaims ++ [item] } budget
      (included + 1)
    if budget < grown.size then
      let p ← refreshTruncation { grown with currentClaims := grown.currentClaims.dropLast } budget
        included
      return (p, included)
    else addClaims budget items (included + 1) grown

/-- The last claims are dropped until the pack fits, at most `turns` of them. -/
def dropClaims (budget : Nat) : Nat → Nat → Pack → Except PackExc Pack
  | 0, _, p => .ok p
  | turns + 1, included, p =>
    if p.currentClaims ≠ [] ∧ budget < p.size then do
      let p ← refreshTruncation { p with currentClaims := p.currentClaims.dropLast } budget
        (included - 1)
      dropClaims budget turns (included - 1) p
    else .ok p

/-- The part of `build_context_pack` that fills the mandatory pack. -/
def packWithin (budget : Nat) (p : Pack) : Except PackExc Pack := do
  let p ← refreshTruncation p budget 0
  ensure (p.size ≤ budget) (.contextBudgetError p.size budget)
  let added ← addClaims budget p.shown.currentClaims 0 p
  let p ← refreshTruncation added.1 budget added.2
  let p ← dropClaims budget p.currentClaims.length added.2 p
  ensure (p.size ≤ budget) (.contextBudgetError p.size budget)
  setStableRenderedSize 16 p

/-- `isinstance(purpose, str) and not purpose.strip()`. -/
def isBlank (purpose : String) : Bool := purpose.toList.all isSpace

/-- `build_context_pack` on what a state shows. -/
def buildContextPack (shown : ContextProjection) (budgetBytes budgetTokens : Option Int)
    (purpose : Option String) : Except PackExc Pack := do
  ensure (∀ text ∈ purpose, isBlank text = false)
    (.valueError "purpose must be a non-empty string when supplied")
  let budgetBytes ← positiveBudget "budget_bytes" budgetBytes
  let budgetTokens ← positiveBudget "budget_tokens" budgetTokens
  packWithin (effectiveBudget budgetBytes budgetTokens)
    (mandatoryPack shown purpose budgetBytes budgetTokens)

end SharedMind.Projection
