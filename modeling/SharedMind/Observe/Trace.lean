import SharedMind.Contract.Text
import SharedMind.Py.Lines
import SharedMind.Py.Store

/-!
# Task traces

* `validTraceEvent`, `validTaskTrace`: `TaskTraceEvent` and `TaskTrace` of the product schema.
* `parseTaskTrace`: the trace, if the contract and the checks beyond it hold.
-/

namespace SharedMind.Observe

open Py

/-! ### Schema -/

def traceEventIdPattern : Pattern :=
  ⟨[Piece.text "trace_event_" ++ [⟨orElse alnumChar (oneOf "._-"), 8, some 128⟩]]⟩

def taskIdPattern : Pattern :=
  ⟨[[.one alnumChar, ⟨orElse alnumChar (oneOf "._:-"), 0, some 127⟩]]⟩

def timestampPattern : Pattern :=
  let digits (n : Nat) : Piece := ⟨digitChar, n, some n⟩
  ⟨[[digits 4, .lit '-', digits 2, .lit '-', digits 2, .lit 'T', digits 2, .lit ':', digits 2,
    .lit ':', digits 2, .lit 'Z']]⟩

/-- A text with a property. -/
def textWith (p : String → Bool) (value : Json) : Bool := value.str?.any p

def constText (text : String) : Json → Bool := textWith (· = text)

def isObject : Json → Bool
  | .obj _ => true
  | _ => false

/-- A list whose length is between the bounds and whose items have a property. -/
def listWith (lo hi : Nat) (p : Json → Bool) : Json → Bool
  | .arr items => lo ≤ items.length && items.length ≤ hi && items.all p
  | _ => false

/-- An integer between the bounds. -/
def integerWithin (lo hi : Int) : Json → Bool
  | .num n => n.toInt?.any fun i => lo ≤ i && i ≤ hi
  | _ => false

/-- An object of exactly these members, by key order, each with a property. -/
def closedObject (members : List (String × (Json → Bool))) : Json → Bool
  | .obj ms =>
    ms.map Prod.fst = members.map Prod.fst && (ms.zip members).all fun m => m.2.2 m.1.2
  | _ => false

def eventTypes : List String := ["TASK", "TOOL", "RESULT", "DECISION", "FAILURE", "TEST"]

def maxEvents : Nat := 10000

/-- The members of `TaskTraceEvent`. -/
def traceEventMembers : List (String × (Json → Bool)) := [
  ("details", isObject),
  ("event_id", textWith traceEventIdPattern.search),
  ("event_type", textWith (· ∈ eventTypes)),
  ("event_version", constText "task-trace-event@1"),
  ("object_type", constText "TASK_TRACE_EVENT"),
  ("occurred_at", textWith timestampPattern.search),
  ("sequence", integerWithin 1 maxEvents),
  ("summary", textWith (lengthIn 1 8192))]

def validTraceEvent : Json → Bool := closedObject traceEventMembers

/-- `related_object_ids`. -/
def validRelated (value : Json) : Bool :=
  listWith 0 256 (textWith (lengthIn 1 256)) value && match value with
    | .arr items => decide (JsonOf.uniqueItems items)
    | _ => false

def validTaskTrace : Json → Bool := closedObject [
  ("ended_at", textWith timestampPattern.search),
  ("events", listWith 1 maxEvents validTraceEvent),
  ("object_type", constText "TASK_TRACE"),
  ("related_object_ids", validRelated),
  ("session_id", textWith semanticIdPattern.search),
  ("started_at", textWith timestampPattern.search),
  ("task_id", textWith taskIdPattern.search),
  ("trace_id", textWith semanticIdPattern.search),
  ("trace_version", constText "task-trace@1")]

/-! ### Parsing -/

def maxJsonBytes : Nat := 1024 * 1024

def maxJsonDepth : Nat := 64

/-- The text of a member. -/
def memberText (value : Json) (key : String) : Option String := (value.get? key).bind JsonOf.str?

/-- The items of a member. -/
def memberItems (value : Json) (key : String) : List Json :=
  match value.get? key with
  | some (.arr items) => items
  | _ => []

/-- `int(event["sequence"])`. -/
def sequenceOf (event : Json) : Option Int :=
  match event.get? "sequence" with
  | some (.num n) => n.toInt?
  | _ => none

/-- The sequence numbers are 1, 2, … -/
def Contiguous (events : List Json) : Prop :=
  events.map sequenceOf = (List.range events.length).map fun i : Nat => some ((i : Int) + 1)

instance (events : List Json) : Decidable (Contiguous events) :=
  inferInstanceAs (Decidable (_ = _))

/-- What `parse_task_trace` may find wrong. -/
inductive TraceError where
  | tooDeep
  | tooLarge
  | contract
  | taskIdMismatch
  | notContiguous
  | eventIdsNotUnique
  | startedAfterEnd
  deriving DecidableEq

def TraceError.code : TraceError → String
  | taskIdMismatch => "TASK_ID_MISMATCH"
  | _ => "TASK_TRACE_INVALID"

/-- `parse_task_trace`, of a mapping. -/
def parseTaskTrace (taskId : String) (trace : Json) : Except TraceError Json := do
  ensure (trace.depth ≤ maxJsonDepth) .tooDeep
  ensure ((jsonLine trace).length ≤ maxJsonBytes) .tooLarge
  ensure (validTaskTrace trace = true) .contract
  ensure (memberText trace "task_id" = some taskId) .taskIdMismatch
  let events := memberItems trace "events"
  ensure (Contiguous events) .notContiguous
  ensure (events.map (memberText · "event_id")).Nodup .eventIdsNotUnique
  ensure (∀ started ∈ memberText trace "started_at", ∀ ended ∈ memberText trace "ended_at",
    started ≤ ended) .startedAfterEnd
  return trace

end SharedMind.Observe
