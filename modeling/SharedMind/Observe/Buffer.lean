import SharedMind.Observe.Trace
import SharedMind.Py.RawJson

/-!
# Observation buffers

A session has a pending buffer and, once it is finalized, a captured one: a header and the
events that were appended, a JSON text a line.

* `readBuffer`: `_read_buffer`.
* `start`, `append`: the calls that write, with what the system made of them.
* `finalizeTrace`: the trace `finalize` builds, once it is parsed.
-/

namespace SharedMind.Observe

open Py

/-! ### Files -/

inductive BufferState where
  | pending
  | captured
  deriving DecidableEq

/-- `root / state / f"{digest}.jsonl"`. -/
structure BufferPath where
  state : BufferState
  digest : List Char
  deriving DecidableEq

/-- The files under the root. -/
abbrev Files := BufferPath → Option Bytes

/-- No buffer. -/
def noFiles : Files := fun _ => none

inductive ObserveError where
  | alreadyFinalized
  | appendFailed
  | bufferInvalid
  | bufferTooLarge
  | empty
  | eventInvalid
  | eventSequenceInvalid (expected : Nat)
  | notStarted
  | relatedObjectInvalid
  | sessionConflict
  | sessionInvalid
  | startFailed
  | taskInvalid
  | trace (error : TraceError)
  | unicodeEncodeError
  deriving DecidableEq

/-- The code of a `ProductError`; a `UnicodeEncodeError` has none. -/
def ObserveError.code : ObserveError → Option String
  | alreadyFinalized => some "OBSERVATION_ALREADY_FINALIZED"
  | appendFailed => some "OBSERVATION_APPEND_FAILED"
  | bufferInvalid => some "OBSERVATION_BUFFER_INVALID"
  | bufferTooLarge => some "OBSERVATION_BUFFER_TOO_LARGE"
  | empty => some "OBSERVATION_EMPTY"
  | eventInvalid => some "OBSERVATION_EVENT_INVALID"
  | eventSequenceInvalid _ => some "OBSERVATION_EVENT_SEQUENCE_INVALID"
  | notStarted => some "OBSERVATION_NOT_STARTED"
  | relatedObjectInvalid => some "OBSERVATION_RELATED_OBJECT_INVALID"
  | sessionConflict => some "OBSERVATION_SESSION_CONFLICT"
  | sessionInvalid => some "OBSERVATION_SESSION_INVALID"
  | startFailed => some "OBSERVATION_START_FAILED"
  | taskInvalid => some "OBSERVATION_TASK_INVALID"
  | trace error => some error.code
  | unicodeEncodeError => none

abbrev Observed := Except ObserveError

/-! ### Sessions -/

/-- `_require_session`. -/
def requireSession (session : PyStr) : Observed PyStr := do
  ensure (0 < session.points.length ∧ session.points.length ≤ 4096) .sessionInvalid
  return session

/-- `_session_digest`. -/
@[irreducible] def sessionDigest (session : String) : List Char := (sha256Bytes (utf8 session)).digits.take 32

/-- `_normalized_session_id`. -/
def normalizedSessionId (session : String) (digest : List Char) : String :=
  if semanticIdPattern.fullmatch session then session else String.ofList ("session:".toList ++ digest)

/-- `_trace_id`. -/
def traceId (session : String) (digest : List Char) : String :=
  let candidate := String.ofList ("trace:".toList ++ session.toList.drop 8)
  if "session:".toList <+: session.toList ∧ semanticIdPattern.fullmatch candidate = true then candidate
  else String.ofList ("trace:".toList ++ digest)

/-- `buffer_path`. -/
def bufferPath (session : PyStr) (state : BufferState) : Observed BufferPath := do
  let session ← orRaise session.toString? .unicodeEncodeError
  return ⟨state, sessionDigest session⟩

/-! ### Reading -/

def observationVersion : String := "observation-session@1"

/-- The members of a header, by key order. -/
def headerKeys : List String :=
  ["object_type", "observation_version", "related_object_ids", "session_id", "source_session_id",
    "task_id", "trace_id"]

/-- `_read_buffer`. -/
def readBuffer (content : Bytes) : Observed (Json × List Json) := do
  ensure (content.length ≤ maxJsonBytes) .bufferTooLarge
  let documents ← orRaise (readLines content) .bufferInvalid
  match documents with
  | .obj header :: events => do
    ensure (header.map Prod.fst = headerKeys) .bufferInvalid
    ensure (memberText (.obj header) "object_type" = some "OBSERVATION_SESSION") .bufferInvalid
    ensure (memberText (.obj header) "observation_version" = some observationVersion) .bufferInvalid
    ensure (events.all isObject = true) .bufferInvalid
    return (.obj header, events)
  | _ => .error .bufferInvalid

/-! ### Starting -/

inductive StartStatus where
  | started
  | unchanged
  deriving DecidableEq

structure Started where
  status : StartStatus
  path : BufferPath
  header : Json

/-- The header of a session. -/
def sessionHeader (session taskId : String) (related : List String) : Json :=
  let digest := sessionDigest session
  let normalized := normalizedSessionId session digest
  .obj [("object_type", .str "OBSERVATION_SESSION"), ("observation_version", .str observationVersion),
    ("related_object_ids", .arr (related.map .str)), ("session_id", .str normalized),
    ("source_session_id", .str session), ("task_id", .str taskId),
    ("trace_id", .str (traceId normalized digest))]

/-- The buffer that exists at the path, if it has this header. -/
def existing (files : Files) (path : BufferPath) (header : Json) : Observed (Option Started) :=
  match files path with
  | none => .ok none
  | some content => do
    let (found, _) ← readBuffer content
    ensure (found.pyEq header = true) .sessionConflict
    return some ⟨.unchanged, path, header⟩

/-- What `start` checks: the buffer there is, or the one to be written. -/
def startBuffer (files : Files) (session taskId : PyStr) (related : List PyStr) :
    Observed (Started × Option Bytes) := do
  let session ← requireSession session
  let task ← orRaise taskId.toString? .taskInvalid
  ensure (taskIdPattern.fullmatch task = true) .taskInvalid
  ensure (∀ value ∈ related, value.points ≠ []) .relatedObjectInvalid
  ensure related.Nodup .relatedObjectInvalid
  let source ← orRaise session.toString? .unicodeEncodeError
  let ids ← orRaise (related.mapM PyStr.toString?) .unicodeEncodeError
  let header := sessionHeader source task ids
  let pending : BufferPath := ⟨.pending, sessionDigest source⟩
  match ← existing files ⟨.captured, sessionDigest source⟩ header with
  | some found => return (found, none)
  | none =>
    match ← existing files pending header with
    | some found => return (found, none)
    | none => return (⟨.started, pending, header⟩, some (jsonLine header))

/-- `start`; `written` tells whether the system wrote and linked the file. -/
def start (files : Files) (session taskId : PyStr) (related : List PyStr) (written : Bool) :
    Observed Started × Files :=
  match startBuffer files session taskId related with
  | .error e => (.error e, files)
  | .ok (found, none) => (.ok found, files)
  | .ok (found, some content) =>
    if written then (.ok found, Function.update files found.path (some content))
    else (.error .startFailed, files)

/-! ### Appending -/

structure Appended where
  path : BufferPath
  eventId : Option String
  sequence : Option Int

/-- What an append is about to write, and where. -/
structure Line where
  path : BufferPath
  content : Bytes
  event : Json

/-- What `append` checks before it writes.  An event that holds a lone surrogate is refused
with the first failed check or, at the latest, when its line is encoded; here it is the latter. -/
def appendLine (files : Files) (session : PyStr) (event : RawJson) : Observed Line := do
  let session ← requireSession session
  let normalized ← orRaise event.toJson? .unicodeEncodeError
  ensure (validTraceEvent normalized = true) .eventInvalid
  let pending ← bufferPath session .pending
  match files pending with
  | none =>
    if (files ⟨.captured, pending.digest⟩).isSome then .error .alreadyFinalized
    else .error .notStarted
  | some content => do
    let (_, events) ← readBuffer content
    let expected := events.length + 1
    ensure (∃ n ∈ normalized.get? "sequence", n.pyEq (.num (.int expected)) = true)
      (.eventSequenceInvalid expected)
    ensure (content.length + (jsonLine normalized).length ≤ maxJsonBytes) .bufferTooLarge
    return ⟨pending, content, normalized⟩

/-- What the system makes of a write: it raises before anything is written, or it takes some
of the bytes and then syncs them or raises. -/
inductive Writing where
  | raises
  | takes (n : Nat) (synced : Bool)
  deriving DecidableEq

/-- The line is taken whole and synced. -/
def Writing.Done (io : Writing) (line : Bytes) : Prop := ∃ n, io = .takes n true ∧ line.length ≤ n

/-- `append`. -/
def append (files : Files) (session : PyStr) (event : RawJson) (io : Writing) :
    Observed Appended × Files :=
  match appendLine files session event with
  | .error e => (.error e, files)
  | .ok found =>
    let line := jsonLine found.event
    match io with
    | .raises => (.error .appendFailed, files)
    | .takes n synced =>
      (if line.length ≤ n ∧ synced = true then
          .ok ⟨found.path, memberText found.event "event_id", sequenceOf found.event⟩
        else .error .appendFailed,
        Function.update files found.path (some (found.content ++ line.take n)))

/-! ### Finalizing -/

def member (value : Json) (key : String) : Json := (value.get? key).getD .null

/-- The trace of a buffer. -/
def traceOf (header : Json) (events : List Json) : Json :=
  .obj [("ended_at", member (events.getLast?.getD .null) "occurred_at"), ("events", .arr events),
    ("object_type", .str "TASK_TRACE"), ("related_object_ids", member header "related_object_ids"),
    ("session_id", member header "session_id"),
    ("started_at", member (events.head?.getD .null) "occurred_at"),
    ("task_id", member header "task_id"), ("trace_id", member header "trace_id"),
    ("trace_version", .str "task-trace@1")]

/-- The trace of `finalize`, until it is handed to the service. -/
def finalizeTrace (files : Files) (session : PyStr) : Observed Json := do
  let session ← requireSession session
  let pending ← bufferPath session .pending
  let captured ← bufferPath session .captured
  let content ← orRaise ((files pending).or (files captured)) .notStarted
  let (header, events) ← readBuffer content
  ensure (events ≠ []) .empty
  match parseTaskTrace ((memberText header "task_id").getD "") (traceOf header events) with
  | .ok trace => return trace
  | .error e => .error (.trace e)

end SharedMind.Observe
