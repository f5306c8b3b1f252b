import SharedMind.Observe.Finalizes

/-!
# Processes on one session

The hooks of a session are processes of their own.  Between what a call of `append` or `finalize`
reads and what it writes, other calls read and write.

* `State`: the buffer of a session, one file under its two names, and where every process is.
* `Step`, `Run`: the reads, the writes, the links and unlinks of all of them, in any order.
* `append_alone`: a call of `append` that nobody interrupts does what `append` does.
-/

namespace SharedMind.Observe.Hook

open Py

/-! ### States -/

/-- Where the call of a process is, with what it has read. -/
inductive Progress where
  | idle
  -- `append`
  | found (event : Json)
  | checked (event : Json) (seen : Bytes)
  | measured (event : Json) (seen : Bytes)
  | opened (event : Json) (seen : Bytes)
  | written (event : Json)
  -- `finalize`
  | chosen (source : BufferState)
  | sourced (source : BufferState)
  | parsed (source : BufferState) (seen : Bytes) (trace : Json)
  | recorded (seen : Bytes) (trace : Json)
  | clashed (seen : Bytes) (trace : Json)
  | compared (seen : Bytes) (trace : Json) (pending : Bytes)
  | archived (seen : Bytes) (trace : Json)

/-- The file of a session, which of its names it has, and the trace that is captured of it. -/
structure State where
  content : Bytes
  pending : Bool
  captured : Bool
  trace : Option Json
  calls : Nat → Progress

namespace State

def Has (s : State) : BufferState → Prop
  | .pending => s.pending = true
  | .captured => s.captured = true

/-- The call of a process gets on. -/
def move (s : State) (p : Nat) (c : Progress) : State := { s with calls := Function.update s.calls p c }

@[simp] theorem move_self (s : State) (p : Nat) (c : Progress) : (s.move p c).calls p = c :=
  Function.update_self ..

theorem move_of_ne {s : State} {p q : Nat} (h : q ≠ p) (c : Progress) :
    (s.move p c).calls q = s.calls q := Function.update_of_ne h ..

@[simp] theorem move_move (s : State) (p : Nat) (c d : Progress) :
    (s.move p c).move p d = s.move p d := by
  simp [move]

theorem move_eq_self {s : State} {p : Nat} {c : Progress} (h : s.calls p = c) : s.move p c = s := by
  rw [move, ← h, Function.update_eq_self]

@[simp] theorem move_content (s : State) (p : Nat) (c : Progress) :
    (s.move p c).content = s.content := rfl

@[simp] theorem move_trace (s : State) (p : Nat) (c : Progress) : (s.move p c).trace = s.trace := rfl

/-- The files, under the digest of the session. -/
def files (s : State) (digest : List Char) : Files := fun path =>
  if path.digest = digest then match path.state with
    | .pending => if s.pending then some s.content else none
    | .captured => if s.captured then some s.content else none
  else none

/-- After `start`, before any other call. -/
structure Started (s : State) (header : Json) : Prop where
  isHeader : IsHeader header
  content : s.content = jsonLine header
  pending : s.pending = true
  captured : s.captured = false
  idle : ∀ p, s.calls p = .idle

end State

/-! ### Steps -/

/-- What a step tells: a line was written, an `append` or a `finalize` returned, or none of it. -/
inductive Event where
  | wrote (p : Nat)
  | appended (p : Nat) (event : Json)
  | finalized (p : Nat)
  | silent (p : Nat)

/-- The sequence number of an event is the next one. -/
def Next (events : List Json) (event : Json) : Prop :=
  ∃ n ∈ event.get? "sequence", n.pyEq (.num (.int (events.length + 1 : Nat))) = true

/-- One step.  A call may raise anywhere, and a process may end. -/
inductive Step (s : State) : Event → State → Prop
  | raises (p : Nat) : Step s (.silent p) (s.move p .idle)
  -- `append`
  | isPending {p : Nat} {raw : RawJson} {event : Json} :
      s.calls p = .idle → raw.toJson? = some event → validTraceEvent event = true →
      s.pending = true → Step s (.silent p) (s.move p (.found event))
  | check {p : Nat} {event header : Json} {events : List Json} :
      s.calls p = .found event → s.pending = true → readBuffer s.content = .ok (header, events) →
      Next events event → Step s (.silent p) (s.move p (.checked event s.content))
  | measure {p : Nat} {event : Json} {seen : Bytes} :
      s.calls p = .checked event seen → s.pending = true →
      s.content.length + (jsonLine event).length ≤ maxJsonBytes →
      Step s (.silent p) (s.move p (.measured event seen))
  | openFile {p : Nat} {event : Json} {seen : Bytes} :
      s.calls p = .measured event seen → s.pending = true →
      Step s (.silent p) (s.move p (.opened event seen))
  -- the descriptor stays on the file when its name goes
  | write {p : Nat} {event : Json} {seen : Bytes} : s.calls p = .opened event seen →
      Step s (.wrote p) { s.move p (.written event) with content := s.content ++ jsonLine event }
  | sync {p : Nat} {event : Json} : s.calls p = .written event →
      Step s (.appended p event) (s.move p .idle)
  -- `finalize`
  | choose {p : Nat} : s.calls p = .idle →
      Step s (.silent p) (s.move p (.chosen (if s.pending then .pending else .captured)))
  | isFile {p : Nat} {source : BufferState} : s.calls p = .chosen source → s.Has source →
      Step s (.silent p) (s.move p (.sourced source))
  | parse {p : Nat} {source : BufferState} {header trace : Json} {events : List Json} :
      s.calls p = .sourced source → s.Has source → readBuffer s.content = .ok (header, events) →
      events ≠ [] →
      parseTaskTrace ((memberText header "task_id").getD "") (traceOf header events) = .ok trace →
      Step s (.silent p) (s.move p (.parsed source s.content trace))
  -- `post_task_capture` keeps the trace that it has
  | record {p : Nat} {seen : Bytes} {trace : Json} : s.calls p = .parsed .pending seen trace →
      (s.trace = none ∨ s.trace = some trace) →
      Step s (.silent p) { s.move p (.recorded seen trace) with trace := some trace }
  | recordCaptured {p : Nat} {seen : Bytes} {trace : Json} : s.calls p = .parsed .captured seen trace →
      (s.trace = none ∨ s.trace = some trace) →
      Step s (.finalized p) { s.move p .idle with trace := some trace }
  | recordRaises {p : Nat} {source : BufferState} {seen : Bytes} {trace : Json} :
      s.calls p = .parsed source seen trace → (s.trace = none ∨ s.trace = some trace) →
      Step s (.silent p) { s.move p .idle with trace := some trace }
  -- `_archive_no_clobber`
  | link {p : Nat} {seen : Bytes} {trace : Json} : s.calls p = .recorded seen trace →
      s.pending = true → s.captured = false →
      Step s (.silent p) { s.move p (.archived seen trace) with captured := true }
  | fileExists {p : Nat} {seen : Bytes} {trace : Json} : s.calls p = .recorded seen trace →
      s.pending = true → s.captured = true → Step s (.silent p) (s.move p (.clashed seen trace))
  | readPending {p : Nat} {seen : Bytes} {trace : Json} : s.calls p = .clashed seen trace →
      s.pending = true → Step s (.silent p) (s.move p (.compared seen trace s.content))
  | readCaptured {p : Nat} {seen pending : Bytes} {trace : Json} :
      s.calls p = .compared seen trace pending → s.captured = true → pending = s.content →
      Step s (.silent p) (s.move p (.archived seen trace))
  | unlink {p : Nat} {seen : Bytes} {trace : Json} : s.calls p = .archived seen trace →
      s.pending = true → Step s (.finalized p) { s.move p .idle with pending := false }

/-- A step that was taken. -/
structure Taken where
  before : State
  event : Event
  after : State

/-- The calls on a session, from its start. -/
inductive Run (header : Json) : List Taken → State → Prop
  | started {s : State} : s.Started header → Run header [] s
  | snoc {steps : List Taken} {s t : State} {e : Event} (run : Run header steps s) (h : Step s e t) :
      Run header (steps ++ [⟨s, e, t⟩]) t

namespace Taken

/-- A line is written to the file that its append has read, and a finalize returns when the file is
the one it has read. -/
structure Undisturbed (st : Taken) : Prop where
  write : ∀ p event seen, st.event = .wrote p → st.before.calls p = .opened event seen →
    st.before.content = seen
  finalize : ∀ p seen trace, st.event = .finalized p →
    st.before.calls p = .archived seen trace ∨ st.before.calls p = .parsed .captured seen trace →
      st.before.content = seen

theorem undisturbed_silent {s t : State} {p : Nat} : Undisturbed ⟨s, .silent p, t⟩ :=
  ⟨fun _ _ _ h => (nomatch h), fun _ _ _ h => nomatch h⟩

theorem undisturbed_appended {s t : State} {p : Nat} {event : Json} :
    Undisturbed ⟨s, .appended p event, t⟩ :=
  ⟨fun _ _ _ h => (nomatch h), fun _ _ _ h => nomatch h⟩

theorem undisturbed_unlink {s t : State} {p : Nat} {trace : Json}
    (h : s.calls p = .archived s.content trace) : Undisturbed ⟨s, .finalized p, t⟩ := by
  refine ⟨fun _ _ _ h => (nomatch h), fun q seen trace' hq hcall => ?_⟩
  obtain rfl := Event.finalized.inj hq
  rw [h] at hcall
  rcases hcall with hcall | hcall
  · exact (Progress.archived.inj hcall).1
  · exact nomatch hcall

end Taken

/-! ### One process -/

/-- A run goes on to a state by undisturbed steps that tell these events. -/
def Reaches (header : Json) (steps : List Taken) (es : List Event) (t : State) : Prop :=
  ∃ steps', Run header (steps ++ steps') t ∧ steps'.map Taken.event = es ∧
    ∀ st ∈ steps', st.Undisturbed

section

variable {header : Json} {steps : List Taken} {es : List Event} {s t u : State} {p : Nat}

theorem Run.reaches (run : Run header steps s) : Reaches header steps [] s :=
  ⟨[], by rwa [List.append_nil], rfl, fun _ h => absurd h List.not_mem_nil⟩

theorem Reaches.step {e : Event} (h : Reaches header steps es t) (hstep : Step t e u)
    (hu : Taken.Undisturbed ⟨t, e, u⟩) : Reaches header steps (es ++ [e]) u := by
  obtain ⟨steps', run, hevents, hall⟩ := h
  refine ⟨steps' ++ [⟨t, e, u⟩], ?_, ?_, ?_⟩
  · rw [← List.append_assoc]
    exact run.snoc hstep
  · rw [List.map_append, hevents]
    rfl
  · rw [List.forall_mem_append, List.forall_mem_singleton]
    exact ⟨hall, hu⟩

/-- A step that tells nothing. -/
theorem Reaches.silent {c d : Progress} (h : Reaches header steps es (t.move p c))
    (hstep : Step (t.move p c) (.silent p) ((t.move p c).move p d)) :
    Reaches header steps (es ++ [.silent p]) (t.move p d) := by
  rw [← State.move_move t p c d]
  exact h.step hstep Taken.undisturbed_silent

/-- **An uninterrupted append** writes what `append` writes, and returns. -/
theorem append_alone (run : Run header steps s) (hidle : s.calls p = .idle) {session : PyStr}
    {digest : List Char} {raw : RawJson} {line : Line}
    (hpath : bufferPath session .pending = .ok ⟨.pending, digest⟩)
    (hline : appendLine (s.files digest) session raw = .ok line) :
    Reaches header steps
      [.silent p, .silent p, .silent p, .silent p, .wrote p, .appended p line.event]
      { s with content := line.content ++ jsonLine line.event } := by
  obtain ⟨_, hevent, hvalid, hpath', hfile, header', events, hread, hnext, hsize⟩ :=
    appendLine_eq_ok.mp hline
  obtain ⟨hpending, hcontent⟩ : s.pending = true ∧ s.content = line.content := by
    rw [← Except.ok.inj (hpath.symm.trans hpath'), State.files, if_pos rfl] at hfile
    dsimp only at hfile
    split at hfile
    · next h => exact ⟨h, Option.some.inj hfile⟩
    · exact nomatch hfile
  rw [← hcontent] at hread hsize ⊢
  have hfound := run.reaches.step (.isPending hidle hevent hvalid hpending)
    Taken.undisturbed_silent
  have hchecked := hfound.silent (.check (State.move_self ..) hpending hread hnext)
  have hmeasured := hchecked.silent (.measure (State.move_self ..) hpending hsize)
  have hopened := hmeasured.silent (.openFile (State.move_self ..) hpending)
  have hwritten := hopened.step (.write (State.move_self ..)) ⟨fun q event seen hq hcall => by
    obtain rfl := Event.wrote.inj hq
    rw [State.move_self] at hcall
    exact (Progress.opened.inj hcall).2, fun _ _ _ h => nomatch h⟩
  have hsynced := hwritten.step (.sync (Function.update_self ..)) Taken.undisturbed_appended
  have hstate : State.move { (s.move p (.opened line.event s.content)).move p (.written line.event)
      with content := s.content ++ jsonLine line.event } p .idle =
      { s with content := s.content ++ jsonLine line.event } := by
    rw [State.move_move]
    simp only [State.move, Function.update_idem, ← hidle, Function.update_eq_self]
  rw [← hstate]
  exact hsynced

/-- **An uninterrupted finalize** captures the trace `finalize` builds, up to its last step. -/
theorem finalize_alone (run : Run header steps s) (hidle : s.calls p = .idle)
    (hpending : s.pending = true) (hcaptured : s.captured = false) {header' trace : Json}
    {events : List Json} (hread : readBuffer s.content = .ok (header', events)) (hne : events ≠ [])
    (hparse : parseTaskTrace ((memberText header' "task_id").getD "") (traceOf header' events) =
      .ok trace) (hold : s.trace = none ∨ s.trace = some trace) :
    Reaches header steps [.silent p, .silent p, .silent p, .silent p, .silent p]
      ({ s with captured := true, trace := some trace }.move p (.archived s.content trace)) := by
  have hchosen := run.reaches.step (.choose hidle) Taken.undisturbed_silent
  rw [if_pos hpending] at hchosen
  have hsourced := hchosen.silent (.isFile (State.move_self ..) hpending)
  have hparsed := hsourced.silent (.parse (State.move_self ..) hpending hread hne hparse)
  have hrecorded := hparsed.step (.record (State.move_self ..) hold) Taken.undisturbed_silent
  have harchived := hrecorded.step (.link (Function.update_self ..) hpending hcaptured)
    Taken.undisturbed_silent
  have hstate : ({ s with captured := true, trace := some trace }.move p
      (.archived s.content trace)) = { State.move { (s.move p (.parsed .pending s.content trace)).move p
        (.recorded s.content trace) with trace := some trace } p (.archived s.content trace) with
        captured := true } := by
    simp only [State.move, Function.update_idem]
  rw [hstate]
  exact harchived

end

end SharedMind.Observe.Hook
