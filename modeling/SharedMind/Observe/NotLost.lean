import SharedMind.Observe.Processes

/-!
# No observed event is lost

* `Sound`: a file that holds a buffer, and calls that know of it what they have read.
* `observed_not_lost`: in a run of undisturbed steps every appended event is in the trace.
* `raced_appends`: two appends take the same number, and an append lands after the capture.
-/

namespace SharedMind.Observe.Hook

open Py

/-! ### What the file holds -/

/-- The file is a buffer with the event. -/
def Holds (content : Bytes) (header event : Json) : Prop :=
  ∃ events, Buffered content header events ∧ event ∈ events

/-- The trace has the events of the file. -/
def Captures (seen : Bytes) (header trace : Json) : Prop :=
  ∀ event, Holds seen header event → event ∈ memberItems trace "events"

section

variable {content : Bytes} {header event trace : Json} {events events' : List Json}

theorem readLines_of_buffered (h : Buffered content header events) :
    readLines content = some (header :: events) := by
  rw [h.content_eq]
  exact readLines_jsonLines (List.forall_mem_cons.mpr ⟨h.isHeader.sorted, h.sorted⟩)

theorem events_eq_of_buffered (h : Buffered content header events)
    (h' : Buffered content header events') : events = events' :=
  (List.cons.inj (Option.some.inj ((readLines_of_buffered h).symm.trans
    (readLines_of_buffered h')))).2

theorem Holds.append (h : Holds content header event) {next : Json}
    (hbuffer : Buffered content header events)
    (happend : Buffered (content ++ jsonLine next) header (events ++ [next])) :
    Holds (content ++ jsonLine next) header event := by
  obtain ⟨events', hbuffer', hevent⟩ := h
  obtain rfl := events_eq_of_buffered hbuffer hbuffer'
  exact ⟨_, happend, List.mem_append_left _ hevent⟩

/-- What is parsed of a file has its events. -/
theorem captures_of_parse (hbuffer : Buffered content header events) {header' : Json}
    (hread : readBuffer content = .ok (header', events')) {taskId : String}
    (hparse : parseTaskTrace taskId (traceOf header' events') = .ok trace) :
    Captures content header trace := by
  rintro event ⟨events'', hbuffer', hevent⟩
  obtain rfl := events_eq_of_buffered hbuffer hbuffer'
  obtain ⟨rfl, rfl, _⟩ := hbuffer.eq_of_readBuffer hread
  obtain ⟨_, _, _, _, _, _, _, rfl⟩ := parseTaskTrace_eq_ok.mp hparse
  exact hevent

end

/-! ### Invariant -/

/-- What a call knows of what it has read. -/
def CallSound (header : Json) (s : State) : Progress → Prop
  | .idle | .chosen _ | .sourced _ => True
  | .found event => event.Sorted ∧ validTraceEvent event = true
  | .checked event seen | .measured event seen | .opened event seen =>
    (event.Sorted ∧ validTraceEvent event = true) ∧
      ∃ events, Buffered seen header events ∧ Next events event
  | .written event => Holds s.content header event
  | .parsed _ seen trace => Captures seen header trace
  | .recorded seen trace | .clashed seen trace | .compared seen trace _ | .archived seen trace =>
    Captures seen header trace ∧ s.trace = some trace

/-- The file holds a buffer, and every call knows of it what it has read. -/
structure Sound (header : Json) (s : State) : Prop where
  buffered : ∃ events, Buffered s.content header events
  calls : ∀ p, CallSound header s (s.calls p)

/-- What is in the file stays there, and what is captured stays captured. -/
structure Keeps (header : Json) (s t : State) : Prop where
  content : ∀ event, Holds s.content header event → Holds t.content header event
  trace : ∀ trace, s.trace = some trace → t.trace = some trace

section

variable {header : Json} {s t : State} {e : Event}

theorem Keeps.refl_of_eq (hcontent : t.content = s.content) (htrace : t.trace = s.trace) :
    Keeps header s t := by
  refine ⟨fun event h => ?_, fun trace h => ?_⟩
  · rw [hcontent]
    exact h
  · rw [htrace]
    exact h

theorem CallSound.keep {c : Progress} (hkeeps : Keeps header s t) (h : CallSound header s c) :
    CallSound header t c := by
  cases c with
  | written event => exact hkeeps.content event h
  | recorded seen trace => exact ⟨h.1, hkeeps.trace trace h.2⟩
  | clashed seen trace => exact ⟨h.1, hkeeps.trace trace h.2⟩
  | compared seen trace pending => exact ⟨h.1, hkeeps.trace trace h.2⟩
  | archived seen trace => exact ⟨h.1, hkeeps.trace trace h.2⟩
  | _ => exact h

theorem Sound.move (hsound : Sound header s) {p : Nat} {c : Progress} (hkeeps : Keeps header s t)
    (hbuffered : ∃ events, Buffered t.content header events)
    (hcalls : t.calls = Function.update s.calls p c) (hc : CallSound header t c) :
    Sound header t := by
  refine ⟨hbuffered, fun q => ?_⟩
  rw [hcalls]
  by_cases hq : q = p
  · rw [hq, Function.update_self]
    exact hc
  · rw [Function.update_of_ne hq]
    exact (hsound.calls q).keep hkeeps

/-- A step that only moves its call. -/
theorem Sound.silent (hsound : Sound header s) {p : Nat} {c : Progress}
    (hcontent : t.content = s.content) (htrace : t.trace = s.trace)
    (hcalls : t.calls = Function.update s.calls p c) (hc : CallSound header t c) :
    Keeps header s t ∧ Sound header t := by
  have hkeeps : Keeps header s t := .refl_of_eq hcontent htrace
  refine ⟨hkeeps, hsound.move hkeeps ?_ hcalls hc⟩
  rw [hcontent]
  exact hsound.buffered

/-- A step that captures a trace. -/
theorem Sound.record (hsound : Sound header s) {p : Nat} {c : Progress} {trace : Json}
    (hold : s.trace = none ∨ s.trace = some trace) (hcontent : t.content = s.content)
    (htrace : t.trace = some trace) (hcalls : t.calls = Function.update s.calls p c)
    (hc : CallSound header t c) : Keeps header s t ∧ Sound header t := by
  have hkeeps : Keeps header s t := by
    refine ⟨(Keeps.refl_of_eq (t := { s with content := t.content }) hcontent rfl).content,
      fun trace' htrace' => ?_⟩
    rcases hold with hold | hold
    · exact nomatch hold.symm.trans htrace'
    · rw [htrace, ← hold, htrace']
  refine ⟨hkeeps, hsound.move hkeeps ?_ hcalls hc⟩
  rw [hcontent]
  exact hsound.buffered

/-- The invariant is kept. -/
theorem Sound.step (hsound : Sound header s) (h : Step s e t) (hst : Taken.Undisturbed ⟨s, e, t⟩) :
    Keeps header s t ∧ Sound header t := by
  obtain ⟨events, hbuffer⟩ := hsound.buffered
  cases h with
  | raises p => exact hsound.silent rfl rfl rfl trivial
  | isPending _ hraw hvalid _ =>
    exact hsound.silent rfl rfl rfl ⟨JsonOf.sorted_of_toJson? _ _ hraw, hvalid⟩
  | @check p event header' events' hcall _ hread hnext =>
    have hevent := hsound.calls p
    rw [hcall] at hevent
    obtain ⟨rfl, rfl, _⟩ := hbuffer.eq_of_readBuffer hread
    exact hsound.silent rfl rfl rfl ⟨hevent, _, hbuffer, hnext⟩
  | @measure p event seen hcall _ _ =>
    have hevent := hsound.calls p
    rw [hcall] at hevent
    exact hsound.silent rfl rfl rfl hevent
  | @openFile p event seen hcall _ =>
    have hevent := hsound.calls p
    rw [hcall] at hevent
    exact hsound.silent rfl rfl rfl hevent
  | @write p event seen hcall =>
    have hevent := hsound.calls p
    rw [hcall] at hevent
    obtain ⟨⟨hsorted, hvalid⟩, events', hbuffer', hnext⟩ := hevent
    -- nobody wrote since the sequence was checked
    obtain rfl : s.content = seen := hst.write p event seen rfl hcall
    obtain rfl := events_eq_of_buffered hbuffer hbuffer'
    have happend := hbuffer.append hsorted hvalid hnext
    have hkeeps : Keeps header s
        { s.move p (.written event) with content := s.content ++ jsonLine event } :=
      ⟨fun e he => he.append hbuffer happend, fun _ h => h⟩
    refine ⟨hkeeps, hsound.move hkeeps ⟨_, happend⟩ rfl ⟨_, happend, ?_⟩⟩
    exact List.mem_append_right _ (List.mem_singleton_self _)
  | sync _ => exact hsound.silent rfl rfl rfl trivial
  | choose _ => exact hsound.silent rfl rfl rfl trivial
  | isFile _ _ => exact hsound.silent rfl rfl rfl trivial
  | parse _ _ hread _ hparse =>
    exact hsound.silent rfl rfl rfl (captures_of_parse hbuffer hread hparse)
  | @record p seen trace hcall hold =>
    have hcaptures := hsound.calls p
    rw [hcall] at hcaptures
    exact hsound.record hold rfl rfl rfl ⟨hcaptures, rfl⟩
  | recordCaptured _ hold => exact hsound.record hold rfl rfl rfl trivial
  | recordRaises _ hold => exact hsound.record hold rfl rfl rfl trivial
  | @link p seen trace hcall _ _ =>
    have hcaptures := hsound.calls p
    rw [hcall] at hcaptures
    exact hsound.silent rfl rfl rfl hcaptures
  | @fileExists p seen trace hcall _ _ =>
    have hcaptures := hsound.calls p
    rw [hcall] at hcaptures
    exact hsound.silent rfl rfl rfl hcaptures
  | @readPending p seen trace hcall _ =>
    have hcaptures := hsound.calls p
    rw [hcall] at hcaptures
    exact hsound.silent rfl rfl rfl hcaptures
  | @readCaptured p seen pending trace hcall _ _ =>
    have hcaptures := hsound.calls p
    rw [hcall] at hcaptures
    exact hsound.silent rfl rfl rfl hcaptures
  | unlink _ _ => exact hsound.silent rfl rfl rfl trivial

/-- What an append has written is in the file. -/
theorem Sound.holds_of_appended (hsound : Sound header s) {p : Nat} {event : Json}
    (h : Step s (.appended p event) t) : Holds t.content header event := by
  cases h with
  | sync hcall =>
    have hevent := hsound.calls p
    rw [hcall] at hevent
    exact hevent

/-- When a finalize returns, the captured trace has what the file holds. -/
theorem Sound.captures_of_finalized (hsound : Sound header s) {p : Nat}
    (h : Step s (.finalized p) t) (hst : Taken.Undisturbed ⟨s, .finalized p, t⟩) :
    ∃ trace, t.trace = some trace ∧ Captures s.content header trace := by
  cases h with
  | @recordCaptured _ seen trace hcall _ =>
    have hcaptures := hsound.calls p
    rw [hcall] at hcaptures
    obtain rfl : s.content = seen := hst.finalize p seen trace rfl (Or.inr hcall)
    exact ⟨trace, rfl, hcaptures⟩
  | @unlink _ seen trace hcall _ =>
    have hcaptures := hsound.calls p
    rw [hcall] at hcaptures
    obtain rfl : s.content = seen := hst.finalize p seen trace rfl (Or.inl hcall)
    exact ⟨trace, hcaptures.2, hcaptures.1⟩

theorem State.Started.sound (h : s.Started header) : Sound header s := by
  refine ⟨⟨[], h.isHeader, ?_, by simp, by simp, rfl⟩, fun p => ?_⟩
  · rw [h.content]
    exact (List.append_nil _).symm
  · rw [h.idle p]
    trivial

end

/-! ### Runs -/

/-- Every event whose append returned before a finalize did is in the captured trace. -/
def NotLost (steps : List Taken) (s : State) : Prop :=
  ∀ before st after, steps = before ++ st :: after → (∃ p, st.event = .finalized p) →
    ∀ st' ∈ before, ∀ p event, st'.event = .appended p event →
      ∃ trace, s.trace = some trace ∧ event ∈ memberItems trace "events"

/-- What a run of undisturbed steps keeps. -/
theorem Run.sound {header : Json} {steps : List Taken} {s : State} (run : Run header steps s)
    (h : ∀ st ∈ steps, st.Undisturbed) : Sound header s ∧
      (∀ st ∈ steps, ∀ p event, st.event = .appended p event → Holds s.content header event) ∧
      NotLost steps s := by
  induction run with
  | started hstarted =>
    refine ⟨hstarted.sound, fun _ h => absurd h List.not_mem_nil, ?_⟩
    rintro before st after hsteps
    exact absurd hsteps.symm (by simp)
  | @snoc steps s t e run hstep ih =>
    rw [List.forall_mem_append, List.forall_mem_singleton] at h
    obtain ⟨hsound, hholds, hlost⟩ := ih h.1
    obtain ⟨hkeeps, hsound'⟩ := hsound.step hstep h.2
    refine ⟨hsound', ?_, ?_⟩
    · rw [List.forall_mem_append, List.forall_mem_singleton]
      refine ⟨fun st hst p event hevent => hkeeps.content event (hholds st hst p event hevent), ?_⟩
      rintro p event rfl
      exact hsound.holds_of_appended hstep
    · intro before st after hsteps hfinalized st' hst' p event hevent
      rcases List.eq_nil_or_concat after with rfl | ⟨after, last, rfl⟩
      · -- the finalize returns with this step
        obtain ⟨rfl, hlast⟩ := List.append_inj' hsteps rfl
        obtain rfl := List.singleton_inj.mp hlast
        obtain ⟨q, rfl⟩ := hfinalized
        obtain ⟨trace, htrace, hcaptures⟩ := hsound.captures_of_finalized hstep h.2
        exact ⟨trace, htrace, hcaptures event (hholds st' hst' p event hevent)⟩
      · rw [List.concat_eq_append, ← List.cons_append, ← List.append_assoc] at hsteps
        obtain ⟨rfl, _⟩ := List.append_inj' hsteps rfl
        obtain ⟨trace, htrace, hmem⟩ := hlost before st after rfl hfinalized st' hst' p event hevent
        exact ⟨trace, hkeeps.trace trace htrace, hmem⟩

/-- **No observed event is lost** in a run in which nothing is written between what a call reads and
what it does: the events of the file are numbered one after the other, and what was appended before
a finalize returned is in the captured trace. -/
theorem observed_not_lost {header : Json} {steps : List Taken} {s : State}
    (run : Run header steps s) (h : ∀ st ∈ steps, st.Undisturbed) :
    (∃ events, readLines s.content = some (header :: events) ∧ Contiguous events) ∧
      NotLost steps s := by
  obtain ⟨⟨⟨events, hbuffer⟩, _⟩, _, hlost⟩ := run.sound h
  exact ⟨⟨events, readLines_of_buffered hbuffer, hbuffer.contiguous⟩, hlost⟩

/-! ### Two hooks -/

/-- The session of the demonstration, started. -/
def demoState : State := ⟨jsonLine demoHeader, true, false, none, fun _ => .idle⟩

theorem demoState_started : demoState.Started demoHeader :=
  ⟨demoHeader_buffered.isHeader, rfl, rfl, rfl, fun _ => rfl⟩

/-- What another hook observes, as the first event or the second. -/
def otherEvent (sequence : Int) : Json := .obj [("details", .obj []),
  ("event_id", .str "trace_event_87654321"), ("event_type", .str "TOOL"),
  ("event_version", .str "task-trace-event@1"), ("object_type", .str "TASK_TRACE_EVENT"),
  ("occurred_at", .str "2026-01-01T00:00:00Z"), ("sequence", .num (.int sequence)),
  ("summary", .str "s")]

theorem otherEvent_sorted (sequence : Int) : (otherEvent sequence).Sorted := by
  refine .obj (by simp only [List.map_cons, List.map_nil]; decide) ?_
  simp only [List.forall_mem_cons]
  exact ⟨.obj List.Pairwise.nil fun _ h => absurd h List.not_mem_nil, .str _, .str _, .str _, .str _,
    .str _, .num _, .str _, fun _ h => absurd h List.not_mem_nil⟩

theorem otherEvent_valid :
    validTraceEvent (otherEvent 1) = true ∧ validTraceEvent (otherEvent 2) = true := by
  decide

theorem otherEvent_length : (jsonLine (otherEvent 1)).length ≤ 10000 ∧
    (jsonLine (otherEvent 2)).length ≤ 10000 :=
  ⟨length_jsonLine_le (by decide), length_jsonLine_le (by decide)⟩

/-- A hook appends an event to the session of the demonstration. -/
theorem demo_append {steps : List Taken} {s : State} (run : Run demoHeader steps s) {p : Nat}
    (hidle : s.calls p = .idle) (hpending : s.pending = true) {events : List Json} {event : Json}
    (hbuffer : Buffered s.content demoHeader events) (hsorted : event.Sorted)
    (hvalid : validTraceEvent event = true) (hnext : Next events event)
    (hsize : s.content.length + (jsonLine event).length ≤ maxJsonBytes) :
    Reaches demoHeader steps
      [.silent p, .silent p, .silent p, .silent p, .wrote p, .appended p event]
      { s with content := s.content ++ jsonLine event } := by
  have hfile : s.files (sessionDigest demoSession) demoPath = some s.content := by
    rw [State.files, if_pos (show demoPath.digest = sessionDigest demoSession from rfl)]
    exact if_pos hpending
  exact @append_alone _ _ _ _ run hidle _ _ _ ⟨demoPath, s.content, event⟩ demo_path
    (appendLine_buffered demo_length demo_path hfile hbuffer hsorted hvalid hnext hsize)

theorem demo_next {sequence : Int} {events : List Json} (h : sequence = (events.length + 1 : Nat)) :
    Next events (demoEvent sequence) ∧ Next events (otherEvent sequence) := by
  rw [h]
  exact ⟨⟨_, rfl, JsonOf.pyEq_refl _⟩, ⟨_, rfl, JsonOf.pyEq_refl _⟩⟩

/-- Two hooks read the empty session, and both write the first event. -/
theorem demo_raced : ∃ steps s, Run demoHeader steps s ∧
    readLines s.content = some [demoHeader, otherEvent 1, demoEvent 1] := by
  have hlen := demoEvent_length 1 (by decide)
  have hother := otherEvent_length.1
  have hheader := demoHeader_length
  have run := Run.started demoState_started
  have run := run.snoc (.isPending (p := 0) rfl (JsonOf.toJson?_raw (demoEvent_sorted 1))
    demoEvent_valid.1 rfl)
  have run := run.snoc (.check (State.move_self ..) rfl
    (demoHeader_buffered.readBuffer (by rw [maxJsonBytes]; omega)) (demo_next rfl).1)
  obtain ⟨steps, run, _⟩ := demo_append (p := 1) run rfl rfl demoHeader_buffered
    (otherEvent_sorted 1) otherEvent_valid.1 (demo_next rfl).2
    (by simp only [State.move_content, demoState, maxJsonBytes]; omega)
  have run := run.snoc (.measure (Function.update_self ..) rfl
    (by simp only [State.move_content, demoState, List.length_append, maxJsonBytes]; omega))
  have run := run.snoc (.openFile (State.move_self ..) rfl)
  have run := run.snoc (.write (State.move_self ..))
  refine ⟨_, _, run, ?_⟩
  have hread := @readLines_jsonLines [demoHeader, otherEvent 1, demoEvent 1]
    (List.forall_mem_cons.mpr ⟨demoHeader_buffered.isHeader.sorted, List.forall_mem_cons.mpr
      ⟨otherEvent_sorted 1, List.forall_mem_singleton.mpr (demoEvent_sorted 1)⟩⟩)
  rw [← hread]
  simp only [State.move_content, demoState, jsonLines, List.flatMap_cons, List.flatMap_nil,
    List.append_nil, List.append_assoc]

/-- The trace of the first event. -/
def demoTrace : Json := traceOf demoHeader [demoEvent 1]

theorem demo_parse : parseTaskTrace ((memberText demoHeader "task_id").getD "")
    (traceOf demoHeader [demoEvent 1]) = .ok demoTrace :=
  (parse_iff demo_buffered (List.cons_ne_nil _ _)).mpr
    (@Fits.traceable _ _ [] (fun h => absurd rfl h) demo_fits)

/-- The first event is in the file, and its append returned. -/
theorem demo_appended : Reaches demoHeader []
    [.silent 0, .silent 0, .silent 0, .silent 0, .wrote 0, .appended 0 (demoEvent 1)]
    { demoState with content := jsonLine demoHeader ++ jsonLine (demoEvent 1) } := by
  have hlen := demoEvent_length 1 (by decide)
  have hheader := demoHeader_length
  exact demo_append (Run.started demoState_started) rfl rfl demoHeader_buffered (demoEvent_sorted 1)
    demoEvent_valid.1 (demo_next rfl).1 (by simp only [demoState, maxJsonBytes]; omega)

theorem demo_read : readBuffer (jsonLine demoHeader ++ jsonLine (demoEvent 1)) =
    .ok (demoHeader, [demoEvent 1]) := by
  have hlen := demoEvent_length 1 (by decide)
  have hheader := demoHeader_length
  exact demo_buffered.readBuffer (by rw [List.length_append, maxJsonBytes]; omega)

/-- An append lands between what a finalize reads and what it archives. -/
theorem demo_late : ∃ steps s, Run demoHeader steps s ∧ ¬NotLost steps s := by
  have hlen := demoEvent_length 1 (by decide)
  have hother := otherEvent_length.2
  have hheader := demoHeader_length
  obtain ⟨steps₁, run, _⟩ := demo_appended
  have run := run.snoc (.choose (p := 1) rfl)
  have run := run.snoc (.isFile (State.move_self ..) rfl)
  have run := run.snoc (.parse (State.move_self ..) rfl demo_read (List.cons_ne_nil _ _) demo_parse)
  obtain ⟨steps₂, run, hevents, _⟩ := demo_append (p := 0) run rfl rfl demo_buffered
    (otherEvent_sorted 2) otherEvent_valid.2 (demo_next rfl).2
    (by simp only [State.move_content, List.length_append, maxJsonBytes]; omega)
  have run := run.snoc (.record (Function.update_self ..) (Or.inl rfl))
  have run := run.snoc (.link (Function.update_self ..) rfl rfl)
  have run := run.snoc (.unlink (Function.update_self ..) rfl)
  refine ⟨_, _, run, fun h => ?_⟩
  obtain ⟨st, hst, hevent⟩ : ∃ st ∈ steps₂, st.event = .appended 0 (otherEvent 2) := by
    have hmem : Event.appended 0 (otherEvent 2) ∈ steps₂.map Taken.event := by
      rw [hevents]
      simp
    exact List.mem_map.mp hmem
  obtain ⟨trace, htrace, hmem⟩ := h _ _ [] rfl ⟨1, rfl⟩ st (by simp [hst]) 0 _ hevent
  obtain rfl := Option.some.inj htrace
  obtain hsame := List.mem_singleton.mp (show otherEvent 2 ∈ [demoEvent 1] from hmem)
  exact absurd (congrArg (memberText · "event_id") hsame) (by decide)

/-- **Two appends take the same number, and an append lands after the capture.** -/
theorem raced_appends :
    (∃ steps s, Run demoHeader steps s ∧
      ¬∃ events, readLines s.content = some (demoHeader :: events) ∧ Contiguous events) ∧
    ∃ steps s, Run demoHeader steps s ∧ ¬NotLost steps s := by
  refine ⟨?_, demo_late⟩
  obtain ⟨steps, s, run, hread⟩ := demo_raced
  refine ⟨steps, s, run, ?_⟩
  rintro ⟨events, hevents, hcontiguous⟩
  rw [hread, Option.some.injEq, List.cons.injEq, and_iff_right rfl] at hevents
  subst hevents
  exact absurd hcontiguous (by decide)

theorem observed_not_lost_demo : ∃ steps s, Run demoHeader steps s ∧
    (∀ st ∈ steps, st.Undisturbed) ∧ (∃ p, (steps.getLast?.map Taken.event) = some (.finalized p)) ∧
    NotLost steps s ∧ s.trace = some demoTrace := by
  obtain ⟨steps₁, run, _, hu₁⟩ := demo_appended
  obtain ⟨steps₂, run, _, hu₂⟩ := finalize_alone (p := 1) run rfl rfl rfl demo_read
    (List.cons_ne_nil _ _) demo_parse (Or.inl rfl)
  have run := run.snoc (.unlink (State.move_self ..) rfl)
  refine ⟨_, _, run, ?_, ⟨1, by simp⟩, (observed_not_lost run ?_).2, rfl⟩
  all_goals
    exact List.forall_mem_append.mpr ⟨List.forall_mem_append.mpr ⟨hu₁, hu₂⟩,
      List.forall_mem_singleton.mpr (Taken.undisturbed_unlink (State.move_self ..))⟩

end SharedMind.Observe.Hook
