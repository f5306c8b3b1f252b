import SharedMind.Observe.Buffered
import SharedMind.Py.JsonSize

/-!
# Buffers that can be finalized

* `Run`: calls of `start` and `append`, one after the other, and what the system makes of them.
* `finalizes_iff`: a buffer is finalized exactly when it is traceable.
* `appended_finalizes`: in a run whose appends write lines that fit, whole or not at all, what was
  appended can be finalized and what was refused is not there.
* `accepted_then_stuck`: two events of one identifier are accepted, and their trace is not.
-/

namespace SharedMind.Observe

open Py

/-! ### Calls -/

inductive Call where
  | start (session taskId : PyStr) (related : List PyStr) (written : Bool)
  | append (session : PyStr) (event : RawJson) (io : Writing)

/-- A call, and the files it finds. -/
structure Step where
  files : Files
  call : Call

namespace Step

/-- The files a call leaves. -/
def after (step : Step) : Files :=
  match step.call with
  | .start session taskId related written => (start step.files session taskId related written).2
  | .append session event io => (append step.files session event io).2

theorem after_start {files : Files} {session taskId : PyStr} {related : List PyStr} {written : Bool} :
    after ⟨files, .start session taskId related written⟩ =
      (start files session taskId related written).2 := rfl

theorem after_append {files : Files} {session : PyStr} {event : RawJson} {io : Writing} :
    after ⟨files, .append session event io⟩ = (append files session event io).2 := rfl

/-- An append that returned `APPENDED`. -/
def Appended (step : Step) (session : PyStr) : Prop :=
  ∃ event io found, step.call = .append session event io ∧
    (append step.files session event io).1 = .ok found

/-- An append that raised. -/
def Refused (step : Step) : Prop :=
  ∃ session event io e, step.call = .append session event io ∧
    (append step.files session event io).1 = .error e

/-- A line about to be written is taken whole, or not at all, and when it is, its event fits
what the buffer holds. -/
def Kept (step : Step) : Prop :=
  ∀ session event io line, step.call = .append session event io →
    appendLine step.files session event = .ok line → ∀ n synced, io = .takes n synced → n ≠ 0 →
      (jsonLine line.event).length ≤ n ∧ synced = true ∧
      ∀ header events, readBuffer line.content = .ok (header, events) →
        Fits header events line.event

end Step

/-- What calls, one after the other, make of no files. -/
inductive Run : List Step → Files → Prop
  | nil : Run [] noFiles
  | snoc {steps : List Step} {files : Files} (run : Run steps files) (call : Call) :
      Run (steps ++ [⟨files, call⟩]) (Step.after ⟨files, call⟩)

/-- There is no captured buffer, and every pending one is buffered and, once it has an event,
traceable. -/
structure Sound (files : Files) : Prop where
  captured : ∀ digest, files ⟨.captured, digest⟩ = none
  pending : ∀ digest content, files ⟨.pending, digest⟩ = some content →
    ∃ header events, Buffered content header events ∧ (events ≠ [] → Traceable header events ∧
      content.length ≤ maxJsonBytes)

/-- The pending buffer of the session has an event, and is traceable. -/
def HasEvent (files : Files) (session : PyStr) : Prop :=
  (0 < session.points.length ∧ session.points.length ≤ 4096) ∧ ∃ path content header events,
    bufferPath session .pending = .ok path ∧ files path = some content ∧
      Buffered content header events ∧ events ≠ [] ∧ Traceable header events ∧
      content.length ≤ maxJsonBytes

section

variable {files : Files} {session : PyStr} {event : RawJson} {io : Writing}

theorem bufferPath_pending {path : BufferPath} (h : bufferPath session .pending = .ok path) :
    path.state = .pending ∧ bufferPath session .captured = .ok ⟨.captured, path.digest⟩ := by
  simp only [bufferPath, bind_eq_ok, orRaise_eq_ok, pure_eq_ok] at h ⊢
  obtain ⟨s, hs, rfl⟩ := h
  exact ⟨rfl, s, hs, rfl⟩

/-- What an append does: nothing, or it writes some of a line that passed the checks. -/
theorem append_cases (files : Files) (session : PyStr) (event : RawJson) (io : Writing) :
    ((append files session event io).2 = files ∧ ∃ e, (append files session event io).1 = .error e) ∨
    ∃ line n synced, appendLine files session event = .ok line ∧ io = .takes n synced ∧
      (append files session event io).2 =
        Function.update files line.path (some (line.content ++ (jsonLine line.event).take n)) ∧
      ((∃ found, (append files session event io).1 = .ok found) ↔
        (jsonLine line.event).length ≤ n ∧ synced = true) := by
  rw [append]
  cases hline : appendLine files session event with
  | error e => exact Or.inl ⟨rfl, e, rfl⟩
  | ok line =>
    cases io with
    | raises => exact Or.inl ⟨rfl, _, rfl⟩
    | takes n synced =>
      refine Or.inr ⟨line, n, synced, rfl, rfl, rfl, ?_⟩
      dsimp only
      by_cases hdone : (jsonLine line.event).length ≤ n ∧ synced = true
      · rw [if_pos hdone]
        exact iff_of_true ⟨_, rfl⟩ hdone
      · rw [if_neg hdone]
        exact iff_of_false (fun ⟨_, h⟩ => nomatch h) hdone

theorem existing_eq_none {path : BufferPath} {header : Json}
    (h : existing files path header = .ok none) : files path = none := by
  rw [existing] at h
  cases hfile : files path with
  | none => rfl
  | some content =>
    rw [hfile] at h
    simp only [bind_eq_ok, pure_eq_ok, ensure_eq_ok] at h
    obtain ⟨_, _, _, _, h⟩ := h
    cases h

theorem eq_map_of_mapM_toString? {texts : List PyStr} {ids : List String}
    (h : texts.mapM PyStr.toString? = some ids) : texts = ids.map PyStr.ofString := by
  induction texts generalizing ids with
  | nil =>
    cases h
    rfl
  | cons t ts ih =>
    simp only [List.mapM_cons, Option.pure_def, Option.bind_eq_bind, Option.bind_eq_some_iff,
      Option.some.injEq] at h
    obtain ⟨s, hs, rest, hrest, rfl⟩ := h
    rw [List.map_cons, ← ih hrest, PyStr.toString?_eq_some.mp hs]

/-- The buffer that `start` is about to write. -/
theorem startBuffer_new {taskId : PyStr} {related : List PyStr} {found : Started} {content : Bytes}
    (h : startBuffer files session taskId related = .ok (found, some content)) :
    ∃ digest header, files ⟨.pending, digest⟩ = none ∧ IsHeader header ∧
      found.path = ⟨.pending, digest⟩ ∧ content = jsonLine header := by
  simp only [startBuffer, bind_eq_ok, ensure_eq_ok, orRaise_eq_ok] at h
  obtain ⟨_, _, task, _, _, htask, _, hne, _, hnodup, source, _, ids, hids, captured, _, h⟩ := h
  cases captured with
  | some found => cases h
  | none =>
    simp only [bind_eq_ok] at h
    obtain ⟨pending, hpending, h⟩ := h
    cases pending with
    | some found => cases h
    | none =>
      rw [pure_eq_ok, Prod.mk.injEq, Option.some.injEq] at h
      obtain ⟨rfl, rfl⟩ := h
      obtain rfl := eq_map_of_mapM_toString? hids
      refine ⟨_, _, existing_eq_none hpending, ⟨source, task, ids, htask, ?_, hnodup.of_map, rfl⟩, rfl,
        rfl⟩
      rintro id hid rfl
      exact hne _ (List.mem_map_of_mem hid) rfl

/-- What is written is a header that is none yet, and the captured buffers are as they were. -/
theorem start_cases (files : Files) (session taskId : PyStr) (related : List PyStr) (written : Bool) :
    (start files session taskId related written).2 = files ∨
      ∃ digest header, files ⟨.pending, digest⟩ = none ∧ IsHeader header ∧
        (start files session taskId related written).2 =
          Function.update files ⟨.pending, digest⟩ (some (jsonLine header)) := by
  rw [start]
  cases hbuffer : startBuffer files session taskId related with
  | error e => exact Or.inl rfl
  | ok result =>
    obtain ⟨found, content⟩ := result
    cases content with
    | none => exact Or.inl rfl
    | some content =>
      cases written with
      | false => exact Or.inl rfl
      | true =>
        obtain ⟨digest, header, hnone, hheader, hpath, rfl⟩ := startBuffer_new hbuffer
        exact Or.inr ⟨digest, header, hnone, hheader, congrArg (Function.update files · _) hpath⟩

end

/-! ### Runs -/

section

variable {files : Files} {steps : List Step} {session : PyStr}

/-- What is written to a pending buffer is sound if it is buffered and traceable. -/
theorem Sound.update (h : Sound files) {digest : List Char} {content : Bytes} {header : Json}
    {events : List Json} (hbuffer : Buffered content header events)
    (hevents : events ≠ [] → Traceable header events ∧ content.length ≤ maxJsonBytes) :
    Sound (Function.update files ⟨.pending, digest⟩ (some content)) := by
  refine ⟨fun d => ?_, fun d c hc => ?_⟩
  · rw [Function.update_of_ne (by simp)]
    exact h.captured d
  · by_cases hd : d = digest
    · subst hd
      rw [Function.update_self] at hc
      obtain rfl := Option.some.inj hc
      exact ⟨header, events, hbuffer, hevents⟩
    · rw [Function.update_of_ne (by simpa using hd)] at hc
      exact h.pending d c hc

/-- A kept append adds its event, or it does nothing; when it raises it does nothing. -/
theorem append_kept {event : RawJson} {io : Writing} (hsound : Sound files)
    (hkept : Step.Kept ⟨files, .append session event io⟩) :
    ((append files session event io).2 = files ∧
      ∃ e, (append files session event io).1 = .error e) ∨
    ∃ path content header events, bufferPath session .pending = .ok path ∧
      files path = some content ∧ Buffered content header events ∧
      (0 < session.points.length ∧ session.points.length ≤ 4096) ∧
      ∃ added, (append files session event io).2 =
          Function.update files path (some (content ++ jsonLine added)) ∧
        Buffered (content ++ jsonLine added) header (events ++ [added]) ∧
        Traceable header (events ++ [added]) ∧
        (content ++ jsonLine added).length ≤ maxJsonBytes ∧
        ∃ found, (append files session event io).1 = .ok found := by
  rcases append_cases files session event io with hnone | ⟨line, n, synced, hline, rfl, hafter, hok⟩
  · exact Or.inl hnone
  · obtain ⟨hlen, hevent, hvalid, hpath, hfile, header, events, hread, hsequence, hsize⟩ :=
      appendLine_eq_ok.mp hline
    by_cases hn : n = 0
    · subst hn
      refine Or.inl ⟨?_, ?_⟩
      · rw [hafter, List.take_zero, List.append_nil, ← hfile, Function.update_eq_self]
      · cases hresult : (append files session event (.takes 0 synced)).1 with
        | error e => exact ⟨e, rfl⟩
        | ok found =>
          have hle := (hok.mp ⟨found, hresult⟩).1
          rw [jsonLine, List.length_append, List.length_singleton] at hle
          omega
    · obtain ⟨hwhole, hsynced, hfits⟩ := hkept session event _ line rfl hline n synced rfl hn
      obtain ⟨hstate, _⟩ := bufferPath_pending hpath
      have hfile' : files ⟨.pending, line.path.digest⟩ = some line.content := by
        rw [← hstate]
        exact hfile
      obtain ⟨header', events', hbuffer, htraceable⟩ := hsound.pending _ _ hfile'
      obtain ⟨rfl, rfl, _⟩ := hbuffer.eq_of_readBuffer hread
      rw [List.take_of_length_le hwhole] at hafter
      refine Or.inr ⟨line.path, line.content, header, events, hpath, hfile, hbuffer, hlen, line.event,
        hafter, hbuffer.append (JsonOf.sorted_of_toJson? _ _ hevent) hvalid hsequence,
        (hfits header events hread).traceable fun hne => (htraceable hne).1, ?_,
        hok.mpr ⟨hwhole, hsynced⟩⟩
      rw [List.length_append]
      exact hsize

theorem Sound.step (hsound : Sound files) (call : Call) (hkept : Step.Kept ⟨files, call⟩) :
    Sound (Step.after ⟨files, call⟩) := by
  cases call with
  | start session taskId related written =>
    rcases start_cases files session taskId related written with h | ⟨digest, header, _, hheader, h⟩
    · rw [Step.after_start, h]
      exact hsound
    · rw [Step.after_start, h]
      exact hsound.update ⟨hheader, (List.append_nil _).symm, fun _ h => absurd h List.not_mem_nil,
        fun _ h => absurd h List.not_mem_nil, rfl⟩ fun h => absurd rfl h
  | append session event io =>
    rcases append_kept hsound hkept with ⟨h, _⟩ | ⟨path, content, header, events, hpath, hfile, hbuffer,
      hlen, added, h, hbuffer', htraceable, hsize, _⟩
    · rw [Step.after_append, h]
      exact hsound
    · rw [Step.after_append, h]
      obtain ⟨state, digest⟩ := path
      obtain rfl := (bufferPath_pending hpath).1
      exact hsound.update hbuffer' fun _ => ⟨htraceable, hsize⟩

/-- What has an event keeps one. -/
theorem HasEvent.step (hsound : Sound files) (call : Call) (hkept : Step.Kept ⟨files, call⟩)
    (h : HasEvent files session) : HasEvent (Step.after ⟨files, call⟩) session := by
  obtain ⟨hlen, path, content, header, events, hpath, hfile, hevents⟩ := h
  cases call with
  | start session' taskId related written =>
    rcases start_cases files session' taskId related written with h | ⟨digest, header', hnone, _, h⟩
    · rw [Step.after_start, h]
      exact ⟨hlen, path, content, header, events, hpath, hfile, hevents⟩
    · have hother : path ≠ ⟨.pending, digest⟩ := by
        rintro rfl
        exact nomatch hnone.symm.trans hfile
      rw [Step.after_start, h]
      exact ⟨hlen, path, content, header, events, hpath, by rw [Function.update_of_ne hother, hfile],
        hevents⟩
  | append session' event io =>
    rcases append_kept hsound hkept with ⟨h, _⟩ | ⟨path', content', header', events', _, _, _,
      _, added, h, hbuffer', htraceable, hsize, _⟩
    · rw [Step.after_append, h]
      exact ⟨hlen, path, content, header, events, hpath, hfile, hevents⟩
    · rw [Step.after_append, h]
      by_cases hsame : path = path'
      · subst hsame
        exact ⟨hlen, path, _, header', _, hpath, Function.update_self .., hbuffer', by simp, htraceable,
          hsize⟩
      · exact ⟨hlen, path, content, header, events, hpath,
          by rw [Function.update_of_ne hsame, hfile], hevents⟩

/-- What was appended is there. -/
theorem hasEvent_of_appended (hsound : Sound files) {call : Call} (hkept : Step.Kept ⟨files, call⟩)
    (h : Step.Appended ⟨files, call⟩ session) : HasEvent (Step.after ⟨files, call⟩) session := by
  obtain ⟨event, io, found, hcall, hok⟩ := h
  obtain rfl : call = _ := hcall
  rcases append_kept hsound hkept with ⟨_, e, he⟩ | ⟨path, content, header, events, hpath, hfile, hbuffer,
    hlen, added, h, hbuffer', htraceable, hsize, _⟩
  · exact nomatch hok.symm.trans he
  · rw [Step.after_append, h]
    exact ⟨hlen, path, _, header, _, hpath, Function.update_self .., hbuffer', by simp, htraceable,
      hsize⟩

theorem noFiles_sound : Sound noFiles := ⟨fun _ => rfl, fun _ _ h => nomatch h⟩

/-- What a kept run leaves. -/
theorem Run.sound (hrun : Run steps files) (hkept : ∀ step ∈ steps, step.Kept) : Sound files ∧
    ∀ session, (∃ step ∈ steps, step.Appended session) → HasEvent files session := by
  induction hrun with
  | nil => exact ⟨noFiles_sound, fun _ ⟨_, h, _⟩ => absurd h List.not_mem_nil⟩
  | @snoc steps files run call ih =>
    rw [List.forall_mem_append, List.forall_mem_singleton] at hkept
    obtain ⟨hsound, hevents⟩ := ih hkept.1
    refine ⟨hsound.step call hkept.2, fun session ⟨step, hstep, happended⟩ => ?_⟩
    rcases List.mem_append.mp hstep with hstep | hstep
    · exact (hevents session ⟨step, hstep, happended⟩).step hsound call hkept.2
    · obtain rfl := List.mem_singleton.mp hstep
      exact hasEvent_of_appended hsound hkept.2 happended

/-- **A buffer is finalized** exactly when it is traceable. -/
theorem finalizes_iff {path : BufferPath} {content : Bytes} {header : Json} {events : List Json}
    (hlen : 0 < session.points.length ∧ session.points.length ≤ 4096)
    (hpath : bufferPath session .pending = .ok path) (hfile : files path = some content)
    (hbuffer : Buffered content header events) (hne : events ≠ [])
    (hsize : content.length ≤ maxJsonBytes) :
    (∃ trace, finalizeTrace files session = .ok trace) ↔ Traceable header events := by
  obtain ⟨_, hcaptured⟩ := bufferPath_pending hpath
  have hread := hbuffer.readBuffer hsize
  rw [← parse_iff hbuffer hne]
  simp only [finalizeTrace, requireSession, bind_eq_ok, ensure_eq_ok, pure_eq_ok, orRaise_eq_ok]
  constructor
  · rintro ⟨trace, _, ⟨_, _, rfl⟩, _, hpath', _, _, _, hcontent, ⟨_, _⟩, hread', _, _, h⟩
    rw [← Except.ok.inj (hpath.symm.trans hpath'), hfile, Option.some_or] at hcontent
    obtain rfl := Option.some.inj hcontent
    obtain ⟨rfl, rfl⟩ := Prod.mk.inj (Except.ok.inj (hread.symm.trans hread'))
    dsimp only at h
    cases hparse : parseTaskTrace ((memberText header "task_id").getD "") (traceOf header events) with
    | error e => rw [hparse] at h; cases h
    | ok trace' => rw [(parseTaskTrace_eq_ok.mp hparse).2.2.2.2.2.2.2]
  · intro hparse
    refine ⟨traceOf header events, session, ⟨(), hlen, rfl⟩, path, hpath, _, hcaptured, content, ?_,
      (header, events), hread, (), hne, ?_⟩
    · rw [hfile, Option.some_or]
    · rw [hparse]
      rfl

/-- What has an event is finalized. -/
theorem HasEvent.finalizes (h : HasEvent files session) :
    ∃ trace, finalizeTrace files session = .ok trace := by
  obtain ⟨hlen, path, content, header, events, hpath, hfile, hbuffer, hne, htraceable, hsize⟩ := h
  exact (finalizes_iff hlen hpath hfile hbuffer hne hsize).mpr htraceable

end

/-- **What was appended can be finalized, and what was refused is not there**, in every run
whose lines are written whole or not at all and whose events fit. -/
theorem appended_finalizes {steps : List Step} {files : Files} (hrun : Run steps files)
    (hkept : ∀ step ∈ steps, step.Kept) :
    (∀ step ∈ steps, step.Refused → step.after = step.files) ∧
      ∀ session, (∃ step ∈ steps, step.Appended session) →
        ∃ trace, finalizeTrace files session = .ok trace := by
  refine ⟨?_, fun session h => ((hrun.sound hkept).2 session h).finalizes⟩
  induction hrun with
  | nil => exact fun _ h => absurd h List.not_mem_nil
  | @snoc steps files run call ih =>
    rw [List.forall_mem_append, List.forall_mem_singleton] at hkept ⊢
    refine ⟨ih hkept.1, ?_⟩
    rintro ⟨session, event, io, e, hcall, he⟩
    obtain rfl : call = _ := hcall
    rcases append_kept (run.sound hkept.1).1 hkept.2 with ⟨h, _⟩ | ⟨_, _, _, _, _, _, _, _, _, _, _, _, _, _,
      hok⟩
    · exact h
    · exact nomatch hok.symm.trans he

/-! ### Two events of one identifier -/

/-- A session that has no buffer gets one. -/
theorem start_fresh {files : Files} {session taskId : String}
    (hlen : 0 < session.length ∧ session.length ≤ 4096) (htask : taskIdPattern.fullmatch taskId = true)
    (hfiles : ∀ state, files ⟨state, sessionDigest session⟩ = none) :
    (start files (.ofString session) (.ofString taskId) [] true).2 =
      Function.update files ⟨.pending, sessionDigest session⟩
        (some (jsonLine (sessionHeader session taskId []))) := by
  have hpoints : 0 < (PyStr.ofString session).points.length ∧
      (PyStr.ofString session).points.length ≤ 4096 := by
    rw [PyStr.ofString, List.length_map, String.length_toList]
    exact hlen
  have hbuffer : startBuffer files (.ofString session) (.ofString taskId) [] =
      .ok (⟨.started, ⟨.pending, sessionDigest session⟩, sessionHeader session taskId []⟩,
        some (jsonLine (sessionHeader session taskId []))) := by
    have hexisting : ∀ state, existing files ⟨state, sessionDigest session⟩
        (sessionHeader session taskId []) = .ok none := by
      intro state
      rw [existing, hfiles]
    simp only [startBuffer, requireSession, bind_eq_ok, ensure_eq_ok, orRaise_eq_ok, pure_eq_ok]
    refine ⟨.ofString session, ⟨(), hpoints, rfl⟩, taskId, PyStr.toString?_ofString _, (), htask, (),
      fun _ h => absurd h List.not_mem_nil, (), List.nodup_nil, session, PyStr.toString?_ofString _, [],
      rfl, none, hexisting .captured, ?_⟩
    simp only [bind_eq_ok]
    exact ⟨none, hexisting .pending, rfl⟩
  rw [start, hbuffer]
  rfl

/-- An event that passes the checks is about to be written. -/
theorem appendLine_buffered {files : Files} {session : PyStr} {path : BufferPath} {event : Json}
    {content : Bytes} {header : Json} {events : List Json}
    (hlen : 0 < session.points.length ∧ session.points.length ≤ 4096)
    (hpath : bufferPath session .pending = .ok path) (hfile : files path = some content)
    (hbuffer : Buffered content header events) (hsorted : event.Sorted)
    (hvalid : validTraceEvent event = true)
    (hsequence : ∃ n ∈ event.get? "sequence", n.pyEq (.num (.int (events.length + 1 : Nat))) = true)
    (hsize : content.length + (jsonLine event).length ≤ maxJsonBytes) :
    appendLine files session event.raw = .ok ⟨path, content, event⟩ :=
  appendLine_eq_ok.mpr ⟨hlen, JsonOf.toJson?_raw hsorted, hvalid, hpath, hfile, header, events,
    hbuffer.readBuffer (by omega), hsequence, hsize⟩

/-- A line that is taken whole is appended. -/
theorem append_whole {files : Files} {session : PyStr} {event : RawJson} {line : Line} {n : Nat}
    (h : appendLine files session event = .ok line) (hn : (jsonLine line.event).length ≤ n) :
    (append files session event (.takes n true)).2 =
        Function.update files line.path (some (line.content ++ jsonLine line.event)) ∧
      ∃ found, (append files session event (.takes n true)).1 = .ok found := by
  rw [append, h]
  dsimp only
  rw [List.take_of_length_le hn, if_pos ⟨hn, rfl⟩]
  exact ⟨rfl, _, rfl⟩

def demoSession : String := "session:demo-1"

/-- The event of the demonstration, as the first or the second. -/
def demoEvent (sequence : Int) : Json := .obj [("details", .obj []),
  ("event_id", .str "trace_event_12345678"), ("event_type", .str "TASK"),
  ("event_version", .str "task-trace-event@1"), ("object_type", .str "TASK_TRACE_EVENT"),
  ("occurred_at", .str "2026-01-01T00:00:00Z"), ("sequence", .num (.int sequence)),
  ("summary", .str "s")]

theorem demoEvent_sorted (sequence : Int) : (demoEvent sequence).Sorted := by
  refine .obj (by simp only [List.map_cons, List.map_nil]; decide) ?_
  simp only [List.forall_mem_cons]
  exact ⟨.obj List.Pairwise.nil fun _ h => absurd h List.not_mem_nil, .str _, .str _, .str _, .str _,
    .str _, .num _, .str _, fun _ h => absurd h List.not_mem_nil⟩

def demoHeader : Json := sessionHeader demoSession "t" []

theorem demoHeader_buffered : Buffered (jsonLine demoHeader) demoHeader [] :=
  ⟨⟨_, _, _, by decide, fun _ h => absurd h List.not_mem_nil, List.nodup_nil, rfl⟩,
    (List.append_nil _).symm, fun _ h => absurd h List.not_mem_nil,
    fun _ h => absurd h List.not_mem_nil, rfl⟩

theorem demoHeader_eq : demoHeader =
    .obj [("object_type", .str "OBSERVATION_SESSION"), ("observation_version", .str observationVersion),
      ("related_object_ids", .arr []), ("session_id", .str demoSession),
      ("source_session_id", .str demoSession), ("task_id", .str "t"),
      ("trace_id", .str "trace:demo-1")] := by
  have hsession : semanticIdPattern.fullmatch demoSession = true := by decide
  have hcandidate : "session:".toList <+: demoSession.toList ∧
      semanticIdPattern.fullmatch (String.ofList ("trace:".toList ++ demoSession.toList.drop 8)) =
        true := by decide
  simp only [demoHeader, sessionHeader, normalizedSessionId, traceId, if_pos hsession, if_pos hcandidate]
  rfl

theorem length_jsonLine_le {v : Json} {n : Nat} (h : 4 * v.sizeBound + 1 ≤ n) :
    (jsonLine v).length ≤ n := by
  rw [jsonLine, List.length_append, List.length_singleton]
  have := JsonOf.length_utf8_dumps_le (le_refl (4 * v.sizeBound))
  omega

theorem demoHeader_length : (jsonLine demoHeader).length ≤ 10000 := by
  rw [demoHeader_eq]
  exact length_jsonLine_le (by decide)

theorem demoEvent_length (sequence : Int) (h : 4 * (demoEvent sequence).sizeBound + 1 ≤ 10000) :
    (jsonLine (demoEvent sequence)).length ≤ 10000 := length_jsonLine_le h

/-- The file of the demonstration. -/
def demoPath : BufferPath := ⟨.pending, sessionDigest demoSession⟩

def demo : PyStr := .ofString demoSession

theorem demo_length : 0 < demo.points.length ∧ demo.points.length ≤ 4096 := by decide

theorem demo_path : bufferPath demo .pending = .ok demoPath := by
  rw [bufferPath, demo, PyStr.toString?_ofString]
  rfl

/-- The files once the demonstration is started. -/
def demoFiles : Files := Function.update noFiles demoPath (some (jsonLine demoHeader))

theorem demo_started : (start noFiles demo (.ofString "t") [] true).2 = demoFiles :=
  start_fresh (by decide) (by decide) fun _ => rfl

/-- The next event of the demonstration is about to be written. -/
theorem demo_line {files : Files} {content : Bytes} {events : List Json} {sequence : Int}
    (hfile : files demoPath = some content) (hbuffer : Buffered content demoHeader events)
    (hvalid : validTraceEvent (demoEvent sequence) = true)
    (hsequence : sequence = (events.length + 1 : Nat))
    (hsize : content.length + (jsonLine (demoEvent sequence)).length ≤ maxJsonBytes) :
    appendLine files demo (demoEvent sequence).raw = .ok ⟨demoPath, content, demoEvent sequence⟩ := by
  refine appendLine_buffered demo_length demo_path hfile hbuffer (demoEvent_sorted sequence) hvalid
    ⟨.num (.int sequence), rfl, ?_⟩ hsize
  rw [hsequence]
  exact JsonOf.pyEq_refl _

theorem demo_firstLine : appendLine demoFiles demo (demoEvent 1).raw =
    .ok ⟨demoPath, jsonLine demoHeader, demoEvent 1⟩ := by
  have hlen := demoEvent_length 1 (by decide)
  have hheader := demoHeader_length
  exact demo_line (Function.update_self ..) demoHeader_buffered (by decide) rfl
    (by rw [maxJsonBytes]; omega)

theorem demoEvent_valid : validTraceEvent (demoEvent 1) = true ∧ validTraceEvent (demoEvent 2) = true := by
  decide

theorem demo_run : Run [⟨noFiles, .start demo (.ofString "t") [] true⟩] demoFiles := by
  have hrun := Run.nil.snoc (.start demo (.ofString "t") [] true)
  rwa [Step.after_start, demo_started] at hrun

/-- The event as the first. -/
theorem demo_first : (append demoFiles demo (demoEvent 1).raw (.takes 10000 true)).2 =
      Function.update demoFiles demoPath (some (jsonLine demoHeader ++ jsonLine (demoEvent 1))) ∧
    ∃ found, (append demoFiles demo (demoEvent 1).raw (.takes 10000 true)).1 = .ok found :=
  append_whole demo_firstLine (demoEvent_length 1 (by decide))

theorem demo_buffered :
    Buffered (jsonLine demoHeader ++ jsonLine (demoEvent 1)) demoHeader [demoEvent 1] :=
  demoHeader_buffered.append (demoEvent_sorted 1) demoEvent_valid.1
    ⟨.num (.int 1), rfl, JsonOf.pyEq_refl _⟩

theorem demo_twice_buffered :
    Buffered (jsonLine demoHeader ++ jsonLine (demoEvent 1) ++ jsonLine (demoEvent 2)) demoHeader
      [demoEvent 1, demoEvent 2] :=
  demo_buffered.append (demoEvent_sorted 2) demoEvent_valid.2
    ⟨.num (.int 2), rfl, JsonOf.pyEq_refl _⟩

/-- The files once the first event is there. -/
def demoFiles' : Files :=
  Function.update demoFiles demoPath (some (jsonLine demoHeader ++ jsonLine (demoEvent 1)))

theorem demo_run_first : Run ([⟨noFiles, .start demo (.ofString "t") [] true⟩] ++
    [⟨demoFiles, .append demo (demoEvent 1).raw (.takes 10000 true)⟩]) demoFiles' := by
  have hrun := demo_run.snoc (.append demo (demoEvent 1).raw (.takes 10000 true))
  rw [Step.after_append, demo_first.1, ← demoFiles'] at hrun
  exact hrun

/-- The event as the second. -/
theorem demo_second : (append demoFiles' demo (demoEvent 2).raw (.takes 10000 true)).2 =
      Function.update demoFiles' demoPath
        (some (jsonLine demoHeader ++ jsonLine (demoEvent 1) ++ jsonLine (demoEvent 2))) ∧
    ∃ found, (append demoFiles' demo (demoEvent 2).raw (.takes 10000 true)).1 = .ok found := by
  have hlen1 := demoEvent_length 1 (by decide)
  have hlen2 := demoEvent_length 2 (by decide)
  have hheader := demoHeader_length
  have hline : appendLine demoFiles' demo (demoEvent 2).raw =
      .ok ⟨demoPath, jsonLine demoHeader ++ jsonLine (demoEvent 1), demoEvent 2⟩ :=
    demo_line (Function.update_self ..) demo_buffered demoEvent_valid.2 rfl
      (by rw [List.length_append, maxJsonBytes]; omega)
  exact append_whole hline hlen2

theorem demo_twice_stuck : ¬Traceable demoHeader [demoEvent 1, demoEvent 2] :=
  fun h => absurd h.eventIds (by decide)

theorem demo_cut : (append demoFiles demo (demoEvent 1).raw (.takes 1 true)).1 = .error .appendFailed ∧
    (append demoFiles demo (demoEvent 1).raw (.takes 1 true)).2 ≠ demoFiles := by
  have hlong : 2 ≤ (jsonLine (demoEvent 1)).length := by
    rw [jsonLine, JsonOf.dumps, utf8_ofList, demoEvent, JsonOf.print, List.flatMap_cons,
      List.length_append, List.length_append, String.length_utf8EncodeChar, List.length_singleton]
    have := Char.utf8Size_pos '{'
    omega
  rw [append, demo_firstLine]
  dsimp only
  have hshort : ¬((jsonLine (demoEvent 1)).length ≤ 1 ∧ true = true) := fun h => by omega
  rw [if_neg hshort]
  refine ⟨rfl, fun h => ?_⟩
  have hcontent := congrFun h demoPath
  rw [demoFiles, Function.update_self, Function.update_self, Option.some.injEq] at hcontent
  have hlength := congrArg List.length hcontent
  rw [List.length_append, List.length_take] at hlength
  omega

/-- **Two events of one identifier are accepted, and their trace is not**; and a line that is
cut off stays. -/
theorem accepted_then_stuck :
    (∃ steps files, Run steps files ∧ (∃ step ∈ steps, step.Appended demo) ∧
      ∀ trace, finalizeTrace files demo ≠ .ok trace) ∧
    ∃ steps files, Run steps files ∧ ∃ step ∈ steps, step.Refused ∧ step.after ≠ step.files := by
  have hlen1 := demoEvent_length 1 (by decide)
  have hlen2 := demoEvent_length 2 (by decide)
  have hheader := demoHeader_length
  refine ⟨?_, ?_⟩
  · have hrun := demo_run_first.snoc (.append demo (demoEvent 2).raw (.takes 10000 true))
    obtain ⟨hafter, found, hfound⟩ := demo_second
    refine ⟨_, _, hrun, ⟨_, List.mem_append_right _ (List.mem_singleton_self _), _, _, found, rfl,
      hfound⟩, fun trace htrace => ?_⟩
    have hfile : Step.after ⟨demoFiles', .append demo (demoEvent 2).raw (.takes 10000 true)⟩ demoPath =
        some (jsonLine demoHeader ++ jsonLine (demoEvent 1) ++ jsonLine (demoEvent 2)) := by
      rw [Step.after_append, hafter, Function.update_self]
    have hsize : (jsonLine demoHeader ++ jsonLine (demoEvent 1) ++ jsonLine (demoEvent 2)).length ≤
        maxJsonBytes := by
      rw [List.length_append, List.length_append, maxJsonBytes]
      omega
    exact demo_twice_stuck ((finalizes_iff demo_length demo_path hfile demo_twice_buffered
      (List.cons_ne_nil _ _) hsize).mp ⟨trace, htrace⟩)
  · have hrun := demo_run.snoc (.append demo (demoEvent 1).raw (.takes 1 true))
    have hrefused : Step.Refused ⟨demoFiles, .append demo (demoEvent 1).raw (.takes 1 true)⟩ :=
      ⟨demo, (demoEvent 1).raw, .takes 1 true, .appendFailed, rfl, demo_cut.1⟩
    have hafter : Step.after ⟨demoFiles, .append demo (demoEvent 1).raw (.takes 1 true)⟩ ≠
        demoFiles := by
      rw [Step.after_append]
      exact demo_cut.2
    exact ⟨_, _, hrun, _, List.mem_append_right _ (List.mem_singleton_self _), hrefused, hafter⟩

theorem demo_fits : Fits demoHeader [] (demoEvent 1) := by
  rw [demoHeader_eq]
  refine ⟨⟨by decide, fun _ h => absurd h List.not_mem_nil⟩, List.not_mem_nil,
    fun _ h => absurd h (by simp), by decide, ?_⟩
  exact length_jsonLine_le (by decide)

theorem demo_kept : Step.Kept ⟨demoFiles, .append demo (demoEvent 1).raw (.takes 10000 true)⟩ := by
  intro session event io line hcall hline n synced hio _
  obtain ⟨rfl, rfl, rfl⟩ := Call.append.inj hcall
  obtain ⟨rfl, rfl⟩ := Writing.takes.inj hio
  obtain rfl := Except.ok.inj (demo_firstLine.symm.trans hline)
  refine ⟨demoEvent_length 1 (by decide), rfl, fun header events hread => ?_⟩
  obtain ⟨rfl, rfl, _⟩ := demoHeader_buffered.eq_of_readBuffer hread
  exact demo_fits

theorem appended_finalizes_demo : ∃ steps files, Run steps files ∧ (∀ step ∈ steps, step.Kept) ∧
    (∀ step ∈ steps, step.Refused → step.after = step.files) ∧
      ∃ trace, finalizeTrace files demo = .ok trace := by
  have hrun := demo_run.snoc (.append demo (demoEvent 1).raw (.takes 10000 true))
  obtain ⟨_, found, hfound⟩ := demo_first
  have hkept : ∀ step ∈ [⟨noFiles, .start demo (.ofString "t") [] true⟩] ++
      [(⟨demoFiles, .append demo (demoEvent 1).raw (.takes 10000 true)⟩ : Step)], step.Kept := by
    intro step hstep
    rcases List.mem_append.mp hstep with hstep | hstep
    · obtain rfl := List.mem_singleton.mp hstep
      intro _ _ _ _ hcall
      exact nomatch hcall
    · obtain rfl := List.mem_singleton.mp hstep
      exact demo_kept
  obtain ⟨hrefused, hfinalizes⟩ := appended_finalizes hrun hkept
  have happended : Step.Appended ⟨demoFiles, .append demo (demoEvent 1).raw (.takes 10000 true)⟩ demo :=
    ⟨(demoEvent 1).raw, .takes 10000 true, found, rfl, hfound⟩
  exact ⟨_, _, hrun, hkept, hrefused, hfinalizes demo ⟨_, List.mem_append_right _
    (List.mem_singleton_self _), happended⟩⟩

end SharedMind.Observe
