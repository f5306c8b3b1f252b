import SharedMind.Observe.Buffer

/-!
# What the calls make of a buffer

* `Buffered`: a header that was started and events that follow each other.
* `Buffered.readBuffer`: a buffer is read back.
* `parse_iff`: the trace of a buffer is accepted exactly when it is `Traceable`.
* `Buffered.append`, `Fits.traceable`: an event that is appended continues a buffer, and one that
  fits keeps it traceable.
-/

namespace SharedMind.Observe

open Py

/-! ### Headers -/

/-- A header that `start` writes. -/
def IsHeader (header : Json) : Prop :=
  ∃ session taskId related, taskIdPattern.fullmatch taskId = true ∧ (∀ id ∈ related, id ≠ "") ∧
    related.Nodup ∧ header = sessionHeader session taskId related

theorem sessionDigest_hex (session : String) :
    (sessionDigest session).length = 32 ∧ ∀ c ∈ sessionDigest session, isHexChar c = true := by
  rw [sessionDigest, sha256Bytes_digits, List.length_take, sha256Hex_length]
  exact ⟨rfl, fun c hc => sha256Hex_digit _ c (List.mem_of_mem_take hc)⟩

/-- A stem and a digest are a semantic identifier. -/
theorem semanticId_of_digest {stem digest : List Char}
    (hstem : matchPieces [.one lowerChar, ⟨orElse (orElse lowerChar digitChar) (oneOf "_-"), 1, some 31⟩,
      .lit ':'] stem = true)
    (hlen : digest.length = 32) (hhex : ∀ c ∈ digest, isHexChar c = true) :
    semanticIdPattern.fullmatch (String.ofList (stem ++ digest)) = true := by
  have hclass : ∀ c ∈ digest, orElse lowerChar digitChar c = true := by
    intro c hc
    have h := hhex c hc
    simp only [isHexChar, orElse, lowerChar, digitChar, Bool.or_eq_true, Bool.and_eq_true,
      decide_eq_true_eq] at h ⊢
    rcases h with h | h
    · exact Or.inr h
    · exact Or.inl ⟨h.1, h.2.trans (by decide)⟩
  cases digest with
  | nil => exact absurd hlen (by decide)
  | cons c rest =>
    rw [List.forall_mem_cons] at hclass
    have hrest : matchPieces [.one (orElse lowerChar digitChar),
        ⟨orElse (orElse lowerChar digitChar) (oneOf "._-"), 0, some 127⟩] (c :: rest) = true := by
      have hc : [c].all (orElse lowerChar digitChar) = true := by simp [hclass.1]
      refine matchPieces_cons_iff.mpr ⟨[c], rest, rfl, rfl, hc, ?_⟩
      refine matchPieces_singleton ?_ ?_
      · rw [List.length_cons] at hlen
        simp [Piece.admits]
        omega
      · rw [List.all_eq_true]
        intro d hd
        exact Bool.or_eq_true_iff.mpr (Or.inl (hclass.2 d hd))
    have hall := matchPieces_append hstem hrest
    rw [Pattern.fullmatch, Pattern.matches_, String.toList_ofList]
    exact List.any_eq_true.mpr ⟨_, List.mem_singleton_self _, hall⟩

theorem normalizedSessionId_valid (session : String) :
    semanticIdPattern.search (normalizedSessionId session (sessionDigest session)) = true := by
  rw [normalizedSessionId]
  obtain ⟨hlen, hhex⟩ := sessionDigest_hex session
  split
  · next h => exact Pattern.search_of_fullmatch h
  · exact Pattern.search_of_fullmatch (semanticId_of_digest (by decide) hlen hhex)

theorem traceId_valid (session : String) {digest : List Char} (hlen : digest.length = 32)
    (hhex : ∀ c ∈ digest, isHexChar c = true) :
    semanticIdPattern.search (traceId session digest) = true := by
  simp only [traceId]
  split
  · next h => exact Pattern.search_of_fullmatch h.2
  · exact Pattern.search_of_fullmatch (semanticId_of_digest (by decide) hlen hhex)

/-! ### Buffers -/

/-- What the calls have made of a buffer: a header and events that follow each other. -/
structure Buffered (content : Bytes) (header : Json) (events : List Json) : Prop where
  isHeader : IsHeader header
  content_eq : content = jsonLines (header :: events)
  sorted : ∀ e ∈ events, e.Sorted
  valid : ∀ e ∈ events, validTraceEvent e = true
  contiguous : Contiguous events

theorem sorted_str_items (texts : List String) : (JsonOf.arr (texts.map .str) : Json).Sorted := by
  refine .arr fun v hv => ?_
  obtain ⟨s, _, rfl⟩ := List.mem_map.mp hv
  exact .str s

theorem IsHeader.sorted {header : Json} (h : IsHeader header) : header.Sorted := by
  obtain ⟨session, taskId, related, _, _, _, rfl⟩ := h
  refine .obj (by simp only [List.map_cons, List.map_nil]; decide) ?_
  simp only [List.forall_mem_cons]
  exact ⟨.str _, .str _, sorted_str_items related, .str _, .str _, .str _, .str _,
    fun _ h => absurd h List.not_mem_nil⟩

theorem isObject_of_closedObject {members : List (String × (Json → Bool))} {v : Json}
    (h : closedObject members v = true) : isObject v = true := by
  cases v <;> first | rfl | exact nomatch h

theorem readBuffer_eq_ok {content : Bytes} {header : Json} {events : List Json} :
    readBuffer content = .ok (header, events) ↔ content.length ≤ maxJsonBytes ∧
      ∃ ms, header = .obj ms ∧ readLines content = some (.obj ms :: events) ∧
        ms.map Prod.fst = headerKeys ∧
        memberText (.obj ms) "object_type" = some "OBSERVATION_SESSION" ∧
        memberText (.obj ms) "observation_version" = some observationVersion ∧
        events.all isObject = true := by
  simp only [readBuffer, bind_eq_ok, ensure_eq_ok, orRaise_eq_ok, exists_and_left, exists_const]
  refine and_congr_right fun _ => ?_
  constructor
  · rintro ⟨documents, hdocuments, h⟩
    split at h
    · next ms es =>
      simp only [bind_eq_ok, ensure_eq_ok, pure_eq_ok, Prod.mk.injEq, exists_and_left,
        exists_const] at h
      obtain ⟨hkeys, htype, hversion, hobjects, rfl, rfl⟩ := h
      exact ⟨ms, rfl, hdocuments, hkeys, htype, hversion, hobjects⟩
    · cases h
  · rintro ⟨ms, rfl, hdocuments, hkeys, htype, hversion, hobjects⟩
    refine ⟨_, hdocuments, ?_⟩
    simp only [bind_eq_ok, ensure_eq_ok, pure_eq_ok, exists_and_left, exists_const]
    exact ⟨hkeys, htype, hversion, hobjects, trivial⟩

theorem header_members (related session source task trace : Json) :
    let header : Json := .obj [("object_type", .str "OBSERVATION_SESSION"),
      ("observation_version", .str observationVersion), ("related_object_ids", related),
      ("session_id", session), ("source_session_id", source), ("task_id", task), ("trace_id", trace)]
    memberText header "object_type" = some "OBSERVATION_SESSION" ∧
      memberText header "observation_version" = some observationVersion ∧
      header.get? "related_object_ids" = some related ∧ header.get? "session_id" = some session ∧
      header.get? "task_id" = some task ∧ header.get? "trace_id" = some trace :=
  ⟨rfl, rfl, rfl, rfl, rfl, rfl⟩

/-- A buffer is read back. -/
theorem Buffered.readBuffer {content : Bytes} {header : Json} {events : List Json}
    (h : Buffered content header events) (hsize : content.length ≤ maxJsonBytes) :
    readBuffer content = .ok (header, events) := by
  have hsorted : ∀ v ∈ header :: events, v.Sorted :=
    List.forall_mem_cons.mpr ⟨h.isHeader.sorted, h.sorted⟩
  have hobjects : events.all isObject = true :=
    List.all_eq_true.mpr fun e he => isObject_of_closedObject (h.valid e he)
  have hread := readLines_jsonLines hsorted
  rw [← h.content_eq] at hread
  obtain ⟨session, taskId, related, _, _, _, rfl⟩ := h.isHeader
  obtain ⟨htype, hversion, _⟩ := header_members (.arr (related.map .str))
    (.str (normalizedSessionId session (sessionDigest session))) (.str session) (.str taskId)
    (.str (traceId (normalizedSessionId session (sessionDigest session)) (sessionDigest session)))
  exact readBuffer_eq_ok.mpr ⟨hsize, _, rfl, hread, rfl, htype, hversion, hobjects⟩

/-- What is read of a buffer is what it holds. -/
theorem Buffered.eq_of_readBuffer {content : Bytes} {header header' : Json} {events events' : List Json}
    (h : Buffered content header events) (hread : Observe.readBuffer content = .ok (header', events')) :
    header' = header ∧ events' = events ∧ content.length ≤ maxJsonBytes := by
  have hsize := (readBuffer_eq_ok.mp hread).1
  rw [h.readBuffer hsize] at hread
  obtain ⟨rfl, rfl⟩ := Prod.mk.inj (Except.ok.inj hread)
  exact ⟨rfl, rfl, hsize⟩

/-! ### Events -/

theorem closedObject_member {members : List (String × (Json → Bool))} {v : Json}
    (hnodup : (members.map Prod.fst).Nodup) (h : closedObject members v = true)
    {m : String × (Json → Bool)} (hm : m ∈ members) : ∃ w, v.get? m.1 = some w ∧ m.2 w = true := by
  cases v with
  | obj ms =>
    rw [closedObject, Bool.and_eq_true, decide_eq_true_eq] at h
    obtain ⟨hkeys, hall⟩ := h
    induction members generalizing ms with
    | nil => exact absurd hm List.not_mem_nil
    | cons n members ih =>
      cases ms with
      | nil => exact nomatch hkeys
      | cons p ms =>
        simp only [List.map_cons, List.cons.injEq, List.nodup_cons, List.zip_cons_cons, List.all_cons,
          Bool.and_eq_true] at hkeys hnodup hall
        have hfresh : ∀ q ∈ ms, q.1 ≠ p.1 := by
          intro q hq heq
          have hmem : q.1 ∈ ms.map Prod.fst := List.mem_map_of_mem hq
          rw [hkeys.2, heq, hkeys.1] at hmem
          exact hnodup.1 hmem
        rw [JsonOf.get?_obj_cons hfresh]
        rcases List.mem_cons.mp hm with rfl | hm
        · exact ⟨p.2, if_pos hkeys.1, hall.1⟩
        · have hne : p.1 ≠ m.1 := by
            rw [hkeys.1]
            rintro heq
            exact hnodup.1 (heq ▸ List.mem_map_of_mem hm)
          rw [if_neg hne]
          exact ih hnodup.2 hm ms hkeys.2 hall.2
  | _ => exact nomatch h

theorem textWith_eq_true {p : String → Bool} {v : Json} (h : textWith p v = true) :
    ∃ s, v = .str s ∧ p s = true := by
  cases v with
  | str s => exact ⟨s, rfl, h⟩
  | _ => exact nomatch h

/-- The members of a valid event that the checks beyond the schema read. -/
theorem validTraceEvent_members {e : Json} (h : validTraceEvent e = true) :
    (∃ id, e.get? "event_id" = some (.str id)) ∧
    (∃ at_, e.get? "occurred_at" = some (.str at_) ∧ timestampPattern.search at_ = true) ∧
    ∃ n i, e.get? "sequence" = some (.num n) ∧ n.toInt? = some i ∧ 1 ≤ i ∧ i ≤ maxEvents := by
  have hnodup : (traceEventMembers.map Prod.fst).Nodup := by decide
  refine ⟨?_, ?_, ?_⟩
  · obtain ⟨w, hw, hp⟩ := closedObject_member hnodup h
      (m := ("event_id", textWith traceEventIdPattern.search)) (by simp [traceEventMembers])
    obtain ⟨s, rfl, _⟩ := textWith_eq_true hp
    exact ⟨s, hw⟩
  · obtain ⟨w, hw, hp⟩ := closedObject_member hnodup h
      (m := ("occurred_at", textWith timestampPattern.search)) (by simp [traceEventMembers])
    obtain ⟨s, rfl, hs⟩ := textWith_eq_true hp
    exact ⟨s, hw, hs⟩
  · obtain ⟨w, hw, hp⟩ := closedObject_member hnodup h
      (m := ("sequence", integerWithin 1 maxEvents)) (by simp [traceEventMembers])
    cases w with
    | num n =>
      obtain ⟨i, hi, hrange⟩ := (Option.any_eq_true _ _).mp (show n.toInt?.any _ = true from hp)
      simp only [Bool.and_eq_true, decide_eq_true_eq] at hrange
      exact ⟨n, i, hw, hi, hrange⟩
    | _ => exact nomatch hp

/-! ### Traces -/

/-- What `parse_task_trace` asks of the trace of a buffer, beyond what the buffer promises. -/
structure Traceable (header : Json) (events : List Json) : Prop where
  related : (memberItems header "related_object_ids").length ≤ 256 ∧
    ∀ id ∈ memberItems header "related_object_ids", textWith (lengthIn 1 256) id = true
  eventIds : (events.map (memberText · "event_id")).Nodup
  dates : ∀ started ∈ events.head?.bind (memberText · "occurred_at"),
    ∀ ended ∈ events.getLast?.bind (memberText · "occurred_at"), started ≤ ended
  depth : ∀ e ∈ events, e.depth + 2 ≤ maxJsonDepth
  size : (jsonLine (traceOf header events)).length ≤ maxJsonBytes

theorem parseTaskTrace_eq_ok {taskId : String} {trace trace' : Json} :
    parseTaskTrace taskId trace = .ok trace' ↔ trace.depth ≤ maxJsonDepth ∧
      (jsonLine trace).length ≤ maxJsonBytes ∧ validTaskTrace trace = true ∧
      memberText trace "task_id" = some taskId ∧ Contiguous (memberItems trace "events") ∧
      ((memberItems trace "events").map (memberText · "event_id")).Nodup ∧
      (∀ started ∈ memberText trace "started_at", ∀ ended ∈ memberText trace "ended_at",
        started ≤ ended) ∧ trace = trace' := by
  simp only [parseTaskTrace, bind_eq_ok, ensure_eq_ok, pure_eq_ok, exists_and_left, exists_const]

theorem depthItems_le {items : List Json} {n : Nat} :
    JsonOf.depthItems items ≤ n ↔ ∀ v ∈ items, v.depth ≤ n := by
  induction items with
  | nil => simp [JsonOf.depthItems]
  | cons v vs ih => rw [JsonOf.depthItems, max_le_iff, ih, List.forall_mem_cons]

theorem depth_str (s : String) : (JsonOf.str s).depth = 0 := rfl

theorem depth_texts (texts : List String) : (JsonOf.arr (texts.map .str) : Json).depth ≤ 1 := by
  rw [JsonOf.depth]
  refine Nat.succ_le_succ (depthItems_le.mpr fun v hv => ?_)
  obtain ⟨s, _, rfl⟩ := List.mem_map.mp hv
  exact le_rfl

/-- A trace is as deep as its events. -/
theorem depth_trace {texts : List String} {ended session started task trace : String}
    {events : List Json} : (JsonOf.obj [("ended_at", .str ended), ("events", .arr events),
      ("object_type", .str "TASK_TRACE"), ("related_object_ids", .arr (texts.map .str)),
      ("session_id", .str session), ("started_at", .str started), ("task_id", .str task),
      ("trace_id", .str trace), ("trace_version", .str "task-trace@1")] : Json).depth ≤ maxJsonDepth ↔
    ∀ e ∈ events, e.depth + 2 ≤ maxJsonDepth := by
  have htexts := depth_texts texts
  have hitems := @depthItems_le events 62
  simp only [JsonOf.depth, JsonOf.depthMembers, maxJsonDepth] at htexts ⊢
  constructor
  · intro h e he
    have := hitems.mp (by omega) e he
    omega
  · intro h
    have := hitems.mpr fun e he => by have := h e he; omega
    omega

theorem length_le_maxEvents {events : List Json} (hvalid : ∀ e ∈ events, validTraceEvent e = true)
    (h : Contiguous events) : events.length ≤ maxEvents := by
  rcases List.eq_nil_or_concat events with rfl | ⟨front, e, rfl⟩
  · exact Nat.zero_le _
  · rw [List.concat_eq_append] at *
    obtain ⟨n, i, hn, hi, _, hle⟩ := (validTraceEvent_members (hvalid e (by simp))).2.2
    have hsequence : sequenceOf e = some i := by rw [sequenceOf, hn]; exact hi
    rw [Contiguous, List.map_append, List.length_append, List.length_singleton, List.range_succ,
      List.map_append] at h
    have hlast := List.append_inj_right' h rfl
    simp only [List.map_cons, List.map_nil, List.cons.injEq, and_true, hsequence,
      Option.some.injEq] at hlast
    simp only [List.length_append, List.length_singleton]
    omega

theorem occurredAt_of_mem {events : List Json} (hvalid : ∀ e ∈ events, validTraceEvent e = true)
    {e : Json} (he : e ∈ events) : ∃ s, member e "occurred_at" = .str s ∧
      memberText e "occurred_at" = some s ∧ timestampPattern.search s = true := by
  obtain ⟨s, hs, hpattern⟩ := (validTraceEvent_members (hvalid e he)).2.1
  refine ⟨s, ?_, ?_, hpattern⟩
  · rw [member, hs]
    rfl
  · rw [memberText, hs]
    rfl

theorem uniqueItems_texts {texts : List String} (h : texts.Nodup) :
    JsonOf.uniqueItems (texts.map (JsonOf.str : String → Json)) := by
  rw [JsonOf.uniqueItems, List.pairwise_map]
  exact h.imp fun hne => by simpa [JsonOf.pyEq] using hne

/-- **The trace of a buffer is accepted** exactly when it is traceable. -/
theorem parse_iff {content : Bytes} {header : Json} {events : List Json}
    (hbuffer : Buffered content header events) (hne : events ≠ []) :
    parseTaskTrace ((memberText header "task_id").getD "") (traceOf header events) =
      .ok (traceOf header events) ↔ Traceable header events := by
  obtain ⟨session, taskId, related, htask, hrelated, hnodup, hheader⟩ := hbuffer.isHeader
  obtain ⟨first, hfirst⟩ : ∃ e, events.head? = some e := by
    cases events with
    | nil => exact absurd rfl hne
    | cons e _ => exact ⟨e, rfl⟩
  have hlast : events.getLast? = some (events.getLast hne) := List.getLast?_eq_some_getLast hne
  obtain ⟨started, hstarted, hstartedText, hstartedPattern⟩ :=
    occurredAt_of_mem hbuffer.valid (List.mem_of_head? hfirst)
  obtain ⟨ended, hended, hendedText, hendedPattern⟩ :=
    occurredAt_of_mem hbuffer.valid (List.getLast_mem hne)
  have hsession := normalizedSessionId_valid session
  have htrace := traceId_valid (normalizedSessionId session (sessionDigest session))
    (sessionDigest_hex session).1 (sessionDigest_hex session).2
  rw [sessionHeader] at hheader
  generalize normalizedSessionId session (sessionDigest session) = normalized at *
  generalize traceId normalized (sessionDigest session) = trace at *
  have hdocument : traceOf header events = .obj [("ended_at", .str ended), ("events", .arr events),
      ("object_type", .str "TASK_TRACE"), ("related_object_ids", .arr (related.map .str)),
      ("session_id", .str normalized), ("started_at", .str started), ("task_id", .str taskId),
      ("trace_id", .str trace), ("trace_version", .str "task-trace@1")] := by
    subst hheader
    rw [traceOf, hfirst, hlast, Option.getD_some, Option.getD_some, hstarted, hended]
    rfl
  have hrelatedItems : memberItems header "related_object_ids" = related.map .str := by
    subst hheader
    rfl
  have htaskId : (memberText header "task_id").getD "" = taskId := by
    subst hheader
    rfl
  have hvalid : validTaskTrace (traceOf header events) = true ↔
      (related.map (JsonOf.str : String → Json)).length ≤ 256 ∧
        ∀ id ∈ related.map (JsonOf.str : String → Json), textWith (lengthIn 1 256) id = true := by
    have hevents : listWith 1 maxEvents validTraceEvent (.arr events) = true := by
      simp only [listWith, Bool.and_eq_true, decide_eq_true_eq, List.all_eq_true]
      exact ⟨⟨List.length_pos_iff.mpr hne, length_le_maxEvents hbuffer.valid hbuffer.contiguous⟩,
        hbuffer.valid⟩
    have hunique := uniqueItems_texts hnodup
    rw [hdocument]
    simp only [validTaskTrace, closedObject, List.map_cons, List.map_nil, List.zip_cons_cons,
      List.zip_nil_right, List.all_cons, List.all_nil, constText, textWith, JsonOf.str?,
      Option.any_some, hevents, validRelated, hunique, hstartedPattern, hendedPattern, hsession,
      htrace, Pattern.search_of_fullmatch htask]
    simp [listWith, textWith, JsonOf.str?]
  rw [parseTaskTrace_eq_ok, hvalid, htaskId]
  constructor
  · rintro ⟨hdepth, hsize, hids, _, _, heventIds, hdates, _⟩
    rw [hdocument] at hdepth hdates heventIds
    refine ⟨hrelatedItems ▸ hids, heventIds, ?_, depth_trace.mp hdepth, hsize⟩
    rw [hfirst, hlast, Option.bind_some, Option.bind_some, hstartedText, hendedText]
    exact hdates
  · rintro ⟨hids, heventIds, hdates, hdepth, hsize⟩
    rw [hrelatedItems] at hids
    rw [hfirst, hlast, Option.bind_some, Option.bind_some, hstartedText, hendedText] at hdates
    refine ⟨?_, hsize, hids, ?_, ?_, ?_, ?_, rfl⟩
    · rw [hdocument]
      exact depth_trace.mpr hdepth
    · rw [hdocument]
      rfl
    · rw [hdocument]
      exact hbuffer.contiguous
    · rw [hdocument]
      exact heventIds
    · rw [hdocument]
      exact hdates

/-! ### Appending -/

/-- What `parse_task_trace` asks of an event that is appended, beyond what `append` does. -/
structure Fits (header : Json) (events : List Json) (event : Json) : Prop where
  related : (memberItems header "related_object_ids").length ≤ 256 ∧
    ∀ id ∈ memberItems header "related_object_ids", textWith (lengthIn 1 256) id = true
  eventId : memberText event "event_id" ∉ events.map (memberText · "event_id")
  date : ∀ started ∈ events.head?.bind (memberText · "occurred_at"),
    ∀ occurred ∈ memberText event "occurred_at", started ≤ occurred
  depth : event.depth + 2 ≤ maxJsonDepth
  size : (jsonLine (traceOf header (events ++ [event]))).length ≤ maxJsonBytes

/-- What fits keeps a buffer traceable. -/
theorem Fits.traceable {header event : Json} {events : List Json}
    (hevents : events ≠ [] → Traceable header events) (h : Fits header events event) :
    Traceable header (events ++ [event]) := by
  refine ⟨h.related, ?_, ?_, ?_, h.size⟩
  · rw [List.map_append, List.nodup_append]
    refine ⟨?_, by simp, ?_⟩
    · by_cases hne : events = []
      · rw [hne]
        exact List.nodup_nil
      · exact (hevents hne).eventIds
    · rintro id hid other hother rfl
      rw [List.map_cons, List.map_nil, List.mem_singleton] at hother
      exact h.eventId (hother ▸ hid)
  · rw [List.getLast?_append, List.getLast?_singleton, Option.some_or, Option.bind_some]
    cases events with
    | nil => exact fun s hs t ht => (Option.mem_unique hs ht).le
    | cons first rest => exact h.date
  · intro e he
    rcases List.mem_append.mp he with he | he
    · exact (hevents (List.ne_nil_of_mem he)).depth e he
    · rw [List.mem_singleton.mp he]
      exact h.depth

theorem appendLine_eq_ok {files : Files} {session : PyStr} {event : RawJson} {line : Line} :
    appendLine files session event = .ok line ↔
      (0 < session.points.length ∧ session.points.length ≤ 4096) ∧
      event.toJson? = some line.event ∧ validTraceEvent line.event = true ∧
      bufferPath session .pending = .ok line.path ∧ files line.path = some line.content ∧
      ∃ header events, readBuffer line.content = .ok (header, events) ∧
        (∃ n ∈ line.event.get? "sequence", n.pyEq (.num (.int (events.length + 1 : Nat))) = true) ∧
        line.content.length + (jsonLine line.event).length ≤ maxJsonBytes := by
  simp only [appendLine, requireSession, bind_eq_ok, ensure_eq_ok, orRaise_eq_ok, pure_eq_ok,
    exists_and_left, exists_const]
  constructor
  · rintro ⟨_, ⟨hlen, rfl⟩, normalized, hevent, hvalid, path, hpath, h⟩
    cases hfile : files path with
    | none =>
      rw [hfile] at h
      dsimp only at h
      split at h <;> cases h
    | some content =>
      rw [hfile] at h
      simp only [bind_eq_ok, ensure_eq_ok, pure_eq_ok, exists_and_left, exists_const,
        Prod.exists] at h
      obtain ⟨header, events, hread, hsequence, hsize, rfl⟩ := h
      exact ⟨hlen, hevent, hvalid, hpath, hfile, header, events, hread, hsequence, hsize⟩
  · rintro ⟨hlen, hevent, hvalid, hpath, hfile, header, events, hread, hsequence, hsize⟩
    refine ⟨session, ⟨hlen, rfl⟩, line.event, hevent, hvalid, line.path, hpath, ?_⟩
    rw [hfile]
    simp only [bind_eq_ok, ensure_eq_ok, pure_eq_ok, exists_and_left, exists_const, Prod.exists]
    exact ⟨header, events, hread, hsequence, hsize, trivial⟩

/-- An appended event continues the buffer. -/
theorem Buffered.append {content : Bytes} {header event : Json} {events : List Json}
    (h : Buffered content header events) (hsorted : event.Sorted)
    (hvalid : validTraceEvent event = true)
    (hsequence : ∃ n ∈ event.get? "sequence", n.pyEq (.num (.int (events.length + 1 : Nat))) = true) :
    Buffered (content ++ jsonLine event) header (events ++ [event]) := by
  refine ⟨h.isHeader, ?_, ?_, ?_, ?_⟩
  · rw [h.content_eq, ← List.cons_append, jsonLines_append, jsonLines_singleton]
  · rw [List.forall_mem_append, List.forall_mem_singleton]
    exact ⟨h.sorted, hsorted⟩
  · rw [List.forall_mem_append, List.forall_mem_singleton]
    exact ⟨h.valid, hvalid⟩
  · obtain ⟨m, hm, heq⟩ := hsequence
    obtain ⟨n, i, hn, hi, _⟩ := (validTraceEvent_members hvalid).2.2
    rw [hn, Option.mem_some_iff] at hm
    subst hm
    rw [JsonOf.pyEq, PyNum.pyEq_int_iff] at heq
    rw [Contiguous, List.map_append, h.contiguous, List.length_append, List.length_singleton,
      List.range_succ, List.map_append, List.map_cons, List.map_nil, List.map_cons, List.map_nil,
      sequenceOf, hn]
    simp only [heq, Nat.cast_add, Nat.cast_one]

end SharedMind.Observe
