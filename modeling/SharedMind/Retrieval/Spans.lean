import SharedMind.Law.Evidence
import SharedMind.Retrieval.Documents

/-!
# Reading a span of a source

`read_source_span` answers with the bytes of a range, decoded.

* `readSourceSpan`: the checks of the range, and the answer.
* `Honest`: what an answer should be; `Readable`: the range is one it is honest about.
* `ReadsBack`: the selector of a link reads back what it quotes.
* `spans_read_back`: **both, over every interleaving in which no applied proposal has a link that
  ends beyond its source.**
* `span_past_the_end`: a range that starts beyond the source is answered.
-/

namespace SharedMind.Retrieval

open Py

inductive SpanExc where
  | retrieval (e : RetrievalError)
  | unicodeEncodeError
  | unicodeDecodeError
  deriving DecidableEq

def sourceSpanInvalid : RetrievalError := ⟨"SOURCE_SPAN_INVALID", "Invalid source byte range."⟩

def sourceRevisionNotFound (revisionId : String) : RetrievalError :=
  ⟨"SOURCE_REVISION_NOT_FOUND", revisionId⟩

def sourceSpanOutOfRange : RetrievalError :=
  ⟨"SOURCE_SPAN_OUT_OF_RANGE", "Byte range exceeds source length."⟩

/-- What `read_source_span` returns. -/
structure SourceSpan where
  sourceRevision : SourceRevision
  startByte : Int
  endByte : Int
  excerpt : String
  excerptHash : Hash

/-- `SELECT document, content FROM sources WHERE revision_id=?`. -/
def source? (t : Tables) (revisionId : String) : Option SourceRow :=
  (Text.of? revisionId).bind fun id : RecordId => t.sources[id]?

/-- `RetrievalService.read_source_span`. -/
def readSourceSpan (t : Tables) (revisionId : PyStr) (startByte : Int) (endByte : Option Int) :
    Except SpanExc SourceSpan := do
  ensure (¬(startByte < 0 ∨ ∃ stop ∈ endByte, stop ≤ startByte)) (.retrieval sourceSpanInvalid)
  let revisionId ← orRaise revisionId.toString? .unicodeEncodeError
  let row ← orRaise (source? t revisionId) (.retrieval (sourceRevisionNotFound revisionId))
  let effectiveEnd := endByte.getD row.content.length
  ensure (effectiveEnd ≤ row.content.length) (.retrieval sourceSpanOutOfRange)
  let excerpt := slice row.content startByte.toNat effectiveEnd.toNat
  let text ← orRaise (utf8Decode? excerpt) .unicodeDecodeError
  return {
    sourceRevision := row.document
    startByte := startByte
    endByte := effectiveEnd
    excerpt := text
    excerptHash := sha256Bytes excerpt }

/-! ### What is answered -/

/-- The range is not empty and lies within the source, unless the source is empty; the excerpt is
what stands there. -/
def SourceSpan.Within (span : SourceSpan) (content : Bytes) : Prop :=
  (0 ≤ span.startByte ∧ span.startByte < span.endByte ∧ span.endByte ≤ content.length ∨
    content = [] ∧ span.startByte = 0 ∧ span.endByte = 0) ∧
  utf8 span.excerpt = slice content span.startByte.toNat span.endByte.toNat ∧
  span.excerptHash = sha256Bytes (slice content span.startByte.toNat span.endByte.toNat)

/-- It answers with a span of the source, or raises a `RetrievalError`. -/
def Honest (t : Tables) (revisionId : PyStr) (startByte : Int) (endByte : Option Int) : Prop :=
  match readSourceSpan t revisionId startByte endByte with
  | .error e => ∃ error, e = .retrieval error
  | .ok span => ∃ id row, revisionId.toString? = some id ∧ source? t id = some row ∧
      span.Within row.content

/-- A range that passes the checks has text in it, and a start before the end of the source where
no end is named. -/
def Readable (t : Tables) (revisionId : PyStr) (startByte : Int) (endByte : Option Int) : Prop :=
  ¬(startByte < 0 ∨ ∃ stop ∈ endByte, stop ≤ startByte) →
    ∃ id, revisionId.toString? = some id ∧ ∀ row, source? t id = some row →
      endByte.getD row.content.length ≤ row.content.length →
        (startByte < row.content.length ∨ row.content = [] ∧ startByte = 0) ∧
        (utf8Decode? (slice row.content startByte.toNat
          (endByte.getD row.content.length).toNat)).isSome = true

section

variable {t : Tables} {revisionId : PyStr} {startByte : Int} {endByte : Option Int}

theorem honest_of_error {error : RetrievalError}
    (h : readSourceSpan t revisionId startByte endByte = .error (.retrieval error)) :
    Honest t revisionId startByte endByte := by
  rw [Honest, h]
  exact ⟨error, rfl⟩

/-- What is read of a source that is there. -/
theorem readSourceSpan_found {id : String} {row : SourceRow}
    (hrange : ¬(startByte < 0 ∨ ∃ stop ∈ endByte, stop ≤ startByte))
    (hid : revisionId.toString? = some id) (hrow : source? t id = some row) :
    readSourceSpan t revisionId startByte endByte =
      if endByte.getD row.content.length ≤ row.content.length then
        match utf8Decode? (slice row.content startByte.toNat
          (endByte.getD row.content.length).toNat) with
        | some text => .ok ⟨row.document, startByte, endByte.getD row.content.length, text,
          sha256Bytes (slice row.content startByte.toNat (endByte.getD row.content.length).toNat)⟩
        | none => .error .unicodeDecodeError
      else .error (.retrieval sourceSpanOutOfRange) := by
  rw [readSourceSpan, ensure, if_pos hrange, hid]
  simp only [orRaise, ok_bind, hrow, ensure]
  by_cases hend : endByte.getD row.content.length ≤ row.content.length
  · rw [if_pos hend, if_pos hend, ok_bind]
    cases utf8Decode? (slice row.content startByte.toNat
      (endByte.getD row.content.length).toNat) <;> rfl
  · rw [if_neg hend, if_neg hend, error_bind]

/-- A range that passes the checks lies within the source unless it starts at its end. -/
theorem within_iff {content : Bytes}
    (hrange : ¬(startByte < 0 ∨ ∃ stop ∈ endByte, stop ≤ startByte))
    (hend : endByte.getD content.length ≤ content.length) :
    (0 ≤ startByte ∧ startByte < endByte.getD content.length ∧
        endByte.getD content.length ≤ content.length ∨
      content = [] ∧ startByte = 0 ∧ endByte.getD content.length = 0) ↔
    (startByte < content.length ∨ content = [] ∧ startByte = 0) := by
  obtain ⟨hstart, hstop⟩ := not_or.mp hrange
  constructor
  · intro h
    rcases h with ⟨-, hlt, -⟩ | ⟨hempty, hzero, -⟩
    · exact Or.inl (hlt.trans_le hend)
    · exact Or.inr ⟨hempty, hzero⟩
  · intro h
    cases endByte with
    | none =>
      rcases h with hlt | ⟨rfl, hzero⟩
      · exact Or.inl ⟨not_lt.mp hstart, hlt, le_rfl⟩
      · exact Or.inr ⟨rfl, hzero, rfl⟩
    | some stop =>
      refine Or.inl ⟨not_lt.mp hstart, ?_, hend⟩
      exact not_le.mp fun hle => hstop ⟨stop, rfl, hle⟩

/-- **The answer is honest** exactly for the ranges that are readable. -/
theorem honest_iff : Honest t revisionId startByte endByte ↔
    Readable t revisionId startByte endByte := by
  by_cases hrange : startByte < 0 ∨ ∃ stop ∈ endByte, stop ≤ startByte
  · refine iff_of_true (@honest_of_error _ _ _ _ sourceSpanInvalid ?_) fun h => absurd hrange h
    rw [readSourceSpan, ensure, if_neg (not_not.mpr hrange)]
    rfl
  · rw [Readable, imp_iff_right hrange]
    cases hid : revisionId.toString? with
    | none =>
      refine iff_of_false (fun h => ?_) fun h => ?_
      · rw [Honest, readSourceSpan, ensure, if_pos hrange, hid] at h
        obtain ⟨_, he⟩ := h
        cases he
      · obtain ⟨_, hid', -⟩ := h
        cases hid'
    | some id =>
      cases hrow : source? t id with
      | none =>
        refine iff_of_true (@honest_of_error _ _ _ _ (sourceRevisionNotFound id) ?_) ⟨id, rfl, ?_⟩
        · rw [readSourceSpan, ensure, if_pos hrange, hid]
          simp only [orRaise, ok_bind, hrow, error_bind]
        · intro row hrow'
          rw [hrow] at hrow'
          cases hrow'
      | some row =>
        rw [Honest, readSourceSpan_found hrange hid hrow]
        by_cases hend : endByte.getD row.content.length ≤ row.content.length
        · rw [if_pos hend]
          have hwithin := within_iff hrange hend
          cases hdecode : utf8Decode? (slice row.content startByte.toNat
              (endByte.getD row.content.length).toNat) with
          | none =>
            refine iff_of_false (fun h => by cases h.choose_spec) fun h => ?_
            obtain ⟨id', hid', hall⟩ := h
            obtain rfl := Option.some.inj hid'
            have hsome := (hall row hrow hend).2
            rw [hdecode] at hsome
            cases hsome
          | some text =>
            constructor
            · intro h
              obtain ⟨id', row', hid', hrow', hspan, -⟩ := h
              obtain rfl := Option.some.inj (hid.symm.trans hid')
              obtain rfl := Option.some.inj (hrow.symm.trans hrow')
              refine ⟨id, rfl, fun row' hrow'' _ => ?_⟩
              obtain rfl := Option.some.inj (hrow.symm.trans hrow'')
              exact ⟨hwithin.mp hspan, by rw [hdecode]; rfl⟩
            · intro h
              obtain ⟨id', hid', hall⟩ := h
              obtain rfl := Option.some.inj hid'
              exact ⟨id, row, hid, hrow, hwithin.mpr (hall row hrow hend).1,
                utf8_of_utf8Decode? hdecode, rfl⟩
        · rw [if_neg hend]
          refine iff_of_true ⟨sourceSpanOutOfRange, rfl⟩ ⟨id, rfl, fun row' hrow' hend' => ?_⟩
          obtain rfl := Option.some.inj (hrow.symm.trans hrow')
          exact absurd hend' hend

/-! ### The links -/

/-- Reading the selector of a link answers with what it quotes. -/
def ReadsBack (t : Tables) (link : EvidenceLink) : Prop :=
  ∃ start stop : ℕ, sliceIndex link.selector.startByte.1 = .ok start ∧
    sliceIndex link.selector.endByte.1 = .ok stop ∧
    ∃ span, readSourceSpan t (.ofString link.sourceRevisionId.text) start (some (stop : Int)) =
        .ok span ∧
      span.excerpt = link.selector.excerpt ∧ span.excerptHash = link.selector.excerptHash

theorem source?_text (id : RecordId) : source? t id.text = t.sources[id]? := by
  have hid : Text.of? id.text = some id := dif_pos id.2
  rw [source?, hid, Option.bind_some]

/-- A link that stands reads back. -/
theorem readsBack_of_stands {id : RecordId} {row : EvidenceRow} (h : row.Stands t id) :
    ReadsBack t row.document := by
  obtain ⟨source, start, stop, hsource, hbacked, hlt, hle⟩ := h.backed
  rw [← h.source_eq, ← source?_text] at hsource
  have hrange : ¬((start : Int) < 0 ∨ ∃ s ∈ some (stop : Int), s ≤ (start : Int)) := by
    intro h
    rcases h with h | ⟨s, hs, hle⟩
    · omega
    · obtain rfl := Option.some.inj hs
      omega
  have hend : (some (stop : Int)).getD source.content.length ≤ source.content.length :=
    Int.ofNat_le.mpr hle
  have hread := readSourceSpan_found (t := t) hrange (PyStr.toString?_ofString _) hsource
  rw [if_pos hend] at hread
  have hdecoded : utf8Decode? (slice source.content (start : Int).toNat
      ((some (stop : Int)).getD source.content.length).toNat) =
        some (row.document.selector.excerpt : String) := hbacked.decoded
  rw [hdecoded] at hread
  exact ⟨start, stop, hbacked.start_eq, hbacked.stop_eq, _, hread, rfl, hbacked.hashed⟩

end

section

variable [Host] {ι : Type} [DecidableEq ι]

/-- **Spans read back**: in every state of every interleaving in which no applied proposal has a
link that ends beyond its source, readable ranges are those that are answered honestly, and the
selector of every stored link reads back what it quotes. -/
theorem spans_read_back (reg : Registry) (es : List (Event ι)) (u : Sys ι)
    (hrun : RunWhere reg (LinksFit reg) (.start .empty) es u) :
    (∀ (revisionId : PyStr) (startByte : Int) (endByte : Option Int),
      Honest u.db.tables revisionId startByte endByte ↔
        Readable u.db.tables revisionId startByte endByte) ∧
    ∀ (id : RecordId) (row : EvidenceRow), u.db.tables.evidence[id]? = some row →
      ReadsBack u.db.tables row.document := by
  have hbacked : EvidenceBacked reg u.db.tables := by
    refine hrun.accepted_inv (Q := fun db => EvidenceBacked reg db.tables) .empty
      (fun _ _ h => h) ?_
    intro s ev u i c hash value e row hfits hq hacc
    exact hacc.evidenceBacked hfits hq
  exact ⟨fun _ _ _ => honest_iff,
    fun id row hrow => readsBack_of_stands (hbacked.stands id row hrow)⟩

end

/-- A source that a link quotes to its end. -/
theorem spans_read_back_of_owner : letI := Host.utc
    ∃ u : Sys Unit, u.db.tables = ownerTables (.ofInt 3 (by decide)) ∧
      ∀ (id : RecordId) (row : EvidenceRow), u.db.tables.evidence[id]? = some row →
        ReadsBack u.db.tables row.document := by
  let := Host.utc
  obtain ⟨es, u, hrun, hu⟩ := ownerAssertion_run (P := LinksFit ownerRegistry) (n := 3) (by decide)
    le_rfl (by decide) (by decide)
    (fun s ev hopen i c receipt hash value e row hev => absurd hev (hopen i c _))
    fun receipt => ownerAssertion_linksFit (by decide) le_rfl
  exact ⟨u, hu, (spans_read_back ownerRegistry es u hrun).2⟩

/-- **A range that starts beyond its source is answered**, from byte 4 to byte 3. -/
theorem span_past_the_end : letI := Host.utc
    ¬ ∀ (es : List (Event Unit)) (u : Sys Unit), Run ownerRegistry (.start .empty) es u →
      (∀ (revisionId : PyStr) (startByte : Int) (endByte : Option Int),
        Honest u.db.tables revisionId startByte endByte) ∧
      ∀ (id : RecordId) (row : EvidenceRow), u.db.tables.evidence[id]? = some row →
        ReadsBack u.db.tables row.document := by
  let := Host.utc
  intro h
  obtain ⟨es, u, hrun, hu⟩ := ownerAssertion_run (P := fun _ _ => True) (n := 3) (by decide)
    le_rfl (by decide) (by decide) (fun _ _ _ => trivial) fun _ => trivial
  have hhonest := (h es u hrun).1 (.ofString ownerSource.revisionId.text) 4 none
  obtain ⟨id, hid, hall⟩ := honest_iff.mp hhonest (by decide)
  obtain rfl := Option.some.inj ((PyStr.toString?_ofString _).symm.trans hid)
  have hsource : source? u.db.tables ownerSource.revisionId.text =
      some ⟨ownerSource.contentHash, ownerSource, [65, 100, 97]⟩ := by
    rw [source?_text, hu, ownerTables, Table.get_insert, if_pos rfl]
  have hrange := (hall _ hsource (by decide)).1
  revert hrange
  decide

end SharedMind.Retrieval
