import SharedMind.Gen.Sections
import SharedMind.Py.TextLines
import SharedMind.Py.Zip
import SharedMind.Projection.Build

/-!
# The Markdown projection

* `renderMarkdown`, `projectMarkdown`: the text.
* `readMarkdown`: the projection that a text shows.
* `readMarkdown_renderMarkdown`: **a rendered projection is read back**, whatever its texts are.

A line of a record is its JSON, and no other line starts with a brace.
-/

namespace SharedMind.Projection

open Py Sections

/-! ### Rendering -/

/-- `str(value)` of a value that is no float, list or dict. -/
def pyStr : Json → Except ProjectionExc String
  | .str s => .ok s
  | .num (.int i) => .ok (String.ofList (intText i))
  | .bool b => .ok (if b then "True" else "False")
  | .null => .ok "None"
  | _ => .error .typeError

def identifierFields : List String := ["revision_id", "claim_id", "evidence_link_id", "id"]

/-- `_record_identifier`. -/
def recordIdentifier (r : ProjectedRecord) (key : Option String) : Except ProjectionExc String :=
  match key.bind r.json.get? with
  | some value => pyStr ((identifierFields.findSome? value.get?).getD value)
  | none =>
    match r.columns with
    | (_, value) :: _ => pyStr value
    | [] => pyStr ((r.json.get? "table").getD (.str "record"))

/-- The lines on the history of a record, if it has any. -/
def historyLines (r : ProjectedRecord) : Except ProjectionExc (List String) :=
  match r.json.get? "history_sequences" with
  | some (.arr (item :: items)) => do
    let joined := ", ".intercalate (← (item :: items).mapM pyStr)
    return ["History: ledger sequence " ++ joined, ""]
  | _ => .ok []

def recordLines (key : Option String) (r : ProjectedRecord) :
    Except ProjectionExc (List String) := do
  let identifier ← recordIdentifier r key
  let history ← historyLines r
  return ["### " ++ identifier, ""] ++ history ++ ["```json", r.json.dumps, "```", ""]

/-- `_markdown_records`: the lines it adds. -/
def markdownRecords (title : String) (records : List ProjectedRecord) (key : Option String) :
    Except ProjectionExc (List String) :=
  match records with
  | [] => .ok ["## " ++ title, "", "_None._", ""]
  | records => do
    let lines ← records.mapM (recordLines key)
    return ("## " ++ title) :: "" :: lines.flatten

structure MarkdownSection where
  title : String
  records : List ProjectedRecord
  key : Option String

def ProjectedState.sections (p : ProjectedState) : List MarkdownSection :=
  [⟨"Sources", p.sources, some "source_revision"⟩,
    ⟨"Claims", p.claims, some "claim"⟩,
    ⟨"Evidence", p.evidence, some "evidence_link"⟩,
    ⟨"Conflicts", p.conflicts, some "conflict_id"⟩,
    ⟨"Decisions", p.decisions, none⟩,
    ⟨"Questions", p.questions, none⟩,
    ⟨"Work Items", p.workItems, none⟩,
    ⟨"History", p.entries, some "sequence"⟩]

/-- The lines before the first section. -/
def markdownHeader (p : ProjectedState) : Except ProjectionExc (List String) := do
  return [
    "# Shared Mind Projection",
    "",
    "- Projection version: `" ++ projectionVersion ++ "`",
    "- Ledger head: `" ++ (← pyStr p.headSequence) ++ "`",
    "- State root: `" ++ p.stateRoot ++ "`",
    ""]

/-- `_render_markdown`. -/
def renderMarkdown (p : ProjectedState) : Except ProjectionExc String := do
  let header ← markdownHeader p
  let sections ← p.sections.mapM fun s => markdownRecords s.title s.records s.key
  return String.ofList (rstrip ("\n".intercalate (header ++ sections.flatten)).toList) ++ "\n"

/-- `project_markdown`. -/
def projectMarkdown (db : Db) : Except ProjectionExc String := do
  renderMarkdown (← buildProjection db)

/-! ### Reading -/

def isHeading (line : List Char) : Bool := ['#', '#', ' '].isPrefixOf line

/-- The line is a dict. -/
def isRecordLine (line : List Char) : Bool := line.head? == some '{'

/-- The records that the lines of a section show. -/
def readRecords (lines : List (List Char)) : Option (List ProjectedRecord) :=
  (lines.filter isRecordLine).mapM fun line => do
    return { json := ← loads (String.ofList line) }

/-- The state root stands between the backticks of the fifth line. -/
def readStateRoot (header : List (List Char)) : Option Hash := do
  let line ← header[4]?
  Text.of? (String.ofList ((line.drop "- State root: `".length).dropLast))

/-- The projection that a text shows. -/
def readMarkdown (text : String) : Option ProjectedState :=
  match (text.toList.splitOn '\n').splitOnP isHeading with
  | [] => none
  | header :: bodies => do
    let stateRoot ← readStateRoot header
    match ← bodies.mapM readRecords with
    | [sources, claims, evidence, conflicts, decisions, questions, workItems, entries] =>
      return {
        sources := sources
        claims := claims
        evidence := evidence
        conflicts := conflicts
        decisions := decisions
        questions := questions
        workItems := workItems
        entries := entries
        stateRoot := stateRoot }
    | _ => none

/-! ### Lines that show nothing -/

/-- A text without the characters that a heading and a record start with. -/
def Plain (s : List Char) : Prop := ∀ c ∈ s, c ≠ '{' ∧ c ≠ '#'

theorem Plain.append {s t : List Char} (hs : Plain s) (ht : Plain t) : Plain (s ++ t) := by
  intro c hc
  exact (List.mem_append.mp hc).elim (hs c) (ht c)

theorem Plain.intercalate {sep : List Char} (hsep : Plain sep) {texts : List (List Char)}
    (h : ∀ s ∈ texts, Plain s) : Plain (sep.intercalate texts) := by
  induction texts with
  | nil => exact fun c hc => absurd hc List.not_mem_nil
  | cons s texts ih =>
    have hs := h s List.mem_cons_self
    have hrest := ih fun t ht => h t (List.mem_cons_of_mem s ht)
    by_cases hne : texts = []
    · rwa [hne, List.intercalate_singleton]
    · rw [List.intercalate_cons_of_ne_nil hne]
      exact (hs.append hsep).append hrest

/-- It shows no heading and no record. -/
theorem Plain.skip {s : List Char} (h : Plain s) :
    isHeading s = false ∧ isRecordLine s = false := by
  cases s with
  | nil => exact ⟨rfl, rfl⟩
  | cons c s =>
    obtain ⟨hbrace, hhash⟩ := h c List.mem_cons_self
    constructor
    · simp [isHeading, List.isPrefixOf, hhash.symm]
    · simp [isRecordLine, hbrace]

theorem Plain.pieces {s : List Char} (h : Plain s) :
    ∀ p ∈ s.splitOn '\n', isHeading p = false ∧ isRecordLine p = false := by
  intro p hp
  apply Plain.skip
  intro c hc
  exact h c ((PurePosixPath.part_of_mem_splitOn hp).2 hc)

/-- The heading of a record is no heading of a section. -/
theorem identifier_pieces {s : List Char} (h : Plain s) :
    ∀ p ∈ ("### ".toList ++ s).splitOn '\n', isHeading p = false ∧ isRecordLine p = false := by
  intro p hp
  obtain ⟨first, rest, hsplit⟩ := List.exists_cons_of_ne_nil (List.splitOn_ne_nil '\n' s)
  have hpieces : ("### ".toList ++ s).splitOn '\n' = ("### ".toList ++ first) :: rest := by
    show ('#' :: '#' :: '#' :: ' ' :: s).splitOn '\n' = _
    simp [List.splitOn_cons_eq_if_modifyHead, hsplit]
  rw [hpieces] at hp
  obtain rfl | hp := List.mem_cons.mp hp
  · exact ⟨rfl, rfl⟩
  · exact h.pieces p (hsplit ▸ List.mem_cons_of_mem first hp)

theorem plain_digits (n : Nat) : Plain (Nat.toDigits 10 n) := by
  intro c hc
  have hdigit := isDigit_toDigits c hc
  constructor
  · rintro rfl
    exact absurd hdigit (by decide)
  · rintro rfl
    exact absurd hdigit (by decide)

theorem plain_intText (n : Nat) : Plain (intText n) := by
  have hneg : ¬(n : Int) < 0 := by omega
  rw [intText, if_neg hneg, List.nil_append, Int.natAbs_natCast]
  exact plain_digits n

/-- A character that no piece of a pattern admits stands in no match. -/
theorem not_mem_of_matchPieces {c : Char} {ps : List Piece} (hps : ∀ p ∈ ps, p.cls c = false)
    {s : List Char} (h : matchPieces ps s = true) : c ∉ s := by
  induction ps generalizing s with
  | nil =>
    rw [matchPieces, List.isEmpty_iff] at h
    rw [h]
    exact List.not_mem_nil
  | cons p ps ih =>
    obtain ⟨a, b, rfl, _, hall, hb⟩ := matchPieces_cons_iff.mp h
    intro hc
    obtain hc | hc := List.mem_append.mp hc
    · have hcls := List.all_eq_true.mp hall c hc
      rw [hps p List.mem_cons_self] at hcls
      exact Bool.false_ne_true hcls
    · exact ih (fun q hq => hps q (List.mem_cons_of_mem p hq)) hb hc

theorem not_mem_of_search {c : Char} (hc : c ≠ '\n') {p : Pattern}
    (hp : ∀ ps ∈ p.alternatives, ∀ q ∈ ps, q.cls c = false) {s : String}
    (h : p.search s = true) : c ∉ s.toList := by
  have hmatch : ∀ {t : List Char}, p.matches_ t = true → c ∉ t := by
    intro t ht
    obtain ⟨ps, hps, hm⟩ := List.any_eq_true.mp ht
    exact not_mem_of_matchPieces (hp ps hps) hm
  rw [Pattern.search, Bool.or_eq_true, Bool.and_eq_true, beq_iff_eq] at h
  obtain h | ⟨hlast, h⟩ := h
  · exact hmatch h
  · obtain ⟨t, ht⟩ := List.getLast?_eq_some_iff.mp hlast
    rw [ht, List.dropLast_concat] at h
    rw [ht, List.mem_append, List.mem_singleton, not_or]
    exact ⟨hmatch h, hc⟩

theorem plain_recordId (id : RecordId) : Plain (id : String).toList := by
  intro c hc
  constructor
  · rintro rfl
    exact not_mem_of_search (by decide) (by decide) id.2 hc
  · rintro rfl
    exact not_mem_of_search (by decide) (by decide) id.2 hc

/-! ### What a record shows -/

/-- The record has an identifier and a history without a brace or a hash, and it is a dict. -/
structure Shown (key : Option String) (r : ProjectedRecord) : Prop where
  sorted : r.json.Sorted
  dict : isMapping r.json = true
  identifier : ∃ id, recordIdentifier r key = .ok id ∧ Plain id.toList
  history : ∃ lines, historyLines r = .ok lines ∧ ∀ l ∈ lines, Plain l.toList

/-- The lines show these records. -/
def ShowsRecords (lines : List String) (records : List ProjectedRecord) : Prop :=
  Shows '\n' isHeading isRecordLine (lines.map String.toList)
    (records.map fun r => r.json.print)

/-- The last line is empty, and the line before ends in a character that is no blank. -/
def Ends (lines : List String) : Prop :=
  ∃ before line c, lines.map String.toList = before ++ [line ++ [c], []] ∧ isSpace c = false

theorem Ends.append {lines : List String} (h : Ends lines) (before : List String) :
    Ends (before ++ lines) := by
  obtain ⟨pre, line, c, hlines, hc⟩ := h
  refine ⟨before.map String.toList ++ pre, line, c, ?_, hc⟩
  rw [List.map_append, hlines, List.append_assoc]

variable {key : Option String} {r : ProjectedRecord} {records : List ProjectedRecord}

theorem showsRecords_nil : ShowsRecords [] [] := Shows.nil

theorem ShowsRecords.append {lines rest : List String} {more : List ProjectedRecord}
    (h : ShowsRecords lines records) (hrest : ShowsRecords rest more) :
    ShowsRecords (lines ++ rest) (records ++ more) := by
  rw [ShowsRecords, List.map_append, List.map_append]
  exact Shows.append h hrest

theorem ShowsRecords.skip {l : String} {lines : List String} (hl : Plain l.toList)
    (h : ShowsRecords lines records) : ShowsRecords (l :: lines) records :=
  Shows.skip hl.pieces h

theorem ShowsRecords.skips {ls lines : List String} (hls : ∀ l ∈ ls, Plain l.toList)
    (h : ShowsRecords lines records) : ShowsRecords (ls ++ lines) records := by
  induction ls with
  | nil => exact h
  | cons l ls ih =>
    exact (ih fun k hk => hls k (List.mem_cons_of_mem l hk)).skip (hls l List.mem_cons_self)

theorem newline_not_mem_print (v : Json) : '\n' ∉ v.print := by
  intro h
  exact absurd (JsonOf.printed_print v _ h) (by decide)

/-- The line of a record shows it. -/
theorem showsRecords_dumps (hdict : isMapping r.json = true) {lines : List String}
    (h : ShowsRecords lines records) : ShowsRecords (r.json.dumps :: lines) (r :: records) := by
  rw [ShowsRecords, List.map_cons, List.map_cons, JsonOf.dumps, String.toList_ofList]
  refine Shows.record (newline_not_mem_print r.json) ?_ ?_ h
  · cases hr : r.json with
    | obj ms => rw [JsonOf.print]; rfl
    | _ => rw [hr] at hdict; exact absurd hdict Bool.false_ne_true
  · cases hr : r.json with
    | obj ms => rw [JsonOf.print]; rfl
    | _ => rw [hr] at hdict; exact absurd hdict Bool.false_ne_true

/-- A record is rendered, and its lines show it alone. -/
theorem recordLines_returns (h : Shown key r) :
    ∃ lines, recordLines key r = .ok lines ∧ ShowsRecords lines [r] ∧ Ends lines := by
  obtain ⟨id, hid, hplain⟩ := h.identifier
  obtain ⟨history, hhistory, hlines⟩ := h.history
  have hfence : ShowsRecords ["```", ""] [] :=
    (showsRecords_nil.skip (by simp [Plain])).skip (by simp [Plain])
  have hjson : ShowsRecords ["```json", r.json.dumps, "```", ""] [r] :=
    (showsRecords_dumps h.dict hfence).skip (by simp [Plain])
  have hbody : ShowsRecords ("" :: (history ++ ["```json", r.json.dumps, "```", ""])) [r] :=
    (hjson.skips hlines).skip (by simp [Plain])
  refine ⟨("### " ++ id) :: "" :: (history ++ ["```json", r.json.dumps, "```", ""]), ?_, ?_, ?_⟩
  · rw [recordLines, hid, hhistory]
    rfl
  · rw [ShowsRecords, List.map_cons, String.toList_append]
    exact Shows.skip (identifier_pieces hplain) hbody
  · have hend : Ends ["```", ""] := ⟨[], ['`', '`'], '`', rfl, by decide⟩
    have happend := hend.append (("### " ++ id) :: "" :: (history ++ ["```json", r.json.dumps]))
    simpa only [List.cons_append, List.append_assoc, List.nil_append] using happend

theorem mapM_recordLines (h : ∀ r ∈ records, Shown key r) :
    ∃ lines, records.mapM (recordLines key) = .ok lines ∧ ShowsRecords lines.flatten records ∧
      (records ≠ [] → Ends lines.flatten) := by
  induction records with
  | nil => exact ⟨[], rfl, showsRecords_nil, fun hne => absurd rfl hne⟩
  | cons r records ih =>
    obtain ⟨lines, hlines, hshows, hends⟩ := recordLines_returns (h r List.mem_cons_self)
    obtain ⟨rest, hrest, hshowsRest, hendsRest⟩ :=
      ih fun s hs => h s (List.mem_cons_of_mem r hs)
    refine ⟨lines :: rest, ?_, ?_, ?_⟩
    · rw [List.mapM_cons, hlines, hrest]
      rfl
    · exact hshows.append hshowsRest
    · intro _
      by_cases hne : records = []
      · subst hne
        rw [List.mapM_nil] at hrest
        obtain rfl := Except.ok.inj hrest
        rwa [List.flatten_cons, List.flatten_nil, List.append_nil]
      · exact (hendsRest hne).append lines

/-- A section is rendered: its heading, and lines that show its records. -/
theorem markdownRecords_returns (title : String) (h : ∀ r ∈ records, Shown key r) :
    ∃ body, markdownRecords title records key = .ok (("## " ++ title) :: body) ∧
      ShowsRecords body records ∧ Ends body := by
  cases records with
  | nil =>
    refine ⟨["", "_None._", ""], rfl, ?_, ⟨[[]], "_None.".toList, '_', rfl, by decide⟩⟩
    apply ShowsRecords.skip (by simp [Plain])
    apply ShowsRecords.skip (by simp [Plain])
    exact showsRecords_nil.skip (by simp [Plain])
  | cons r records =>
    obtain ⟨lines, hlines, hshows, hends⟩ := mapM_recordLines h
    refine ⟨"" :: lines.flatten, ?_, ?_, ?_⟩
    · rw [markdownRecords, hlines]
      · rfl
      · exact List.cons_ne_nil r records
    · exact hshows.skip (by simp [Plain])
    · exact (hends (List.cons_ne_nil r records)).append [""]

/-! ### What a projection shows -/

/-- Every record is shown, under the key of its section. -/
structure ProjectedState.Shown (p : ProjectedState) : Prop where
  records : ∀ s ∈ p.sections, ∀ r ∈ s.records, Projection.Shown s.key r
  headSequence : ∃ n, p.headSequence = intColumn n
  stateRoot : '\n' ∉ (p.stateRoot : String).toList

/-- Only the last of the two newlines at the end is a blank, and it comes back. -/
theorem rstrip_of_ends {lines : List String} (h : Ends lines) :
    rstrip ("\n".intercalate lines).toList ++ ['\n'] =
      ['\n'].intercalate (lines.map String.toList) := by
  obtain ⟨before, line, c, hlines, hc⟩ := h
  have hlast : ∃ u, ['\n'].intercalate (before ++ [line ++ [c]]) = u ++ [c] := by
    by_cases hbefore : before = []
    · exact ⟨line, by rw [hbefore, List.nil_append, List.intercalate_singleton]⟩
    · refine ⟨['\n'].intercalate before ++ '\n' :: line, ?_⟩
      rw [intercalate_concat hbefore, List.append_assoc, List.cons_append]
  obtain ⟨u, hu⟩ := hlast
  have htext : ['\n'].intercalate (lines.map String.toList) = u ++ [c] ++ ['\n'] := by
    rw [hlines, ← hu, ← intercalate_concat (List.concat_ne_nil _ _), List.append_assoc]
    rfl
  have hnewline : isSpace '\n' = true := by decide
  rw [String.toList_intercalate, show "\n".toList = ['\n'] from rfl, htext, rstrip,
    List.reverse_append, List.reverse_singleton, List.singleton_append, List.dropWhile_cons,
    if_pos hnewline, List.reverse_append, List.reverse_singleton, List.singleton_append,
    List.dropWhile_cons, hc, if_neg Bool.false_ne_true, List.reverse_cons, List.reverse_reverse]

/-- The record without the columns of its row. -/
def ProjectedRecord.bare (r : ProjectedRecord) : ProjectedRecord := { json := r.json }

/-- The records that lines show are read back. -/
theorem readRecords_pieces {lines : List String} (h : ShowsRecords lines records)
    (hsorted : ∀ r ∈ records, r.json.Sorted) :
    readRecords (pieces '\n' (lines.map String.toList)) =
      some (records.map ProjectedRecord.bare) := by
  rw [readRecords, h.records_eq]
  clear h
  induction records with
  | nil => rfl
  | cons r records ih =>
    have hloads : loads (String.ofList r.json.print) = some r.json :=
      loads_dumps (hsorted r List.mem_cons_self)
    rw [List.map_cons, List.mapM_cons, hloads, ih fun s hs => hsorted s (List.mem_cons_of_mem r hs)]
    rfl

/-- The lines of a section: its heading, and lines that show its records. -/
structure IsSection (s : MarkdownSection) (lines : List String) : Prop where
  heading : lines.head? = some ("## " ++ s.title)
  shows : ShowsRecords lines.tail s.records
  ends : Ends lines

/-- The titles are lines. -/
def Titled (s : MarkdownSection) : Prop := '\n' ∉ s.title.toList

theorem mapM_markdownRecords {sections : List MarkdownSection}
    (h : ∀ s ∈ sections, ∀ r ∈ s.records, Shown s.key r) :
    ∃ bodies, sections.mapM (fun s => markdownRecords s.title s.records s.key) = .ok bodies ∧
      List.Forall₂ IsSection sections bodies := by
  induction sections with
  | nil => exact ⟨[], rfl, .nil⟩
  | cons s sections ih =>
    obtain ⟨body, hbody, hshows, hends⟩ := markdownRecords_returns s.title (h s List.mem_cons_self)
    obtain ⟨bodies, hbodies, hall⟩ := ih fun t ht => h t (List.mem_cons_of_mem s ht)
    refine ⟨(("## " ++ s.title) :: body) :: bodies, ?_, .cons ⟨rfl, hshows, hends.append [_]⟩ hall⟩
    rw [List.mapM_cons, hbody, hbodies]
    rfl

/-- The last section ends the text. -/
theorem ends_of_sections {sections : List MarkdownSection} {bodies : List (List String)}
    (h : List.Forall₂ IsSection sections bodies) (hne : sections ≠ []) : Ends bodies.flatten := by
  induction h with
  | nil => exact absurd rfl hne
  | @cons s body sections bodies hbody hall ih =>
    by_cases hrest : sections = []
    · subst hrest
      cases hall
      rw [List.flatten_cons, List.flatten_nil, List.append_nil]
      exact hbody.ends
    · exact (ih hrest).append body

/-- The pieces of the sections: a heading each, and what shows the records. -/
theorem pieces_sections {sections : List MarkdownSection} {bodies : List (List String)}
    (h : List.Forall₂ IsSection sections bodies) (htitles : ∀ s ∈ sections, Titled s) :
    ∃ parts : List (List Char × List (List Char)),
      pieces '\n' (bodies.flatten.map String.toList) = parts.flatMap (fun s => s.1 :: s.2) ∧
      (∀ s ∈ parts, isHeading s.1 = true ∧ ∀ l ∈ s.2, isHeading l = false) ∧
      ((∀ s ∈ sections, ∀ r ∈ s.records, r.json.Sorted) →
        (parts.map Prod.snd).mapM readRecords =
          some (sections.map fun s => s.records.map ProjectedRecord.bare)) := by
  induction h with
  | nil => exact ⟨[], rfl, fun s hs => absurd hs List.not_mem_nil, fun _ => rfl⟩
  | @cons s body sections bodies hbody hall ih =>
    obtain ⟨parts, hparts, hplain, hread⟩ := ih fun t ht => htitles t (List.mem_cons_of_mem s ht)
    have htitle : '\n' ∉ ("## " ++ s.title).toList := by
      rw [String.toList_append, List.mem_append, not_or]
      exact ⟨by simp, htitles s List.mem_cons_self⟩
    obtain ⟨lines, rfl⟩ := List.head?_eq_some_iff.mp hbody.heading
    refine ⟨(("## " ++ s.title).toList, pieces '\n' (lines.map String.toList)) :: parts,
      ?_, ?_, ?_⟩
    · rw [List.flatten_cons, List.map_append, List.map_cons, pieces_append, pieces_cons,
        List.splitOn_eq_singleton htitle, hparts, List.flatMap_cons]
      rfl
    · intro t ht
      obtain rfl | ht := List.mem_cons.mp ht
      · refine ⟨?_, hbody.shows.plain⟩
        rw [String.toList_append]
        rfl
      · exact hplain t ht
    · intro hsorted
      have hfirst : readRecords (pieces '\n' (lines.map String.toList)) =
          some (s.records.map ProjectedRecord.bare) :=
        readRecords_pieces hbody.shows (hsorted s List.mem_cons_self)
      rw [List.map_cons, List.mapM_cons, hfirst,
        hread fun t ht => hsorted t (List.mem_cons_of_mem s ht)]
      rfl

namespace ProjectedState

variable {p : ProjectedState}

/-- The projection without the columns of its rows, which its JSON does not tell apart. -/
def bare (p : ProjectedState) : ProjectedState where
  sources := p.sources.map ProjectedRecord.bare
  claims := p.claims.map ProjectedRecord.bare
  evidence := p.evidence.map ProjectedRecord.bare
  conflicts := p.conflicts.map ProjectedRecord.bare
  decisions := p.decisions.map ProjectedRecord.bare
  questions := p.questions.map ProjectedRecord.bare
  workItems := p.workItems.map ProjectedRecord.bare
  entries := p.entries.map ProjectedRecord.bare
  stateRoot := p.stateRoot

theorem bare_json (p : ProjectedState) : p.bare.json = p.json := by
  have hrecords (rs : List ProjectedRecord) :
      (rs.map ProjectedRecord.bare).map ProjectedRecord.json = rs.map ProjectedRecord.json := by
    rw [List.map_map]
    rfl
  have hhead : p.bare.head = p.head := by
    rw [head, head, ← List.getLast?_map, ← List.getLast?_map]
    exact congrArg List.getLast? (hrecords p.entries)
  rw [json, json, headSequence, headSequence, headEntryHash, headEntryHash, hhead]
  simp only [bare, hrecords]

end ProjectedState

/-- The first lines of a projection have no heading, and tell the state root. -/
theorem markdownHeader_returns {p : ProjectedState} (h : p.Shown) :
    ∃ header, markdownHeader p = .ok header ∧ (∀ l ∈ header, '\n' ∉ l.toList) ∧
      (∀ l ∈ header.map String.toList, isHeading l = false) ∧
      readStateRoot (header.map String.toList) = some p.stateRoot := by
  obtain ⟨n, hn⟩ := h.headSequence
  have hsequence : '\n' ∉ intText n := newline_not_mem_print (.num (.int n))
  have hroot : ("- State root: `" ++ (p.stateRoot : String) ++ "`").toList =
      "- State root: `".toList ++ ((p.stateRoot : String).toList ++ ['`']) := by
    rw [String.toList_append, String.toList_append, List.append_assoc]
    rfl
  refine ⟨_, by rw [markdownHeader, hn]; rfl, ?_, ?_, ?_⟩
  · simp [projectionVersion, hsequence, h.stateRoot]
  · simp [projectionVersion, isHeading, List.isPrefixOf]
  · rw [readStateRoot]
    simp only [List.map_cons, List.getElem?_cons_succ, List.getElem?_cons_zero]
    rw [hroot, Option.bind_eq_bind, Option.bind_some, String.length,
      List.drop_left, List.dropLast_concat, String.ofList_toList]
    exact dif_pos p.stateRoot.2

/-- **A rendered projection is read back.** -/
theorem readMarkdown_renderMarkdown {p : ProjectedState} (h : p.Shown) :
    ∃ text, renderMarkdown p = .ok text ∧ readMarkdown text = some p.bare := by
  obtain ⟨header, hheader, hlines, hplain, hroot⟩ := markdownHeader_returns h
  obtain ⟨bodies, hbodies, hall⟩ := mapM_markdownRecords h.records
  have htitles : ∀ s ∈ p.sections, Titled s := by
    simp [ProjectedState.sections, Titled]
  obtain ⟨parts, hparts, hheadings, hread⟩ := pieces_sections hall htitles
  have hends : Ends (header ++ bodies.flatten) :=
    (ends_of_sections hall (List.cons_ne_nil _ _)).append header
  refine ⟨String.ofList (rstrip ("\n".intercalate (header ++ bodies.flatten)).toList) ++ "\n",
    ?_, ?_⟩
  · rw [renderMarkdown, hheader, hbodies]
    rfl
  · have hsplit : ((String.ofList (rstrip ("\n".intercalate
        (header ++ bodies.flatten)).toList) ++ "\n").toList.splitOn '\n').splitOnP isHeading =
          header.map String.toList :: parts.map Prod.snd := by
      rw [String.toList_append, String.toList_ofList, show "\n".toList = ['\n'] from rfl,
        rstrip_of_ends hends, splitOn_intercalate, List.map_append, pieces_append,
        pieces_of_not_mem, hparts, splitOnP_sections hplain hheadings]
      · intro l hl
        obtain ⟨k, hk, rfl⟩ := List.mem_map.mp hl
        exact hlines k hk
      · obtain ⟨before, line, c, heq, -⟩ := hends
        rw [heq]
        simp
    rw [readMarkdown, hsplit]
    simp only
    rw [hroot, hread fun s hs r hr => (h.records s hs r hr).sorted]
    rfl

end SharedMind.Projection
