import SharedMind.Ingest.Directives

/-!
# The two scanners

What the scanner of documents and the scanner of messages find in one text.

* `fenceOf`, `unindented`: the marks of a text and what its other lines yield, as the blocks of
  `Blocks` have them.
* `iterDirectives_document`, `iterCandidateDirectives_eq`: **both keep what stands outside of the
  fenced blocks**, of the lines that each of them knows.
* `Placed.slice_eq`: the offsets of a directive of a document select its line.
* `scanners_agree`: when both find the same directives.
-/

namespace SharedMind.Ingest

open Py

/-! ### Fences as marks -/

structure Fence where
  char : Char
  length : Nat
  blank : Bool
  deriving DecidableEq

/-- The fence marker that is all of a line. -/
def fenceOf (line : List Char) : Option Fence :=
  (matchMarkdownFence line).map fun (c, length, info) => ⟨c, length, strip info = []⟩

/-- A marker closes a fence of its character that is no longer, when nothing follows it. -/
def Fence.Closes (f m : Fence) : Prop := f.char = m.char ∧ f.length ≤ m.length ∧ m.blank = true

instance : DecidableRel Fence.Closes := fun f m =>
  inferInstanceAs (Decidable (f.char = m.char ∧ f.length ≤ m.length ∧ m.blank = true))

/-- What the scanners remember of the open fence. -/
def Fence.open (f : Fence) : Char × Nat := (f.char, f.length)

/-- The directive of a line that is not indented. -/
def unindented (line : List Char) : Option (String × String) :=
  if isIndented line then none else matchDirective line

/-- The directives of the lines that stand outside of the fenced blocks. -/
noncomputable def unfencedDirectives (lines : List (List Char)) : List (String × String) :=
  Blocks.outside fenceOf Fence.Closes unindented lines

/-- The pass that both scanners make. -/
def scanFenced (fence : Option Fence) (lines : List (List Char)) : List (String × String) :=
  Blocks.scan fenceOf Fence.Closes unindented fence lines

section

variable {fence : Option Fence} {line : List Char} {lines : List (List Char)}

theorem scanFenced_eq : scanFenced none lines = unfencedDirectives lines :=
  Blocks.scan_eq_outside unindented lines

theorem next_none {c : Char} {length : Nat} {info : List Char}
    (h : matchMarkdownFence line = some (c, length, info)) :
    Blocks.next fenceOf Fence.Closes none line = some ⟨c, length, strip info = []⟩ := by
  simp [Blocks.next, fenceOf, h]

theorem next_some {f : Fence} {c : Char} {length : Nat} {info : List Char}
    (h : matchMarkdownFence line = some (c, length, info)) :
    Blocks.next fenceOf Fence.Closes (some f) line =
      if c = f.char ∧ f.length ≤ length ∧ strip info = [] then none else some f := by
  have hcl : f.Closes ⟨c, length, strip info = []⟩ ↔
      c = f.char ∧ f.length ≤ length ∧ strip info = [] := by
    rw [Fence.Closes, decide_eq_true_eq, eq_comm]
  simp only [Blocks.next, fenceOf, h, Option.map_some]
  by_cases hclose : c = f.char ∧ f.length ≤ length ∧ strip info = []
  · rw [if_pos hclose, if_pos (hcl.mpr hclose)]
  · rw [if_neg hclose, if_neg (mt hcl.mp hclose)]

theorem scanFenced_marker {m : Char × Nat × List Char} (h : matchMarkdownFence line = some m) :
    scanFenced fence (line :: lines) =
      scanFenced (Blocks.next fenceOf Fence.Closes fence line) lines := by
  simp [scanFenced, Blocks.scan, fenceOf, h]

/-- Inside a block nothing is yielded, and outside what is not indented. -/
theorem scanFenced_plain (h : matchMarkdownFence line = none) :
    scanFenced fence (line :: lines) =
      (if fence ≠ none ∨ isIndented line = true then [] else (matchDirective line).toList) ++
        scanFenced fence lines := by
  have hnext : Blocks.next fenceOf Fence.Closes fence line = fence := by
    simp [Blocks.next, fenceOf, h]
  rw [scanFenced, Blocks.scan, hnext]
  cases fence with
  | none =>
    cases hind : isIndented line with
    | true => simp [fenceOf, h, unindented, hind, scanFenced]
    | false => simp [fenceOf, h, unindented, hind, scanFenced]
  | some f => simp [fenceOf, h, scanFenced]

/-- An empty line is no marker and yields nothing. -/
theorem scanFenced_empty : scanFenced fence ([] :: lines) = scanFenced fence lines := by
  have hdirective : matchDirective [] = none := by decide
  rw [scanFenced_plain rfl, hdirective]
  split <;> rfl

/-! ### Messages -/

theorem iterCandidateLines_eq : iterCandidateLines true (fence.map Fence.open) lines =
    scanFenced fence lines := by
  induction lines generalizing fence with
  | nil => rfl
  | cons line lines ih =>
    rw [iterCandidateLines, if_pos rfl]
    cases hmarker : matchMarkdownFence line with
    | some m =>
      obtain ⟨c, length, info⟩ := m
      rw [scanFenced_marker hmarker, ← ih]
      cases fence with
      | none => rw [next_none hmarker]; rfl
      | some f =>
        rw [next_some hmarker]
        dsimp only [Option.map_some, Fence.open]
        by_cases hclose : c = f.char ∧ f.length ≤ length ∧ strip info = []
        · rw [if_pos hclose, if_pos hclose]; rfl
        · rw [if_neg hclose, if_neg hclose]; rfl
    | none =>
      rw [scanFenced_plain hmarker, ← ih]
      by_cases hskip : fence ≠ none ∨ isIndented line = true
      · simp [hskip]
      · simp [hskip]

/-- **The scanner of messages keeps what stands outside of the fenced blocks.** -/
theorem iterCandidateDirectives_eq (t : String) :
    iterCandidateDirectives true t = unfencedDirectives (strSplitlines t.toList) := by
  rw [← scanFenced_eq, ← iterCandidateLines_eq]
  rfl

end

/-! ### Documents -/

/-- The bytes of a line with its end. -/
def pieceBytes (p : List Char × List Char) : Bytes := encode p.1 ++ encode p.2

/-- Kind and payload. -/
def Directive.found (d : Directive) : String × String := (d.kind, d.payload)

/-- The directive selects a line of the pieces, the first of which is at `offset`. -/
def Placed (offset : Nat) (pieces : List (List Char × List Char)) (d : Directive) : Prop :=
  ∃ before p after, pieces = before ++ p :: after ∧
    d.startByte = offset + (before.flatMap pieceBytes).length ∧
    d.endByte = d.startByte + (encode p.1).length ∧ utf8 d.excerpt = encode p.1

section

variable {offset : Nat} {pieces : List (List Char × List Char)} {p : List Char × List Char}
  {d : Directive} {ds : List Directive} {markdown : Bool}

theorem Placed.cons (h : Placed (offset + (pieceBytes p).length) pieces d) :
    Placed offset (p :: pieces) d := by
  obtain ⟨before, q, after, rfl, hstart, hend, hexcerpt⟩ := h
  refine ⟨p :: before, q, after, rfl, ?_, hend, hexcerpt⟩
  rw [hstart, List.flatMap_cons, List.length_append, Nat.add_assoc]

theorem placed_directiveAt {found : String × String} :
    Placed offset (p :: pieces)
      (directiveAt offset (encode p.1).length (String.ofList p.1) found) :=
  ⟨[], p, pieces, rfl, rfl, rfl, utf8_ofList p.1⟩

/-- **The offsets select the line.** -/
theorem Placed.slice_eq (h : Placed 0 pieces d) :
    slice (pieces.flatMap pieceBytes) d.startByte d.endByte = utf8 d.excerpt := by
  obtain ⟨before, p, after, rfl, hstart, hend, hexcerpt⟩ := h
  rw [Nat.zero_add] at hstart
  rw [slice, hexcerpt, hend, hstart, List.drop_take, Nat.add_sub_cancel_left, List.flatMap_append,
    List.drop_left, List.flatMap_cons, pieceBytes, List.append_assoc, List.take_left]

/-- What the scanner of documents does with one line. -/
theorem iterLines_cons {fence : Option (Char × Nat)} (hp : TextPiece isNewline p)
    (hne : p.1 ≠ []) :
    iterLines false markdown offset fence ((p :: pieces).map pieceBytes) =
      let next := fun fence => iterLines false markdown (offset + (pieceBytes p).length) fence
        (pieces.map pieceBytes)
      let yields := List.map (directiveAt offset (encode p.1).length (String.ofList p.1))
      if markdown then
        match matchMarkdownFence p.1 with
        | some (c, length, info) =>
          match fence with
          | none => next (some (c, length))
          | some (c', length') =>
            if c = c' ∧ length' ≤ length ∧ strip info = [] then next none else next fence
        | none =>
          if fence ≠ none ∨ isIndented p.1 then next fence
          else (next fence).map (yields (matchDirective p.1).toList ++ ·)
      else (next fence).map (yields (matchDirective p.1).toList ++ ·) := by
  have hbytes : encode p.1 ≠ [] := by
    obtain ⟨c, r, hc⟩ := List.exists_cons_of_ne_nil hne
    rw [hc, encode_cons]
    exact List.append_ne_nil_of_left_ne_nil String.utf8EncodeChar_ne_nil _
  have hstrip : rstripNewlines (pieceBytes p) = encode p.1 := rstripNewlines_textPiece hp
  rw [List.map_cons, iterLines, hstrip, if_neg hbytes, utf8Decode?_encode]
  dsimp only
  rw [String.toList_ofList]
  exact if_neg Bool.false_ne_true

/-- An empty line is passed over. -/
theorem iterLines_empty {fence : Option (Char × Nat)} {conversation : Bool}
    (hp : TextPiece isNewline p) (hempty : p.1 = []) :
    iterLines conversation markdown offset fence ((p :: pieces).map pieceBytes) =
      iterLines conversation markdown (offset + (pieceBytes p).length) fence
        (pieces.map pieceBytes) := by
  have hstrip : rstripNewlines (pieceBytes p) = [] := by
    rw [pieceBytes, rstripNewlines_textPiece hp, hempty, encode_nil]
  rw [List.map_cons, iterLines, hstrip, if_pos rfl]

/-- **The scanner of documents keeps what stands outside of the fenced blocks.** -/
theorem iterLines_document {fence : Option Fence} (hp : ∀ p ∈ pieces, TextPiece isNewline p) :
    ∃ ds, iterLines false true offset (fence.map Fence.open) (pieces.map pieceBytes) = some ds ∧
      ds.map Directive.found = scanFenced fence (pieces.map Prod.fst) := by
  induction pieces generalizing offset fence with
  | nil => exact ⟨[], rfl, rfl⟩
  | cons p pieces ih =>
    have ih := fun o f => @ih o f fun q hq => hp q (List.mem_cons_of_mem p hq)
    have hpiece := hp p List.mem_cons_self
    by_cases hempty : p.1 = []
    · rw [iterLines_empty hpiece hempty, List.map_cons, hempty, scanFenced_empty]
      exact ih _ fence
    · rw [iterLines_cons hpiece hempty, List.map_cons]
      dsimp only
      rw [if_pos rfl]
      cases hmarker : matchMarkdownFence p.1 with
      | some m =>
        obtain ⟨c, length, info⟩ := m
        rw [scanFenced_marker hmarker]
        cases fence with
        | none =>
          rw [next_none hmarker]
          exact ih _ (some ⟨c, length, strip info = []⟩)
        | some f =>
          rw [next_some hmarker]
          dsimp only [Option.map_some, Fence.open]
          by_cases hclose : c = f.char ∧ f.length ≤ length ∧ strip info = []
          · rw [if_pos hclose, if_pos hclose]
            exact ih _ none
          · rw [if_neg hclose, if_neg hclose]
            exact ih _ (some f)
      | none =>
        rw [scanFenced_plain hmarker]
        obtain ⟨ds, hds, hfound⟩ := ih (offset + (pieceBytes p).length) fence
        by_cases hskip : fence ≠ none ∨ isIndented p.1 = true
        · have hskip' : fence.map Fence.open ≠ none ∨ isIndented p.1 = true := by simpa using hskip
          dsimp only
          rw [if_pos hskip, if_pos hskip']
          exact ⟨ds, hds, hfound⟩
        · have hskip' : ¬(fence.map Fence.open ≠ none ∨ isIndented p.1 = true) := by simpa using hskip
          dsimp only
          rw [if_neg hskip, if_neg hskip', hds]
          refine ⟨_, rfl, ?_⟩
          rw [List.map_append, hfound, List.map_map]
          exact congrArg (· ++ _) (List.map_id _)

/-- What the scanner of documents yields is in its place. -/
theorem placed_of_iterLines {fence : Option (Char × Nat)}
    (hp : ∀ p ∈ pieces, TextPiece isNewline p)
    (h : iterLines false markdown offset fence (pieces.map pieceBytes) = some ds) :
    ∀ d ∈ ds, Placed offset pieces d := by
  induction pieces generalizing offset fence ds with
  | nil =>
    obtain rfl := Option.some.inj h
    simp
  | cons p pieces ih =>
    have ih := fun {o l f} => @ih o l f fun q hq => hp q (List.mem_cons_of_mem p hq)
    have hpiece := hp p List.mem_cons_self
    by_cases hempty : p.1 = []
    · rw [iterLines_empty hpiece hempty] at h
      exact fun d hd => (ih h d hd).cons
    · have hyields : ∀ {fence'}, (iterLines false markdown (offset + (pieceBytes p).length) fence'
          (pieces.map pieceBytes)).map (List.map (directiveAt offset (encode p.1).length
            (String.ofList p.1)) (matchDirective p.1).toList ++ ·) = some ds →
          ∀ d ∈ ds, Placed offset (p :: pieces) d := by
        intro fence' hmap d hd
        obtain ⟨ds', hds', rfl⟩ := Option.map_eq_some_iff.mp hmap
        rcases List.mem_append.mp hd with hd | hd
        · obtain ⟨found, -, rfl⟩ := List.mem_map.mp hd
          exact placed_directiveAt
        · exact (ih hds' d hd).cons
      rw [iterLines_cons hpiece hempty] at h
      dsimp only at h
      split at h
      · split at h
        · split at h
          · exact fun d hd => (ih h d hd).cons
          · split at h <;> exact fun d hd => (ih h d hd).cons
        · split at h
          · exact fun d hd => (ih h d hd).cons
          · exact hyields h
      · exact hyields h

/-- The bytes of a text, in pieces. -/
theorem flatMap_pieceBytes (s : List Char) :
    (textPiecesFrom isNewline [] s).flatMap pieceBytes = encode s := by
  have h := congrArg encode (@textPiecesFrom_flatMap isNewline [] s)
  rw [List.reverse_nil, List.nil_append] at h
  rw [← h, encode, List.flatMap_assoc]
  exact List.flatMap_congr fun p _ => (encode_append p.1 p.2).symm

end

/-! ### Conversations -/

/-- A conversation of one record, the only text of which is `t`. -/
def OneRecord (content t : String) : Prop :=
  ∃ record value, ((splitlinesKeepends (utf8 content)).map rstripNewlines).filter (· ≠ []) =
    [utf8 record] ∧ loads record = some value ∧ messageTexts value = [t]

section

variable {offset : Nat} {fence : Option (Char × Nat)} {rawLines : List Bytes} {record t : String}
  {value : Json}

theorem candidatesOf_eq (hloads : loads record = some value) (htexts : messageTexts value = [t]) :
    candidatesOf record = [t] := by
  rw [candidatesOf, hloads]
  dsimp only
  rw [htexts]

/-- Lines without content yield nothing. -/
theorem iterLines_blank (h : ∀ line ∈ rawLines, rstripNewlines line = []) :
    iterLines true true offset fence rawLines = some [] := by
  induction rawLines generalizing offset with
  | nil => rfl
  | cons line rawLines ih =>
    rw [iterLines, if_pos (h line List.mem_cons_self)]
    exact ih fun l hl => h l (List.mem_cons_of_mem line hl)

/-- The directives of a conversation of one record are those of its text. -/
theorem iterLines_record
    (hlines : (rawLines.map rstripNewlines).filter (· ≠ []) = [utf8 record])
    (hcandidates : candidatesOf record = [t]) :
    ∃ ds, iterLines true true offset fence rawLines = some ds ∧
      ds.map Directive.found = iterCandidateDirectives true t := by
  induction rawLines generalizing offset with
  | nil => exact nomatch hlines
  | cons line rawLines ih =>
    rw [List.map_cons] at hlines
    by_cases hempty : rstripNewlines line = []
    · rw [List.filter_cons_of_neg (by simpa using hempty)] at hlines
      rw [iterLines, if_pos hempty]
      exact ih hlines
    · rw [List.filter_cons_of_pos (by simpa using hempty)] at hlines
      obtain ⟨hline, hrest⟩ := List.cons.inj hlines
      have hblank : ∀ l ∈ rawLines, rstripNewlines l = [] := by
        intro l hl
        have h := List.filter_eq_nil_iff.mp hrest _ (List.mem_map_of_mem hl)
        simpa using h
      rw [iterLines, if_neg hempty, hline, utf8Decode?_utf8]
      dsimp only
      rw [if_pos rfl, iterLines_blank hblank, hcandidates, List.flatMap_singleton]
      refine ⟨_, rfl, ?_⟩
      dsimp only
      rw [List.append_nil, List.map_map]
      exact List.map_id _

/-- The one line of bytes that end no line, and a newline. -/
theorem rstripNewlines_line {line : Bytes} (hne : line ≠ []) (h : ∀ b ∈ line, ¬(b = 10 ∨ b = 13)) :
    ((splitlinesKeepends (line ++ [10])).map rstripNewlines).filter (· ≠ []) = [line] := by
  have hstrip : rstripNewlines (10 :: line.reverse).reverse = line := by
    rw [rstripNewlines, List.reverse_reverse, List.dropWhile_cons_of_pos rfl]
    cases hrev : line.reverse with
    | nil => exact absurd (List.reverse_eq_nil_iff.mp hrev) hne
    | cons b r =>
      have hb := h b (List.mem_reverse.mp (hrev ▸ List.mem_cons_self))
      rw [List.dropWhile_cons_of_neg (by simpa using hb), ← hrev, List.reverse_reverse]
  have hsplit : splitlinesKeepends (line ++ [10]) = [(10 :: line.reverse).reverse] := by
    rw [splitlinesKeepends, splitlinesKeependsFrom_append h, List.append_nil]
    rfl
  rw [hsplit, List.map_cons, hstrip, List.map_nil, List.filter_cons_of_pos (by simpa using hne)]
  rfl

end

/-! ### Where both agree -/

/-- Both scanners find the same directives in a text; each finds those of the lines that are not
indented and stand outside of the fenced blocks; and the offsets that the scanner of documents
gives select the excerpts. -/
def ScannersAgree (t content : String) : Prop :=
  ∃ document conversation, iterDirectives t false true = some document ∧
    iterDirectives content true true = some conversation ∧
    document.map Directive.found = conversation.map Directive.found ∧
    document.map Directive.found = unfencedDirectives (newlineLines t.toList) ∧
    conversation.map Directive.found = unfencedDirectives (strSplitlines t.toList) ∧
    ∀ d ∈ document, slice (utf8 t) d.startByte d.endByte = utf8 d.excerpt

/-- The markers and the directives of the lines, in order. -/
def effects (lines : List (List Char)) : List (Fence ⊕ (String × String)) :=
  lines.filterMap (Blocks.effect fenceOf unindented)

/-- The lines hold the same markers and directives, whether CR and LF alone end a line or all the
characters at which `str.splitlines` ends one. -/
def SameEffects (t : String) : Prop :=
  effects (newlineLines t.toList) = effects (strSplitlines t.toList)

/-- No line, of either kind, is a fence marker. -/
def Unfenced (t : String) : Prop :=
  ∀ line ∈ newlineLines t.toList ++ strSplitlines t.toList, matchMarkdownFence line = none

theorem sameEffects_of_plain {t : String}
    (h : ∀ c ∈ t.toList, isLineEnd c = true → isNewline c = true) : SameEffects t := by
  rw [SameEffects, strSplitlines_eq_newlineLines h]

section

variable {t content : String}

/-- The scanner of documents always returns, and its offsets select. -/
theorem iterDirectives_document (t : String) : ∃ ds, iterDirectives t false true = some ds ∧
    ds.map Directive.found = unfencedDirectives (newlineLines t.toList) ∧
    ∀ d ∈ ds, slice (utf8 t) d.startByte d.endByte = utf8 d.excerpt := by
  have hpieces : ∀ p ∈ textPiecesFrom isNewline [] t.toList, TextPiece isNewline p :=
    textPiecesFrom_textPiece rfl rfl (by simp)
  have hbytes : splitlinesKeepends (utf8 t) =
      (textPiecesFrom isNewline [] t.toList).map pieceBytes := splitlinesKeepends_utf8 t
  obtain ⟨ds, hds, hfound⟩ := @iterLines_document 0 _ none hpieces
  rw [← hbytes] at hds
  refine ⟨ds, hds, ?_, fun d hd => ?_⟩
  · rw [hfound, scanFenced_eq]
    rfl
  · rw [utf8_eq_encode, ← flatMap_pieceBytes]
    rw [hbytes] at hds
    exact (placed_of_iterLines hpieces hds d hd).slice_eq

theorem iterDirectives_conversation (h : OneRecord content t) :
    ∃ ds, iterDirectives content true true = some ds ∧
      ds.map Directive.found = unfencedDirectives (strSplitlines t.toList) := by
  obtain ⟨record, value, hlines, hloads, htexts⟩ := h
  obtain ⟨ds, hds, hfound⟩ := iterLines_record hlines (candidatesOf_eq hloads htexts)
  exact ⟨ds, hds, hfound.trans (iterCandidateDirectives_eq t)⟩

/-- The scanners agree when what stands outside of the blocks is the same for both kinds of lines. -/
theorem scannersAgree_iff (h : OneRecord content t) : ScannersAgree t content ↔
    scanFenced none (newlineLines t.toList) = scanFenced none (strSplitlines t.toList) := by
  obtain ⟨document, hdocument, hfound, hslices⟩ := iterDirectives_document t
  obtain ⟨conversation, hconversation, hfound'⟩ := iterDirectives_conversation h
  rw [scanFenced_eq, scanFenced_eq]
  constructor
  · rintro ⟨d, c, hd, hc, hsame, hdoc, hconv, -⟩
    rw [← hdoc, hsame, hconv]
  · intro hsame
    exact ⟨document, conversation, hdocument, hconversation, by rw [hfound, hfound', hsame],
      hfound, hfound', hslices⟩

end

/-! ### A text in both places -/

/-- A record of which `t` is the content. -/
def contentRecord (t : String) : Json := .obj [("content", .str t)]

theorem contentRecord_sorted (t : String) : (contentRecord t).Sorted := by
  refine .obj (by simp) fun m hm => ?_
  obtain rfl := List.mem_singleton.mp hm
  exact .str t

/-- The conversation of that record. -/
def conversationOf (t : String) : String := (contentRecord t).dumps ++ "\n"

theorem oneRecord_conversationOf (t : String) : OneRecord (conversationOf t) t := by
  have hbytes : utf8 (conversationOf t) = utf8 (contentRecord t).dumps ++ [10] := by
    rw [conversationOf, utf8, String.toList_append, List.flatMap_append]
    rfl
  have hne : utf8 (contentRecord t).dumps ≠ [] := by
    obtain ⟨c, r, hprint, -⟩ := Py.printed_head (contentRecord t)
    rw [JsonOf.dumps, utf8_ofList, hprint, List.flatMap_cons]
    exact List.append_ne_nil_of_left_ne_nil String.utf8EncodeChar_ne_nil _
  refine ⟨(contentRecord t).dumps, _, ?_, loads_dumps (contentRecord_sorted t), ?_⟩
  · rw [hbytes]
    refine rstripNewlines_line hne fun b hb hbad => ?_
    have hlow := byte_dumps (contentRecord t) b hb
    rcases hbad with rfl | rfl <;> exact absurd hlow (by decide)
  · simp [contentRecord, messageTexts, messageTextsAt]

end SharedMind.Ingest
