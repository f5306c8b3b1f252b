import SharedMind.Kernel.Steps
import SharedMind.Py.RawJson

/-!
# Receipts

* `receiptRow_eq_ok`: when a receipt is written, and the row it is.
* `receiptDocument_valid`: the documents the contract admits; every rejection has one.
* `rowToReceipt_columns`: a written row reads back.
-/

namespace SharedMind

open Py

/-! ### Identifiers -/

theorem alnumChar_of_isDigit {c : Char} (h : c.isDigit = true) : alnumChar c = true := by
  rw [Char.isDigit, Bool.and_eq_true, decide_eq_true_eq, decide_eq_true_eq] at h
  have h0 : '0' ≤ c := h.1
  have h9 : c ≤ '9' := h.2
  simp [alnumChar, orElse, digitChar, h0, h9]

theorem decimal20_length {n : Nat} (h : n ≤ maxRowId) : (decimal20 n).length = 20 := by
  have hle : (Nat.toDigits 10 n).length ≤ 20 := by
    rw [Nat.length_toDigits_le_iff (by decide) (by decide)]
    unfold maxRowId at h
    omega
  rw [decimal20, List.length_append, List.length_replicate]
  omega

theorem decimal20_alnum {n : Nat} : ∀ c ∈ decimal20 n, alnumChar c = true := by
  intro c hc
  rcases List.mem_append.mp hc with hc | hc
  · rw [List.eq_of_mem_replicate hc]
    decide
  · exact alnumChar_of_isDigit (Nat.isDigit_of_mem_toDigits (by decide) (by decide) hc)

theorem entryIdText_admitted {seq : Nat} (h : seq ≤ maxRowId) :
    recordIdPattern.search (entryIdText seq) = true :=
  Pattern.search_of_fullmatch (recordId_admitted (by decide) (by rw [decimal20_length h]; decide)
    (by rw [decimal20_length h]; decide) decimal20_alnum)

theorem receiptIdText_admitted {id : Nat} (h : id ≤ maxRowId) :
    recordIdPattern.search (receiptIdText id) = true :=
  Pattern.search_of_fullmatch (recordId_admitted (by decide) (by rw [decimal20_length h]; decide)
    (by rw [decimal20_length h]; decide) decimal20_alnum)

/-! ### Members of a proposal -/

theorem str_of_toJson? {raw : RawJson} {s : String} (h : raw.toJson? = some (.str s)) :
    raw = .str (PyStr.ofString s) := by
  cases raw with
  | str t =>
    rw [JsonOf.toJson?, Option.map_eq_some_iff] at h
    obtain ⟨u, hu, heq⟩ := h
    cases heq
    rw [PyStr.toString?_eq_some.mp hu]
  | arr items =>
    rw [JsonOf.toJson?, Option.map_eq_some_iff] at h
    obtain ⟨_, _, heq⟩ := h
    cases heq
  | obj members =>
    rw [JsonOf.toJson?, Option.map_eq_some_iff] at h
    obtain ⟨_, _, heq⟩ := h
    cases heq
  | null => cases h
  | bool b => cases h
  | num n => cases h

/-- A text of the encoded proposal is the string the call was given. -/
theorem Call.member_of_toJson? {c : Call} {value : Json} {k s : String}
    (h : c.proposal.toJson? = some value) (hs : value.get? k = some (.str s)) :
    c.member k = .str (PyStr.ofString s) := by
  obtain ⟨w, hw, hws⟩ := JsonOf.get?_of_toJson? h hs
  rw [Call.member, hw, str_of_toJson? hws]
  rfl

theorem proposalId_of_toJson? {c : Call} {p : Proposal}
    (h : c.proposal.toJson? = some (Proposal.codec.enc p)) :
    c.proposalId = .str (PyStr.ofString p.proposalId) := Call.member_of_toJson? h rfl

theorem idempotencyKey_of_toJson? {c : Call} {p : Proposal}
    (h : c.proposal.toJson? = some (Proposal.codec.enc p)) :
    c.idempotencyKey = .str (PyStr.ofString p.idempotencyKey) := Call.member_of_toJson? h rfl

/-! ### Documents -/

/-- A text the contract takes for a hash, or none. -/
def HashText (s : Option String) : Prop := ∀ h, s = some h → hashPattern.search h = true

theorem hashText_some (h : Hash) : HashText (some (h : String)) :=
  fun _ hs => Option.some.inj hs ▸ h.2

theorem hashText_none : HashText none := fun _ h => nomatch h

/-- A text that `p` admits as a member that may be null. -/
theorem exists_nullable {p : String → Bool} {s : Option String}
    (h : ∀ t, s = some t → p t = true) :
    ∃ o : Option (Text p), Text.nullable.enc o = optText s ∧ (o.isSome = s.isSome) := by
  cases s with
  | none => exact ⟨none, rfl, rfl⟩
  | some t => exact ⟨some ⟨t, h t rfl⟩, rfl, rfl⟩

theorem matchedText_admitted {p : Pattern} {v : RawJson} {s : String}
    (h : matchedText p v = some s) : p.fullmatch s = true := by
  rw [matchedText, Option.filter_eq_some_iff] at h
  exact h.2

theorem nullableActor_enc (a : Option ActorRef) :
    (ActorRef.codec.nullable ActorRef.codec_ne_null).enc a = optColumn ActorRef.codec.enc a := by
  cases a <;> rfl

/-- What the contract demands of a receipt. -/
structure ReceiptInput.Valid (input : ReceiptInput) (c : Call) (entry : Option RecordId) : Prop where
  reasons : (Text.codec (p := reasonCodePattern.search)).UniqueItems
    (input.reasons.map ReasonCode.admitted)
  conflicts : (Text.codec (p := recordIdPattern.search)).UniqueItems input.conflicts
  entry_iff : input.outcome.Accepted ↔ entry.isSome = true
  named : input.outcome.Accepted → (matchedText recordIdPattern c.proposalId).isSome = true ∧
    (matchedText idempotencyKeyPattern c.idempotencyKey).isSome = true
  conflicting : input.outcome = .factConflict → input.conflicts ≠ []

/-- The documents the contract admits. -/
theorem receiptDocument_valid {c : Call} {input : ReceiptInput} {entry : Option RecordId}
    {before after : Option String} {id : Nat} {decidedAt : String} (h : input.Valid c entry)
    (hbefore : HashText before) (hafter : HashText after) (hid : id ≤ maxRowId) :
    ∃ r, receiptDocument c input ⟨before, after, optColumn idColumn entry⟩ id decidedAt =
      DecisionReceipt.codec.enc r := by
  obtain ⟨b, hb, -⟩ := exists_nullable hbefore
  obtain ⟨a, ha, -⟩ := exists_nullable hafter
  obtain ⟨key, hkey, hkeySome⟩ := exists_nullable (p := idempotencyKeyPattern.search)
    fun t ht => Pattern.search_of_fullmatch
      (matchedText_admitted (v := c.idempotencyKey) ht)
  obtain ⟨pid, hpid, hpidSome⟩ := exists_nullable (p := recordIdPattern.search)
    fun t ht => Pattern.search_of_fullmatch (matchedText_admitted (v := c.proposalId) ht)
  have hentry : Text.nullable.enc entry = optColumn idColumn entry := by cases entry <;> rfl
  have hwell : ReceiptDoc.WellFormed ⟨⟨input.conflicts, h.conflicts⟩, decidedAt, a, b, key, entry,
      input.outcome, input.proposalHash, pid, some c.representableProposer,
      ⟨input.reasons.map ReasonCode.admitted, h.reasons⟩,
      ⟨receiptIdText id, receiptIdText_admitted hid⟩⟩ :=
    ⟨fun hacc => ⟨hpidSome.trans (h.named hacc).1, hkeySome.trans (h.named hacc).2⟩, h.entry_iff,
      h.conflicting⟩
  have hreasons : input.reasons.map (fun r => (JsonOf.str r.text : Json)) =
      (input.reasons.map ReasonCode.admitted).map Text.codec.enc := by
    rw [List.map_map]
    rfl
  refine ⟨⟨_, hwell, rfl⟩, ?_⟩
  rw [receiptDocument, ← hb, ← ha, ← hkey, ← hpid, ← hentry, ← nullableActor_enc, hreasons]
  rfl

/-- A rejection receipt is always one the contract admits. -/
theorem Rejection.valid {r : Rejection} {head : Option String} {root : Hash} {c : Call}
    (h : ¬r.outcome.Accepted) : (r.input head root).Valid c none where
  reasons := List.pairwise_singleton _ _
  conflicts := List.Pairwise.nil
  entry_iff := ⟨fun hacc => absurd hacc h, fun hsome => nomatch hsome⟩
  named hacc := absurd hacc h
  conflicting hf := absurd (Or.inr hf) h

/-- A document the contract admits names hashes as its heads. -/
theorem hashText_of_receiptDocument {c : Call} {input : ReceiptInput} {links : ReceiptLinks}
    {id : Nat} {decidedAt : String} {d : DecisionReceipt}
    (h : receiptDocument c input links id decidedAt = DecisionReceipt.codec.enc d) :
    HashText links.headBefore ∧ HashText links.headAfter := by
  have htext : ∀ {s : Option String} {o : Option Hash}, optText s = Text.nullable.enc o →
      HashText s := by
    intro s o ho t ht
    subst ht
    cases o with
    | none => exact nomatch ho
    | some t' =>
      have heq : t = (t' : String) := JsonOf.str.inj ho
      exact heq ▸ t'.2
  obtain ⟨⟨_, _, after, before, _, _, _, _, _, proposer, _, _⟩, _, hproposer⟩ := d
  cases proposer with
  | none => exact nomatch hproposer
  | some proposer =>
    have hbefore : some (optText links.headBefore) = some (Text.nullable.enc before) :=
      congrArg (fun v => v.get? "head_before") h
    have hafter : some (optText links.headAfter) = some (Text.nullable.enc after) :=
      congrArg (fun v => v.get? "head_after") h
    exact ⟨htext (Option.some.inj hbefore), htext (Option.some.inj hafter)⟩

theorem Outcome.text_injective {o o' : Outcome} (h : o.text = o'.text) : o = o' := by
  cases o <;> cases o' <;> first | rfl | exact absurd h (by decide)

/-- A document of an accepted proposal names the proposal and its key. -/
theorem named_of_receiptDocument {c : Call} {input : ReceiptInput} {links : ReceiptLinks}
    {id : Nat} {decidedAt : String} {d : DecisionReceipt}
    (h : receiptDocument c input links id decidedAt = DecisionReceipt.codec.enc d)
    (hacc : input.outcome.Accepted) :
    (matchedText recordIdPattern c.proposalId).isSome = true ∧
      (matchedText idempotencyKeyPattern c.idempotencyKey).isSome = true := by
  have hsome : ∀ {p : String → Bool} {s : Option String} {o : Option (Text p)},
      optText s = Text.nullable.enc o → o.isSome = true → s.isSome = true := by
    intro p s o ho hs
    cases s with
    | some t => rfl
    | none =>
      cases o with
      | none => exact hs
      | some t => exact nomatch ho
  obtain ⟨⟨_, _, _, _, key, _, outcome, _, proposalId, proposer, _, _⟩, hwell, hproposer⟩ := d
  cases proposer with
  | none => exact nomatch hproposer
  | some proposer =>
    have houtcome : some (JsonOf.str input.outcome.text) = some (Outcome.codec.enc outcome) :=
      congrArg (fun v => v.get? "outcome") h
    have hid : some (optText (matchedText recordIdPattern c.proposalId)) =
        some (Text.nullable.enc proposalId) := congrArg (fun v => v.get? "proposal_id") h
    have hkey : some (optText (matchedText idempotencyKeyPattern c.idempotencyKey)) =
        some (Text.nullable.enc key) := congrArg (fun v => v.get? "idempotency_key") h
    obtain rfl : input.outcome = outcome :=
      Outcome.text_injective (JsonOf.str.inj (Option.some.inj houtcome))
    obtain ⟨hidSome, hkeySome⟩ := hwell.1 hacc
    exact ⟨hsome (Option.some.inj hid) hidSome, hsome (Option.some.inj hkey) hkeySome⟩

/-! ### Rows -/

/-- Every written row reads back. -/
theorem rowToReceipt_columns {c : Call} {input : ReceiptInput} {id : Nat} {key proposalId : String}
    {r : DecisionReceipt} :
    rowToReceipt (receiptColumns c input id key proposalId (DecisionReceipt.codec.enc r)) =
      .ok ⟨proposalId, input.outcome.text, input.reasons.map fun r => .str r.text,
        input.ledgerSeq, input.root, input.conflicts.map idColumn,
        some (DecisionReceipt.codec.enc r)⟩ := by
  have hreasons : (JsonOf.arr (input.reasons.map fun r => (JsonOf.str r.text : Json))).Sorted := by
    refine .arr fun v hv => ?_
    obtain ⟨_, _, rfl⟩ := List.mem_map.mp hv
    exact .str _
  have hconflicts : (JsonOf.arr (input.conflicts.map idColumn)).Sorted := by
    refine .arr fun v hv => ?_
    obtain ⟨_, _, rfl⟩ := List.mem_map.mp hv
    exact .str _
  simp only [rowToReceipt, receiptColumns, loadsItems, loads_dumps hreasons,
    loads_dumps hconflicts, Option.mapM_some, loads_dumps (DecisionReceipt.codec.sorted r), orRaise]
  rfl

variable [Host]

@[simp] theorem columnText_str (s : String) :
    columnText (.str (PyStr.ofString s)) = .ok (some s) := by
  rw [columnText, PyStr.toString?_ofString]
  rfl

/-- When a receipt is written, and the row it is. -/
theorem receiptRow_eq_ok {c : Call} {db : Db} {input : ReceiptInput} {row : ReceiptRow} :
    receiptRow c db input = .ok row ↔
      ∃ links decidedAt key proposalId r, receiptLinks db input = .ok links ∧
      (decidedAtText c input.decidedAt).toString? = some decidedAt ∧
      columnText c.idempotencyKey = .ok (some key) ∧
      columnText c.proposalId = .ok (some proposalId) ∧
      receiptDocument c input links (nextReceiptId db.receipts) decidedAt =
        DecisionReceipt.codec.enc r ∧
      nextReceiptId db.receipts ≤ maxRowId ∧
      row = receiptColumns c input (nextReceiptId db.receipts) key proposalId
        (DecisionReceipt.codec.enc r) := by
  simp only [receiptRow, bind_eq_ok, pure_eq_ok, ensure_eq_ok, orRaise_eq_ok]
  constructor
  · rintro ⟨links, hl, _, hdoc, _, hkey, _, hpid, _, hdec, key, rfl, proposalId, rfl, _, hid, rfl⟩
    obtain ⟨decidedAt, hdec⟩ := Option.isSome_iff_exists.mp hdec
    rw [hdec, Option.getD_some] at hdoc ⊢
    obtain ⟨r, hr⟩ := Option.isSome_iff_exists.mp hdoc
    rw [DecisionReceipt.codec.dec_eq_some_iff] at hr
    exact ⟨links, decidedAt, key, proposalId, r, hl, rfl, hkey, hpid, hr, hid, by rw [hr]⟩
  · rintro ⟨links, decidedAt, key, proposalId, r, hl, hdec, hkey, hpid, hr, hid, rfl⟩
    refine ⟨links, hl, (), ?_, some key, hkey, some proposalId, hpid, (), ?_, key, rfl, proposalId,
      rfl, (), hid, ?_⟩
    · rw [hdec, Option.getD_some, hr, DecisionReceipt.codec.dec_enc]
      rfl
    · rw [hdec]
      rfl
    · rw [hdec, Option.getD_some, hr]

/-- A written receipt is handed back. -/
theorem rowToReceipt_of_receiptRow {c : Call} {db : Db} {input : ReceiptInput} {row : ReceiptRow}
    (h : receiptRow c db input = .ok row) : ∃ receipt, rowToReceipt row = .ok receipt := by
  obtain ⟨_, _, _, _, _, _, _, _, _, _, _, rfl⟩ := receiptRow_eq_ok.mp h
  exact ⟨_, rowToReceipt_columns⟩

/-- The head a rejection receipt names: the one the attempt read, or the head now when
it read none. -/
def Rejection.namedHead (head : Option String) (db : Db) : Option String :=
  match head with
  | some h => some h
  | none => headEntryHash db.ledger

theorem receiptRow_id {c : Call} {db : Db} {input : ReceiptInput} {row : ReceiptRow}
    (h : receiptRow c db input = .ok row) : row.id = nextReceiptId db.receipts := by
  obtain ⟨_, _, _, _, _, _, _, _, _, _, _, rfl⟩ := receiptRow_eq_ok.mp h
  rfl

/-- A rejection receipt is written exactly when its key, its identifier and its time can
be stored. -/
theorem receiptRow_rejection {c : Call} {db : Db} {r : Rejection} {head : Option String}
    {root : Hash} {row : ReceiptRow} :
    receiptRow c db (r.input head root) = .ok row ↔
      ∃ decidedAt key proposalId d,
      (decidedAtText c r.decidedAt).toString? = some decidedAt ∧
      columnText c.idempotencyKey = .ok (some key) ∧
      columnText c.proposalId = .ok (some proposalId) ∧
      receiptDocument c (r.input head root)
        ⟨Rejection.namedHead head db, Rejection.namedHead head db, .null⟩
        (nextReceiptId db.receipts) decidedAt = DecisionReceipt.codec.enc d ∧
      nextReceiptId db.receipts ≤ maxRowId ∧
      row = receiptColumns c (r.input head root) (nextReceiptId db.receipts) key proposalId
        (DecisionReceipt.codec.enc d) := by
  have hlinks : receiptLinks db (r.input head root) =
      .ok ⟨Rejection.namedHead head db, Rejection.namedHead head db, .null⟩ := by
    cases head <;> rfl
  rw [receiptRow_eq_ok]
  constructor
  · rintro ⟨links, decidedAt, key, proposalId, d, hl, hdec, hkey, hpid, hd, hid, rfl⟩
    rw [hlinks] at hl
    obtain rfl := Except.ok.inj hl
    exact ⟨decidedAt, key, proposalId, d, hdec, hkey, hpid, hd, hid, rfl⟩
  · rintro ⟨decidedAt, key, proposalId, d, hdec, hkey, hpid, hd, hid, rfl⟩
    exact ⟨_, decidedAt, key, proposalId, d, hlinks, hdec, hkey, hpid, hd, hid, rfl⟩

theorem receiptRow_rejection_ok {c : Call} {db : Db} {r : Rejection} {head : Option String}
    {root : Hash} {decidedAt key proposalId : String} (hr : ¬r.outcome.Accepted)
    (hhead : HashText (Rejection.namedHead head db))
    (hdec : (decidedAtText c r.decidedAt).toString? = some decidedAt)
    (hkey : columnText c.idempotencyKey = .ok (some key))
    (hpid : columnText c.proposalId = .ok (some proposalId))
    (hid : nextReceiptId db.receipts ≤ maxRowId) :
    ∃ row, receiptRow c db (r.input head root) = .ok row := by
  obtain ⟨d, hd⟩ := @receiptDocument_valid c _ none _ _ _ decidedAt (@Rejection.valid _ head root _
    hr) hhead hhead hid
  exact ⟨_, receiptRow_rejection.mpr
    ⟨decidedAt, key, proposalId, d, hdec, hkey, hpid, hd, hid, rfl⟩⟩

/-- Whether a rejection receipt can be written does not depend on what it says. -/
theorem receiptRow_rejection_congr {c : Call} {db : Db} {r r' : Rejection} {head : Option String}
    {root : Hash} {row : ReceiptRow} (h : receiptRow c db (r.input head root) = .ok row)
    (hr' : ¬r'.outcome.Accepted) (hdec : r'.decidedAt = r.decidedAt) :
    ∃ row', receiptRow c db (r'.input head root) = .ok row' := by
  obtain ⟨decidedAt, key, proposalId, d, htime, hkey, hpid, hd, hid, _⟩ :=
    receiptRow_rejection.mp h
  exact receiptRow_rejection_ok hr' (hashText_of_receiptDocument hd).1 (by rw [hdec]; exact htime)
    hkey hpid hid

end SharedMind
