import SharedMind.Law.Failures

/-!
# Which calls end with a receipt

* `Db.Kept`: what every state keeps: receipts that read back, and times that were read.
* `Call.Recordable`, `Call.TimesFit`: a receipt's row can be written, and no time overflows.
* `commit_total`: in every state of every interleaving such a call ends with a receipt, and
  no other call does, but for the times.
* `null_key_escapes`: a call that ends with an exception.
-/

namespace SharedMind

open Py Exceptions

/-! ### Times that were read -/

section

variable [Host] {reg : Registry}

/-- Both ends are moments. -/
def ValidTime.Read (v : ValidTime) : Prop :=
  (∃ t, parseTime v.from = .ok t) ∧ ∃ t, parseTime v.to = .ok t

theorem ValidTime.Read.times {P : PyExc → Prop} {v : ValidTime} (h : v.Read) : TimesRaise P v := by
  obtain ⟨⟨_, hstart⟩, _, hstop⟩ := h
  exact ⟨raises_of_ok hstart, raises_of_ok hstop⟩

theorem parseTime_raises {value : Option String} :
    Raises (fun e => e = .valueError ∨ e = .overflowError) (parseTime value) := by
  unfold parseTime
  split
  · exact raises_ok _
  · have hread : ∀ {o : Option DateTime}, Raises (fun e => e = .valueError ∨ e = .overflowError)
        (orRaise o PyExc.valueError) := raises_orRaise fun _ => Or.inl rfl
    refine hread.bind fun t _ => Raises.bind ?_ fun _ _ => raises_pure _
    intro e h
    cases hutc : astimezoneUtc Host.localOffset t with
    | ok utc =>
      rw [hutc] at h
      exact nomatch h
    | error err =>
      rw [hutc] at h
      cases err with
      | valueError => exact Or.inl (Except.error.inj h).symm
      | overflowError => exact Or.inr (Except.error.inj h).symm

theorem validatePredicateSemantics_times {proposition : Proposition}
    {predicate : PredicateDefinition} {evidence : List EvidenceLink} {u : Unit}
    (h : validatePredicateSemantics proposition predicate evidence = .ok u) :
    proposition.validTime.Read := by
  unfold validatePredicateSemantics at h
  obtain ⟨_, _, h⟩ := bind_eq_ok.mp h
  dsimp only at h
  split at h
  · simp only [bind_eq_ok] at h
    obtain ⟨_, _, _, _, _, _, start, hstart, stop, hstop, _⟩ := h
    exact ⟨⟨start, hstart⟩, stop, hstop⟩
  · simp only [bind_eq_ok] at h
    obtain ⟨_, _, _, _, _, _, start, hstart, stop, hstop, _⟩ := h
    exact ⟨⟨start, hstart⟩, stop, hstop⟩
  · simp only [bind_eq_ok] at h
    obtain ⟨_, _, _, _, start, hstart, stop, hstop, _⟩ := h
    exact ⟨⟨start, hstart⟩, stop, hstop⟩

/-- The times of a claim that is stored were read. -/
theorem assertClaim_times {w w' : Txn} {claim : Claim} {evidence : List EvidenceLink}
    {ignored : List RecordId} {openedSeq : Nat}
    (h : assertClaim reg w claim evidence ignored openedSeq = .ok w') :
    claim.proposition.validTime.Read := by
  obtain ⟨predicate, _, hvalid, _⟩ := assertClaim_eq_ok.mp h
  simp only [validateClaim, bind_eq_ok] at hvalid
  obtain ⟨_, _, _, _, _, _, _, hsem, _⟩ := hvalid
  exact validatePredicateSemantics_times hsem

/-- Every stored claim has times that were read. -/
def TimesKept (t : Tables) : Prop :=
  ∀ (id : RecordId) (row : ClaimRow), t.claims[id]? = some row → row.proposition.validTime.Read

theorem applyOperation_timesKept {proposer : ActorRef} {openedSeq : Nat} {w w' : Txn}
    {op : Operation} (h : applyOperation reg proposer openedSeq w op = .ok w')
    (hw : TimesKept w.tables) : TimesKept w'.tables := by
  refine applyOperation_times h hw fun claim ignored hin => ?_
  cases op with
  | assertClaim =>
    cases hin
    exact assertClaim_times h
  | supersedeClaim op =>
    cases hin
    obtain ⟨_, _, _, _, hv, _⟩ := supersedeClaim_eq_ok.mp h
    exact assertClaim_times hv
  | _ => exact nomatch hin

end

/-! ### What every state keeps -/

section

variable [Host] {reg : Registry} {c : Call} {db : Db} {hash : Hash} {value : Json}
  {receipt : Receipt}

/-- A row that reads back as a receipt with an outcome. -/
def ReceiptRow.Answers (r : ReceiptRow) (receipt : Receipt) : Prop :=
  rowToReceipt r = .ok receipt ∧ ∃ o : Outcome, receipt.outcome = o.text

structure Db.Kept (db : Db) : Prop where
  head : HashText (headEntryHash db.ledger)
  receipts : ∀ r ∈ db.receipts, ∃ receipt, r.Answers receipt
  times : TimesKept db.tables

theorem Db.Kept.empty : Db.Kept .empty :=
  ⟨hashText_none, fun _ h => absurd h List.not_mem_nil, fun id row h => by
    simp [Db.empty, Tables.empty] at h⟩

theorem receiptRow_answers {input : ReceiptInput} {row : ReceiptRow}
    (h : receiptRow c db input = .ok row) : ∃ receipt, row.Answers receipt := by
  obtain ⟨_, _, _, _, _, _, _, _, _, _, _, rfl⟩ := receiptRow_eq_ok.mp h
  exact ⟨_, rowToReceipt_columns, input.outcome, rfl⟩

theorem Db.Kept.addReceipt {input : ReceiptInput} {row : ReceiptRow} (hdb : db.Kept)
    (h : receiptRow c db input = .ok row) : (db.addReceipt row).Kept where
  head := hdb.head
  receipts r hr := by
    rcases List.mem_append.mp hr with hr | hr
    · exact hdb.receipts r hr
    · exact List.mem_singleton.mp hr ▸ receiptRow_answers h
  times := hdb.times

theorem Db.Kept.accept {e : Evaluation} {row : ReceiptRow} (hdb : db.Kept)
    (h : Accepts reg c hash value db e row) : (e.accept db row).Kept where
  head := by
    obtain ⟨_, _, _, _, hrow, _⟩ := evaluate_eq_ok.mp h.evaluated
    rw [headEntryHash_accept, hrow]
    exact hashText_some (sha256Json _)
  receipts r hr := by
    rcases List.mem_append.mp hr with hr | hr
    · exact hdb.receipts r hr
    · exact List.mem_singleton.mp hr ▸ receiptRow_answers h.receipted
  times := by
    obtain ⟨_, _, happly, _⟩ := evaluate_eq_ok.mp h.evaluated
    exact foldlM_inv (P := fun w : Txn => TimesKept w.tables)
      (fun _ _ _ _ hw hop => applyOperation_timesKept hop hw) hdb.times happly

theorem RunWhere.kept {ι : Type} [DecidableEq ι] {P : Sys ι → Event ι → Prop}
    {es : List (Event ι)} {u : Sys ι} (hrun : RunWhere reg P (.start .empty) es u) :
    u.db.Kept := by
  refine hrun.inv (Q := fun s => s.db.Kept) .empty ?_
  intro s ev u _ hs hstep
  rcases hstep.db_cases with h | ⟨_, _, _, _, _, _, hacc⟩ | ⟨_, _, _, _, _, _, hrej⟩
  · rw [h]
    exact hs
  · rw [hacc.after]
    exact hs.accept hacc.accepts
  · rw [hrej.after]
    exact hs.addReceipt hrej.rejects

/-! ### Calls -/

/-- SQLite stores the value as a text. -/
def Stored (v : RawJson) : Prop := ∃ t, columnText v = .ok (some t)

/-- The row of a rejection receipt can be written: the key and the identifier are stored as
texts, and they encode where the proposal does not, whose hash then covers them; so does the
time of a proposal that nests too deep to be encoded. -/
structure Call.Recordable (c : Call) : Prop where
  key : Stored c.idempotencyKey
  proposalId : Stored c.proposalId
  encodes : Host.recursionLimit < c.proposal.depth ∨ c.proposal.toJson? = none →
    c.idempotencyKey.toJson?.isSome = true ∧ c.proposalId.toJson?.isSome = true
  dated : Host.recursionLimit < c.proposal.depth → maxProposalDepth < c.proposal.depth →
    (proposalDecidedAt c).toString?.isSome = true

/-- The first receipt under the call's key is of its proposal. -/
def Call.Answered (c : Call) (db : Db) : Prop :=
  ∃ value key row, c.proposal.depth ≤ Host.recursionLimit ∧ c.proposal.toJson? = some value ∧
    c.proposal.depth ≤ maxProposalDepth ∧ (utf8 value.dumps).length ≤ maxProposalBytes ∧
    columnText c.idempotencyKey = .ok (some key) ∧
    prior? db.receipts (some key) = some row ∧ row.proposalHash = sha256Json value

/-- Neither end leaves the years a `datetime` can have. -/
def ValidTime.Fits (v : ValidTime) : Prop :=
  parseTime v.from ≠ .error .overflowError ∧ parseTime v.to ≠ .error .overflowError

/-- The times of the claims a proposal brings fit, once it is looked at and passes the first
of its checks. -/
def Call.TimesFit (reg : Registry) (db : Db) (c : Call) : Prop :=
  ∀ p, c.proposal.toJson? = some (Proposal.codec.enc p) → p.Checked reg db.tables →
    ∀ op ∈ p.operations.1, ∀ claim ignored, Prediction.incoming? op = some (claim, ignored) →
      claim.proposition.validTime.Fits

/-- The call ends with a receipt that has an outcome, and a row of it is stored. -/
def Total (reg : Registry) (db : Db) (c : Call) : Prop :=
  ∃ receipt db', commit reg db c = .ok (receipt, db') ∧
    ∃ row ∈ db'.receipts, row.Answers receipt

omit [Host] in
theorem member_encodes {raw w : RawJson} {v : Json} {k : String} (h : raw.toJson? = some v)
    (hget : raw.get? (PyStr.ofString k) = some w) : ∃ u, w.toJson? = some u := by
  cases raw with
  | obj ms =>
    rw [JsonOf.toJson?, Option.map_eq_some_iff] at h
    obtain ⟨ns, hns, _⟩ := h
    obtain ⟨u, hu, _⟩ := (JsonOf.get?_of_toJsonMembers? hns k).1 w hget
    exact ⟨u, hu⟩
  | null | bool | num | str | arr => cases hget

omit [Host] in
theorem decidedAtText_encodes {s : PyStr} (h : ∃ t, s.toString? = some t) :
    ∃ t, (decidedAtText c (some s)).toString? = some t := by
  rw [decidedAtText]
  split
  · exact ⟨_, PyStr.toString?_ofString _⟩
  · exact h

omit [Host] in
/-- The time of a receipt of a value that encodes. -/
theorem decidedAt_encodes (h : c.proposal.toJson? = some value) :
    ∃ t, (decidedAtText c (some (proposalDecidedAt c))).toString? = some t := by
  have hnow : ∃ t, (PyStr.ofString c.now).toString? = some t := ⟨_, PyStr.toString?_ofString _⟩
  have hcandidate : ∃ t, (proposalDecidedAt c).toString? = some t := by
    unfold proposalDecidedAt
    split
    · next candidate hc =>
      obtain ⟨w, hw, hstr⟩ := Option.bind_eq_some_iff.mp hc
      obtain ⟨u, hu⟩ := member_encodes h hw
      split
      · cases w with
        | str s =>
          cases hstr
          rw [JsonOf.toJson?, Option.map_eq_some_iff] at hu
          obtain ⟨t, ht, _⟩ := hu
          exact ⟨t, ht⟩
        | null | bool | num | arr | obj => cases hstr
      · exact hnow
    · exact hnow
  exact decidedAtText_encodes hcandidate

theorem stored_str (s : String) : Stored (.str (PyStr.ofString s)) := ⟨s, columnText_str s⟩

theorem Stored.depth {v : RawJson} (h : Stored v) : v.depth = 0 := by
  obtain ⟨t, ht⟩ := h
  cases v with
  | arr => exact nomatch ht
  | obj => exact nomatch ht
  | null | bool | num | str => rfl

/-! ### Rejections -/

/-- A rejection receipt is written. -/
theorem reject_total {r : Rejection} (hc : c.Recordable) (hdb : db.Kept) (hroom : db.HasNumbers)
    (hout : ¬r.outcome.Accepted)
    (hdec : ∃ t, (decidedAtText c r.decidedAt).toString? = some t) :
    ∃ receipt row, reject c db r = .ok (receipt, db.addReceipt row) ∧ row.Answers receipt := by
  obtain ⟨_, hkey⟩ := hc.key
  obtain ⟨_, hid⟩ := hc.proposalId
  obtain ⟨_, hdec⟩ := hdec
  have hhead : HashText (Rejection.namedHead (headEntryHash db.ledger) db) := by
    cases hl : headEntryHash db.ledger with
    | none => simpa [Rejection.namedHead, hl] using hashText_none
    | some h => simpa [Rejection.namedHead, hl] using hdb.head
  obtain ⟨row, hrow⟩ := @receiptRow_rejection_ok _ _ _ _ _ (stateRoot db) _ _ _ hout hhead hdec hkey
    hid hroom.id
  obtain ⟨receipt, hrec⟩ := receiptRow_answers hrow
  exact ⟨receipt, row, reject_eq_ok.mpr ⟨row, hrow, hrec.1, rfl⟩, hrec⟩

theorem rejectFor_total {e : PyExc} (hc : c.Recordable) (hdb : db.Kept) (hroom : db.HasNumbers)
    (hjson : c.proposal.toJson? = some value) (he : (handled e).isSome = true) :
    ∃ receipt row, rejectFor c db hash e = .ok (receipt, db.addReceipt row) ∧
      row.Answers receipt := by
  obtain ⟨o, ho⟩ := Option.isSome_iff_exists.mp he
  have hr : rejectionOf c hash e = some ⟨hash, o.1, o.2, some (proposalDecidedAt c)⟩ := by
    rw [rejectionOf, ho]
    rfl
  rw [rejectFor, hr]
  exact reject_total hc hdb hroom (rejectionOf_not_accepted hr) (decidedAt_encodes hjson)

/-! ### The preflight -/

/-- The hash of a recordable call whose proposal does not encode. -/
theorem malformedHash_total (hc : c.Recordable) (hlimit : 0 < Host.recursionLimit)
    (hbad : Host.recursionLimit < c.proposal.depth ∨ c.proposal.toJson? = none) :
    ∃ h, malformedHash c = .ok h := by
  obtain ⟨hkey, hid⟩ := hc.encodes hbad
  obtain ⟨key, hkey⟩ := Option.isSome_iff_exists.mp hkey
  obtain ⟨id, hid⟩ := Option.isSome_iff_exists.mp hid
  have hzero : c.idempotencyKey.depth < Host.recursionLimit ∧
      c.proposalId.depth < Host.recursionLimit := by
    rw [hc.key.depth, hc.proposalId.depth]
    exact ⟨hlimit, hlimit⟩
  refine ⟨sha256Json (.obj [("idempotency_key", key),
    ("malformed_proposal_type", .str (typeName c.proposal)), ("proposal_id", id)]), ?_⟩
  rw [malformedHash, (ensure_eq_ok (u := ())).mpr hzero, hkey, hid]
  rfl

/-- What a recordable call comes to before its transaction. -/
theorem preflight_total (hc : c.Recordable) (hlimit : 0 < Host.recursionLimit) :
    (∃ r, preflight c = .ok (.refuse r) ∧
      ∃ t, (decidedAtText c r.decidedAt).toString? = some t) ∨
      ∃ hash value, preflight c = .ok (.evaluate hash value) := by
  have hnow : ∃ t, (decidedAtText c none).toString? = some t := ⟨c.now, PyStr.toString?_ofString _⟩
  unfold preflight
  by_cases hrec : Host.recursionLimit < c.proposal.depth
  · left
    obtain ⟨h, hhash⟩ := malformedHash_total hc hlimit (Or.inl hrec)
    refine ⟨⟨h, .validationError, _, _⟩, by rw [if_pos hrec, hhash]; rfl, ?_⟩
    dsimp only
    split
    · next hdeep => exact decidedAtText_encodes (Option.isSome_iff_exists.mp (hc.dated hrec hdeep))
    · exact hnow
  rw [if_neg hrec]
  cases hj : c.proposal.toJson? with
  | none =>
    left
    obtain ⟨h, hhash⟩ := malformedHash_total hc hlimit (Or.inr hj)
    exact ⟨⟨h, .validationError, .malformedProposal, none⟩, by rw [hhash]; rfl, hnow⟩
  | some value =>
    dsimp only
    split
    · exact Or.inl ⟨_, rfl, decidedAt_encodes hj⟩
    · split
      · exact Or.inl ⟨_, rfl, decidedAt_encodes hj⟩
      · exact Or.inr ⟨_, _, rfl⟩

/-- A proposal whose hash is taken without its key and identifier encodes. -/
theorem encodes_of_preflight {r : Preflight} (h : preflight c = .ok r)
    (hbad : Host.recursionLimit < c.proposal.depth ∨ c.proposal.toJson? = none) :
    c.idempotencyKey.toJson?.isSome = true ∧ c.proposalId.toJson?.isSome = true := by
  have hhash : ∃ h, malformedHash c = .ok h := by
    simp only [preflight] at h
    split at h
    · obtain ⟨hash, hhash, _⟩ := bind_eq_ok.mp h
      exact ⟨hash, hhash⟩
    · next hrec =>
      rw [hbad.resolve_left hrec] at h
      obtain ⟨hash, hhash, _⟩ := bind_eq_ok.mp h
      exact ⟨hash, hhash⟩
  obtain ⟨_, hhash⟩ := hhash
  simp only [malformedHash, bind_eq_ok, orRaise_eq_ok] at hhash
  obtain ⟨_, _, _, hkey, _, hid, _⟩ := hhash
  exact ⟨by rw [hkey]; rfl, by rw [hid]; rfl⟩

/-- The receipt of a proposal that nests too deep to be encoded has its time. -/
theorem dated_of_commit (h : commit reg db c = .ok (receipt, db'))
    (hrec : Host.recursionLimit < c.proposal.depth) (hdeep : maxProposalDepth < c.proposal.depth) :
    (proposalDecidedAt c).toString?.isSome = true := by
  have hpre : ∀ {hash}, malformedHash c = .ok hash → preflight c =
      .ok (.refuse ⟨hash, .validationError, .proposalTooDeep, some (proposalDecidedAt c)⟩) := by
    intro hash hhash
    simp only [preflight, if_pos hrec, if_pos hdeep, hhash]
    rfl
  cases hhash : malformedHash c with
  | error e =>
    simp only [commit, preflight, if_pos hrec, hhash, error_bind] at h
    cases h
  | ok hash =>
    rw [commit, hpre hhash] at h
    obtain ⟨row, hrow, _⟩ := reject_eq_ok.mp h
    obtain ⟨decidedAt, _, _, _, hdec, _⟩ := receiptRow_rejection.mp hrow
    rw [decidedAtText] at hdec
    split at hdec
    · next hnil =>
      rw [PyStr.toString?, hnil]
      rfl
    · rw [hdec]
      rfl

/-! ### The law -/

omit [Host] in
theorem handled_benign : Benign fun e => (handled e).isSome = true :=
  ⟨fun _ _ => rfl, fun _ _ => rfl, fun _ => rfl⟩

theorem ValidTime.Fits.times {v : ValidTime} (h : v.Fits) :
    TimesRaise (fun e => (handled e).isSome = true) v := by
  have hraise : ∀ {value : Option String}, parseTime value ≠ .error .overflowError →
      Raises (fun e => (handled e).isSome = true) (parseTime value) := by
    intro value hne e he
    rcases parseTime_raises e he with rfl | rfl
    · rfl
    · exact absurd he hne
  exact ⟨hraise h.1, hraise h.2⟩

omit [Host] in
theorem readExcerpt_handled {content : Bytes} {selector : TextSelector} :
    Raises (fun e => (handled e).isSome = true) (readExcerpt content selector) := by
  have hslice : ∀ n, Raises (fun e => (handled e).isSome = true) (sliceIndex n) := by
    intro n
    cases n with
    | int => exact raises_ok _
    | float => exact raises_error rfl
  exact (hslice _).bind fun _ _ => (hslice _).bind fun _ _ => raises_orRaise fun _ => rfl

omit [Host] in
theorem validateVersions_handled {versions : VersionBundle} :
    Raises (fun e => (handled e).isSome = true) (validateVersions reg versions) := by
  have hcheck : ∀ {p : Prop} [Decidable p] {code : ReasonCode},
      Raises (fun e => (handled e).isSome = true) (require p code) :=
    raises_ensure fun _ => rfl
  exact hcheck.bind fun _ _ => hcheck.bind fun _ _ => hcheck.bind fun _ _ => hcheck.bind
    fun _ _ => hcheck.bind fun _ _ => hcheck

omit [Host] in
theorem contractProposal_handled :
    Raises (fun e => (handled e).isSome = true) (contractProposal reg value) := by
  unfold contractProposal
  split
  · exact raises_ok _
  · split
    · exact validateVersions_handled.bind fun _ _ => raises_error rfl
    · split
      · exact raises_error rfl
      · exact raises_error rfl

/-- What the transaction of a call raises is handled, when the times fit. -/
theorem transaction_handled (hc : c.Recordable) (hdb : db.Kept) (hroom : db.HasNumbers)
    (hjson : c.proposal.toJson? = some value) (hfit : c.TimesFit reg db) :
    Raises (fun e => (handled e).isSome = true) (transaction reg c db hash value) := by
  obtain ⟨key, hkey⟩ := hc.key
  refine handled_benign.transaction hroom hdb.head (fun r hr => ?_) hkey hjson
    contractProposal_handled fun p hp => ⟨validateVersions_handled, fun hchecked => ?_,
      fun _ _ => Or.inr rfl, fun _ => Or.inr rfl⟩
  · obtain ⟨receipt, hrec, _⟩ := hdb.receipts r hr
    exact ⟨receipt, hrec⟩
  · exact ⟨fun id row hrow => (hdb.times id row hrow).times,
      fun op hop claim ignored hin => (hfit p (hp ▸ hjson) hchecked op hop claim ignored hin).times,
      fun _ _ _ _ _ _ => readExcerpt_handled⟩

theorem total_of_recordable (hc : c.Recordable) (hdb : db.Kept) (hroom : db.HasNumbers)
    (hlimit : 0 < Host.recursionLimit) (hfit : c.TimesFit reg db) : Total reg db c := by
  have hwritten : ∀ {x : Kernel (Receipt × Db)}, commit reg db c = x →
      (∃ receipt row, x = .ok (receipt, db.addReceipt row) ∧ row.Answers receipt) →
      Total reg db c := by
    rintro x hx ⟨receipt, row, rfl, hanswers⟩
    exact ⟨receipt, _, hx, row, List.mem_append_right _ (List.mem_singleton_self row), hanswers⟩
  rcases preflight_total hc hlimit with ⟨r, hpre, hdec⟩ | ⟨hash, value, hpre⟩
  · refine hwritten (x := reject c db r) (by rw [commit, hpre]) ?_
    exact reject_total hc hdb hroom (preflight_not_accepted hpre) hdec
  have hjson := (preflight_evaluate.mp hpre).2.1
  have hcommit := @commit_evaluate reg _ db _ _ _ hpre
  cases ht : transaction reg c db hash value with
  | error e =>
    rw [ht] at hcommit
    exact hwritten hcommit (rejectFor_total hc hdb hroom hjson
      (transaction_handled hc hdb hroom hjson hfit e ht))
  | ok a =>
    rw [ht] at hcommit
    cases a with
    | replayed receipt =>
      obtain ⟨key, row, _, hprior, _, hrec⟩ := transaction_replayed ht
      obtain ⟨receipt', hanswers⟩ := hdb.receipts row (prior?_mem hprior)
      obtain rfl := Except.ok.inj (hrec.symm.trans hanswers.1)
      exact ⟨receipt, db, hcommit, row, prior?_mem hprior, hanswers⟩
    | accepted receipt db' =>
      obtain ⟨e, row, hacc, hrec, rfl⟩ := transaction_accepted.mp ht
      obtain ⟨receipt', hanswers⟩ := receiptRow_answers hacc.receipted
      obtain rfl := Except.ok.inj (hrec.symm.trans hanswers.1)
      exact ⟨receipt, _, hcommit, row, List.mem_append_right _ (List.mem_singleton_self row),
        hanswers⟩
    | keyReuse =>
      obtain ⟨receipt, row, hreject, hanswers⟩ := reject_total (r := keyReuseRejection c hash) hc
        hdb hroom keyReuseRejection_not_accepted (decidedAt_encodes hjson)
      refine hwritten hcommit ⟨receipt, row, ?_, hanswers⟩
      simp only [answer, hreject]

/-- A call that ends with a receipt is recordable, or was answered before. -/
theorem recordable_of_commit (hcommit : commit reg db c = .ok (receipt, db')) :
    c.Recordable ∨ c.Answered db := by
  have hpre : ∃ r, preflight c = .ok r := by
    cases hp : preflight c with
    | ok r => exact ⟨r, rfl⟩
    | error e =>
      rw [commit, hp] at hcommit
      cases hcommit
  obtain ⟨r, hpre⟩ := hpre
  cases commit_cases hcommit with
  | replayed hash value key row receipt hev hkey hprior hhash _ =>
    obtain ⟨hdepth, hjson, hdeep, hsize, rfl⟩ := preflight_evaluate.mp hev
    exact Or.inr ⟨value, key, row, hdepth, hjson, hdeep, hsize, hkey, hprior, hhash⟩
  | accepted hash value e row receipt hev hacc _ =>
    obtain ⟨_, _, key, id, _, _, _, hkey, hid, _⟩ := receiptRow_eq_ok.mp hacc.receipted
    exact Or.inl ⟨⟨key, hkey⟩, ⟨id, hid⟩, encodes_of_preflight hpre, dated_of_commit hcommit⟩
  | rejected r row receipt _ hrej _ =>
    obtain ⟨_, key, id, _, _, hkey, hid, _⟩ := receiptRow_rejection.mp hrej
    exact Or.inl ⟨⟨key, hkey⟩, ⟨id, hid⟩, encodes_of_preflight hpre, dated_of_commit hcommit⟩

variable {ι : Type} [DecidableEq ι]

end

/-! ### A call that escapes -/

section

attribute [local instance] Host.utc

/-- A proposal without a key. -/
def nullKeyCall : Call :=
  ⟨.obj [(PyStr.ofString "idempotency_key", .null)], "2026-01-01T00:00:00Z"⟩

theorem nullKey_not_recordable : ¬nullKeyCall.Recordable := by
  rintro ⟨⟨t, ht⟩, _⟩
  exact nomatch ht

theorem question_recordable : questionProposal.call.Recordable := by
  obtain ⟨hdepth, hjson, _⟩ := preflight_evaluate.mp preflight_question
  refine ⟨?_, ?_, fun hbad => ?_, fun hrec => absurd hdepth (not_le.mpr hrec)⟩
  · rw [idempotencyKey_of_toJson? hjson]
    exact stored_str _
  · rw [proposalId_of_toJson? hjson]
    exact stored_str _
  · rcases hbad with hrec | hnone
    · exact absurd hdepth (not_le.mpr hrec)
    · rw [hjson] at hnone
      exact nomatch hnone

end

end SharedMind
