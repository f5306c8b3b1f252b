import SharedMind.Kernel.Audit
import SharedMind.Py.JsonSize

/-!
# When a proposal is accepted

* `ledgerDocument_valid`: the entries the contract admits.
* `accepts_of_checks`: a proposal under a new key, that passes its checks and whose
  operations apply, is accepted, unless its entry collides with an older one.
* `questionProposal`: one that is accepted on the empty database.
-/

namespace SharedMind

open Py

/-! ### Entries -/

/-- The entry of an applied proposal is one the contract admits when its events are. -/
theorem ledgerDocument_valid {db : Db} {p : Proposal} {hash : Hash} {w : Txn} {entryHash : Hash}
    (hevents : w.events ≠ []) (hvalid : ∀ ev ∈ w.events, ev.Valid)
    (hhead : HashText (headEntryHash db.ledger)) (hseq : nextLedgerSeq db.ledger ≤ maxRowId) :
    (LedgerEntry.codec.dec (ledgerDocument (entryParts db p hash w) entryHash
      p.proposalId)).isSome = true := by
  obtain ⟨prev, hprev, -⟩ := exists_nullable hhead
  have hlist : ∀ {es : List LedgerEvent}, (∀ ev ∈ es, ev.Valid) →
      ∃ vs : List {e : LedgerEvent // e.Valid}, vs.map Subtype.val = es := by
    intro es hes
    exact ⟨es.attach.map fun ev => ⟨ev.1, hes ev.1 ev.2⟩, by simp⟩
  obtain ⟨vs, hvs⟩ := hlist hvalid
  have hne : vs ≠ [] := by
    rintro rfl
    exact hevents hvs.symm
  have hjson : eventsJson w.events = .arr (vs.map LedgerEvent.validCodec.enc) := by
    rw [eventsJson, ← hvs, List.map_map]
    rfl
  have hseqPos : 1 ≤ nextLedgerSeq db.ledger := Nat.le_add_left 1 _
  let entry : LedgerEntry := {
    committedAt := p.proposedAt
    entryHash := entryHash
    entryId := ⟨entryIdText (nextLedgerSeq db.ledger), entryIdText_admitted hseq⟩
    events := ⟨vs, hne⟩
    postStateRoot := stateRootForSchema p.versions.1.schema w.tables
    preStateRoot := stateRoot db
    prevHash := prev
    proposalHash := hash
    proposalId := p.proposalId
    seq := AtLeast.ofInt (nextLedgerSeq db.ledger) (by omega)
    versions := p.versions }
  have henc : ledgerDocument (entryParts db p hash w) entryHash p.proposalId =
      LedgerEntry.codec.enc entry := by
    rw [ledgerDocument, entryParts]
    simp only [← hprev, hjson]
    rfl
  rw [henc, LedgerEntry.codec.dec_enc]
  rfl

/-! ### Acceptance -/

section

variable [Host] {reg : Registry} {c : Call} {db : Db} {p : Proposal}

/-- What an applied proposal does. -/
def Proposal.evaluation (p : Proposal) (db : Db) (w : Txn) : Evaluation where
  proposal := p
  txn := w
  parts := entryParts db p (sha256Json (Proposal.codec.enc p)) w
  row := ledgerRow (entryParts db p (sha256Json (Proposal.codec.enc p)) w) (Proposal.codec.enc p)
    p.proposalId

/-- What a database must have for another entry to fit in. -/
structure Db.HasRoom (db : Db) : Prop where
  head : HashText (headEntryHash db.ledger)
  seq : nextLedgerSeq db.ledger ≤ maxRowId
  id : nextReceiptId db.receipts ≤ maxRowId

omit [Host] in
theorem Db.HasRoom.empty : Db.HasRoom .empty := ⟨hashText_none, by decide, by decide⟩

theorem evaluate_of_checks {w : Txn} (hroom : db.HasRoom)
    (hvalid : validateProposal reg db.tables p = .ok ())
    (happly : applyOperations reg p.proposer (nextLedgerSeq db.ledger) db.tables p.operations.1 =
      .ok w)
    (hevents : w.events ≠ []) (hev : ∀ ev ∈ w.events, ev.Valid)
    (hunique : ∀ r ∈ db.ledger, r.entryHash ≠ (p.evaluation db w).row.entryHash) :
    evaluate reg db (Proposal.codec.enc p) (sha256Json (Proposal.codec.enc p)) =
      .ok (p.evaluation db w) :=
  evaluate_eq_ok.mpr ⟨rfl, hvalid, happly, rfl, rfl,
    ledgerDocument_valid hevents hev hroom.head hroom.seq, hroom.seq, hunique⟩

omit [Host] in
theorem matchedText_of_fullmatch {q : Pattern} {s : String} (h : q.fullmatch s = true) :
    (matchedText q (.str (PyStr.ofString s))).isSome = true := by
  simp [matchedText, JsonOf.str?, PyStr.toString?_ofString, Option.filter, h]

omit [Host] in
theorem uniqueItems_of_sorted {ids : List RecordId} (h : ids.Pairwise (· < ·)) :
    (Text.codec (p := recordIdPattern.search)).UniqueItems ids := by
  refine List.pairwise_map.mpr (h.imp fun {a b} hab => ?_)
  have hne : (a : String) ≠ (b : String) := fun he => absurd hab (by rw [Text.ext he]; exact lt_irrefl b)
  simp [Text.codec_enc, JsonOf.pyEq, hne]

omit [Host] in
/-- The contract admits the receipt of an applied proposal. -/
theorem Evaluation.receiptInput_valid {e : Evaluation} {hash : Hash} {entry : RecordId}
    (hjson : c.proposal.toJson? = some (Proposal.codec.enc p))
    (hid : recordIdPattern.fullmatch p.proposalId = true)
    (hkey : idempotencyKeyPattern.fullmatch p.idempotencyKey = true) :
    (e.receiptInput hash).Valid c (some entry) where
  reasons := List.Pairwise.nil
  conflicts := uniqueItems_of_sorted (sortedSet_sorted _)
  entry_iff := ⟨fun _ => rfl, fun _ => outcome_accepted⟩
  named _ := by
    rw [proposalId_of_toJson? hjson, idempotencyKey_of_toJson? hjson]
    exact ⟨matchedText_of_fullmatch hid, matchedText_of_fullmatch hkey⟩
  conflicting hout := by
    intro hnil
    have hcommitted : e.outcome = .committed := if_pos hnil
    exact absurd (hcommitted.symm.trans hout) (by decide)

/-- **A proposal that passes its checks is accepted.** -/
theorem accepts_of_checks {w : Txn} (hroom : db.HasRoom)
    (hjson : c.proposal.toJson? = some (Proposal.codec.enc p))
    (hid : recordIdPattern.fullmatch p.proposalId = true)
    (hkey : idempotencyKeyPattern.fullmatch p.idempotencyKey = true)
    (hnew : ∀ r ∈ db.receipts, r.idempotencyKey ≠ p.idempotencyKey)
    (hvalid : validateProposal reg db.tables p = .ok ())
    (happly : applyOperations reg p.proposer (nextLedgerSeq db.ledger) db.tables p.operations.1 =
      .ok w)
    (hevents : w.events ≠ []) (hev : ∀ ev ∈ w.events, ev.Valid)
    (hunique : ∀ r ∈ db.ledger, r.entryHash ≠ (p.evaluation db w).row.entryHash) :
    ∃ row, Accepts reg c (sha256Json (Proposal.codec.enc p)) (Proposal.codec.enc p) db
      (p.evaluation db w) row := by
  have heval := @evaluate_of_checks _ reg _ _ _ hroom hvalid happly hevents hev hunique
  have hcolKey : columnText c.idempotencyKey = .ok (some (p.idempotencyKey : String)) := by
    rw [idempotencyKey_of_toJson? hjson, columnText_str]
  have hcolId : columnText c.proposalId = .ok (some (p.proposalId : String)) := by
    rw [proposalId_of_toJson? hjson, columnText_str]
  have hprior : prior? db.receipts (some (p.idempotencyKey : String)) = none := by
    simpa [prior?] using hnew
  have hlinks : receiptLinks ((p.evaluation db w).apply db)
      ((p.evaluation db w).receiptInput (sha256Json (Proposal.codec.enc p))) =
      .ok ⟨headEntryHash db.ledger, some (p.evaluation db w).row.entryHash,
        .str (entryIdText (nextLedgerSeq db.ledger))⟩ := Evaluation.receiptLinks_accepted heval
  obtain ⟨decidedAt, hdec⟩ : ∃ t, (decidedAtText c ((p.evaluation db w).receiptInput
      (sha256Json (Proposal.codec.enc p))).decidedAt).toString? = some t := by
    rw [Evaluation.receiptInput, decidedAtText]
    split
    · exact ⟨_, PyStr.toString?_ofString c.now⟩
    · exact ⟨_, PyStr.toString?_ofString _⟩
  obtain ⟨d, hd⟩ := @receiptDocument_valid _ _ _ _ _ _ decidedAt (@Evaluation.receiptInput_valid _ _
    (p.evaluation db w) (sha256Json (Proposal.codec.enc p)) ⟨entryIdText (nextLedgerSeq db.ledger),
    entryIdText_admitted hroom.seq⟩ hjson hid hkey) hroom.head (hashText_some (sha256Json
    (ledgerEnvelope
        (entryParts db p (sha256Json (Proposal.codec.enc p)) w)))) hroom.id
  refine ⟨_, ⟨⟨_, hcolKey, hprior⟩, heval, receiptRow_eq_ok.mpr
    ⟨_, decidedAt, _, _, d, hlinks, hdec, hcolKey, hcolId, hd, hroom.id, rfl⟩⟩⟩

end

/-! ### A small proposal -/

def ownerVersions : VersionBundle :=
  ⟨⟨⟨"conflict-rules@1", by decide⟩, ownerRegistry.guardDslVersion, ownerRegistry.version,
    some ⟨"sha256:4c3afd7af764a54a1d953bffa4133ea6a0e65e142e766e1387f10f89589595b0", by decide⟩,
    ⟨"markdown-projection@3", by decide⟩, ⟨"1.3.0", by decide⟩⟩, fun _ => rfl⟩

def ownerActor : ActorRef := ⟨⟨"human:owner", by decide⟩, .human⟩

def auditContext : Bounded 1 8192 := ⟨"Audit", by decide⟩

def noObjects : Unique RecordRef.codec := ⟨[], by decide⟩

def firstOperation : RecordId := ⟨"op_00000001", by decide⟩

def secondProposal : RecordId := ⟨"proposal_00000002", by decide⟩

def firstQuestion : RecordId := ⟨"question_00000001", by decide⟩

def ownerQuestion : NewOpenQuestion :=
  ⟨{ answer := none, context := auditContext, drop := none,
     openedAt := "2026-01-01T00:00:00Z", openedBy := ownerActor,
     question := ⟨"Who owns the ledger?", by decide⟩, questionId := firstQuestion,
     relatedObjects := noObjects, status := .open, version := .first },
    by decide⟩

/-- A proposal of one operation, without reads or guards. -/
def ownerProposal (key : IdempotencyKey) (id : RecordId) (op : Operation) : Proposal where
  baseStateRoot := none
  guards := ⟨[], by decide⟩
  idempotencyKey := key
  operations := ⟨[op], by simp⟩
  proposalId := id
  proposedAt := "2026-01-01T00:00:00Z"
  proposer := ownerActor
  reads := ⟨[], by decide⟩
  versions := ownerVersions

def questionProposal : Proposal :=
  ownerProposal ⟨"open-question-1", by decide⟩ ⟨"proposal_00000001", by decide⟩
    (.openQuestion firstOperation ownerQuestion)

/-- The call that brings a proposal. -/
def Proposal.call (p : Proposal) : Call := ⟨(Proposal.codec.enc p).raw, "2026-01-01T00:00:00Z"⟩

/-- The tables once the question is open. -/
def questionTables : Tables :=
  { Tables.empty with
    openQuestions := (∅ : Table RecordId QuestionRow).insert ownerQuestion.1.questionId
      ⟨.open, 1, none, none, ownerQuestion.1⟩ }

def questionTxn : Txn := ⟨questionTables, [.questionOpened ownerQuestion], []⟩

theorem validateVersions_owner : validateVersions ownerRegistry ownerVersions = .ok () := by
  have hhash : ownerVersions.1.predicateRegistryHash = some ownerRegistry.hash := by
    rw [ownerRegistry_hash]
    rfl
  simp only [validateVersions, bind_eq_ok, require_eq_ok]
  exact ⟨(), rfl, (), rfl, (), hhash, (), rfl, (), rfl, rfl⟩

section

attribute [local instance] Host.utc

theorem preflight_question : preflight questionProposal.call =
    .ok (.evaluate (sha256Json (Proposal.codec.enc questionProposal))
      (Proposal.codec.enc questionProposal)) := by
  refine preflight_evaluate.mpr ⟨?_, JsonOf.toJson?_raw (Proposal.codec.sorted _), ?_, ?_, rfl⟩
  · decide
  · decide
  · exact JsonOf.length_utf8_dumps_le (by decide)

theorem questionProposal_accepts : ∃ row, Accepts ownerRegistry questionProposal.call
    (sha256Json (Proposal.codec.enc questionProposal)) (Proposal.codec.enc questionProposal)
    .empty (questionProposal.evaluation .empty questionTxn) row := by
  refine accepts_of_checks .empty (JsonOf.toJson?_raw (Proposal.codec.sorted _)) (by decide) (by decide)
    (fun _ h => absurd h List.not_mem_nil) ?_ ?_ (by decide) ?_ (fun _ h => absurd h List.not_mem_nil)
  · simp only [validateProposal, bind_eq_ok]
    refine ⟨(), validateVersions_owner, (), ?_, (), ?_, ?_⟩
    · decide
    · rfl
    · rfl
  · rfl
  · intro ev hev
    obtain rfl := List.mem_singleton.mp hev
    trivial

end

end SharedMind
