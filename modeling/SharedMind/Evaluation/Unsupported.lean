import SharedMind.Evaluation.Resolved
import SharedMind.Law.OneOutcome

/-!
# A resolution without evidence

* `unsupported_accepts`: once two claims stand against each other, a resolution that gives no link
  is accepted.
* `unsupported_fails`: its evaluation finds that the evidence is missing.
-/

namespace SharedMind.Evaluation

open Py

/-- A document in a text column is printed, and its text is quoted. -/
theorem fastPrint_textColumn {α : Type} (c : Codec α) (a : α) (rest : List Nat) :
    (textColumn c a).fastPrint rest = fastQuote ((c.enc a).fastPrint []) rest := by
  rw [textColumn, JsonOf.fastPrint, JsonOf.fastPrint_eq, List.append_nil, stored_eq, JsonOf.dumps,
    String.toList_ofList]

/-! ### The conflict of the two claims -/

/-- What their conflict is called. -/
def rivalId : RecordId := ⟨"conflict_2bfb11a74bda9ebb58dc325b", by decide⟩

/-- How it is stored once it is opened. -/
def rivalRow : ConflictRow :=
  ⟨⟨"sha256:41b45250500b2919afba3b5a7a26a701eaa2d4ea9fe505fd70dea1631e6fe335", by decide⟩,
    .exclusiveValueConflict,
    ⟨"sha256:2bfb11a74bda9ebb58dc325b18fd906c00474fbfac901c2ac17d40c12fc40bc0", by decide⟩,
    [ownerClaim.claimId, rivalClaim.claimId], .open, 1, 1, none, 1⟩

theorem rivalMembers_digest :
    membersDigest [ownerClaim.claimId, rivalClaim.claimId] = rivalRow.memberDigest :=
  Text.ext (@sha256Json_of_hex _
    "2bfb11a74bda9ebb58dc325b18fd906c00474fbfac901c2ac17d40c12fc40bc0" (by decide +kernel))

theorem rivalFamily_hash : familyKey rivalClaim.proposition ownerPredicate = rivalRow.familyKey :=
  Text.ext (@sha256Json_of_hex _
    "41b45250500b2919afba3b5a7a26a701eaa2d4ea9fe505fd70dea1631e6fe335" (by decide +kernel))

theorem rivalMembers_sorted : sortedSet [rivalClaim.claimId, ownerClaim.claimId] =
    [ownerClaim.claimId, rivalClaim.claimId] := by
  decide

/-- The conflict, its digests evaluated. -/
theorem rivalConflict_eq : rivalConflict = (rivalId, rivalRow) := by
  have hid : conflictIdOf [ownerClaim.claimId, rivalClaim.claimId] = rivalId := by
    refine Text.ext ?_
    show String.ofList ("conflict_".toList ++ (membersDigest _).digits.take 24) = _
    rw [rivalMembers_digest]
    decide
  rw [rivalConflict, ConflictRow.new, rivalMembers_sorted, hid, rivalMembers_digest,
    rivalFamily_hash]
  rfl

/-- A resolution in favour of the first claim, with no link. -/
def unsupported : Resolution where
  authorityPolicyVersion := ⟨"human-authority@1", by decide⟩
  decidedAt := "2026-01-01T00:00:00Z"
  evidenceLinkIds := ⟨[], by decide⟩
  rationale := ⟨"Ada is the owner", by decide⟩
  rejectedClaimIds := ⟨[rivalClaim.claimId], List.pairwise_singleton _ _, by simp⟩
  resolutionEpoch := .first
  resolver := ownerActor
  selectedClaimIds := ⟨[ownerClaim.claimId], List.pairwise_singleton _ _, by simp⟩

def unsupportedOp : ResolveConflict where
  conflictId := rivalId
  expectedMemberDigest := rivalRow.memberDigest
  opId := firstOperation
  resolution := unsupported

/-- The proposal that brings it. -/
def unsupportedProposal : Proposal :=
  { ownerProposal ⟨"resolve-owner-1", by decide⟩ ⟨"proposal_00000003", by decide⟩
      (.resolveConflict unsupportedOp) with
    reads := ⟨[.aggregate ⟨rivalId, .conflict, .one⟩],
      List.pairwise_singleton _ _⟩ }

/-- The tables of the two claims and their conflict. -/
def rivalsTables (row : ConflictRow) : Tables :=
  { rivalClaims with conflicts := (∅ : Table RecordId ConflictRow).insert rivalId row }

/-- What the first proposal leaves behind. -/
def rivalsTxn : Txn :=
  ⟨rivalsTables rivalRow, (ownerTxn sourceEnd).events ++ [.claimAsserted rivalClaim [rivalLink],
    .conflictOpened (conflictDocument rivalId rivalRow)], [rivalId]⟩

theorem rivalTxn_eq : rivalTxn = rivalsTxn := by
  rw [rivalTxn, rivalTables, rivalConflict_eq]
  rfl

/-- What the resolution leaves behind. -/
def unsupportedTxn : Txn :=
  ⟨rivalsTables (rivalRow.resolve unsupported), [.conflictResolved rivalId unsupported], []⟩

section

attribute [local instance] Host.utc

/-- The parts of the two entries. -/
def rivalsParts : EntryParts where
  seq := 1
  prevHash := none
  proposalHash := sha256Json (Proposal.codec.enc rivalAssertion)
  preStateRoot := stateRootForSchema supportedSchema .empty
  postStateRoot := stateRootForSchema supportedSchema (rivalsTables rivalRow)
  versions := VersionBundle.codec.enc ownerVersions
  events := eventsJson rivalsTxn.events
  committedAt := "2026-01-01T00:00:00Z"

def unsupportedParts : EntryParts where
  seq := 2
  prevHash := some (sha256Json (ledgerEnvelope rivalsParts))
  proposalHash := sha256Json (Proposal.codec.enc unsupportedProposal)
  preStateRoot := stateRootForSchema supportedSchema (rivalsTables rivalRow)
  postStateRoot := stateRootForSchema supportedSchema unsupportedTxn.tables
  versions := VersionBundle.codec.enc ownerVersions
  events := eventsJson unsupportedTxn.events
  committedAt := "2026-01-01T00:00:00Z"


theorem rivalsClaims_toList : rivalClaims.claims.toList =
    [(ownerClaim.claimId, ownerClaim.row), (rivalClaim.claimId, rivalClaim.row)] := by decide

theorem rivalsEvidence_toList : rivalClaims.evidence.toList =
    [((ownerLink sourceEnd).evidenceLinkId,
        ⟨ownerClaim.claimId, ownerSource.revisionId, ownerLink sourceEnd⟩),
      (rivalLink.evidenceLinkId, ⟨rivalClaim.claimId, ownerSource.revisionId, rivalLink⟩)] := by
  decide

/-- The state whose hash is the root, row by row. -/
theorem rivalsState_eq (row : ConflictRow) : stateJson supportedSchema (rivalsTables row) =
    .obj [("claims", .arr [ownerClaim.row.json ownerClaim.claimId,
        rivalClaim.row.json rivalClaim.claimId]),
      ("conflicts", .arr [row.json false rivalId]), ("decision_records", .arr []),
      ("evidence", .arr [
        EvidenceRow.json (ownerLink sourceEnd).evidenceLinkId
          ⟨ownerClaim.claimId, ownerSource.revisionId, ownerLink sourceEnd⟩,
        EvidenceRow.json rivalLink.evidenceLinkId
          ⟨rivalClaim.claimId, ownerSource.revisionId, rivalLink⟩]),
      ("open_questions", .arr []),
      ("sources", .arr [SourceRow.json ownerSource.revisionId
        ⟨ownerSource.contentHash, ownerSource, [65, 100, 97]⟩]),
      ("work_items", .arr [])] := by
  have hconflicts : (rivalsTables row).conflicts.toList = [(rivalId, row)] := rfl
  have hsources : (rivalsTables row).sources.toList = [(ownerSource.revisionId,
      ⟨ownerSource.contentHash, ownerSource, [65, 100, 97]⟩)] := rfl
  have hlegacy : (supportedSchema = "1.0.0") = False := by decide
  simp only [stateJson, tableRows, show (rivalsTables row).claims = rivalClaims.claims from rfl,
    show (rivalsTables row).evidence = rivalClaims.evidence from rfl, rivalsClaims_toList,
    rivalsEvidence_toList, hconflicts, hsources, hlegacy, decide_false]
  rfl
/-! ### Digests -/

/-- The digests of the two proposals and of the tables after each, evaluated. -/
theorem rivals_digests :
    (sha256Json (Proposal.codec.enc rivalAssertion) : String) =
      "sha256:" ++ "f1cdc534717ba2cb585f972930e895a4d2013ded8bc9d12e5b44306b94e8eb74" ∧
    (stateRootForSchema supportedSchema (rivalsTables rivalRow) : String) =
      "sha256:" ++ "0a46a98066dbfa635f5a2001f975ea52ede925aa9a016bfc6438a803974eb852" ∧
    (sha256Json (Proposal.codec.enc unsupportedProposal) : String) =
      "sha256:" ++ "72186266534527fa54b7ab7bc54c81a56bab546cdbcb8bff8ae9b9707a1b136e" ∧
    (stateRootForSchema supportedSchema unsupportedTxn.tables : String) =
      "sha256:" ++ "acdd955396626159353f5147a8d672ae2e3aad0c7b356aa1a9c6e71fe135983a" := by
  refine ⟨sha256Json_of_hex ?_, sha256Json_of_hex ?_, sha256Json_of_hex ?_, sha256Json_of_hex ?_⟩
  · decide +kernel
  · rw [rivalsState_eq]
    simp only [ClaimRow.json, ConflictRow.json, EvidenceRow.json, SourceRow.json, ownerSource_hash,
      JsonOf.fastPrint, JsonOf.fastItems, JsonOf.fastMembers, fastPrint_textColumn,
      List.cons_append, List.nil_append, Bool.false_eq_true, if_false]
    decide +kernel
  · decide +kernel
  · rw [show unsupportedTxn.tables = rivalsTables (rivalRow.resolve unsupported) from rfl,
      rivalsState_eq]
    simp only [ClaimRow.json, ConflictRow.json, EvidenceRow.json, SourceRow.json, ownerSource_hash,
      JsonOf.fastPrint, JsonOf.fastItems, JsonOf.fastMembers, fastPrint_textColumn,
      List.cons_append, List.nil_append, Bool.false_eq_true, if_false]
    decide +kernel

theorem rivalAssertion_hash : (sha256Json (Proposal.codec.enc rivalAssertion) : String) =
    "sha256:" ++ "f1cdc534717ba2cb585f972930e895a4d2013ded8bc9d12e5b44306b94e8eb74" :=
  rivals_digests.1

theorem rivalsRoot : (stateRootForSchema supportedSchema (rivalsTables rivalRow) : String) =
    "sha256:" ++ "0a46a98066dbfa635f5a2001f975ea52ede925aa9a016bfc6438a803974eb852" :=
  rivals_digests.2.1

theorem unsupportedProposal_hash : (sha256Json (Proposal.codec.enc unsupportedProposal) : String) =
    "sha256:" ++ "72186266534527fa54b7ab7bc54c81a56bab546cdbcb8bff8ae9b9707a1b136e" :=
  rivals_digests.2.2.1

theorem unsupportedRoot : (stateRootForSchema supportedSchema unsupportedTxn.tables : String) =
    "sha256:" ++ "acdd955396626159353f5147a8d672ae2e3aad0c7b356aa1a9c6e71fe135983a" :=
  rivals_digests.2.2.2

/-- The digests of the two entries, evaluated. -/
theorem rivalsEntries_digests :
    (sha256Json (ledgerEnvelope rivalsParts) : String) =
      "sha256:" ++ "b1cae7910270c035b7b30fa93bb0c31b9cdf8fe2a19dda8f9756426fc3b27a90" ∧
    (sha256Json (ledgerEnvelope unsupportedParts) : String) =
      "sha256:" ++ "2d5fef296811c6ffacfea1acd50828371a30ee6dd680f13496658f99c9e94e25" := by
  have hrivals : (sha256Json (ledgerEnvelope rivalsParts) : String) =
      "sha256:" ++ "b1cae7910270c035b7b30fa93bb0c31b9cdf8fe2a19dda8f9756426fc3b27a90" := by
    refine sha256Json_of_hex ?_
    rw [ledgerEnvelope]
    simp only [rivalsParts, idColumn, emptyRoot, rivalsRoot, rivalAssertion_hash]
    decide +kernel
  refine ⟨hrivals, sha256Json_of_hex ?_⟩
  rw [ledgerEnvelope]
  simp only [unsupportedParts, hrivals, idColumn, rivalsRoot, unsupportedRoot,
    unsupportedProposal_hash]
  decide +kernel

theorem rivalsEntry_hash : (sha256Json (ledgerEnvelope rivalsParts) : String) =
    "sha256:" ++ "b1cae7910270c035b7b30fa93bb0c31b9cdf8fe2a19dda8f9756426fc3b27a90" :=
  rivalsEntries_digests.1

theorem unsupportedEntry_hash : (sha256Json (ledgerEnvelope unsupportedParts) : String) =
    "sha256:" ++ "2d5fef296811c6ffacfea1acd50828371a30ee6dd680f13496658f99c9e94e25" :=
  rivalsEntries_digests.2

/-! ### The second proposal is accepted -/

theorem rivalAssertion_parts : (rivalAssertion.evaluation .empty rivalTxn).parts = rivalsParts := by
  rw [rivalTxn_eq, Proposal.evaluation, rivalsParts]
  rfl

theorem unsupported_parts {row : ReceiptRow}
    (heval : evaluate ownerRegistry .empty (Proposal.codec.enc rivalAssertion)
      (sha256Json (Proposal.codec.enc rivalAssertion)) =
        .ok (rivalAssertion.evaluation .empty rivalTxn)) :
    (unsupportedProposal.evaluation ((rivalAssertion.evaluation .empty rivalTxn).accept .empty
      row) unsupportedTxn).parts = unsupportedParts := by
  have hpre : rivalTxn.tables = rivalsTables rivalRow := congrArg Txn.tables rivalTxn_eq
  have hpost : stateRootForSchema unsupportedProposal.versions.1.schema unsupportedTxn.tables =
      stateRootForSchema supportedSchema unsupportedTxn.tables :=
    congrArg (fun schema => stateRootForSchema schema unsupportedTxn.tables) rfl
  rw [second_parts heval, rivalAssertion_parts, hpre, hpost, unsupportedParts]
  rfl

theorem validateProposal_unsupported :
    validateProposal ownerRegistry (rivalsTables rivalRow) unsupportedProposal = .ok () := by
  simp only [validateProposal, bind_eq_ok]
  exact ⟨(), validateVersions_owner, (), by decide, (), by rfl, by rfl⟩

theorem resolveConflict_unsupported : resolveConflict ⟨rivalsTables rivalRow, [], []⟩ ownerActor
    unsupportedOp = .ok unsupportedTxn := by
  refine resolveConflict_eq_ok.mpr ⟨rivalRow, by rfl, ?_, ?_⟩
  · exact ⟨rfl, rfl, by decide, by decide, by decide, by decide,
      fun _ h => absurd h List.not_mem_nil⟩
  · have htable : ((∅ : Table RecordId ConflictRow).insert rivalId rivalRow).modify rivalId
        (fun r => r.resolve unsupported) =
        (∅ : Table RecordId ConflictRow).insert rivalId (rivalRow.resolve unsupported) := by
      refine Table.ext fun id => ?_
      by_cases hid : id = rivalId
      · rw [Table.get_modify, if_pos hid, Table.get_insert, Table.get_insert, if_pos hid,
          if_pos hid]
        rfl
      · rw [Table.get_modify, if_neg hid, Table.get_insert, Table.get_insert, if_neg hid,
          if_neg hid]
    show unsupportedTxn = Txn.mk { rivalsTables rivalRow with conflicts := _ } _ _
    rw [show (rivalsTables rivalRow).conflicts.modify unsupportedOp.conflictId
      (fun r => r.resolve unsupportedOp.resolution) = _ from htable]
    rfl

theorem preflight_rivalAssertion : preflight rivalAssertion.call =
    .ok (.evaluate (sha256Json (Proposal.codec.enc rivalAssertion))
      (Proposal.codec.enc rivalAssertion)) :=
  preflight_evaluate.mpr ⟨by decide, JsonOf.toJson?_raw (Proposal.codec.sorted _), by decide,
    JsonOf.length_utf8_dumps_le (by decide), rfl⟩

theorem preflight_unsupported : preflight unsupportedProposal.call =
    .ok (.evaluate (sha256Json (Proposal.codec.enc unsupportedProposal))
      (Proposal.codec.enc unsupportedProposal)) :=
  preflight_evaluate.mpr ⟨by decide, JsonOf.toJson?_raw (Proposal.codec.sorted _), by decide,
    JsonOf.length_utf8_dumps_le (by decide), rfl⟩

theorem unsupported_accepts {row : ReceiptRow}
    (hacc : Accepts ownerRegistry rivalAssertion.call
      (sha256Json (Proposal.codec.enc rivalAssertion)) (Proposal.codec.enc rivalAssertion)
      .empty (rivalAssertion.evaluation .empty rivalTxn) row) :
    ∃ row', Accepts ownerRegistry unsupportedProposal.call
      (sha256Json (Proposal.codec.enc unsupportedProposal)) (Proposal.codec.enc unsupportedProposal)
      ((rivalAssertion.evaluation .empty rivalTxn).accept .empty row)
      (unsupportedProposal.evaluation ((rivalAssertion.evaluation .empty rivalTxn).accept .empty
        row) unsupportedTxn) row' := by
  have htables : rivalTxn.tables = rivalsTables rivalRow := congrArg Txn.tables rivalTxn_eq
  refine accepts_second preflight_rivalAssertion hacc (by decide) (by decide) (by decide) ?_ ?_
    (by decide) ?_ ?_
  · rw [htables]
    exact validateProposal_unsupported
  · rw [htables]
    exact bind_eq_ok.mpr ⟨_, resolveConflict_unsupported, rfl⟩
  · intro ev hev
    obtain rfl := List.mem_singleton.mp hev
    trivial
  · rw [unsupported_parts hacc.evaluated, rivalAssertion_parts, rivalsEntry_hash,
      unsupportedEntry_hash]
    decide

/-- The two claims are asserted, and the resolution is accepted after them. -/
theorem unsupported_step : ∃ es s ev u hash value e row,
    Run ownerRegistry (.start .empty : Sys Unit) es s ∧
      Step.Accepting ownerRegistry s ev u () unsupportedProposal.call hash value e row ∧
      e.proposal = unsupportedProposal := by
  obtain ⟨row, hacc⟩ := rivalAssertion_accepts
  obtain ⟨row', hacc'⟩ := unsupported_accepts hacc
  obtain ⟨receipt, hreceipt⟩ := rowToReceipt_of_receiptRow hacc'.receipted
  obtain ⟨es₁, h₁⟩ := Run.accepted (s := (.start .empty : Sys Unit)) (i := ()) rfl
    preflight_rivalAssertion hacc
  obtain ⟨es₂, h₂⟩ := @Run.ready _ ownerRegistry _ _ ⟨(rivalAssertion.evaluation .empty
    rivalTxn).accept .empty row, Function.update (fun _ => .idle) () .idle⟩ () _ _ _ rfl
    preflight_unsupported
  exact ⟨_, _, _, _, _, _, _, row', h₁.trans h₂, ⟨by simp only [Function.update_self], hacc', rfl,
    receipt, hreceipt, rfl⟩, rfl⟩

theorem unsupported_resolutions : Resolutions unsupportedProposal.operations.1 := by
  intro op hop
  exact ⟨unsupportedOp, List.mem_singleton.mp hop⟩

theorem not_retained_unsupported : ¬Retained unsupported := fun h => h.evidence rfl

/-- An accepted resolution that does not pass its evaluation. -/
theorem unsupported_fails : ¬∀ (reg : Registry) (es : List (Event Unit)) (s u : Sys Unit)
    (ev : Event Unit) (i : Unit) (c : Call) (hash : Hash) (value : Json) (e : Evaluation)
    (row : ReceiptRow), Run reg (.start .empty) es s →
    Step.Accepting reg s ev u i c hash value e row → Resolutions e.proposal.operations.1 →
    ∀ r, .resolveConflict r ∈ e.proposal.operations.1 →
      PassesEvaluation s.db.tables u.db.tables r.conflictId := by
  intro h
  obtain ⟨es, s, ev, u, hash, value, e, row, hrun, hacc, hp⟩ := unsupported_step
  have hops : Resolutions e.proposal.operations.1 := hp ▸ unsupported_resolutions
  have hmem : .resolveConflict unsupportedOp ∈ e.proposal.operations.1 :=
    hp ▸ List.mem_singleton_self _
  have hpasses := h _ _ _ _ _ _ _ _ _ _ _ hrun hacc hops unsupportedOp hmem
  have htable : ConflictTable ownerRegistry s.db.tables s.db.events :=
    hrun.history .empty fun _ _ _ _ _ _ h => applyOperation_table h
  obtain ⟨_, _, happly, _⟩ := evaluate_eq_ok.mp hacc.accepts.evaluated
  rw [hacc.after] at hpasses
  exact not_retained_unsupported
    ((passesEvaluation_iff htable (applyOperations_settled hops happly) hmem).mp hpasses)

/-- The proposal that is accepted without evidence, and the one condition it misses. -/
theorem unsupported_evaluation_iff : ∃ es s ev u hash value e row,
    Run ownerRegistry (.start .empty : Sys Unit) es s ∧
      Step.Accepting ownerRegistry s ev u () unsupportedProposal.call hash value e row ∧
      (PassesEvaluation s.db.tables u.db.tables rivalId ↔ Retained unsupported) := by
  obtain ⟨es, s, ev, u, hash, value, e, row, hrun, hacc, hp⟩ := unsupported_step
  exact ⟨es, s, ev, u, hash, value, e, row, hrun, hacc,
    resolution_evaluation_iff es s u ev () _ hash value e row hrun hacc
      (hp ▸ unsupported_resolutions) unsupportedOp (hp ▸ List.mem_singleton_self _)⟩

end

end SharedMind.Evaluation
