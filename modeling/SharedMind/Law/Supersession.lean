import SharedMind.Gen.Succession
import SharedMind.Law.Records

/-!
# Supersession

A superseded claim names the claim that replaced it, and so does a decision.

* `Superseded`: the named record was inserted later, and a record names one exactly when
  its status says so.
* `Tables.Settles`: a record that has left `ACTIVE` keeps its status.
* `supersession_well_founded`: the law over every interleaving.
-/

namespace SharedMind

open Py Succession

/-! ### The order of insertion -/

namespace LedgerEvent

/-- The claim an event inserts. -/
def newClaim? : LedgerEvent → Option RecordId
  | .claimAsserted claim _ => some claim.claimId
  | _ => none

theorem newClaim?_of_continuity {e : LedgerEvent} (h : e.continuity = true) :
    e.newClaim? = none := by
  cases e <;> first | rfl | exact nomatch h

end LedgerEvent

/-- The claims in the order they were inserted. -/
def insertedClaims (events : List LedgerEvent) : List RecordId :=
  events.filterMap LedgerEvent.newClaim?

/-- The decisions in the order they were inserted. -/
def insertedDecisions (events : List LedgerEvent) : List RecordId :=
  (events.filterMap LedgerEvent.newDecision?).map Prod.fst

/-- Claims name claims that were inserted later, and those that do are superseded. -/
structure ClaimsOrdered (claims : Table RecordId ClaimRow) (events : List LedgerEvent) : Prop where
  ordered : Ordered ClaimRow.supersededBy claims (insertedClaims events)
  status : ∀ (id : RecordId) (row : ClaimRow), claims[id]? = some row →
    (row.supersededBy ≠ none ↔ row.status = .superseded)

/-- Decisions name decisions that were inserted later, and those that do are superseded or
reversed. -/
structure DecisionsOrdered (decisions : Table RecordId DecisionRow) (events : List LedgerEvent) :
    Prop where
  ordered : Ordered DecisionRow.replacedByDecisionId decisions (insertedDecisions events)
  status : ∀ (id : RecordId) (row : DecisionRow), decisions[id]? = some row →
    (row.replacedByDecisionId ≠ none ↔ row.status = .superseded ∨ row.status = .reversed)

structure Superseded (t : Tables) (events : List LedgerEvent) : Prop where
  claims : ClaimsOrdered t.claims events
  decisions : DecisionsOrdered t.decisionRecords events

/-- A claim or a decision that has left `ACTIVE` keeps its status. -/
structure Tables.Settles (s t : Tables) : Prop where
  claims : Succession.Settled ClaimRow.status .active s.claims t.claims
  decisions : Succession.Settled DecisionRow.status .active s.decisionRecords t.decisionRecords

theorem Superseded.empty : Superseded .empty [] :=
  ⟨⟨.empty, fun id row h => by simp [Tables.empty] at h⟩,
    ⟨.empty, fun id row h => by simp [Tables.empty] at h⟩⟩

namespace Tables.Settles

variable {s t u : Tables}

theorem refl (s : Tables) : Settles s s := ⟨.refl _, .refl _⟩

theorem trans (h : Settles s t) (h' : Settles t u) : Settles s u :=
  ⟨h.claims.trans h'.claims, h.decisions.trans h'.decisions⟩

end Tables.Settles

/-! ### Claims -/

section

variable {claims : Table RecordId ClaimRow} {events es : List LedgerEvent} {id : RecordId}
  {row : ClaimRow}

/-- Events that insert no claim. -/
theorem ClaimsOrdered.keep (h : ClaimsOrdered claims events) (hes : ∀ e ∈ es, e.newClaim? = none) :
    ClaimsOrdered claims (events ++ es) := by
  have hsame : insertedClaims (events ++ es) = insertedClaims events := by
    rw [insertedClaims, List.filterMap_append, List.filterMap_eq_nil_iff.mpr hes, List.append_nil]
    rfl
  exact ⟨hsame ▸ h.ordered, h.status⟩

theorem ClaimsOrdered.insert {claim : Claim} {evidence : List EvidenceLink}
    (h : ClaimsOrdered claims events) (hid : claims[claim.claimId]? = none) :
    ClaimsOrdered (claims.insert claim.claimId claim.row)
      (events ++ [.claimAsserted claim evidence]) := by
  refine ⟨?_, fun id row hrow => ?_⟩
  · have hsame : insertedClaims (events ++ [.claimAsserted claim evidence]) =
        insertedClaims events ++ [claim.claimId] := filterMap_concat_some rfl
    rw [hsame]
    exact h.ordered.insert hid rfl
  · rw [Table.get_insert] at hrow
    split at hrow
    · cases hrow
      simp [Claim.row]
    · exact h.status id row hrow

/-- A row that changes without a link, or gets one that leads further. -/
theorem ClaimsOrdered.modify {f : ClaimRow → ClaimRow} (h : ClaimsOrdered claims events)
    (hrow : claims[id]? = some row)
    (hlink : (f row).supersededBy = row.supersededBy ∨ ∃ k', (f row).supersededBy = some k' ∧
      k' ∈ insertedClaims events ∧ (insertedClaims events).idxOf id < (insertedClaims events).idxOf k')
    (hstatus : (f row).supersededBy ≠ none ↔ (f row).status = .superseded) :
    ClaimsOrdered (claims.modify id f) events := by
  refine ⟨h.ordered.modify hrow hlink, fun id' row' hrow' => ?_⟩
  rw [Table.get_modify] at hrow'
  split at hrow'
  · next hid =>
    rw [hid, hrow] at hrow'
    cases hrow'
    exact hstatus
  · exact h.status id' row' hrow'

end

section

variable [Host] {reg : Registry} {w w' : Txn} {hist : List LedgerEvent} {openedSeq : Nat}

omit [Host] in
theorem newClaim?_of_conflictOpened {es : List LedgerEvent}
    (h : ∀ e ∈ es, ∃ c, e = .conflictOpened c) : ∀ e ∈ es, e.newClaim? = none := by
  intro e hmem
  obtain ⟨c, rfl⟩ := h e hmem
  rfl

theorem assertClaim_ordered {claim : Claim} {evidence : List EvidenceLink} {ignored : List RecordId}
    (h : assertClaim reg w claim evidence ignored openedSeq = .ok w')
    (hI : ClaimsOrdered w.tables.claims (hist ++ w.events)) :
    ClaimsOrdered w'.tables.claims (hist ++ w'.events) ∧
      insertedClaims (hist ++ w'.events) = insertedClaims (hist ++ w.events) ++ [claim.claimId] := by
  obtain ⟨hid, hclaims, _, _, es, he, hes⟩ := assertClaim_frame h
  have hevents : hist ++ w'.events = hist ++ w.events ++ [.claimAsserted claim evidence] ++ es := by
    rw [he]
    simp
  rw [hclaims, hevents]
  refine ⟨(hI.insert hid).keep (newClaim?_of_conflictOpened hes), ?_⟩
  rw [insertedClaims, List.filterMap_append,
    List.filterMap_eq_nil_iff.mpr (newClaim?_of_conflictOpened hes), List.append_nil]
  exact filterMap_concat_some rfl

theorem supersedeClaim_ordered {op : SupersedeClaim}
    (h : supersedeClaim reg w op openedSeq = .ok w')
    (hI : ClaimsOrdered w.tables.claims (hist ++ w.events)) :
    ClaimsOrdered w'.tables.claims (hist ++ w'.events) := by
  obtain ⟨row, v, hrow, _, hv, rfl⟩ := supersedeClaim_eq_ok.mp h
  obtain ⟨hid, hclaims, _⟩ := assertClaim_frame hv
  obtain ⟨hI', hinserted⟩ := assertClaim_ordered hv hI
  have htarget : op.targetClaimId ∈ insertedClaims (hist ++ w.events) :=
    (hI.ordered.mem _).mpr ⟨row, hrow⟩
  have hne : op.targetClaimId ≠ op.replacementClaim.claimId := by
    intro heq
    rw [heq, hid] at hrow
    exact nomatch hrow
  have hrow' : v.tables.claims[op.targetClaimId]? = some row := by
    rw [hclaims, Table.get_insert, if_neg hne, hrow]
  rw [Txn.emit_events, ← List.append_assoc]
  refine ClaimsOrdered.keep (hI'.modify hrow' (Or.inr ⟨_, rfl, ?_, ?_⟩) ?_) (by simp [LedgerEvent.newClaim?])
  · rw [hinserted]
    exact List.mem_append_right _ (List.mem_singleton_self _)
  · have hord := hI'.ordered
    rw [hinserted] at hord ⊢
    exact hord.idxOf_lt_last htarget
  · simp [ClaimRow.supersede]

variable {proposer : ActorRef} {op : Operation}

theorem applyOperation_claimsOrdered (h : applyOperation reg proposer openedSeq w op = .ok w')
    (hI : ClaimsOrdered w.tables.claims (hist ++ w.events)) :
    ClaimsOrdered w'.tables.claims (hist ++ w'.events) := by
  cases op with
  | registerSourceRevision _ source =>
    rcases registerSourceRevision_eq_ok.mp h with ⟨_, _, _, _, rfl⟩ | ⟨_, _, _, _, rfl⟩ <;>
    · rw [Txn.emit_events, ← List.append_assoc]
      exact ClaimsOrdered.keep hI (by simp [LedgerEvent.newClaim?])
  | assertClaim claim evidence _ => exact (assertClaim_ordered h hI).1
  | attachEvidence link _ =>
    obtain ⟨row, _, t, hrow, _, _, _, ht, rfl⟩ := attachEvidence_eq_ok.mp h
    have hclaims : t.claims = w.tables.claims := by rw [validateAndInsertEvidence_frame ht]
    rw [Txn.emit_events, ← List.append_assoc, Txn.emit_tables, hclaims]
    exact ClaimsOrdered.keep (hI.modify hrow (Or.inl rfl) (hI.status _ row hrow))
      (by simp [LedgerEvent.newClaim?])
  | supersedeClaim op => exact supersedeClaim_ordered h hI
  | retractClaim op =>
    obtain ⟨row, hrow, hactive, _, _, rfl⟩ := retractClaim_eq_ok.mp h
    rw [Txn.emit_events, ← List.append_assoc]
    refine ClaimsOrdered.keep (hI.modify hrow (Or.inl rfl) ?_) (by simp [LedgerEvent.newClaim?])
    have hnone : row.supersededBy = none := by
      by_contra hne
      rw [(hI.status _ row hrow).mp hne] at hactive
      exact nomatch hactive
    simp [ClaimRow.retract, hnone]
  | resolveConflict op =>
    obtain ⟨_, _, _, rfl⟩ := resolveConflict_eq_ok.mp h
    rw [Txn.emit_events, ← List.append_assoc]
    exact ClaimsOrdered.keep hI (by simp [LedgerEvent.newClaim?])
  | recordDecision | supersedeDecision | openQuestion | answerQuestion | dropQuestion
  | createWorkItem | updateWorkItemStatus =>
    have hkeep := applyOperation_keepsMemory h (by simp [applyContinuityOperation])
    obtain ⟨es, he, hes⟩ := hkeep.events
    rw [hkeep.claims, he, ← List.append_assoc]
    exact hI.keep fun e hmem => LedgerEvent.newClaim?_of_continuity (hes e hmem)

end

/-! ### Decisions -/

section

variable {w w' : Txn} {hist : List LedgerEvent} {decisions : Table RecordId DecisionRow}
  {events es : List LedgerEvent}

/-- Events that create no decision. -/
theorem DecisionsOrdered.keep (h : DecisionsOrdered decisions events)
    (hes : ∀ e ∈ es, e.newDecision? = none) : DecisionsOrdered decisions (events ++ es) := by
  have hsame : insertedDecisions (events ++ es) = insertedDecisions events := by
    rw [insertedDecisions, List.filterMap_append, List.filterMap_eq_nil_iff.mpr hes,
      List.append_nil]
    rfl
  exact ⟨hsame ▸ h.ordered, h.status⟩

/-- An event that creates a decision. -/
theorem DecisionsOrdered.insert {d : NewDecisionRecord} {e : LedgerEvent}
    (h : DecisionsOrdered decisions events) (hid : decisions[d.1.decisionId]? = none)
    (he : e.newDecision? = some (d.1.decisionId, d.1)) :
    DecisionsOrdered (decisions.insert d.1.decisionId d.1.row) (events ++ [e]) ∧
      insertedDecisions (events ++ [e]) = insertedDecisions events ++ [d.1.decisionId] := by
  have hsame : insertedDecisions (events ++ [e]) =
      insertedDecisions events ++ [d.1.decisionId] := by
    rw [insertedDecisions, filterMap_concat_some he, List.map_append]
    rfl
  obtain ⟨hactive, _, hreplaced⟩ := d.2
  refine ⟨⟨?_, fun id row hrow => ?_⟩, hsame⟩
  · rw [hsame]
    exact h.ordered.insert hid hreplaced
  · rw [Table.get_insert] at hrow
    split at hrow
    · cases hrow
      simp [DecisionDoc.row, hreplaced, hactive]
    · exact h.status id row hrow

theorem recordDecision_ordered {d : NewDecisionRecord} (h : recordDecision w d.1 = .ok w')
    (hI : DecisionsOrdered w.tables.decisionRecords (hist ++ w.events)) :
    DecisionsOrdered w'.tables.decisionRecords (hist ++ w'.events) := by
  obtain ⟨hid, rfl⟩ := recordDecision_eq_ok.mp h
  rw [Txn.emit_events, ← List.append_assoc]
  exact (hI.insert hid rfl).1

theorem supersedeDecision_ordered {target : RecordId} {disposition : Disposition}
    {replacement : NewDecisionRecord} {rationale : String}
    (h : supersedeDecision w target disposition replacement.1 rationale = .ok w')
    (hI : DecisionsOrdered w.tables.decisionRecords (hist ++ w.events)) :
    DecisionsOrdered w'.tables.decisionRecords (hist ++ w'.events) := by
  obtain ⟨row, hrow, _, hid, rfl⟩ := supersedeDecision_eq_ok.mp h
  have hne : target ≠ replacement.1.decisionId := by
    rintro rfl
    rw [hid] at hrow
    exact nomatch hrow
  have htarget : target ∈ insertedDecisions (hist ++ w.events) :=
    (hI.ordered.mem _).mpr ⟨row, hrow⟩
  rw [Txn.emit_events, ← List.append_assoc]
  obtain ⟨hinsert, hinserted⟩ := hI.insert (d := replacement) hid (e := .decisionSuperseded {
    newVersion := .int (row.version + 1 : Nat), previousVersion := .int row.version,
    rationale := rationale, replacementDecision := replacement, targetDecisionId := target,
    targetDisposition := disposition }) rfl
  have hrow' : (w.tables.decisionRecords.insert replacement.1.decisionId
      replacement.1.row)[target]? = some row := by
    rw [Table.get_insert, if_neg hne, hrow]
  refine ⟨hinsert.ordered.modify hrow' (Or.inr ⟨_, rfl, ?_, ?_⟩), fun id row' hget => ?_⟩
  · rw [hinserted]
    exact List.mem_append_right _ (List.mem_singleton_self _)
  · have hord := hinsert.ordered
    rw [hinserted] at hord ⊢
    exact hord.idxOf_lt_last htarget
  · rw [Txn.emit_tables, Table.get_modify] at hget
    split at hget
    · next heq =>
      rw [heq, hrow'] at hget
      cases hget
      have hstatus : ∀ d : Disposition, d.status = .superseded ∨ d.status = .reversed := by
        intro d
        cases d <;> decide
      simp [DecisionRow.supersede, hstatus]
    · exact hinsert.status id row' hget

variable [Host] {reg : Registry} {openedSeq : Nat} {proposer : ActorRef} {op : Operation}

theorem applyOperation_decisionsOrdered (h : applyOperation reg proposer openedSeq w op = .ok w')
    (hI : DecisionsOrdered w.tables.decisionRecords (hist ++ w.events)) :
    DecisionsOrdered w'.tables.decisionRecords (hist ++ w'.events) := by
  cases op with
  | registerSourceRevision | assertClaim | attachEvidence | supersedeClaim | retractClaim
  | resolveConflict =>
    have hkeep := applyOperation_keepsContinuity h rfl
    obtain ⟨es, he, hes⟩ := hkeep.events
    rw [hkeep.decisionRecords, he, ← List.append_assoc]
    exact hI.keep fun e hmem => (LedgerEvent.of_not_continuity (hes e hmem)).1
  | recordDecision decision _ => exact recordDecision_ordered h hI
  | supersedeDecision op => exact supersedeDecision_ordered h hI
  | openQuestion _ question =>
    obtain ⟨_, rfl⟩ := openQuestion_eq_ok.mp h
    rw [Txn.emit_events, ← List.append_assoc]
    exact DecisionsOrdered.keep hI (by simp [LedgerEvent.newDecision?])
  | answerQuestion answer _ target =>
    obtain ⟨_, _, _, rfl⟩ := answerQuestion_eq_ok.mp h
    rw [Txn.emit_events, ← List.append_assoc]
    exact DecisionsOrdered.keep hI (by simp [LedgerEvent.newDecision?])
  | dropQuestion drop _ target =>
    obtain ⟨_, _, _, rfl⟩ := dropQuestion_eq_ok.mp h
    rw [Txn.emit_events, ← List.append_assoc]
    exact DecisionsOrdered.keep hI (by simp [LedgerEvent.newDecision?])
  | createWorkItem _ workItem =>
    obtain ⟨_, rfl⟩ := createWorkItem_eq_ok.mp h
    rw [Txn.emit_events, ← List.append_assoc]
    exact DecisionsOrdered.keep hI (by simp [LedgerEvent.newDecision?])
  | updateWorkItemStatus op =>
    obtain ⟨_, _, _, rfl⟩ := updateWorkItemStatus_eq_ok.mp h
    rw [Txn.emit_events, ← List.append_assoc]
    exact DecisionsOrdered.keep hI (by simp [LedgerEvent.newDecision?])

theorem applyOperation_superseded (h : applyOperation reg proposer openedSeq w op = .ok w')
    (hI : Superseded w.tables (hist ++ w.events)) : Superseded w'.tables (hist ++ w'.events) :=
  ⟨applyOperation_claimsOrdered h hI.claims, applyOperation_decisionsOrdered h hI.decisions⟩

/-! ### Final statuses -/

theorem assertClaim_settles {claim : Claim} {evidence : List EvidenceLink} {ignored : List RecordId}
    (h : assertClaim reg w claim evidence ignored openedSeq = .ok w') :
    w.tables.Settles w'.tables := by
  obtain ⟨hid, hclaims, _⟩ := assertClaim_frame h
  refine ⟨by rw [hclaims]; exact .insert hid, ?_⟩
  rw [(assertClaim_keepsContinuity h).decisionRecords]
  exact .refl _

/-- Only an active claim or decision changes its status. -/
theorem applyOperation_settles (h : applyOperation reg proposer openedSeq w op = .ok w') :
    w.tables.Settles w'.tables := by
  cases op with
  | registerSourceRevision _ source =>
    rcases registerSourceRevision_eq_ok.mp h with ⟨_, _, _, _, rfl⟩ | ⟨_, _, _, _, rfl⟩ <;>
      exact ⟨.refl _, .refl _⟩
  | assertClaim claim evidence _ => exact assertClaim_settles h
  | attachEvidence link _ =>
    obtain ⟨row, _, t, hrow, _, _, _, ht, rfl⟩ := attachEvidence_eq_ok.mp h
    rw [validateAndInsertEvidence_frame ht]
    exact ⟨.modify hrow (Or.inr rfl), .refl _⟩
  | supersedeClaim op =>
    obtain ⟨row, v, hrow, hactive, hv, rfl⟩ := supersedeClaim_eq_ok.mp h
    obtain ⟨hid, hclaims, _⟩ := assertClaim_frame hv
    have hne : op.targetClaimId ≠ op.replacementClaim.claimId := by
      intro heq
      rw [heq, hid] at hrow
      exact nomatch hrow
    have hrow' : v.tables.claims[op.targetClaimId]? = some row := by
      rw [hclaims, Table.get_insert, if_neg hne, hrow]
    exact (assertClaim_settles hv).trans ⟨.modify hrow' (Or.inl hactive), .refl _⟩
  | retractClaim op =>
    obtain ⟨row, hrow, hactive, _, _, rfl⟩ := retractClaim_eq_ok.mp h
    exact ⟨.modify hrow (Or.inl hactive), .refl _⟩
  | resolveConflict op =>
    obtain ⟨_, _, _, rfl⟩ := resolveConflict_eq_ok.mp h
    exact ⟨.refl _, .refl _⟩
  | recordDecision decision _ =>
    obtain ⟨hid, rfl⟩ := recordDecision_eq_ok.mp h
    exact ⟨.refl _, .insert hid⟩
  | supersedeDecision op =>
    obtain ⟨row, hrow, hactive, hid, rfl⟩ := supersedeDecision_eq_ok.mp h
    have hne : op.targetDecisionId ≠ op.replacementDecision.1.decisionId := by
      intro heq
      rw [heq, hid] at hrow
      exact nomatch hrow
    exact ⟨.refl _, .trans (.insert hid)
      (.modify (by rw [Table.get_insert, if_neg hne, hrow]) (Or.inl hactive))⟩
  | openQuestion _ question =>
    obtain ⟨_, rfl⟩ := openQuestion_eq_ok.mp h
    exact ⟨.refl _, .refl _⟩
  | answerQuestion answer _ target =>
    obtain ⟨_, _, _, rfl⟩ := answerQuestion_eq_ok.mp h
    exact ⟨.refl _, .refl _⟩
  | dropQuestion drop _ target =>
    obtain ⟨_, _, _, rfl⟩ := dropQuestion_eq_ok.mp h
    exact ⟨.refl _, .refl _⟩
  | createWorkItem _ workItem =>
    obtain ⟨_, rfl⟩ := createWorkItem_eq_ok.mp h
    exact ⟨.refl _, .refl _⟩
  | updateWorkItemStatus op =>
    obtain ⟨_, _, _, rfl⟩ := updateWorkItemStatus_eq_ok.mp h
    exact ⟨.refl _, .refl _⟩

end

/-! ### The law -/

section

variable [Host] {reg : Registry} {ι : Type} [DecidableEq ι] {s u : Sys ι} {ev : Event ι}

theorem Step.settles (h : Step reg s ev u) : s.db.tables.Settles u.db.tables := by
  rcases h.db_cases with h | ⟨_, _, _, _, e, _, _, hacc, rfl, _⟩ |
      ⟨_, _, _, _, _, _, _, _, _, rfl, _⟩
  · rw [h]
    exact .refl _
  · obtain ⟨_, _, happly, _⟩ := evaluate_eq_ok.mp hacc.evaluated
    exact foldlM_rel (R := fun v v' : Txn => v.tables.Settles v'.tables) (fun v => .refl v.tables)
      (fun _ _ _ => .trans) (fun _ _ _ _ hop => applyOperation_settles hop) happly
  · exact .refl _

theorem RunWhere.settles {P : Sys ι → Event ι → Prop} {es : List (Event ι)}
    (h : RunWhere reg P s es u) : s.db.tables.Settles u.db.tables :=
  h.inv (Q := fun u => s.db.tables.Settles u.db.tables) (.refl _)
    fun _ _ _ _ hq hstep => hq.trans hstep.settles

end

end SharedMind
