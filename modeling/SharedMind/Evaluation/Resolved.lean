import SharedMind.Evaluation.Resolution
import SharedMind.Law.ConflictTable

/-!
# Evaluation of accepted resolutions

* `Settled`: each conflict is resolved once, as it was before the proposal.
* `resolution_evaluation_iff`: **when an accepted resolution passes its evaluation**.
-/

namespace SharedMind.Evaluation

open Py

/-! ### Proposals of resolutions -/

/-- The operations resolve conflicts. -/
def Resolutions (ops : List Operation) : Prop := ∀ op ∈ ops, ∃ r, op = .resolveConflict r

/-- What resolutions do: each finds its conflict as it was before all of them, and no other table
and no other conflict changes. -/
structure Settled (proposer : ActorRef) (t : Tables) (ops : List Operation) (t' : Tables) :
    Prop where
  claims : t'.claims = t.claims
  evidence : t'.evidence = t.evidence
  resolved : ∀ r, .resolveConflict r ∈ ops → ∃ row, t.conflicts[r.conflictId]? = some row ∧
    Resolves t proposer r row ∧ t'.conflicts[r.conflictId]? = some (row.resolve r.resolution)
  others : ∀ id : RecordId, (∀ r, .resolveConflict r ∈ ops → r.conflictId ≠ id) →
    t'.conflicts[id]? = t.conflicts[id]?

theorem Settled.nil {proposer : ActorRef} {t : Tables} : Settled proposer t [] t :=
  ⟨rfl, rfl, fun _ h => absurd h List.not_mem_nil, fun _ _ => rfl⟩

/-- What a resolution is checked against is its row and the evidence. -/
theorem Resolves.of_evidence {t t' : Tables} {proposer : ActorRef} {op : ResolveConflict}
    {row : ConflictRow} (h : Resolves t' proposer op row) (he : t'.evidence = t.evidence) :
    Resolves t proposer op row :=
  ⟨h.status, h.digest, h.epoch, h.authorized, h.apart, h.covers, he ▸ h.evidence⟩

/-- One resolution more. -/
theorem Settled.snoc {proposer : ActorRef} {t : Tables} {ops : List Operation} {w w' : Txn}
    {op : ResolveConflict} (h : Settled proposer t ops w.tables)
    (hop : resolveConflict w proposer op = .ok w') :
    Settled proposer t (ops ++ [.resolveConflict op]) w'.tables := by
  obtain ⟨row, hrow, hresolves, rfl⟩ := resolveConflict_eq_ok.mp hop
  -- a conflict that was resolved before is not open
  have hapart : ∀ r, .resolveConflict r ∈ ops → r.conflictId ≠ op.conflictId := by
    intro r hr heq
    obtain ⟨_, _, _, hafter⟩ := h.resolved r hr
    rw [heq, hrow] at hafter
    have hstatus := hresolves.status
    rw [Option.some.inj hafter] at hstatus
    exact nomatch hstatus
  refine ⟨h.claims, h.evidence, ?_, ?_⟩
  · intro r hr
    rw [Txn.emit_tables, Table.get_modify]
    obtain hr | hr := List.mem_append.mp hr
    · obtain ⟨found, hfound, hchecked, hafter⟩ := h.resolved r hr
      rw [if_neg (hapart r hr)]
      exact ⟨found, hfound, hchecked, hafter⟩
    · obtain rfl := Operation.resolveConflict.inj (List.mem_singleton.mp hr)
      rw [if_pos rfl, hrow]
      exact ⟨row, (h.others _ hapart).symm.trans hrow,
        Resolves.of_evidence hresolves h.evidence, rfl⟩
  · intro id hid
    have hne : id ≠ op.conflictId :=
      (hid op (List.mem_append_right _ (List.mem_singleton_self _))).symm
    rw [Txn.emit_tables, Table.get_modify, if_neg hne]
    exact h.others id fun r hr => hid r (List.mem_append_left _ hr)

section

variable [Host] {reg : Registry} {proposer : ActorRef} {openedSeq : Nat}

theorem applyOperations_settled {t : Tables} {ops : List Operation} {w : Txn}
    (hops : Resolutions ops) (h : applyOperations reg proposer openedSeq t ops = .ok w) :
    Settled proposer t ops w.tables := by
  refine foldlM_prefix_inv (P := fun pre (w : Txn) => Settled proposer t pre w.tables) .nil ?_ h
  intro pre op post w w' hall hw hop
  obtain ⟨r, rfl⟩ := hops op (by rw [hall]; simp)
  exact hw.snoc hop

end

/-! ### Evaluations -/

/-- The evaluation of a conflict, as it stands before and after, finds nothing. -/
def PassesEvaluation (t t' : Tables) (id : RecordId) : Prop :=
  ∃ row row' report, t.conflicts[id]? = some row ∧ t'.conflicts[id]? = some row' ∧
    evaluateConflictResolution (conflictSnapshot t id row) (conflictSnapshot t' id row') =
      .ok report ∧ report.failures = []

theorem passesEvaluation_iff {reg : Registry} {events : List LedgerEvent} {proposer : ActorRef}
    {t t' : Tables} {ops : List Operation} {r : ResolveConflict}
    (htable : ConflictTable reg t events)
    (h : Settled proposer t ops t') (hr : .resolveConflict r ∈ ops) :
    PassesEvaluation t t' r.conflictId ↔ Retained r.resolution := by
  obtain ⟨row, hrow, hresolves, hafter⟩ := h.resolved r hr
  have hmembers : ∀ m ∈ row.members, ∃ claim, t.claims[m]? = some claim := by
    intro m hm
    obtain ⟨_, _, _, claim, _, _, hclaim, _⟩ := htable.members r.conflictId row hrow m hm
    exact ⟨claim, hclaim⟩
  have hcovers : ∀ m, m ∈ r.resolution.selectedClaimIds.1 ++ r.resolution.rejectedClaimIds.1 ↔
      m ∈ row.members := by
    intro m
    rw [← mem_sortedSet, hresolves.covers, mem_sortedSet]
  obtain ⟨report, hok, hiff⟩ := evaluate_resolve r.conflictId hresolves.status
    (htable.sound r.conflictId row hrow).sorted h.claims hmembers hresolves.epoch hresolves.apart
    hcovers
  rw [← hiff]
  constructor
  · rintro ⟨row₁, row₂, report', hrow₁, hrow₂, hok', hnone⟩
    rw [hrow] at hrow₁
    rw [hafter] at hrow₂
    obtain rfl := Option.some.inj hrow₁
    obtain rfl := Option.some.inj hrow₂
    rw [hok] at hok'
    rw [Except.ok.inj hok', hnone]
  · intro hnone
    exact ⟨row, row.resolve r.resolution, report, hrow, hafter, hok, hnone⟩

variable [Host] {reg : Registry} {ι : Type} [DecidableEq ι]

/-- **When an accepted resolution passes its evaluation**: it gives a reason that is not blank, a
link and a time. -/
theorem resolution_evaluation_iff (es : List (Event ι)) (s u : Sys ι) (ev : Event ι) (i : ι)
    (c : Call) (hash : Hash) (value : Json) (e : Evaluation) (row : ReceiptRow)
    (hrun : Run reg (.start .empty) es s) (hacc : Step.Accepting reg s ev u i c hash value e row)
    (hops : Resolutions e.proposal.operations.1) (r : ResolveConflict)
    (hr : .resolveConflict r ∈ e.proposal.operations.1) :
    PassesEvaluation s.db.tables u.db.tables r.conflictId ↔ Retained r.resolution := by
  have htable : ConflictTable reg s.db.tables s.db.events :=
    hrun.history .empty fun _ _ _ _ _ _ h => applyOperation_table h
  obtain ⟨_, _, happly, _⟩ := evaluate_eq_ok.mp hacc.accepts.evaluated
  have hsettled := applyOperations_settled hops happly
  rw [hacc.after]
  exact passesEvaluation_iff htable hsettled hr

end SharedMind.Evaluation
