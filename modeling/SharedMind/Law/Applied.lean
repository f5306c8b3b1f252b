import SharedMind.Law.OneOutcome

/-!
# An accepted answer names the entry of its proposal

* `LedgerRow.AppliedBy`: the evaluation that appended an entry.
* `Grounded`: in every state of every interleaving each entry is of a proposal that was
  called, and each receipt of an acceptance names the entry of its proposal.
* `applied_answer`: so does each answer that was returned.
-/

namespace SharedMind

open Py

variable [Host] {reg : Registry} {c : Call} {db : Db} {hash : Hash} {value : Json}
  {row : ReceiptRow} {receipt : Receipt}

/-- The entry is the one of an evaluation, of the proposal as it was called. -/
def LedgerRow.AppliedBy (reg : Registry) (l : LedgerRow) (e : Evaluation) : Prop :=
  ∃ db : Db, evaluate reg db (Proposal.codec.enc e.proposal)
    (sha256Json (Proposal.codec.enc e.proposal)) = .ok e ∧ e.row = l

theorem Accepts.appliedBy {e : Evaluation} (h : Accepts reg c hash value db e row)
    (hpre : preflight c = .ok (.evaluate hash value)) : e.row.AppliedBy reg e := by
  obtain ⟨hvalue, _⟩ := evaluate_eq_ok.mp h.evaluated
  obtain ⟨_, _, _, _, hhash⟩ := preflight_evaluate.mp hpre
  have heval := h.evaluated
  rw [hhash, hvalue] at heval
  exact ⟨db, heval, rfl⟩

/-- The receipt of an acceptance names the entry. -/
theorem Accepts.ledgerSeq {e : Evaluation} (h : Accepts reg c hash value db e row) :
    row.ledgerSeq = some e.row.seq := by
  obtain ⟨_, _, _, hparts, hrow, _⟩ := evaluate_eq_ok.mp h.evaluated
  obtain ⟨_, _, _, _, _, _, _, _, _, _, _, rfl⟩ := receiptRow_eq_ok.mp h.receipted
  rw [hrow]
  rfl

omit [Host] in
theorem rowToReceipt_ledgerSeq (h : rowToReceipt row = .ok receipt) :
    receipt.ledgerSeq = row.ledgerSeq := by
  simp only [rowToReceipt, bind_eq_ok, pure_eq_ok] at h
  obtain ⟨_, _, _, _, _, _, rfl⟩ := h
  rfl

/-! ### Answers -/

/-- Who is answered that a proposal is applied brought one that is evaluated, and its answer
is a row of that proposal. -/
theorem Phase.applied_row {p : Phase} {m : Move} (hown : p.OfItsOwn) (hfollows : p.Follows db)
    (hm : p.advance reg db = some m) (hr : m.result = some (.ok receipt))
    (hc : p.call? = some c) (happlied : AppliedText receipt.outcome) :
    ∃ hash value, preflight c = .ok (.evaluate hash value) ∧
      ∃ row ∈ m.db.receipts, row.proposalHash = hash ∧ rowToReceipt row = .ok receipt := by
  have hmem : ∀ hash value, preflight c = .ok (.evaluate hash value) →
      ∃ hash value, preflight c = .ok (.evaluate hash value) ∧
        ∃ row ∈ m.db.receipts, row.proposalHash = hash ∧ rowToReceipt row = .ok receipt := by
    intro hash value hpre
    obtain ⟨row, hrow, _, hhash, hreceipt⟩ := p.answered_row hown hfollows hm hr hc hpre
    exact ⟨hash, value, hpre, row, hrow, hhash, hreceipt⟩
  cases p with
  | idle => cases hm
  | begun d =>
    simp only [Phase.advance] at hm
    split at hm <;> (cases hm; cases hr)
  | ready d own value =>
    obtain rfl := Option.some.inj hc
    exact hmem own value hfollows
  | rejecting d pending reading =>
    simp only [Phase.advance] at hm
    split at hm
    · cases hm
      cases hr
    · split at hm
      · next hi =>
        -- a rejection is answered with its own outcome
        cases hm
        obtain rfl := Except.ok.inj (Option.some.inj hr)
        obtain ⟨row, hrow, hreceipt, rfl⟩ := insertReceipt_eq_ok.mp hi
        rw [rowToReceipt_outcome hreceipt, (receiptRow_proposalHash hrow).2] at happlied
        exact absurd happlied (not_appliedText hown.1)
      · cases hm
        cases hr
      · cases hm
        unfold Phase.handle at hr
        split at hr <;> cases hr

/-! ### Runs -/

section

variable {ι : Type} [DecidableEq ι] {s u : Sys ι} {es : List (Event ι)} {ev : Event ι}

/-- The proposals that were called. -/
def calledValues (es : List (Event ι)) : Set Json :=
  {v | ∃ i c, .called i c ∈ es ∧ c.proposal.toJson? = some v}

omit [DecidableEq ι] [Host] in
theorem calledValues_append (es fs : List (Event ι)) : calledValues es ⊆ calledValues (es ++ fs) :=
  fun _ h => by
    obtain ⟨i, c, hmem, hv⟩ := h
    exact ⟨i, c, List.mem_append_left _ hmem, hv⟩

/-- The receipt names the entry of its proposal, which was called. -/
def ReceiptRow.Grounded (reg : Registry) (es : List (Event ι)) (db : Db) (row : ReceiptRow) :
    Prop :=
  ∃ e : Evaluation, e.row ∈ db.ledger ∧ e.row.AppliedBy reg e ∧ row.ledgerSeq = some e.row.seq ∧
    row.proposalHash = sha256Json (Proposal.codec.enc e.proposal) ∧
    Proposal.codec.enc e.proposal ∈ calledValues es

omit [DecidableEq ι] in
theorem ReceiptRow.Grounded.mono {db' : Db} {fs : List (Event ι)} (h : row.Grounded reg es db)
    (hsub : db.ledger ⊆ db'.ledger) : row.Grounded reg (es ++ fs) db' := by
  obtain ⟨e, hl, hby, hseq, hhash, hcalled⟩ := h
  exact ⟨e, hsub hl, hby, hseq, hhash, calledValues_append _ _ hcalled⟩

/-- What holds of the calls, the entries and the receipts after a run. -/
structure Grounded (reg : Registry) (es : List (Event ι)) (s : Sys ι) : Prop where
  follows : ∀ i, (s.phase i).Follows s.db
  own : ∀ i, (s.phase i).OfItsOwn
  called : ∀ i c, (s.phase i).call? = some c → .called i c ∈ es
  entries : ∀ l ∈ s.db.ledger, ∃ e, l.AppliedBy reg e
  receipts : ∀ row ∈ s.db.receipts, AppliedText row.outcome → row.Grounded reg es s.db

namespace Grounded

omit [DecidableEq ι] in
theorem start : Grounded reg [] (.start .empty : Sys ι) where
  follows _ := trivial
  own _ := trivial
  called i c h := by cases h
  entries l h := absurd h List.not_mem_nil
  receipts row h := absurd h List.not_mem_nil

/-- The calls under way after a step were called. -/
theorem step_called (h : Grounded reg es s) (hstep : Step reg s ev u) :
    ∀ i c, (u.phase i).call? = some c → .called i c ∈ es ++ [ev] := by
  have hmove : ∀ i m, (s.phase i).advance reg s.db = some m →
      ∀ j c, (Function.update s.phase i m.phase j).call? = some c → .called j c ∈ es ++ [ev] :=
    fun i m hm =>
      (Function.forall_update_iff s.phase
        (p := fun j q => ∀ c, q.call? = some c → Event.called j c ∈ es ++ [ev])).mpr
        ⟨fun c hc => List.mem_append_left _ (h.called i c (Phase.advance_call hm hc)),
          fun j _ c hc => List.mem_append_left _ (h.called j c hc)⟩
  cases hstep with
  | call i c hi =>
    refine (Function.forall_update_iff s.phase
      (p := fun j q => ∀ d, q.call? = some d → Event.called j d ∈ es ++ [.called i c])).mpr
      ⟨fun d hd => ?_, fun j _ d hd => List.mem_append_left _ (h.called j d hd)⟩
    obtain rfl := Option.some.inj hd
    exact List.mem_append_right _ (List.mem_singleton_self _)
  | move i m hm hr => exact hmove i m hm
  | finish i c m result hm hr hc => exact hmove i m hm
  | fail i c hi =>
    refine (Function.forall_update_iff s.phase
      (p := fun j q => ∀ d, q.call? = some d → Event.called j d ∈
        es ++ [.ended i c (.error .operationalError)])).mpr ⟨fun d hd => ?_, fun j _ d hd =>
          List.mem_append_left _ (h.called j d hd)⟩
    cases hd

theorem step_own (h : Grounded reg es s) (hstep : Step reg s ev u) :
    ∀ i, (u.phase i).OfItsOwn := by
  have hmove : ∀ i m, (s.phase i).advance reg s.db = some m →
      ∀ j, (Function.update s.phase i m.phase j).OfItsOwn := fun i m hm =>
    (Function.forall_update_iff s.phase (p := fun _ q => q.OfItsOwn)).mpr
      ⟨(h.own i).advance (h.follows i) hm, fun j _ => h.own j⟩
  cases hstep with
  | call i c hi =>
    exact (Function.forall_update_iff s.phase (p := fun _ q => q.OfItsOwn)).mpr
      ⟨trivial, fun j _ => h.own j⟩
  | move i m hm hr => exact hmove i m hm
  | finish i c m result hm hr hc => exact hmove i m hm
  | fail i c hi =>
    exact (Function.forall_update_iff s.phase (p := fun _ q => q.OfItsOwn)).mpr
      ⟨trivial, fun j _ => h.own j⟩

/-- A step keeps the entries and receipts of proposals that were called. -/
theorem step (h : Grounded reg es s) (hstep : Step reg s ev u) : Grounded reg (es ++ [ev]) u := by
  refine ⟨hstep.follows h.follows, h.step_own hstep, h.step_called hstep, ?_, ?_⟩
  · rcases hstep.db_cases with hdb | ⟨i, c, hash, value, e, row, hacc⟩ |
        ⟨_, _, _, _, _, row, hrej⟩
    · rw [hdb]
      exact h.entries
    · rw [hacc.after]
      intro l hl
      rcases List.mem_append.mp hl with hl | hl
      · exact h.entries l hl
      · obtain rfl := List.mem_singleton.mp hl
        have hpre := h.follows i
        rw [hacc.phase] at hpre
        exact ⟨e, hacc.accepts.appliedBy hpre⟩
    · rw [hrej.after]
      exact h.entries
  · intro row' hrow' happlied
    rcases hstep.db_cases with hdb | ⟨i, c, hash, value, e, row, hacc⟩ |
        ⟨i, c, pending, _, _, row, hrej⟩
    · rw [hdb] at hrow' ⊢
      exact (h.receipts row' hrow' happlied).mono fun _ hl => hl
    · rw [hacc.after] at hrow' ⊢
      rcases List.mem_append.mp hrow' with hrow' | hrow'
      · exact (h.receipts row' hrow' happlied).mono fun _ hl => List.mem_append_left _ hl
      · obtain rfl := List.mem_singleton.mp hrow'
        have hpre := h.follows i
        have hcalled := h.called i c
        rw [hacc.phase] at hpre hcalled
        obtain ⟨_, hvalue, _, _, hhash⟩ := preflight_evaluate.mp hpre
        obtain ⟨henc, _⟩ := evaluate_eq_ok.mp hacc.accepts.evaluated
        refine ⟨e, List.mem_append_right _ (List.mem_singleton_self _),
          hacc.accepts.appliedBy hpre, hacc.accepts.ledgerSeq, ?_, ?_⟩
        · rw [(receiptRow_proposalHash hacc.accepts.receipted).1, ← henc]
          exact congrArg Text.text hhash
        · rw [← henc]
          exact ⟨i, c, List.mem_append_left _ (hcalled rfl), hvalue⟩
    · rw [hrej.after] at hrow' ⊢
      rcases List.mem_append.mp hrow' with hrow' | hrow'
      · exact (h.receipts row' hrow' happlied).mono fun _ hl => hl
      · obtain rfl := List.mem_singleton.mp hrow'
        have hown := h.own i
        rw [hrej.phase] at hown
        rw [(receiptRow_proposalHash hrej.rejects).2] at happlied
        exact absurd happlied (not_appliedText hown.1)

end Grounded

/-- Entries stay. -/
theorem Step.ledger_subset (h : Step reg s ev u) : s.db.ledger ⊆ u.db.ledger := by
  rcases h.db_cases with hdb | ⟨_, _, _, _, e, row, hacc⟩ | ⟨_, _, _, _, _, row, hrej⟩
  · rw [hdb]
    exact List.Subset.refl _
  · rw [hacc.after]
    exact List.subset_append_left _ _
  · rw [hrej.after]
    exact List.Subset.refl _

/-- The proposal of a call that is answered as applied is in the ledger, unless another that
was called has its digest; and the answer names the entry. -/
theorem RunWhere.applied_answer {P : Sys ι → Event ι → Prop}
    (hrun : RunWhere reg P (.start .empty) es u) :
    Grounded reg es u ∧ ∀ i c receipt, .ended i c (.ok receipt) ∈ es →
      AppliedText receipt.outcome → ∃ (e : Evaluation) (value : Json), e.row ∈ u.db.ledger ∧
        e.row.AppliedBy reg e ∧
        receipt.ledgerSeq = some e.row.seq ∧ c.proposal.toJson? = some value ∧
        value ∈ calledValues es ∧ Proposal.codec.enc e.proposal ∈ calledValues es ∧
        sha256Json value = sha256Json (Proposal.codec.enc e.proposal) := by
  induction hrun with
  | nil => exact ⟨.start, fun _ _ _ h => absurd h List.not_mem_nil⟩
  | @snoc es t u ev _ _ hstep ih =>
    obtain ⟨hground, hanswered⟩ := ih
    have hground' := hground.step hstep
    refine ⟨hground', fun i c receipt hmem happlied => ?_⟩
    rcases List.mem_append.mp hmem with hmem | hmem
    · obtain ⟨e, value, hl, hby, hseq, hvalue, hcalled, henc, hhash⟩ :=
        hanswered i c receipt hmem happlied
      exact ⟨e, value, hstep.ledger_subset hl, hby, hseq, hvalue, calledValues_append _ _ hcalled,
        calledValues_append _ _ henc, hhash⟩
    · obtain rfl := List.mem_singleton.mp hmem
      cases hstep with
      | finish i c m result hm hr hc =>
        obtain ⟨hash, value, hpre, row, hrow, hproposal, hreceipt⟩ :=
          Phase.applied_row (hground.own i) (hground.follows i) hm hr hc happlied
        obtain ⟨_, hvalue, _, _, hhash⟩ := preflight_evaluate.mp hpre
        have hrowApplied := happlied
        rw [rowToReceipt_outcome hreceipt] at hrowApplied
        obtain ⟨e, hl, hby, hseq, hof, henc⟩ := hground'.receipts row hrow hrowApplied
        refine ⟨e, value, hl, hby, (rowToReceipt_ledgerSeq hreceipt).trans hseq, hvalue,
          ⟨i, c, List.mem_append_left _ (hground.called i c hc), hvalue⟩, henc, ?_⟩
        exact Text.ext ((congrArg Text.text hhash).symm.trans (hproposal.symm.trans hof))

end

end SharedMind
