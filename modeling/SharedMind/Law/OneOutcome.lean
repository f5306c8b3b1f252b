import SharedMind.Law.Idempotency
import SharedMind.Law.ReceiptOrder
import SharedMind.Py.Sha256

/-!
# One outcome for a proposal

A key is looked up in the transaction of an attempt, but the receipt of an attempt that
was rejected is written in a later one.  In between, another attempt may be evaluated
against a state in which the proposal has become valid.

* `Unrivalled`: no proposal is accepted in that gap.
* `one_outcome`: then all who bring an accepted proposal get one receipt.
* `outcomes_differ`: three connections bring a proposal to two outcomes.
-/

namespace SharedMind

open Py

/-! ### Rows of one proposal -/

/-- The text of an outcome that applied the proposal. -/
def AppliedText (s : String) : Prop := ∃ o : Outcome, o.Accepted ∧ s = o.text

theorem not_appliedText {o : Outcome} (h : ¬o.Accepted) : ¬AppliedText o.text := by
  rintro ⟨o', ho', htext⟩
  rw [Outcome.text_injective htext] at h
  exact h ho'

theorem rowToReceipt_outcome {row : ReceiptRow} {receipt : Receipt}
    (h : rowToReceipt row = .ok receipt) : receipt.outcome = row.outcome := by
  simp only [rowToReceipt, bind_eq_ok, pure_eq_ok] at h
  obtain ⟨_, _, _, _, _, _, rfl⟩ := h
  rfl

theorem idempotencyKey_congr {c d : Call} (h : d.proposal = c.proposal) :
    d.idempotencyKey = c.idempotencyKey := by
  rw [Call.idempotencyKey, Call.member, h]
  rfl

theorem rejectionOf_proposalHash {c : Call} {hash : Hash} {e : PyExc} {r : Rejection}
    (h : rejectionOf c hash e = some r) : r.proposalHash = hash := by
  obtain ⟨_, _, rfl⟩ := Option.map_eq_some_iff.mp h
  rfl

section

variable [Host] {reg : Registry} {db : Db} {c : Call} {hash : Hash} {value : Json}
  {row : ReceiptRow}

/-- The call is about to write that this proposal, under this key, is rejected. -/
def Phase.Refusing (p : Phase) (key hash : String) : Prop :=
  ∃ c pending reading, p = .rejecting c pending reading ∧
    columnText c.idempotencyKey = .ok (some key) ∧ (pending.rejection.proposalHash : String) = hash

/-- A connection that rests writes nothing. -/
theorem not_refusing_idle {key hash : String} : ¬Phase.idle.Refusing key hash :=
  fun ⟨_, _, _, h, _⟩ => nomatch h

theorem receiptRow_proposalHash {input : ReceiptInput} (h : receiptRow c db input = .ok row) :
    row.proposalHash = input.proposalHash ∧ row.outcome = input.outcome.text := by
  obtain ⟨_, _, _, _, _, _, _, _, _, _, _, rfl⟩ := receiptRow_eq_ok.mp h
  exact ⟨rfl, rfl⟩

/-- The receipt of an accepted proposal has an accepted outcome. -/
theorem Accepts.applied {e : Evaluation} (h : Accepts reg c hash value db e row) :
    AppliedText row.outcome := by
  rw [(receiptRow_proposalHash h.receipted).2]
  exact ⟨e.outcome, Evaluation.outcome_accepted, rfl⟩

theorem preflight_congr {d : Call} (hsame : d.proposal = c.proposal)
    (hpre : preflight c = .ok (.evaluate hash value)) :
    preflight d = .ok (.evaluate hash value) := by
  rw [preflight_evaluate, hsame]
  exact preflight_evaluate.mp hpre

/-- An attempt that was rejected says so of its own proposal. -/
def Phase.OfItsOwn : Phase → Prop
  | .rejecting c pending _ => ¬pending.rejection.outcome.Accepted ∧
      (∀ hash value, preflight c = .ok (.evaluate hash value) →
        pending.rejection.proposalHash = hash) ∧
      ∀ hash, pending.retried = some hash → pending.rejection.proposalHash = hash
  | _ => True

theorem Phase.OfItsOwn.handle {head : Option String} {e : PyExc}
    (h : ∀ hash' value, preflight c = .ok (.evaluate hash' value) → hash = hash') :
    (Phase.handle c db hash head e).phase.OfItsOwn := by
  unfold Phase.handle
  split
  · next r hr =>
    refine ⟨rejectionOf_not_accepted hr, fun hash' value hpre => ?_, fun _ h => (nomatch h)⟩
    rw [rejectionOf_proposalHash hr]
    exact h hash' value hpre
  · trivial

theorem Phase.OfItsOwn.advance {p : Phase} {m : Move} (h : p.OfItsOwn) (hfollows : p.Follows db)
    (hm : p.advance reg db = some m) : m.phase.OfItsOwn := by
  have hready : ∀ {c hash value}, preflight c = .ok (.evaluate hash value) →
      ∀ hash' value', preflight c = .ok (.evaluate hash' value') → hash = hash' := by
    intro c hash value hpre hash' value' hpre'
    rw [hpre] at hpre'
    cases hpre'
    rfl
  cases p with
  | idle => cases hm
  | begun c =>
    simp only [Phase.advance] at hm
    split at hm
    · cases hm; trivial
    · next r hpre =>
      cases hm
      refine ⟨preflight_not_accepted hpre, fun hash value hev => ?_, fun _ h => by cases h⟩
      rw [hpre] at hev
      cases hev
    · cases hm; trivial
  | ready c hash value =>
    simp only [Phase.advance] at hm
    split at hm
    · cases hm; trivial
    · cases hm; trivial
    · cases hm
      exact ⟨keyReuseRejection_not_accepted, hready hfollows, fun _ h => Option.some.inj h⟩
    · cases hm
      exact .handle (hready hfollows)
  | rejecting c pending reading =>
    simp only [Phase.advance] at hm
    split at hm
    · cases hm
      exact h
    · split at hm
      · cases hm; trivial
      · cases hm; trivial
      · next hretried =>
        cases hm
        refine .handle fun hash' value hpre => ?_
        rw [← h.2.2 _ hretried]
        exact h.2.1 hash' value hpre

/-! ### What a step can begin to refuse -/

theorem refusing_handle {head : Option String} {e : PyExc} {key hash' : String}
    (h : (Phase.handle c db hash head e).phase.Refusing key hash') :
    columnText c.idempotencyKey = .ok (some key) ∧ (hash : String) = hash' := by
  unfold Phase.handle at h
  split at h
  · next r hr =>
    obtain ⟨c', pending, reading, hphase, hkey, hhash⟩ := h
    cases hphase
    rw [rejectionOf_proposalHash hr] at hhash
    exact ⟨hkey, hhash⟩
  · obtain ⟨_, _, _, hphase, _⟩ := h
    exact nomatch hphase

/-- A connection that is about to write a rejection was so before, or has found its call
unfit for evaluation, or comes from a transaction that answered it with no receipt. -/
theorem Phase.refusing_of_advance {p : Phase} {m : Move} {key hash : String} (hown : p.OfItsOwn)
    (hm : p.advance reg db = some m) (h : m.phase.Refusing key hash) :
    p.Refusing key hash ∨
    (∃ c r, p = .begun c ∧ preflight c = .ok (.refuse r) ∧
      columnText c.idempotencyKey = .ok (some key) ∧ (r.proposalHash : String) = hash) ∨
    (∃ c own value, p = .ready c own value ∧ columnText c.idempotencyKey = .ok (some key) ∧
      (own : String) = hash ∧ ∀ receipt, transaction reg c db own value ≠ .ok (.replayed receipt)) := by
  cases p with
  | idle => cases hm
  | begun c =>
    simp only [Phase.advance] at hm
    split at hm
    · cases hm; exact absurd h not_refusing_idle
    · next r hpre =>
      cases hm
      obtain ⟨_, _, _, hphase, hkey, hhash⟩ := h
      cases hphase
      exact Or.inr (Or.inl ⟨c, r, rfl, hpre, hkey, hhash⟩)
    · cases hm
      obtain ⟨_, _, _, hphase, _⟩ := h
      cases hphase
  | ready c own value =>
    simp only [Phase.advance] at hm
    split at hm
    · cases hm; exact absurd h not_refusing_idle
    · cases hm; exact absurd h not_refusing_idle
    · next ht =>
      cases hm
      obtain ⟨_, _, _, hphase, hkey, hhash⟩ := h
      cases hphase
      exact Or.inr (Or.inr ⟨c, own, value, rfl, hkey, hhash, fun _ hr => by rw [ht] at hr; cases hr⟩)
    · next ht =>
      cases hm
      obtain ⟨hkey, hhash⟩ := refusing_handle h
      exact Or.inr (Or.inr ⟨c, own, value, rfl, hkey, hhash, fun _ hr => by rw [ht] at hr; cases hr⟩)
  | rejecting c pending reading =>
    left
    simp only [Phase.advance] at hm
    split at hm
    · cases hm
      obtain ⟨_, _, _, hphase, hkey, hhash⟩ := h
      cases hphase
      exact ⟨c, pending, reading, rfl, hkey, hhash⟩
    · split at hm
      · cases hm; exact absurd h not_refusing_idle
      · cases hm; exact absurd h not_refusing_idle
      · next hretried =>
        cases hm
        obtain ⟨hkey, hhash⟩ := refusing_handle h
        exact ⟨c, pending, reading, rfl, hkey, by rw [hown.2.2 _ hretried]; exact hhash⟩

/-! ### The invariant -/

variable {ι : Type} [DecidableEq ι]

/-- A step in which no proposal gets a rival outcome: one that accepts a proposal finds no
connection about to write that the same proposal is rejected, and no call that is unfit
for evaluation has the key and the digest of a proposal that was accepted. -/
structure Unrivalled (reg : Registry) (s : Sys ι) (ev : Event ι) : Prop where
  accept : ∀ i c receipt hash value e row, ev = .ended i c (.ok receipt) →
    s.phase i = .ready c hash value → Accepts reg c hash value s.db e row →
    ∀ j, ¬(s.phase j).Refusing row.idempotencyKey row.proposalHash
  refuse : ∀ i c r, ev = .silent i → s.phase i = .begun c → preflight c = .ok (.refuse r) →
    ∀ row ∈ s.db.receipts, AppliedText row.outcome →
      columnText c.idempotencyKey = .ok (some row.idempotencyKey) →
      row.proposalHash ≠ r.proposalHash

/-- The receipt of an accepted proposal is the first under its key, the only one of the
proposal, and nobody is about to write another. -/
structure OneOutcome (s : Sys ι) : Prop where
  readable : ∀ row ∈ s.db.receipts, ∃ receipt, rowToReceipt row = .ok receipt
  first : ∀ row ∈ s.db.receipts, AppliedText row.outcome →
    prior? s.db.receipts (some row.idempotencyKey) = some row
  only : ∀ row ∈ s.db.receipts, AppliedText row.outcome → ∀ row' ∈ s.db.receipts,
    row'.idempotencyKey = row.idempotencyKey → row'.proposalHash = row.proposalHash → row' = row
  settled : ∀ row ∈ s.db.receipts, AppliedText row.outcome →
    ∀ i, ¬(s.phase i).Refusing row.idempotencyKey row.proposalHash

omit [DecidableEq ι] in
theorem OneOutcome.start : OneOutcome (.start .empty : Sys ι) :=
  ⟨fun _ h => absurd h List.not_mem_nil, fun _ h => absurd h List.not_mem_nil,
    fun _ h => absurd h List.not_mem_nil, fun _ h => absurd h List.not_mem_nil⟩

namespace OneOutcome

variable {s : Sys ι} {i : ι}

/-- The connection `i` moves, and the database stays. -/
theorem move {p : Phase} (h : OneOutcome s)
    (hp : ∀ row ∈ s.db.receipts, AppliedText row.outcome →
      ¬p.Refusing row.idempotencyKey row.proposalHash) :
    OneOutcome ⟨s.db, Function.update s.phase i p⟩ where
  readable := h.readable
  first := h.first
  only := h.only
  settled row hrow happlied :=
    (Function.forall_update_iff s.phase
      (p := fun _ q => ¬q.Refusing row.idempotencyKey row.proposalHash)).mpr
      ⟨hp row hrow happlied, fun j _ => h.settled row hrow happlied j⟩

/-- A proposal is accepted. -/
theorem accept {e : Evaluation} (h : OneOutcome s) (hacc : Accepts reg c hash value s.db e row)
    (hfree : ∀ j, ¬(s.phase j).Refusing row.idempotencyKey row.proposalHash) :
    OneOutcome ⟨e.accept s.db row, Function.update s.phase i .idle⟩ := by
  obtain ⟨key, hkey, hprior⟩ := hacc.first
  rw [receiptRow_key hacc.receipted] at hkey
  obtain rfl := Except.ok.inj hkey
  have hnew := prior?_eq_none_iff.mp hprior
  refine ⟨fun r hr => ?_, fun r hr happlied => ?_, fun r hr happlied r' hr' hk hh => ?_,
    fun r hr happlied => ?_⟩
  · rcases List.mem_append.mp hr with hr | hr
    · exact h.readable r hr
    · obtain rfl := List.mem_singleton.mp hr
      exact rowToReceipt_of_receiptRow hacc.receipted
  · rcases List.mem_append.mp hr with hr | hr
    · exact prior?_append (h.first r hr happlied)
    · obtain rfl := List.mem_singleton.mp hr
      show prior? (s.db.receipts ++ [r]) (some r.idempotencyKey) = some r
      rw [prior?, Option.bind_some] at hprior ⊢
      rw [List.find?_append, hprior]
      simp
  · rcases List.mem_append.mp hr with hold | hr
    · rcases List.mem_append.mp hr' with hr' | hr'
      · exact h.only r hold happlied r' hr' hk hh
      · obtain rfl := List.mem_singleton.mp hr'
        exact absurd hk.symm (hnew r hold)
    · obtain rfl := List.mem_singleton.mp hr
      rcases List.mem_append.mp hr' with hr' | hr'
      · exact absurd hk (hnew r' hr')
      · exact List.mem_singleton.mp hr'
  · refine (Function.forall_update_iff s.phase
      (p := fun _ q => ¬q.Refusing r.idempotencyKey r.proposalHash)).mpr
      ⟨not_refusing_idle, fun j _ => ?_⟩
    rcases List.mem_append.mp hr with hr | hr
    · exact h.settled r hr happlied j
    · obtain rfl := List.mem_singleton.mp hr
      exact hfree j

/-- A rejection receipt is written. -/
theorem reject {pending : Pending} {reading : RootReading} {root : Hash} (h : OneOutcome s)
    (hphase : s.phase i = .rejecting c pending reading) (hown : (s.phase i).OfItsOwn)
    (hrej : Rejects c pending.rejection pending.head root s.db row) :
    OneOutcome ⟨s.db.addReceipt row, Function.update s.phase i .idle⟩ := by
  rw [hphase] at hown
  obtain ⟨hhash, houtcome⟩ := receiptRow_proposalHash hrej
  have hnot : ¬AppliedText row.outcome := by
    rw [houtcome]
    exact not_appliedText hown.1
  have hrefusing : (s.phase i).Refusing row.idempotencyKey row.proposalHash :=
    ⟨c, pending, reading, hphase, receiptRow_key hrej, hhash.symm⟩
  have hold : ∀ r ∈ (s.db.addReceipt row).receipts, AppliedText r.outcome → r ∈ s.db.receipts := by
    intro r hr happlied
    rcases List.mem_append.mp hr with hr | hr
    · exact hr
    · obtain rfl := List.mem_singleton.mp hr
      exact absurd happlied hnot
  refine ⟨fun r hr => ?_, fun r hr happlied => ?_, fun r hr happlied r' hr' hk hh => ?_,
    fun r hr happlied => ?_⟩
  · rcases List.mem_append.mp hr with hr | hr
    · exact h.readable r hr
    · obtain rfl := List.mem_singleton.mp hr
      exact rowToReceipt_of_receiptRow hrej
  · exact prior?_append (h.first r (hold r hr happlied) happlied)
  · have hmem := hold r hr happlied
    rcases List.mem_append.mp hr' with hr' | hr'
    · exact h.only r hmem happlied r' hr' hk hh
    · -- the connection was about to write this very row
      obtain rfl := List.mem_singleton.mp hr'
      rw [hk, hh] at hrefusing
      exact absurd hrefusing (h.settled r hmem happlied i)
  · exact (Function.forall_update_iff s.phase
      (p := fun _ q => ¬q.Refusing r.idempotencyKey r.proposalHash)).mpr
      ⟨not_refusing_idle, fun j _ => h.settled r (hold r hr happlied) happlied j⟩

end OneOutcome

/-! ### Steps and runs -/

/-- What is known of every connection, and the outcomes. -/
structure Settled (s : Sys ι) : Prop where
  follows : ∀ i, (s.phase i).Follows s.db
  own : ∀ i, (s.phase i).OfItsOwn
  outcome : OneOutcome s

/-- The next step of one connection. -/
theorem Settled.move {s : Sys ι} {i : ι} {m : Move} (h : Settled s)
    (hm : (s.phase i).advance reg s.db = some m)
    (haccept : ∀ c hash value e row, s.phase i = .ready c hash value →
      Accepts reg c hash value s.db e row → m.db = e.accept s.db row →
      ∀ j, ¬(s.phase j).Refusing row.idempotencyKey row.proposalHash)
    (hrefuse : ∀ c r, s.phase i = .begun c → preflight c = .ok (.refuse r) →
      ∀ row ∈ s.db.receipts, AppliedText row.outcome →
        columnText c.idempotencyKey = .ok (some row.idempotencyKey) →
        row.proposalHash ≠ r.proposalHash) :
    OneOutcome ⟨m.db, Function.update s.phase i m.phase⟩ := by
  rcases Phase.advance_db hm with hdb | ⟨c, hash, value, e, row, _, hphase, hacc, _, rfl⟩ |
      ⟨c, pending, reading, root, row, _, hphase, _, hrej, _, rfl⟩
  · rw [hdb]
    refine h.outcome.move fun row hrow happlied hrefusing => ?_
    rcases Phase.refusing_of_advance (h.own i) hm hrefusing with hbefore |
        ⟨c, r, hphase, hpre, hkey, hhash⟩ | ⟨c, own, value, hphase, hkey, hhash, hnot⟩
    · exact h.outcome.settled row hrow happlied i hbefore
    · exact hrefuse c r hphase hpre row hrow happlied hkey hhash.symm
    · -- its transaction found the receipt of the proposal
      obtain ⟨receipt, hreceipt⟩ := h.outcome.readable row hrow
      refine hnot receipt ?_
      rw [transaction_of_prior hkey (h.outcome.first row hrow happlied),
        if_neg (not_not.mpr hhash.symm), hreceipt]
      rfl
  · exact h.outcome.accept hacc (haccept c hash value e row hphase hacc rfl)
  · exact h.outcome.reject hphase (h.own i) hrej

theorem Settled.step {s u : Sys ι} {ev : Event ι} (h : Settled s) (hstep : Step reg s ev u)
    (hev : Unrivalled reg s ev) : Settled u := by
  have hown : ∀ i m, (s.phase i).advance reg s.db = some m →
      ∀ j, (Function.update s.phase i m.phase j).OfItsOwn := fun i m hm =>
    (Function.forall_update_iff s.phase (p := fun _ q => q.OfItsOwn)).mpr
      ⟨(h.own i).advance (h.follows i) hm, fun j _ => h.own j⟩
  refine ⟨hstep.follows h.follows, ?_, ?_⟩
  · cases hstep with
    | call i c hi =>
      exact (Function.forall_update_iff s.phase (p := fun _ q => q.OfItsOwn)).mpr
        ⟨trivial, fun j _ => h.own j⟩
    | move i m hm hr => exact hown i m hm
    | finish i c m result hm hr hc => exact hown i m hm
    | fail i c hi =>
      exact (Function.forall_update_iff s.phase (p := fun _ q => q.OfItsOwn)).mpr
        ⟨trivial, fun j _ => h.own j⟩
  · cases hstep with
    | call i c hi =>
      refine h.outcome.move fun _ _ _ hrefusing => ?_
      obtain ⟨_, _, _, hphase, _⟩ := hrefusing
      cases hphase
    | move i m hm hr =>
      refine h.move hm (fun c hash value e row hphase hacc hdb => ?_)
        fun c r hphase hpre => hev.refuse i c r rfl hphase hpre
      -- an acceptance ends its call
      obtain ⟨receipt, hreceipt⟩ := rowToReceipt_of_receiptRow hacc.receipted
      have ht := transaction_accepted.mpr ⟨e, row, hacc, hreceipt, rfl⟩
      rw [hphase, Phase.advance, ht] at hm
      obtain rfl := Option.some.inj hm
      cases hr
    | finish i c m result hm hr hc =>
      refine h.move hm (fun c' hash value e row hphase hacc hdb => ?_)
        fun c' r hphase hpre => ?_
      · obtain ⟨receipt, hreceipt⟩ := rowToReceipt_of_receiptRow hacc.receipted
        have ht := transaction_accepted.mpr ⟨e, row, hacc, hreceipt, rfl⟩
        rw [hphase, Phase.advance, ht] at hm
        obtain rfl := Option.some.inj hm
        obtain rfl := Option.some.inj hr
        rw [hphase] at hc
        obtain rfl := Option.some.inj hc
        exact hev.accept i c' receipt hash value e row rfl hphase hacc
      · -- a call that is refused does not end yet
        rw [hphase, Phase.advance, hpre] at hm
        obtain rfl := Option.some.inj hm
        cases hr
    | fail i c hi =>
      exact h.outcome.move fun _ _ _ => not_refusing_idle

/-- Who brought a proposal that is evaluated is answered from a row of that proposal. -/
theorem Phase.answered_row {p : Phase} {m : Move} {receipt : Receipt} (hown : p.OfItsOwn)
    (hfollows : p.Follows db) (hm : p.advance reg db = some m) (hr : m.result = some (.ok receipt))
    (hc : p.call? = some c) (hpre : preflight c = .ok (.evaluate hash value)) :
    ∃ row ∈ m.db.receipts, columnText c.idempotencyKey = .ok (some row.idempotencyKey) ∧
      row.proposalHash = hash ∧ rowToReceipt row = .ok receipt := by
  cases p with
  | idle => cases hm
  | begun d =>
    simp only [Phase.advance] at hm
    split at hm <;> (cases hm; cases hr)
  | ready d own value' =>
    obtain rfl := Option.some.inj hc
    rw [Phase.Follows, hpre] at hfollows
    cases hfollows
    simp only [Phase.advance] at hm
    split at hm
    · next ht =>
      cases hm
      obtain rfl := Except.ok.inj (Option.some.inj hr)
      obtain ⟨key, row, hkey, hprior, hhash, hreceipt⟩ := transaction_replayed ht
      have hrow : row.idempotencyKey = key := by
        simpa using List.find?_some hprior
      exact ⟨row, List.mem_of_find?_eq_some hprior, by rw [hrow]; exact hkey, hhash, hreceipt⟩
    · next ht =>
      cases hm
      obtain rfl := Except.ok.inj (Option.some.inj hr)
      obtain ⟨e, row, hacc, hreceipt, rfl⟩ := transaction_accepted.mp ht
      exact ⟨row, List.mem_append_right _ (List.mem_singleton_self row),
        receiptRow_key hacc.receipted, (receiptRow_proposalHash hacc.receipted).1, hreceipt⟩
    · cases hm
      cases hr
    · cases hm
      unfold Phase.handle at hr
      split at hr
      · cases hr
      · cases hr
  | rejecting d pending reading =>
    obtain rfl := Option.some.inj hc
    simp only [Phase.advance] at hm
    split at hm
    · cases hm
      cases hr
    · split at hm
      · next hi =>
        cases hm
        obtain rfl := Except.ok.inj (Option.some.inj hr)
        obtain ⟨row, hrow, hreceipt, rfl⟩ := insertReceipt_eq_ok.mp hi
        refine ⟨row, List.mem_append_right _ (List.mem_singleton_self row), receiptRow_key hrow,
          ?_, hreceipt⟩
        rw [(receiptRow_proposalHash hrow).1]
        exact congrArg Text.text (hown.2.1 hash value hpre)
      · cases hm
        cases hr
      · cases hm
        unfold Phase.handle at hr
        split at hr
        · cases hr
        · cases hr

/-- Every receipt that was returned for a proposal that is evaluated is of a row. -/
def Answered (es : List (Event ι)) (db : Db) : Prop :=
  ∀ i c receipt hash value, .ended i c (.ok receipt) ∈ es →
    preflight c = .ok (.evaluate hash value) →
    ∃ row ∈ db.receipts, columnText c.idempotencyKey = .ok (some row.idempotencyKey) ∧
      row.proposalHash = hash ∧ rowToReceipt row = .ok receipt

/-- Receipts stay. -/
theorem Step.receipts_subset {s u : Sys ι} {ev : Event ι} (h : Step reg s ev u) :
    s.db.receipts ⊆ u.db.receipts := by
  rcases h.db_cases with h | ⟨_, _, _, _, e, row, _, _, rfl, _⟩ | ⟨_, _, _, _, _, row, _, _, _, rfl, _⟩
  · rw [h]
    exact List.Subset.refl _
  · exact List.subset_append_left _ _
  · exact List.subset_append_left _ _

theorem RunWhere.settled {es : List (Event ι)} {u : Sys ι}
    (h : RunWhere reg (Unrivalled reg) (.start .empty) es u) : Settled u ∧ Answered es u.db := by
  induction h with
  | nil =>
    exact ⟨⟨fun _ => trivial, fun _ => trivial, .start⟩, fun _ _ _ _ _ h => absurd h List.not_mem_nil⟩
  | snoc _ hev hstep ih =>
    obtain ⟨hsettled, hanswered⟩ := ih
    refine ⟨hsettled.step hstep hev, fun i c receipt hash value hmem hpre => ?_⟩
    rcases List.mem_append.mp hmem with hmem | hmem
    · obtain ⟨row, hrow, h⟩ := hanswered i c receipt hash value hmem hpre
      exact ⟨row, hstep.receipts_subset hrow, h⟩
    · obtain rfl := List.mem_singleton.mp hmem
      cases hstep with
      | finish i c m result hm hr hc =>
        exact Phase.answered_row (hsettled.own i) (hsettled.follows i) hm hr hc hpre

/-- **One outcome.**  In an interleaving in which no proposal is accepted while a
rejection of it is still to be written, all who bring a proposal that was accepted get
the receipt of its acceptance, and every stored receipt of it is of an acceptance. -/
theorem one_outcome (reg : Registry) (es : List (Event ι)) (u : Sys ι)
    (hrun : RunWhere reg (Unrivalled reg) (.start .empty) es u) (i : ι) (c : Call)
    (receipt : Receipt) (hash : Hash) (value : Json) (hended : .ended i c (.ok receipt) ∈ es)
    (hpre : preflight c = .ok (.evaluate hash value)) (happlied : AppliedText receipt.outcome) :
    (∀ j d answer, .ended j d (.ok answer) ∈ es → d.proposal = c.proposal → answer = receipt) ∧
    ∀ row ∈ u.db.receipts, columnText c.idempotencyKey = .ok (some row.idempotencyKey) →
      row.proposalHash = hash → AppliedText row.outcome := by
  obtain ⟨hsettled, hanswered⟩ := hrun.settled
  obtain ⟨first, hfirst, hkey, hhash, hreceipt⟩ := hanswered i c receipt hash value hended hpre
  rw [rowToReceipt_outcome hreceipt] at happlied
  have honly : ∀ row ∈ u.db.receipts, columnText c.idempotencyKey = .ok (some row.idempotencyKey) →
      row.proposalHash = hash → row = first := by
    intro row hrow hkey' hhash'
    rw [hkey] at hkey'
    exact hsettled.outcome.only first hfirst happlied row hrow
      (Option.some.inj (Except.ok.inj hkey')).symm (hhash'.trans hhash.symm)
  refine ⟨fun j d answer hended' hsame => ?_, fun row hrow hkey' hhash' => ?_⟩
  · obtain ⟨row, hrow, hkey', hhash', hanswer⟩ :=
      hanswered j d answer hash value hended' (preflight_congr hsame hpre)
    rw [idempotencyKey_congr hsame] at hkey'
    rw [honly row hrow hkey' hhash', hreceipt] at hanswer
    exact (Except.ok.inj hanswer).symm
  · rw [honly row hrow hkey' hhash']
    exact happlied

/-- A single connection has no rival. -/
theorem unrivalled_alone {s : Sys Unit} {ev : Event Unit} {p : Phase} (hp : s.phase () = p)
    (hphase : ∀ key hash, ¬p.Refusing key hash)
    (hpre : ∀ c r, p = .begun c → preflight c ≠ .ok (.refuse r)) : Unrivalled reg s ev where
  accept _ _ _ _ _ _ _ _ _ _ _ := by
    rw [hp]
    exact hphase _ _
  refuse _ c r _ hbegun hrefuse := absurd hrefuse (hpre c r (hp.symm.trans hbegun))

/-- The only connection brings a proposal that is accepted. -/
theorem exists_alone {e : Evaluation} (hpre : preflight c = .ok (.evaluate hash value))
    (hacc : Accepts reg c hash value .empty e row) :
    ∃ es, ∃ u : Sys Unit, ∃ receipt, RunWhere reg (Unrivalled reg) (.start .empty) es u ∧
      .ended () c (.ok receipt) ∈ es ∧ AppliedText receipt.outcome := by
  obtain ⟨receipt, hreceipt⟩ := rowToReceipt_of_receiptRow hacc.receipted
  have hcall : Step reg (.start .empty) (.called () c)
      ⟨.empty, Function.update (fun _ => .idle) () (.begun c)⟩ := .call () c rfl
  have hready : Step reg ⟨.empty, Function.update (fun _ => .idle) () (.begun c)⟩ (.silent ())
      ⟨.empty, Function.update (Function.update (fun _ => .idle) () (.begun c)) ()
        (.ready c hash value)⟩ := by
    refine .move () ⟨.empty, _, none⟩ ?_ rfl
    simp only [Function.update_self, Phase.advance, hpre]
  rw [Function.update_idem] at hready
  have hfinish : Step reg ⟨.empty, Function.update (fun _ => .idle) () (.ready c hash value)⟩
      (.ended () c (.ok receipt)) ⟨e.accept .empty row,
        Function.update (Function.update (fun _ => .idle) () (.ready c hash value)) () .idle⟩ := by
    refine .finish () c ⟨e.accept .empty row, .idle, some (.ok receipt)⟩ (.ok receipt) ?_ rfl ?_
    · have ht := transaction_accepted.mpr ⟨e, row, hacc, hreceipt, rfl⟩
      simp only [Function.update_self, Phase.advance, ht]
    · simp only [Function.update_self, Phase.call?]
  have hbegun : ∀ d r, Phase.begun c = .begun d → preflight d ≠ .ok (.refuse r) := by
    intro d r h hrefuse
    obtain rfl := Phase.begun.inj h
    rw [hpre] at hrefuse
    cases hrefuse
  refine ⟨_, _, receipt, ((RunWhere.nil.snoc ?_ hcall).snoc ?_ hready).snoc ?_ hfinish, by simp, ?_⟩
  · exact unrivalled_alone (p := .idle) rfl (fun _ _ => not_refusing_idle) fun _ _ h => by cases h
  · refine unrivalled_alone (p := .begun c) rfl (fun _ _ h => ?_) hbegun
    obtain ⟨_, _, _, h, _⟩ := h
    cases h
  · refine unrivalled_alone (p := .ready c hash value) rfl (fun _ _ h => ?_) fun _ _ h => by cases h
    obtain ⟨_, _, _, h, _⟩ := h
    cases h
  · rw [rowToReceipt_outcome hreceipt]
    exact hacc.applied

end

section

attribute [local instance] Host.utc

/-- A question that one connection opens. -/
theorem one_outcome_of_question :
    ∃ (es : List (Event Unit)) (u : Sys Unit) (receipt : Receipt),
      .ended () questionProposal.call (.ok receipt) ∈ es ∧
      (∀ j d answer, .ended j d (.ok answer) ∈ es → d.proposal = questionProposal.call.proposal →
        answer = receipt) ∧
      ∀ row ∈ u.db.receipts,
        columnText questionProposal.call.idempotencyKey = .ok (some row.idempotencyKey) →
        row.proposalHash = sha256Json (Proposal.codec.enc questionProposal) →
        AppliedText row.outcome := by
  obtain ⟨row, hacc⟩ := questionProposal_accepts
  obtain ⟨es, u, receipt, hrun, hended, happlied⟩ := exists_alone preflight_question hacc
  exact ⟨es, u, receipt, hended, one_outcome ownerRegistry es u hrun () questionProposal.call
    receipt _ _ hended preflight_question happlied⟩

end

/-! ### A proposal that becomes valid -/

def followUpQuestion : NewOpenQuestion :=
  ⟨{ answer := none, context := auditContext, drop := none,
     openedAt := "2026-01-01T00:00:00Z", openedBy := ownerActor,
     question := ⟨"Since when?", by decide⟩, questionId := ⟨"question_00000002", by decide⟩,
     relatedObjects := noObjects, status := .open, version := .first },
    by decide⟩

/-- A proposal that is valid only while the question of `questionProposal` is open. -/
def followUpProposal : Proposal :=
  { ownerProposal ⟨"follow-up-1", by decide⟩ secondProposal
      (.openQuestion firstOperation followUpQuestion) with
    guards := ⟨[.questionStatusEq .open firstQuestion], by decide⟩ }

def followUpTables : Tables :=
  { questionTables with
    openQuestions := questionTables.openQuestions.insert followUpQuestion.1.questionId
      ⟨.open, 1, none, none, followUpQuestion.1⟩ }

def followUpTxn : Txn := ⟨followUpTables, [.questionOpened followUpQuestion], []⟩

section

attribute [local instance] Host.utc

/-- The parts of the entries of the two questions. -/
def questionParts : EntryParts :=
  entryParts .empty questionProposal (sha256Json (Proposal.codec.enc questionProposal)) questionTxn

def followUpParts : EntryParts where
  seq := 2
  prevHash := some (sha256Json (ledgerEnvelope questionParts))
  proposalHash := sha256Json (Proposal.codec.enc followUpProposal)
  preStateRoot := stateRootForSchema supportedSchema questionTables
  postStateRoot := stateRootForSchema supportedSchema followUpTables
  versions := VersionBundle.codec.enc ownerVersions
  events := eventsJson [.questionOpened followUpQuestion]
  committedAt := "2026-01-01T00:00:00Z"

/-- The digest of a value, evaluated. -/
theorem sha256Json_of_hex {value : Json} {digits : String}
    (h : ((Sha256.fastDigest (value.fastPrint [])).flatMap fun w => codes (Sha256.hexWord w)) =
      stored digits) : (sha256Json value : String) = "sha256:" ++ digits := by
  show String.ofList ("sha256:".toList ++ sha256Hex _) = _
  rw [sha256Hex_of_fastPrint h, String.ofList_append, String.ofList_toList, String.ofList_toList]

/-- The digests of the two proposals and of the tables, evaluated. -/
theorem question_digests :
    (sha256Json (Proposal.codec.enc questionProposal) : String) =
      "sha256:" ++ "d9d5a69f73a6a0dcc9564be60b277be483b34682b5876aeae5d84bf9dca6062e" ∧
    (stateRootForSchema supportedSchema .empty : String) =
      "sha256:" ++ "0fb981e88fdb5e53adfa2558f91b9bd85e17393a31cc4106c17abca8eb2123ef" ∧
    (stateRootForSchema supportedSchema questionTables : String) =
      "sha256:" ++ "c22a21cf2111cb0930d38e3a845346dcdf2ad7b7f4548b62b40caa3bc1457b66" ∧
    (sha256Json (Proposal.codec.enc followUpProposal) : String) =
      "sha256:" ++ "0d713ad0d51111cc03ca9d83dea72f2a48762d1ace8381829b4b66f2ad78dd99" ∧
    (stateRootForSchema supportedSchema followUpTables : String) =
      "sha256:" ++ "e9e1dafc7f513d020603d8244c10b7bef702438dc1d52b4e71f642fd72a542b2" := by
  refine ⟨sha256Json_of_hex ?_, sha256Json_of_hex ?_, sha256Json_of_hex ?_, sha256Json_of_hex ?_,
    sha256Json_of_hex ?_⟩
  · decide +kernel
  · decide +kernel
  · decide +kernel
  · decide +kernel
  · decide +kernel

theorem questionProposal_hash : (sha256Json (Proposal.codec.enc questionProposal) : String) =
    "sha256:" ++ "d9d5a69f73a6a0dcc9564be60b277be483b34682b5876aeae5d84bf9dca6062e" :=
  question_digests.1

theorem emptyRoot : (stateRootForSchema supportedSchema .empty : String) =
    "sha256:" ++ "0fb981e88fdb5e53adfa2558f91b9bd85e17393a31cc4106c17abca8eb2123ef" :=
  question_digests.2.1

theorem questionRoot : (stateRootForSchema supportedSchema questionTables : String) =
    "sha256:" ++ "c22a21cf2111cb0930d38e3a845346dcdf2ad7b7f4548b62b40caa3bc1457b66" :=
  question_digests.2.2.1

theorem followUpProposal_hash : (sha256Json (Proposal.codec.enc followUpProposal) : String) =
    "sha256:" ++ "0d713ad0d51111cc03ca9d83dea72f2a48762d1ace8381829b4b66f2ad78dd99" :=
  question_digests.2.2.2.1

theorem followUpRoot : (stateRootForSchema supportedSchema followUpTables : String) =
    "sha256:" ++ "e9e1dafc7f513d020603d8244c10b7bef702438dc1d52b4e71f642fd72a542b2" :=
  question_digests.2.2.2.2

/-- The digests of the two entries, evaluated. -/
theorem questionEntries_digests :
    (sha256Json (ledgerEnvelope questionParts) : String) =
      "sha256:" ++ "789173f6fc210413d4431a3e4bdb8decde3261163f8a6c65db0d6bde994cbbe7" ∧
    (sha256Json (ledgerEnvelope followUpParts) : String) =
      "sha256:" ++ "78ae06b6339eb4c4df5985862bf7582e4dccb433dc7433938e208b80e46e8e24" := by
  have hquestion : (sha256Json (ledgerEnvelope questionParts) : String) =
      "sha256:" ++ "789173f6fc210413d4431a3e4bdb8decde3261163f8a6c65db0d6bde994cbbe7" := by
    refine sha256Json_of_hex ?_
    simp only [ledgerEnvelope, idColumn, questionParts, entryParts, questionProposal_hash]
    rw [show (stateRoot Db.empty : String) = _ from emptyRoot]
    rw [show (stateRootForSchema (questionProposal.versions.1.schema) questionTxn.tables : String) =
      _ from questionRoot]
    decide +kernel
  refine ⟨hquestion, sha256Json_of_hex ?_⟩
  rw [ledgerEnvelope]
  simp only [followUpParts, hquestion, idColumn, questionRoot, followUpRoot, followUpProposal_hash]
  decide +kernel

theorem questionEntry_hash : (sha256Json (ledgerEnvelope questionParts) : String) =
    "sha256:" ++ "789173f6fc210413d4431a3e4bdb8decde3261163f8a6c65db0d6bde994cbbe7" :=
  questionEntries_digests.1

theorem followUpEntry_hash : (sha256Json (ledgerEnvelope followUpParts) : String) =
    "sha256:" ++ "78ae06b6339eb4c4df5985862bf7582e4dccb433dc7433938e208b80e46e8e24" :=
  questionEntries_digests.2

theorem Proposal.evaluation_entryHash [Host] {p : Proposal} {db : Db} {w : Txn} :
    (p.evaluation db w).row.entryHash = sha256Json (ledgerEnvelope (p.evaluation db w).parts) := rfl

section

variable {reg : Registry} {p q : Proposal} {w w' : Txn} {row : ReceiptRow}

theorem nextLedgerSeq_second :
    nextLedgerSeq ((p.evaluation .empty w).accept .empty row).ledger = 2 := by
  simp only [Evaluation.accept_ledger, Db.empty, List.nil_append, nextLedgerSeq,
    Proposal.evaluation, ledgerRow, entryParts]
  rfl

/-- The parts of the second entry. -/
theorem second_parts (heval : evaluate reg .empty (Proposal.codec.enc p)
      (sha256Json (Proposal.codec.enc p)) = .ok (p.evaluation .empty w)) :
    (q.evaluation ((p.evaluation .empty w).accept .empty row) w').parts = {
      seq := 2
      prevHash := some (sha256Json (ledgerEnvelope (p.evaluation .empty w).parts))
      proposalHash := sha256Json (Proposal.codec.enc q)
      preStateRoot := stateRootForSchema supportedSchema w.tables
      postStateRoot := stateRootForSchema q.versions.1.schema w'.tables
      versions := VersionBundle.codec.enc q.versions
      events := eventsJson w'.events
      committedAt := q.proposedAt } := by
  rw [Proposal.evaluation]
  simp only [entryParts, headEntryHash_accept, Proposal.evaluation_entryHash,
    stateRoot_accept_eq heval, nextLedgerSeq_second]
  rfl

/-- A proposal that passes its checks is accepted after another, when the two entries differ in
their digests. -/
theorem accepts_second (hpre : preflight p.call = .ok (.evaluate (sha256Json (Proposal.codec.enc p))
      (Proposal.codec.enc p)))
    (hacc : Accepts reg p.call (sha256Json (Proposal.codec.enc p)) (Proposal.codec.enc p) .empty
      (p.evaluation .empty w) row)
    (hid : recordIdPattern.fullmatch q.proposalId = true)
    (hkey : idempotencyKeyPattern.fullmatch q.idempotencyKey = true)
    (hnew : (p.idempotencyKey : String) ≠ q.idempotencyKey)
    (hvalid : validateProposal reg w.tables q = .ok ())
    (happly : applyOperations reg q.proposer 2 w.tables q.operations.1 = .ok w')
    (hevents : w'.events ≠ []) (hev : ∀ ev ∈ w'.events, ev.Valid)
    (hapart : (sha256Json (ledgerEnvelope (p.evaluation .empty w).parts) : String) ≠
      sha256Json (ledgerEnvelope
        (q.evaluation ((p.evaluation .empty w).accept .empty row) w').parts)) :
    ∃ row', Accepts reg q.call (sha256Json (Proposal.codec.enc q)) (Proposal.codec.enc q)
      ((p.evaluation .empty w).accept .empty row)
      (q.evaluation ((p.evaluation .empty w).accept .empty row) w') row' := by
  have hrow : row.id = 1 := receiptRow_id hacc.receipted
  have hrowKey : row.idempotencyKey = p.idempotencyKey := hacc.key hpre
  refine accepts_of_checks ⟨?_, ?_, ?_⟩ (JsonOf.toJson?_raw (Proposal.codec.sorted _)) hid hkey
    ?_ hvalid ?_ hevents hev ?_
  · rw [headEntryHash_accept]
    exact hashText_some (sha256Json _)
  · rw [nextLedgerSeq_second]
    decide
  · simp [nextReceiptId, Db.empty, hrow, maxRowId]
  · intro r hr
    obtain rfl := List.mem_singleton.mp hr
    rw [hrowKey]
    exact hnew
  · rw [nextLedgerSeq_second]
    exact happly
  · intro r hr
    obtain rfl := List.mem_singleton.mp hr
    rw [Proposal.evaluation_entryHash, Proposal.evaluation_entryHash]
    exact hapart

end

theorem questionProposal_parts :
    (questionProposal.evaluation .empty questionTxn).parts = questionParts := by
  rw [Proposal.evaluation, questionParts]

theorem followUp_parts {row : ReceiptRow}
    (heval : evaluate ownerRegistry .empty (Proposal.codec.enc questionProposal)
      (sha256Json (Proposal.codec.enc questionProposal)) =
        .ok (questionProposal.evaluation .empty questionTxn)) :
    (followUpProposal.evaluation ((questionProposal.evaluation .empty questionTxn).accept .empty
      row) followUpTxn).parts = followUpParts := by
  have hpost : stateRootForSchema followUpProposal.versions.1.schema followUpTxn.tables =
      stateRootForSchema supportedSchema followUpTables :=
    congrArg (fun schema => stateRootForSchema schema followUpTables) rfl
  rw [second_parts heval, questionProposal_parts, hpost, followUpParts]
  rfl

theorem preflight_followUp : preflight followUpProposal.call =
    .ok (.evaluate (sha256Json (Proposal.codec.enc followUpProposal))
      (Proposal.codec.enc followUpProposal)) := by
  refine preflight_evaluate.mpr ⟨?_, JsonOf.toJson?_raw (Proposal.codec.sorted _), ?_, ?_, rfl⟩
  · decide
  · decide
  · exact JsonOf.length_utf8_dumps_le (by decide)

/-- A proposal under a new key that fails a check raises what the check raises. -/
theorem transaction_of_check {reg : Registry} {c : Call} {db : Db} {hash : Hash} {p : Proposal}
    {key : String} {e : PyExc} (hkey : columnText c.idempotencyKey = .ok (some key))
    (hprior : prior? db.receipts (some key) = none)
    (hvalid : validateProposal reg db.tables p = .error e) :
    transaction reg c db hash (Proposal.codec.enc p) = .error e := by
  have hcontract : contractProposal reg (Proposal.codec.enc p) = .ok p :=
    contractProposal_eq_ok.mpr rfl
  simp only [transaction, hkey, ok_bind, hprior, evaluate, hcontract, hvalid, error_bind]

/-- Before the question is open, the guard fails. -/
theorem followUp_refused (hash : Hash) : transaction ownerRegistry followUpProposal.call .empty
    hash (Proposal.codec.enc followUpProposal) =
      .error (.transactionConflict .questionStatusMismatch) := by
  have hkey : columnText followUpProposal.call.idempotencyKey = .ok (some "follow-up-1") := by
    rw [idempotencyKey_of_toJson? (JsonOf.toJson?_raw (Proposal.codec.sorted _)), columnText_str]
    rfl
  refine transaction_of_check hkey rfl ?_
  have hreads : validateRequiredOperationReads followUpProposal = .ok () := by decide
  rw [validateProposal, show validateVersions ownerRegistry followUpProposal.versions = .ok () from
    validateVersions_owner, ok_bind, hreads, ok_bind]
  rfl

theorem followUp_accepts {row : ReceiptRow}
    (hacc : Accepts ownerRegistry questionProposal.call
      (sha256Json (Proposal.codec.enc questionProposal)) (Proposal.codec.enc questionProposal)
      .empty (questionProposal.evaluation .empty questionTxn) row) :
    ∃ row', Accepts ownerRegistry followUpProposal.call
      (sha256Json (Proposal.codec.enc followUpProposal)) (Proposal.codec.enc followUpProposal)
      ((questionProposal.evaluation .empty questionTxn).accept .empty row)
      (followUpProposal.evaluation ((questionProposal.evaluation .empty questionTxn).accept .empty
        row) followUpTxn) row' := by
  refine accepts_second preflight_question hacc (by decide) (by decide) (by decide) ?_ ?_
    (by decide) ?_ ?_
  · simp only [validateProposal, bind_eq_ok]
    refine ⟨(), validateVersions_owner, (), by decide, (), ?_, ?_⟩
    · rfl
    · rfl
  · rfl
  · intro ev hev
    obtain rfl := List.mem_singleton.mp hev
    trivial
  · rw [followUp_parts hacc.evaluated, questionProposal_parts, questionEntry_hash,
      followUpEntry_hash]
    decide

/-- Another proposal is accepted, and this one after it, while the receipt of its first
attempt, which was rejected, is still to be written. -/
theorem exists_rival {reg : Registry} {c d : Call} {hash hash' : Hash} {value value' : Json}
    {e e' : Evaluation} {row row' last : ReceiptRow} {ex : PyExc} {r : Rejection}
    (hpre : preflight c = .ok (.evaluate hash value))
    (hpre' : preflight d = .ok (.evaluate hash' value'))
    (hraise : transaction reg c .empty hash value = .error ex) (hr : rejectionOf c hash ex = some r)
    (hother : Accepts reg d hash' value' .empty e row)
    (hacc : Accepts reg c hash value (e.accept .empty row) e' row')
    (hrej : Rejects c r none (stateRootForSchema supportedSchema .empty)
      (e'.accept (e.accept .empty row) row') last) :
    ∃ es, ∃ u : Sys Bool, ∃ receipt, Run reg (.start .empty) es u ∧
      .ended false c (.ok receipt) ∈ es ∧ rowToReceipt row' = .ok receipt ∧
      last ∈ u.db.receipts := by
  obtain ⟨receipt, hreceipt⟩ := rowToReceipt_of_receiptRow hacc.receipted
  -- the first attempt is evaluated and rejected
  obtain ⟨es₁, h₁⟩ := @Run.ready _ reg _ _ (.start .empty : Sys Bool) true _ _ _ rfl hpre
  have hrefuse : Step reg ⟨.empty, Function.update (fun _ => .idle) true (.ready c hash value)⟩
      (.silent true) ⟨.empty, Function.update (Function.update (fun _ => .idle) true
        (.ready c hash value)) true (.rejecting c ⟨r, none, none⟩ .start)⟩ := by
    refine .move true ⟨.empty, _, none⟩ ?_ rfl
    simp only [Function.update_self, Phase.advance, hraise, Phase.handle, hr]
    rfl
  rw [Function.update_idem] at hrefuse
  obtain ⟨es₂, h₂⟩ := @Run.readRoot _ reg _ _ ⟨.empty,
    Function.update (fun _ => .idle) true (.rejecting c ⟨r, none, none⟩ .start)⟩ true _ _ rfl
  rw [Function.update_idem] at h₂
  -- the other proposal is accepted
  obtain ⟨es₃, h₃⟩ := Run.accepted (i := false) (s := ⟨.empty, Function.update (fun _ => .idle) true
    (.rejecting c ⟨r, none, none⟩ ⟨some supportedSchema, .empty, []⟩)⟩) rfl hpre' hother
  -- the second attempt is accepted
  obtain ⟨es₄, h₄⟩ := @Run.ready _ reg _ _ ⟨e.accept .empty row,
    Function.update (Function.update (fun _ => .idle) true (.rejecting c ⟨r, none, none⟩
      ⟨some supportedSchema, .empty, []⟩)) false .idle⟩ false _ _ _ rfl hpre
  rw [Function.update_idem] at h₄
  have haccept : Step reg ⟨e.accept .empty row, Function.update (Function.update (fun _ => .idle)
      true (.rejecting c ⟨r, none, none⟩ ⟨some supportedSchema, .empty, []⟩)) false
        (.ready c hash value)⟩ (.ended false c (.ok receipt))
      ⟨e'.accept (e.accept .empty row) row', Function.update (Function.update (Function.update
        (fun _ => .idle) true (.rejecting c ⟨r, none, none⟩ ⟨some supportedSchema, .empty, []⟩))
        false (.ready c hash value)) false .idle⟩ := by
    refine .finish false _ ⟨e'.accept (e.accept .empty row) row', .idle, some (.ok receipt)⟩
      (.ok receipt) ?_ rfl ?_
    · have ht := transaction_accepted.mpr ⟨e', row', hacc, hreceipt, rfl⟩
      simp only [Function.update_self, Phase.advance, ht]
    · simp only [Function.update_self, Phase.call?]
  rw [Function.update_idem] at haccept
  -- the first attempt writes its receipt
  obtain ⟨es₅, h₅⟩ := @Run.rejected _ reg _ _ ⟨e'.accept (e.accept .empty row) row', Function.update
    (Function.update
      (fun _ => .idle) true (.rejecting c ⟨r, none, none⟩ ⟨some supportedSchema, .empty, []⟩))
      false .idle⟩ true _ _ _ _ _ rfl hrej
  have hrun := ((((((h₁.snoc trivial hrefuse).trans h₂).trans h₃).trans h₄).snoc trivial
    haccept).trans h₅)
  exact ⟨_, _, receipt, hrun, by simp, hreceipt,
    List.mem_append_right _ (List.mem_singleton_self last)⟩

/-- A proposal is evaluated before the question is open, and rejected; it is brought again
once the question is open, and accepted; then its rejection is written. -/
theorem outcomes_differ : ¬∀ (reg : Registry) (es : List (Event Bool)) (u : Sys Bool),
    Run reg (.start .empty) es u → ∀ i c receipt hash value, .ended i c (.ok receipt) ∈ es →
    preflight c = .ok (.evaluate hash value) → AppliedText receipt.outcome →
    (∀ j d answer, .ended j d (.ok answer) ∈ es → d.proposal = c.proposal → answer = receipt) ∧
    ∀ row ∈ u.db.receipts, columnText c.idempotencyKey = .ok (some row.idempotencyKey) →
      row.proposalHash = hash → AppliedText row.outcome := by
  intro h
  obtain ⟨row, hacc⟩ := questionProposal_accepts
  obtain ⟨row', hacc'⟩ := followUp_accepts hacc
  have hrefused := followUp_refused (sha256Json (Proposal.codec.enc followUpProposal))
  have hpre := preflight_followUp
  generalize sha256Json (Proposal.codec.enc followUpProposal) = hash at hacc' hrefused hpre
  have hrow : row.id = 1 := receiptRow_id hacc.receipted
  have hrow' : row'.id = 2 := by
    rw [receiptRow_id hacc'.receipted]
    simp [nextReceiptId, Evaluation.apply, Db.empty, hrow]
  have houtcome : ¬Outcome.transactionConflict.Accepted := by decide
  have hdec : (decidedAtText followUpProposal.call (some (proposalDecidedAt
      followUpProposal.call))).toString? = some "2026-01-01T00:00:00Z" := by decide
  obtain ⟨last, hrej⟩ := @receiptRow_rejection_ok _ followUpProposal.call
    ((followUpProposal.evaluation ((questionProposal.evaluation .empty questionTxn).accept
      .empty row) followUpTxn).accept ((questionProposal.evaluation .empty questionTxn).accept
        .empty row) row') ⟨hash, .transactionConflict, .questionStatusMismatch,
      some (proposalDecidedAt followUpProposal.call)⟩ none
    (stateRootForSchema supportedSchema .empty) _ "follow-up-1" "proposal_00000002" houtcome
    (by rw [Rejection.namedHead, headEntryHash_accept]; exact hashText_some (sha256Json _))
    hdec rfl rfl (by simp [nextReceiptId, Db.empty, hrow, hrow', maxRowId])
  obtain ⟨es, u, receipt, hrun, hended, hreceipt, hlast⟩ :=
    exists_rival hpre preflight_question hrefused rfl hacc hacc' hrej
  obtain ⟨-, hrows⟩ := h ownerRegistry es u hrun false followUpProposal.call receipt hash _ hended
    hpre (by rw [rowToReceipt_outcome hreceipt]; exact hacc'.applied)
  have happlied := hrows last hlast (receiptRow_key hrej) (receiptRow_proposalHash hrej).1
  rw [(receiptRow_proposalHash hrej).2] at happlied
  exact not_appliedText houtcome happlied

end

end SharedMind
