import SharedMind.Service.Alone

/-!
# Who loses a race

* `Tracks`: what that session knows of its work item, wherever it stands.
* `progress_contention`: **a `progress` on a work item that is there returns, unless a read or
  write fails or two other changes of the item come in between**.
-/

namespace SharedMind.Service

open Py Projection

section

variable [Host] {ι : Type} [DecidableEq ι] {reg : Registry} {r : StatusRequest}
  {row : WorkItemRow} {db : Db}

/-- The work item has a larger version than was seen. -/
def Lost (t : Tables) (r : StatusRequest) (row : WorkItemRow) : Prop :=
  ∃ row', t.workItems[r.workItemId]? = some row' ∧ row.version < row'.version

/-- A connection inside the call of a session that saw a row. -/
def Pursues (db : Db) (r : StatusRequest) (row : WorkItemRow) (phase : Phase) : Prop :=
  (∃ c hash value, phase.call? = some c ∧ preflight c = .ok (.evaluate hash value)) ∧
  match phase with
  | .rejecting c pending _ =>
    HashText pending.head ∧ Lost db.tables r row ∧
      ∃ hash code, rejectionOf c hash (.transactionConflict code) = some pending.rejection
  | _ => True

/-- How a session's work item was seen. -/
structure Saw (t : Tables) (r : StatusRequest) (n : Nat) (intent : Intent) (row : WorkItemRow)
    (attempt : Nat) : Prop where
  intent_eq : intent = .update r (seenRow row) attempt
  attempt_le : attempt ≤ 1
  least : n + attempt ≤ row.version
  had : Had t r.workItemId row

/-- What a session knows that changes the status of a work item, which had version `n` when it
was started. -/
def Tracks (db : Db) (r : StatusRequest) (n : Nat) (phase : Phase) : Session → Prop
  | .out => False
  | .finding q attempt documents offset =>
    q = .progress r ∧ attempt ≤ 1 ∧ Looking db.tables r.workItemId (n + attempt) documents offset
  | .rooting intent _ => ∃ row attempt, Saw db.tables r n intent row attempt
  | .committing intent _ =>
    ∃ row attempt, Saw db.tables r n intent row attempt ∧ Pursues db r row phase

/-! ### Others -/

omit [Host] in
theorem Lost.advance {t u : Tables} (h : Lost t r row) (hadv : t.Advance u) : Lost u r row := by
  obtain ⟨row', hrow', hlt⟩ := h
  obtain ⟨row'', hrow'', hkept⟩ := hadv.workItems _ _ hrow'
  refine ⟨row'', hrow'', ?_⟩
  rcases hkept with rfl | hlt'
  · exact hlt
  · exact hlt.trans hlt'

omit [Host] in
theorem Saw.advance {t u : Tables} {n attempt : Nat} {intent : Intent}
    (h : Saw t r n intent row attempt) (hadv : t.Advance u) : Saw u r n intent row attempt :=
  ⟨h.intent_eq, h.attempt_le, h.least, h.had.advance hadv⟩

theorem Pursues.advance {db' : Db} {phase : Phase} (h : Pursues db r row phase)
    (hadv : db.tables.Advance db'.tables) : Pursues db' r row phase := by
  refine ⟨h.1, ?_⟩
  have hphase := h.2
  cases phase with
  | rejecting c pending reading => exact ⟨hphase.1, hphase.2.1.advance hadv, hphase.2.2⟩
  | idle => trivial
  | begun c => trivial
  | ready c hash value => trivial

/-- Whatever others do, a session knows what it knew. -/
theorem Tracks.advance {db' : Db} {n : Nat} {phase : Phase} {session : Session}
    (h : Tracks db r n phase session) (hadv : db.tables.Advance db'.tables) :
    Tracks db' r n phase session := by
  cases session with
  | out => exact h
  | finding q attempt documents offset => exact ⟨h.1, h.2.1, h.2.2.advance hadv⟩
  | rooting intent reading =>
    obtain ⟨row, attempt, hsaw⟩ := h
    exact ⟨row, attempt, hsaw.advance hadv⟩
  | committing intent proposal =>
    obtain ⟨row, attempt, hsaw, hpursues⟩ := h
    exact ⟨row, attempt, hsaw.advance hadv, hpursues.advance hadv⟩

end

/-! ### Inside the call -/

section

variable [Host] {reg : Registry} {r : StatusRequest} {row : WorkItemRow} {db : Db} {phase : Phase}
  {m : Move} {value : Json}

/-- A rejection receipt after a conflict can be written. -/
theorem rejected_ok {c : Call} {pending : Pending} {hash : Hash} {code : ReasonCode} {root : Hash}
    {p : Proposal} (hjson : c.proposal.toJson? = some (Proposal.codec.enc p))
    (hkept : db.Kept) (hnumbers : db.HasNumbers) (hhead : HashText pending.head)
    (hrejection : rejectionOf c hash (.transactionConflict code) = some pending.rejection) :
    ∃ receipt db', insertReceipt c db (pending.rejection.input pending.head root) =
        .ok (receipt, db') ∧ db'.tables = db.tables ∧
      receipt.outcome = Outcome.transactionConflict.text := by
  have hnot := rejectionOf_not_accepted hrejection
  obtain ⟨o, ho, heq⟩ := Option.map_eq_some_iff.mp hrejection
  obtain rfl := Option.some.inj ho
  have hnamed : HashText (Rejection.namedHead pending.head db) := by
    cases hh : pending.head with
    | none => exact hkept.head
    | some h =>
      rw [hh] at hhead
      exact hhead
  have htime := decidedAt_encodes hjson
  obtain ⟨decidedAt, htime⟩ := htime
  have hdecided : pending.rejection.decidedAt = some (proposalDecidedAt c) := by
    rw [← heq]
  have hkey : columnText c.idempotencyKey = .ok (some (p.idempotencyKey : String)) := by
    rw [idempotencyKey_of_toJson? hjson, columnText_str]
  have hid : columnText c.proposalId = .ok (some (p.proposalId : String)) := by
    rw [proposalId_of_toJson? hjson, columnText_str]
  obtain ⟨row, hrow⟩ := @receiptRow_rejection_ok _ c db pending.rejection pending.head root _ _ _
    hnot hnamed (by rw [hdecided]; exact htime) hkey hid hnumbers.id
  obtain ⟨receipt, hreceipt⟩ := rowToReceipt_of_receiptRow hrow
  refine ⟨receipt, _, insertReceipt_eq_ok.mpr ⟨row, hrow, hreceipt, rfl⟩, rfl, ?_⟩
  rw [rowToReceipt_outcome hreceipt, (receiptRow_proposalHash hrow).2, ← heq]
  rfl

/-- How a step of the call of a session goes: it goes on, or it is told of its commit, or of a
conflict after the work item has changed. -/
theorem Pursues.move (h : Pursues db r row phase) (hm : phase.advance reg db = some m)
    (hfollows : phase.Follows db) (hkept : db.Kept) (hlogs : db.Logs reg)
    (hnumbers : db.HasNumbers)
    (hopen : ∀ c hash value, phase = .ready c hash value → Open reg db hash value)
    {root : Hash} {proposedAt updatedAt : String}
    (hvalue : value = r.proposal reg (seenRow row) root proposedAt updatedAt)
    (hcall : ∀ c, phase.call? = some c → c.proposal.toJson? = some value)
    (hhad : Had db.tables r.workItemId row) :
    (m.result = none ∧ Pursues m.db r row m.phase ∧ m.db.tables = db.tables) ∨
    (∃ receipt, m.result = some (.ok receipt) ∧ receiptOk receipt = true) ∨
    ∃ receipt, m.result = some (.ok receipt) ∧
      receipt.outcome = Outcome.transactionConflict.text ∧ Lost m.db.tables r row := by
  obtain ⟨⟨c, hash, value', hc, hpre⟩, hphase⟩ := h
  cases phase with
  | idle => cases hm
  | begun d =>
    obtain rfl := Option.some.inj hc
    simp only [Phase.advance, hpre] at hm
    cases hm
    exact Or.inl ⟨rfl, ⟨⟨d, hash, value', rfl, hpre⟩, trivial⟩, rfl⟩
  | ready d own given =>
    obtain rfl := Option.some.inj hc
    have hown := preflight_evaluate.mp hfollows
    have hjson := hcall d rfl
    obtain rfl : given = value := Option.some.inj (hown.2.1.symm.trans hjson)
    obtain rfl : own = sha256Json given := hown.2.2.2.2
    have hopen := hopen d _ _ rfl
    obtain ⟨now, hnow, hsame⟩ := hhad.now
    rcases hsame with rfl | hlt
    · right
      left
      obtain ⟨receipt, db', ht, hok⟩ :=
        status_accepted hvalue hjson hhad.sound hnow hkept hlogs hopen
      simp only [Phase.advance, ht] at hm
      cases hm
      exact ⟨receipt, rfl, hok⟩
    · left
      have ht := status_conflicts hvalue hjson hhad.sound hnow hlt hopen
      simp only [Phase.advance, ht] at hm
      cases hm
      refine ⟨rfl, ⟨⟨d, hash, value', rfl, hpre⟩, hkept.head, ⟨now, hnow, hlt⟩, _, _, rfl⟩, rfl⟩
  | rejecting d pending reading =>
    obtain rfl := Option.some.inj hc
    obtain ⟨hhead, hlost, own, code, hrejection⟩ := hphase
    simp only [Phase.advance] at hm
    split at hm
    · cases hm
      exact Or.inl ⟨rfl, ⟨⟨d, hash, value', rfl, hpre⟩, hhead, hlost, own, code, hrejection⟩, rfl⟩
    · next root' hroot =>
      right
      right
      have hpos : 1 ≤ (row.version : Int) := by
        have hversion := version_pos hhad.sound
        omega
      rw [← r.typed_enc reg row root proposedAt updatedAt hpos] at hvalue
      subst hvalue
      obtain ⟨receipt, db', hinsert, htables, houtcome⟩ :=
        @rejected_ok _ db d pending own code root' _ (hcall d rfl) hkept hnumbers hhead hrejection
      simp only [hinsert] at hm
      cases hm
      refine ⟨receipt, rfl, houtcome, ?_⟩
      show Lost db'.tables r row
      rw [htables]
      exact hlost

end

/-! ### The session -/

/-- How a `progress` on a work item that had version `n` ends. -/
def Settles (t : Tables) (r : StatusRequest) (n : Nat) (result : Except Failure Output) : Prop :=
  (∃ p, result = .ok (.progress p)) ∨ result = .error (.kernel .operationalError) ∨
  ∃ receipt row, result = .error (.notCommitted receipt) ∧
    receipt.outcome = Outcome.transactionConflict.text ∧
    t.workItems[r.workItemId]? = some row ∧ n + 2 ≤ row.version

section

variable [Host] {ι : Type} [DecidableEq ι] {reg : Registry} {r : StatusRequest} {n : Nat}
  {w u v : World ι} {act : Act ι} {acts : List (Act ι)} {i : ι} {es : List (Event ι)}

/-- A step of another connection leaves a session where it is. -/
theorem Step.other (h : Step reg w act u) (hi : act.conn ≠ i) :
    u.session i = w.session i ∧ u.sys.phase i = w.sys.phase i := by
  have hi := Ne.symm hi
  cases h with
  | caller j ev sys hj hconn hkernel =>
    subst hconn
    exact ⟨w.set_of_ne _ _ hi, phase_other hkernel hi⟩
  | start j q hj hidle => exact ⟨w.set_of_ne _ _ hi, rfl⟩
  | page j q attempt offset documents turn hj hturn => exact ⟨w.set_of_ne _ _ hi, rfl⟩
  | table j intent reading hj hroot => exact ⟨w.set_of_ne _ _ hi, rfl⟩
  | ask j intent reading root proposedAt updatedAt now proposal sys hj hroot hp hkernel =>
    exact ⟨w.set_of_ne _ _ hi, phase_other hkernel hi⟩
  | silent j intent proposal sys hj hkernel =>
    exact ⟨w.set_of_ne _ _ hi, phase_other hkernel hi⟩
  | answer j intent proposal c result turn sys hj hkernel hturn =>
    exact ⟨w.set_of_ne _ _ hi, phase_other hkernel hi⟩
  | fail j q hj => exact ⟨w.set_of_ne _ _ hi, rfl⟩

theorem Step.advance (h : Step reg w act u) : w.sys.db.tables.Advance u.sys.db.tables := by
  rcases h.kernel_cases with ⟨_, hsys⟩ | ⟨ev, _, hkernel⟩
  · rw [hsys]
    exact .refl _
  · exact hkernel.advance

/-- After its last page a session goes on with what it saw. -/
theorem paged_progress_on (hrun : SharedMind.Run reg (.start .empty) es w.sys)
    {attempt offset : Nat} {documents : List Json} (hle : attempt ≤ 1)
    (hlooking : Looking w.sys.db.tables r.workItemId (n + attempt) documents offset) :
    ∃ session, (Request.progress r).paged attempt documents offset
        (query w.sys.db (pageSpec offset)) = .goOn session ∧
      ∀ phase, Tracks w.sys.db r n phase session := by
  obtain ⟨page, hpage, hslice⟩ := page_of_run hrun offset
  rw [hpage]
  by_cases hmore : page.truncated = true
  · refine ⟨.finding (.progress r) attempt (documents ++ documentsOf page)
      (offset + page.hits.length), ?_, fun _ => ?_⟩
    · simp only [Request.paged, hmore, if_true]
    · exact ⟨rfl, hle, hlooking.page (sound_of_run hrun) hslice⟩
  · have hlast : page.truncated = false := Bool.eq_false_iff.mpr hmore
    obtain ⟨row, hhad, hleast, hfind⟩ := hlooking.found (sound_of_run hrun) hslice hlast
    refine ⟨.rooting (.update r (seenRow row) attempt) .start, ?_, fun _ => ?_⟩
    · simp only [Request.paged, hlast, Bool.false_eq_true, if_false, Request.found, hfind,
        seenOf_document hhad.sound]
    · exact ⟨row, attempt, rfl, hle, hleast, hhad⟩

/-- How the step of a session goes that waits for the kernel. -/
theorem Tracks.waits {m : Move} {intent : Intent} {proposal : Json}
    (hrun : SharedMind.Run reg (.start .empty) es w.sys) (hkept : Kept reg w)
    (hcalm : Calm reg i w act) (hconn : act.conn = i)
    (hi : w.session i = .committing intent proposal) {row : WorkItemRow} {attempt : Nat}
    (hsaw : Saw w.sys.db.tables r n intent row attempt)
    (hpursues : Pursues w.sys.db r row (w.sys.phase i))
    (hm : (w.sys.phase i).advance reg w.sys.db = some m) :
    (m.result = none ∧ Pursues m.db r row m.phase ∧ m.db.tables = w.sys.db.tables) ∨
    (∃ receipt, m.result = some (.ok receipt) ∧ receiptOk receipt = true) ∨
    ∃ receipt, m.result = some (.ok receipt) ∧
      receipt.outcome = Outcome.transactionConflict.text ∧ Lost m.db.tables r row := by
  obtain ⟨⟨root, proposedAt, updatedAt, hproposal⟩, c, hc, hraw⟩ := hkept i intent proposal hi
  have hsorted : proposal.Sorted := by
    rw [hproposal]
    exact intent.sorted_proposal
  rw [hsaw.intent_eq] at hproposal
  refine hpursues.move hm (hrun.follows i) hrun.kept hrun.logs (hcalm.numbers hconn)
    (hcalm.opened hconn) hproposal (fun d hd => ?_) hsaw.had
  obtain rfl := Option.some.inj (hc.symm.trans hd)
  rw [hraw, JsonOf.toJson?_raw hsorted]

/-- What a session does with the answer of the kernel. -/
theorem Saw.answered {db : Db} {row : WorkItemRow} {attempt : Nat} {intent : Intent}
    {receipt : Receipt} (hsaw : Saw db.tables r n intent row attempt)
    (h : receiptOk receipt = true ∨
      receipt.outcome = Outcome.transactionConflict.text ∧ Lost db.tables r row) :
    (∃ session, intent.answered (.ok receipt) = .goOn session ∧
      ∀ phase, Tracks db r n phase session) ∨
    ∃ result, intent.answered (.ok receipt) = .done (.progress r) result ∧
      Settles db.tables r n result := by
  obtain ⟨rfl, hattempt, hleast, hhad⟩ := hsaw
  rcases h with hok | ⟨houtcome, hlost⟩
  · right
    refine ⟨.ok ((Intent.update r (seenRow row) attempt).output receipt), ?_, Or.inl ⟨_, rfl⟩⟩
    rw [Intent.answered, if_pos hok]
    rfl
  · have hnot : receiptOk receipt = false := by
      rw [receiptOk, houtcome]
      decide
    obtain ⟨now, hnow, hlt⟩ := hlost
    by_cases hfirst : attempt = 0
    · left
      subst hfirst
      refine ⟨.finding (.progress r) 1 [] 0, ?_, fun _ => ⟨rfl, le_rfl, .start ⟨now, hnow, ?_⟩⟩⟩
      · have hretries : (Intent.update r (seenRow row) 0).retries receipt = some (r, 1) := by
          rw [Intent.retries, if_neg]
          simp [houtcome, maxRebaseAttempts]
        simp only [Intent.answered, hnot, Bool.false_eq_true, if_false, hretries]
      · omega
    · right
      obtain rfl : attempt = 1 := by omega
      refine ⟨.error (.notCommitted receipt), ?_,
        Or.inr (Or.inr ⟨receipt, now, rfl, houtcome, hnow, ?_⟩)⟩
      · have hretries : (Intent.update r (seenRow row) 1).retries receipt = none := by
          rw [Intent.retries, if_pos]
          exact Or.inr le_rfl
        simp only [Intent.answered, hnot, Bool.false_eq_true, if_false, hretries]
        rfl
      · omega

/-- **A step of the run**: the session knows what it has to, or it ends as it may. -/
theorem Tracks.step (h : Tracks w.sys.db r n (w.sys.phase i) (w.session i))
    (hrun : SharedMind.Run reg (.start .empty) es w.sys) (hkept : Kept reg w)
    (hcalm : Calm reg i w act) (hstep : Step reg w act u) :
    (Tracks u.sys.db r n (u.sys.phase i) (u.session i) ∧ (act.conn = i → act.ended = none)) ∨
    (act.conn = i ∧ ∃ result, act.ended = some (.progress r, result) ∧
      Settles u.sys.db.tables r n result) := by
  by_cases hconn : act.conn = i
  swap
  · left
    obtain ⟨hsession, hphase⟩ := hstep.other hconn
    rw [hsession, hphase]
    exact ⟨h.advance hstep.advance, fun heq => absurd heq hconn⟩
  have hcalm' := hcalm
  cases hstep with
  | caller j ev sys hj hev hkernel =>
    obtain rfl : j = i := hconn
    rw [hj] at h
    exact h.elim
  | start j q hj hidle =>
    obtain rfl : j = i := hconn
    rw [hj] at h
    exact h.elim
  | page j q attempt offset documents turn hj hturn =>
    obtain rfl : j = i := hconn
    rw [hj] at h
    obtain ⟨rfl, hle, hlooking⟩ := h
    obtain ⟨session, hpaged, htracks⟩ := paged_progress_on hrun hle hlooking
    rw [hpaged] at hturn
    subst hturn
    left
    rw [World.set_self]
    exact ⟨htracks _, fun _ => rfl⟩
  | table j intent reading hj hroot =>
    obtain rfl : j = i := hconn
    rw [hj] at h
    left
    rw [World.set_self]
    exact ⟨h, fun _ => rfl⟩
  | ask j intent reading root proposedAt updatedAt now proposal sys hj hroot hp hkernel =>
    obtain rfl : j = i := hconn
    rw [hj] at h
    obtain ⟨row, attempt, hsaw⟩ := h
    obtain ⟨hash, value, hpre⟩ := hcalm.evaluated _ rfl
    left
    rw [World.set_self]
    cases hkernel with
    | call _ _ hidle =>
      refine ⟨⟨row, attempt, hsaw, ?_⟩, fun _ => rfl⟩
      show Pursues w.sys.db r row (Function.update w.sys.phase j _ j)
      rw [Function.update_self]
      exact ⟨⟨_, hash, value, rfl, hpre⟩, trivial⟩
  | silent j intent proposal sys hj hkernel =>
    obtain rfl : j = i := hconn
    have h' := h
    rw [hj] at h'
    obtain ⟨row, attempt, hsaw, hpursues⟩ := h'
    left
    rw [World.set_self]
    cases hkernel with
    | move _ m hm hr =>
      rcases Tracks.waits hrun hkept hcalm' rfl hj hsaw hpursues hm with
        ⟨_, hnext, htables⟩ | ⟨_, hresult, _⟩ | ⟨_, hresult, _⟩
      · refine ⟨⟨row, attempt, ?_, ?_⟩, fun _ => rfl⟩
        · rw [World.set_sys, htables]
          exact hsaw
        · show Pursues m.db r row (Function.update w.sys.phase j m.phase j)
          rw [Function.update_self]
          exact hnext
      · rw [hr] at hresult
        cases hresult
      · rw [hr] at hresult
        cases hresult
  | answer j intent proposal c result turn sys hj hkernel hturn =>
    obtain rfl : j = i := hconn
    have h' := h
    rw [hj] at h'
    obtain ⟨row, attempt, hsaw, hpursues⟩ := h'
    have hadvance := hkernel.advance
    have hafter := hsaw.advance hadvance
    cases hkernel with
    | finish _ _ m _ hm hr hc =>
      have hgoes : ∃ receipt, result = .ok receipt ∧ (receiptOk receipt = true ∨
          receipt.outcome = Outcome.transactionConflict.text ∧ Lost m.db.tables r row) := by
        rcases Tracks.waits hrun hkept hcalm' rfl hj hsaw hpursues hm with
          ⟨hnone, _⟩ | ⟨receipt, hresult, hok⟩ | ⟨receipt, hresult, hlost⟩
        · rw [hr] at hnone
          cases hnone
        · rw [hr] at hresult
          exact ⟨receipt, Option.some.inj hresult, Or.inl hok⟩
        · rw [hr] at hresult
          exact ⟨receipt, Option.some.inj hresult, Or.inr hlost⟩
      obtain ⟨receipt, rfl, hcases⟩ := hgoes
      rcases hafter.answered hcases with ⟨session, hgo, htracks⟩ | ⟨result, hdone, hsettles⟩
      · rw [hgo] at hturn
        subst hturn
        left
        rw [World.set_self]
        exact ⟨htracks _, fun _ => rfl⟩
      · rw [hdone] at hturn
        subst hturn
        exact Or.inr ⟨rfl, result, rfl, hsettles⟩
    | fail _ _ hc =>
      subst hturn
      right
      rw [hsaw.intent_eq]
      exact ⟨rfl, _, rfl, Or.inr (Or.inl rfl)⟩
  | fail j q hj =>
    obtain rfl : j = i := hconn
    right
    have hq : q = .progress r := by
      cases hs : w.session j with
      | out =>
        rw [hs] at hj
        cases hj
      | finding q' attempt documents offset =>
        rw [hs] at hj h
        obtain rfl : q' = q := Option.some.inj hj
        exact h.1
      | rooting intent reading =>
        rw [hs] at hj h
        obtain ⟨row, attempt, hsaw⟩ := h
        rw [hsaw.intent_eq] at hj
        exact (Option.some.inj hj).symm
      | committing intent proposal =>
        rw [hs] at hj
        cases hj
    subst hq
    exact ⟨rfl, _, rfl, Or.inr (Or.inl rfl)⟩

/-- **The run**: as long as the session has not ended it knows what it has to. -/
theorem RunWhere.tracks (hrun : SharedMind.Run reg (.start .empty) es v.sys) (hkept : Kept reg v)
    (hv : Tracks v.sys.db r n (v.sys.phase i) (v.session i))
    (h : RunWhere reg (Calm reg i) v acts w)
    (hbusy : ∀ act ∈ acts, act.conn = i → act.ended = none) :
    Tracks w.sys.db r n (w.sys.phase i) (w.session i) := by
  induction h with
  | nil => exact hv
  | snoc hbefore hcalm hstep ih =>
    have hmid := ih fun act hact => hbusy act (List.mem_append_left _ hact)
    rcases hmid.step (hrun.trans hbefore.kernel) (hbefore.kept hkept) hcalm hstep with
      ⟨hnext, _⟩ | ⟨hconn, result, hended, _⟩
    · exact hnext
    · have hnone := hbusy _ (List.mem_append_right _ (List.mem_singleton_self _)) hconn
      rw [hended] at hnone
      cases hnone

end

/-! ### The result -/

/-- **Who loses a race has met two changes.**  Any sessions and callers run among each other, and
a `progress` on a work item that is there has just been started.  If its calls pass the checks
before the transaction and meet a database that takes them, then whenever it ends, it returns,
or a read or write of the database failed, or its proposal is refused for a transaction conflict
and the version of the work item has grown by two at least since it was started. -/
theorem progress_contention [Host] {ι : Type} [DecidableEq ι] (reg : Registry)
    (before : List (Act ι)) (v : World ι) (hbefore : Run reg (.start .empty) before v) (i : ι)
    (r : StatusRequest) (row : WorkItemRow)
    (hrow : v.sys.db.tables.workItems[r.workItemId]? = some row)
    (hstart : v.session i = .finding (.progress r) 0 [] 0) (acts : List (Act ι)) (w : World ι)
    (hrun : RunWhere reg (Calm reg i) v acts w)
    (hbusy : ∀ act ∈ acts, act.conn = i → act.ended = none) (act : Act ι) (u : World ι)
    (hstep : Step reg w act u) (hcalm : Calm reg i w act) (hconn : act.conn = i) (q : Request)
    (result : Except Failure Output) (hended : act.ended = some (q, result)) :
    q = .progress r ∧ Settles u.sys.db.tables r row.version result := by
  have hv : Tracks v.sys.db r row.version (v.sys.phase i) (v.session i) := by
    rw [hstart]
    exact ⟨rfl, Nat.zero_le 1, .start ⟨row, hrow, le_rfl⟩⟩
  have hkept := hbefore.kept (.start _)
  have htracks := RunWhere.tracks hbefore.kernel hkept hv hrun hbusy
  rcases htracks.step (hbefore.kernel.trans hrun.kernel) (hrun.kept hkept) hcalm hstep with
    ⟨_, hnone⟩ | ⟨_, result', hended', hsettles⟩
  · rw [hnone hconn] at hended
    cases hended
  · rw [hended] at hended'
    obtain ⟨rfl, rfl⟩ := Prod.mk.inj (Option.some.inj hended')
    exact ⟨rfl, hsettles⟩

section

attribute [local instance] Host.utc

/-- An agent takes a task up. -/
theorem progress_contention_of_task : ∃ (w : World Unit) (act : Act Unit) (u : World Unit)
    (result : Except Failure Output), Step ownerRegistry w act u ∧
      act.ended = some (.progress taskRequest, result) ∧
      Settles u.sys.db.tables taskRequest taskRow.version result := by
  obtain ⟨before, v, acts, w, act, u, p, hbefore, hrow, hstart, hrun, hstep, hcalm, hbusy, hended,
    -⟩ := exists_taken_up
  have hsettles := progress_contention ownerRegistry before v hbefore () taskRequest taskRow hrow
    hstart acts w hrun (fun a ha _ => hbusy a ha) act u hstep hcalm rfl _ _ hended
  exact ⟨w, act, u, _, hstep, hended, hsettles.2⟩

end

end SharedMind.Service
