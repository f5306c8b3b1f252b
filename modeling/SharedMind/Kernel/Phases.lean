import SharedMind.Kernel.Sequential

/-!
# What a connection knows

* `RootReading.Current`: what has been read of the state is what the state has.
* `Phase.Follows`: a connection about to write a rejection receipt found its head in the
  ledger, and as long as that head is the last one, what it has read is current.
* `Run.follows`: so stands every connection in every interleaving.
-/

namespace SharedMind

open Py

/-! ### Heads -/

/-- The hash of an entry, or none before the first. -/
def KnownHead (db : Db) (head : Option String) : Prop :=
  ∀ h, head = some h → ∃ r ∈ db.ledger, r.entryHash = h

theorem knownHead_headEntryHash {db : Db} : KnownHead db (headEntryHash db.ledger) := by
  intro h hh
  obtain ⟨r, hr, rfl⟩ := Option.map_eq_some_iff.mp hh
  exact ⟨r, List.mem_of_getLast? hr, rfl⟩

theorem headEntryHash_accept {e : Evaluation} {db : Db} {row : ReceiptRow} :
    headEntryHash (e.accept db row).ledger = some e.row.entryHash := by
  rw [Evaluation.accept_ledger, headEntryHash, List.getLast?_concat]
  rfl

/-! ### Reading a root -/

namespace RootReading

variable {r : RootReading} {db : Db}

/-- Reading the tables that are left would give the tables of the database. -/
def Current (r : RootReading) (db : Db) : Prop :=
  r = .start ∨ (r.schema = some (headSchema db.ledger) ∧
    r.left.foldl (fun t k => k.read db.tables t) r.tables = db.tables)

theorem Current.next (h : r.Current db) : (r.next db).Current db := by
  rcases h with rfl | ⟨hschema, htables⟩
  · have hnext : RootReading.start.next db =
        ⟨some (headSchema db.ledger), .empty, StateTable.all⟩ := rfl
    rw [hnext]
    exact Or.inr ⟨rfl, by simp [StateTable.all, StateTable.read]⟩
  · cases hleft : r.left with
    | nil =>
      have hsame : r.next db = r := by rw [RootReading.next, hschema, hleft]
      rw [hsame]
      exact Or.inr ⟨hschema, htables⟩
    | cons k ks =>
      have hnext : r.next db = { r with tables := k.read db.tables r.tables, left := ks } := by
        rw [RootReading.next, hschema, hleft]
      rw [hnext]
      rw [hleft] at htables
      exact Or.inr ⟨hschema, htables⟩

/-- A finished reading of the current state has its root. -/
theorem Current.root_eq {root : Hash} (h : r.Current db) (hroot : r.root? = some root) :
    root = stateRoot db := by
  rcases h with rfl | ⟨hschema, htables⟩
  · exact nomatch hroot
  · rw [root?, hschema] at hroot
    cases hleft : r.left with
    | nil =>
      rw [hleft] at hroot htables
      have htables : r.tables = db.tables := htables
      rw [stateRoot, ← htables]
      exact (Option.some.inj hroot).symm
    | cons k ks =>
      rw [hleft] at hroot
      exact nomatch hroot

end RootReading

/-! ### Phases -/

variable [Host] {reg : Registry}

/-- What holds of a connection between two of its steps. -/
def Phase.Follows (db : Db) : Phase → Prop
  | .idle => True
  | .begun _ => True
  | .ready c hash value => preflight c = .ok (.evaluate hash value)
  | .rejecting _ pending reading =>
    KnownHead db pending.head ∧ (pending.head = headEntryHash db.ledger → reading.Current db)

namespace Phase.Follows

variable {db : Db} {p : Phase} {m : Move}

theorem handle {c : Call} {hash : Hash} {head : Option String} {e : PyExc} (h : KnownHead db head) :
    (Phase.handle c db hash head e).phase.Follows db := by
  unfold Phase.handle
  split
  · exact ⟨h, fun _ => Or.inl rfl⟩
  · trivial

/-- A step of the connection itself. -/
theorem advance (h : p.Follows db) (hm : p.advance reg db = some m) : m.phase.Follows m.db := by
  cases p with
  | idle => exact nomatch hm
  | begun c =>
    simp only [Phase.advance] at hm
    split at hm
    · cases hm; trivial
    · cases hm; exact ⟨knownHead_headEntryHash, fun _ => Or.inl rfl⟩
    · next hpre => cases hm; exact hpre
  | ready c hash value =>
    simp only [Phase.advance] at hm
    split at hm
    · cases hm; trivial
    · cases hm; trivial
    · cases hm; exact ⟨knownHead_headEntryHash, fun _ => Or.inl rfl⟩
    · cases hm
      rw [handle_db]
      exact handle knownHead_headEntryHash
  | rejecting c pending reading =>
    simp only [Phase.advance] at hm
    split at hm
    · cases hm
      exact ⟨h.1, fun hhead => (h.2 hhead).next⟩
    · split at hm
      · cases hm; trivial
      · cases hm; trivial
      · cases hm
        rw [handle_db]
        exact handle h.1

/-- An acceptance by another connection. -/
theorem accept {c : Call} {hash : Hash} {value : Json} {e : Evaluation} {row row' : ReceiptRow}
    (h : p.Follows db) (hacc : Accepts reg c hash value db e row) :
    p.Follows (e.accept db row') := by
  cases p with
  | idle => trivial
  | begun c => trivial
  | ready c hash value => exact h
  | rejecting c pending reading =>
    obtain ⟨hknown, -⟩ := h
    refine ⟨fun x hx => ?_, fun hhead => ?_⟩
    · obtain ⟨r, hr, hrx⟩ := hknown x hx
      exact ⟨r, List.mem_append_left _ hr, hrx⟩
    · -- the new entry has a hash no connection has read
      rw [headEntryHash_accept] at hhead
      obtain ⟨r, hr, hrx⟩ := hknown _ hhead
      obtain ⟨_, _, _, _, _, _, _, hunique⟩ := evaluate_eq_ok.mp hacc.evaluated
      exact absurd hrx (hunique r hr)

/-- A rejection receipt of another connection. -/
theorem addReceipt (h : p.Follows db) (row : ReceiptRow) : p.Follows (db.addReceipt row) := by
  cases p with
  | idle => trivial
  | begun c => trivial
  | ready c hash value => exact h
  | rejecting c pending reading => exact h

end Phase.Follows

section

variable {ι : Type} [DecidableEq ι] {s u : Sys ι} {ev : Event ι}

/-- What a connection knows survives the steps of all. -/
theorem Step.follows (h : ∀ i, (s.phase i).Follows s.db) (hstep : Step reg s ev u) :
    ∀ i, (u.phase i).Follows u.db := by
  have hidle : ∀ {db : Db}, Phase.Follows db .idle := trivial
  have hmove : ∀ i m, (s.phase i).advance reg s.db = some m →
      ∀ j, (Function.update s.phase i m.phase j).Follows m.db := by
    intro i m hm
    refine (Function.forall_update_iff s.phase (p := fun _ q => q.Follows m.db)).mpr
      ⟨(h i).advance hm, fun j _ => ?_⟩
    rcases Phase.advance_db hm with hdb | ⟨_, _, _, e, row, _, _, hacc, _, rfl⟩ |
        ⟨_, _, _, _, row, _, _, _, _, _, rfl⟩
    · rw [hdb]
      exact h j
    · exact (h j).accept hacc
    · exact (h j).addReceipt row
  cases hstep with
  | call i c hi =>
    exact (Function.forall_update_iff s.phase (p := fun _ q => q.Follows s.db)).mpr
      ⟨trivial, fun j _ => h j⟩
  | move i m hm hr => exact hmove i m hm
  | finish i c m result hm hr hc => exact hmove i m hm
  | fail i c hi =>
    exact (Function.forall_update_iff s.phase (p := fun _ q => q.Follows s.db)).mpr
      ⟨hidle, fun j _ => h j⟩

theorem RunWhere.follows {P : Sys ι → Event ι → Prop} {db : Db} {es : List (Event ι)}
    (h : RunWhere reg P (.start db) es u) : ∀ i, (u.phase i).Follows u.db :=
  h.inv (Q := fun u => ∀ i, (u.phase i).Follows u.db) (fun _ => trivial)
    fun _ _ _ _ hq hstep => hstep.follows hq

/-- A connection stays inside its call. -/
theorem Phase.advance_call {db : Db} {p : Phase} {m : Move} {c : Call}
    (hm : p.advance reg db = some m) (hc : m.phase.call? = some c) : p.call? = some c := by
  have hhandle : ∀ {d : Call} {hash : Hash} {head : Option String} {e : PyExc},
      (Phase.handle d db hash head e).phase.call? = some c → some d = some c := by
    intro d hash head e h
    unfold Phase.handle at h
    split at h
    · exact h
    · cases h
  cases p with
  | idle => cases hm
  | begun d =>
    simp only [Phase.advance] at hm
    split at hm <;> (cases hm; first | exact hc | cases hc)
  | ready d hash value =>
    simp only [Phase.advance] at hm
    split at hm
    · cases hm; cases hc
    · cases hm; cases hc
    · cases hm; exact hc
    · cases hm; exact hhandle hc
  | rejecting d pending reading =>
    simp only [Phase.advance] at hm
    split at hm
    · cases hm; exact hc
    · split at hm
      · cases hm; cases hc
      · cases hm; cases hc
      · cases hm; exact hhandle hc

/-- What holds of every call that is made holds of those under way. -/
theorem RunWhere.called {P : Sys ι → Event ι → Prop} {C : Call → Prop} {db : Db}
    {es : List (Event ι)} (h : RunWhere reg P (.start db) es u)
    (hC : ∀ s i c, P s (.called i c) → C c) : ∀ i c, (u.phase i).call? = some c → C c := by
  refine h.inv (Q := fun u => ∀ i c, (u.phase i).call? = some c → C c) (fun i c hc => nomatch hc) ?_
  intro s ev u hP hq hstep
  have hmove : ∀ i m, (s.phase i).advance reg s.db = some m →
      ∀ j c, (Function.update s.phase i m.phase j).call? = some c → C c := fun i m hm =>
    (Function.forall_update_iff s.phase (p := fun _ q => ∀ c, q.call? = some c → C c)).mpr
      ⟨fun c hc => hq i c (Phase.advance_call hm hc), fun j _ => hq j⟩
  cases hstep with
  | call i c hi =>
    refine (Function.forall_update_iff s.phase (p := fun _ q => ∀ c, q.call? = some c → C c)).mpr
      ⟨fun d hd => ?_, fun j _ => hq j⟩
    obtain rfl := Option.some.inj hd
    exact hC s i c hP
  | move i m hm hr => exact hmove i m hm
  | finish i c m result hm hr hc => exact hmove i m hm
  | fail i c hi =>
    exact (Function.forall_update_iff s.phase (p := fun _ q => ∀ c, q.call? = some c → C c)).mpr
      ⟨fun d hd => (nomatch hd), fun j _ => hq j⟩

/-! ### A reading that nothing disturbs -/

theorem Run.one (h : Step reg s ev u) : Run reg s [ev] u := RunWhere.nil.snoc trivial h

/-- The tables that are left are read as they stand. -/
theorem Run.reading {i : ι} {c : Call} {pending : Pending} {schema : String} :
    ∀ {left : List StateTable} {tables : Tables} {s : Sys ι},
      s.phase i = .rejecting c pending ⟨some schema, tables, left⟩ →
      ∃ es, Run reg s es ⟨s.db, Function.update s.phase i (.rejecting c pending
        ⟨some schema, left.foldl (fun t k => k.read s.db.tables t) tables, []⟩)⟩ := by
  intro left
  induction left with
  | nil =>
    intro tables s hs
    refine ⟨[], ?_⟩
    rw [List.foldl_nil, ← hs, Function.update_eq_self]
    exact .nil
  | cons k ks ih =>
    intro tables s hs
    have hstep : Step reg s (.silent i) ⟨s.db, Function.update s.phase i (.rejecting c pending
        ⟨some schema, k.read s.db.tables tables, ks⟩)⟩ := by
      refine .move i ⟨s.db, _, none⟩ ?_ rfl
      rw [hs]
      rfl
    obtain ⟨es, hes⟩ := ih (s := ⟨s.db, Function.update s.phase i (.rejecting c pending
      ⟨some schema, k.read s.db.tables tables, ks⟩)⟩) (Function.update_self i _ s.phase)
    rw [Function.update_idem] at hes
    exact ⟨_, (Run.one hstep).trans hes⟩

/-- A reading of the state root on its own ends with the state that is there. -/
theorem Run.readRoot {i : ι} {c : Call} {pending : Pending}
    (hs : s.phase i = .rejecting c pending .start) :
    ∃ es, Run reg s es ⟨s.db, Function.update s.phase i (.rejecting c pending
      ⟨some (headSchema s.db.ledger), s.db.tables, []⟩)⟩ := by
  have hstep : Step reg s (.silent i) ⟨s.db, Function.update s.phase i (.rejecting c pending
      ⟨some (headSchema s.db.ledger), .empty, StateTable.all⟩)⟩ := by
    refine .move i ⟨s.db, _, none⟩ ?_ rfl
    rw [hs]
    rfl
  obtain ⟨es, hes⟩ := @Run.reading _ reg _ _ _ _ _ _ _ _ ⟨s.db, Function.update s.phase i
    (.rejecting c pending ⟨some (headSchema s.db.ledger), .empty, StateTable.all⟩)⟩
      (Function.update_self i _ s.phase)
  have hall : StateTable.all.foldl (fun t k => k.read s.db.tables t) .empty = s.db.tables := by
    simp [StateTable.all, StateTable.read]
  rw [Function.update_idem, hall] at hes
  exact ⟨_, (Run.one hstep).trans hes⟩

/-! ### Parts of a call -/

variable {i : ι} {c : Call} {hash : Hash} {value : Json}

/-- A call that is refused before its transaction reads the state root. -/
theorem Run.refused {r : Rejection} (hi : s.phase i = .idle)
    (hpre : preflight c = .ok (.refuse r)) :
    ∃ es, Run reg s es ⟨s.db, Function.update s.phase i (.rejecting c
      ⟨r, headEntryHash s.db.ledger, none⟩ ⟨some (headSchema s.db.ledger), s.db.tables, []⟩)⟩ := by
  have hcall : Step reg s (.called i c) ⟨s.db, Function.update s.phase i (.begun c)⟩ := .call i c hi
  have hrefuse : Step reg ⟨s.db, Function.update s.phase i (.begun c)⟩ (.silent i)
      ⟨s.db, Function.update (Function.update s.phase i (.begun c)) i
        (.startReject c r (headEntryHash s.db.ledger) none)⟩ := by
    refine .move i ⟨s.db, _, none⟩ ?_ rfl
    simp only [Function.update_self, Phase.advance, hpre, Phase.startReject]
  rw [Function.update_idem] at hrefuse
  obtain ⟨es, hes⟩ := @Run.readRoot _ reg _ _ ⟨s.db, Function.update s.phase i
    (.startReject c r (headEntryHash s.db.ledger) none)⟩ _ _ _ (Function.update_self i _ s.phase)
  rw [Function.update_idem] at hes
  exact ⟨_, ((Run.one hcall).snoc trivial hrefuse).trans hes⟩

/-- A call comes to its transaction. -/
theorem RunWhere.ready {P : Sys ι → Event ι → Prop}
    (hopen : ∀ s ev, (∀ i c result, ev ≠ .ended i c result) → P s ev) (hi : s.phase i = .idle)
    (hpre : preflight c = .ok (.evaluate hash value)) :
    ∃ es, RunWhere reg P s es ⟨s.db, Function.update s.phase i (.ready c hash value)⟩ := by
  have hcall : Step reg s (.called i c) ⟨s.db, Function.update s.phase i (.begun c)⟩ := .call i c hi
  have hready : Step reg ⟨s.db, Function.update s.phase i (.begun c)⟩ (.silent i)
      ⟨s.db, Function.update (Function.update s.phase i (.begun c)) i (.ready c hash value)⟩ := by
    refine .move i ⟨s.db, _, none⟩ ?_ rfl
    simp only [Function.update_self, Phase.advance, hpre]
  rw [Function.update_idem] at hready
  exact ⟨_, (RunWhere.nil.snoc (hopen _ _ (by rintro _ _ _ ⟨⟩)) hcall).snoc
    (hopen _ _ (by rintro _ _ _ ⟨⟩)) hready⟩

/-- A call whose proposal is accepted. -/
theorem RunWhere.accepted {P : Sys ι → Event ι → Prop} {e : Evaluation} {row : ReceiptRow}
    (hopen : ∀ s ev, (∀ i c result, ev ≠ .ended i c result) → P s ev)
    (hend : ∀ receipt, P ⟨s.db, Function.update s.phase i (.ready c hash value)⟩
      (.ended i c (.ok receipt)))
    (hi : s.phase i = .idle) (hpre : preflight c = .ok (.evaluate hash value))
    (hacc : Accepts reg c hash value s.db e row) :
    ∃ es, RunWhere reg P s es ⟨e.accept s.db row, Function.update s.phase i .idle⟩ := by
  obtain ⟨es, hes⟩ := @RunWhere.ready _ reg _ _ _ _ _ _ _ _ hopen hi hpre
  obtain ⟨receipt, hreceipt⟩ := rowToReceipt_of_receiptRow hacc.receipted
  have hfinish : Step reg ⟨s.db, Function.update s.phase i (.ready c hash value)⟩
      (.ended i c (.ok receipt)) ⟨e.accept s.db row,
        Function.update (Function.update s.phase i (.ready c hash value)) i .idle⟩ := by
    refine .finish i c ⟨e.accept s.db row, .idle, some (.ok receipt)⟩ (.ok receipt) ?_ rfl ?_
    · have ht := transaction_accepted.mpr ⟨e, row, hacc, hreceipt, rfl⟩
      simp only [Function.update_self, Phase.advance, ht]
    · simp only [Function.update_self, Phase.call?]
  rw [Function.update_idem] at hfinish
  exact ⟨_, hes.snoc (hend receipt) hfinish⟩

theorem Run.ready (hi : s.phase i = .idle) (hpre : preflight c = .ok (.evaluate hash value)) :
    ∃ es, Run reg s es ⟨s.db, Function.update s.phase i (.ready c hash value)⟩ :=
  RunWhere.ready (fun _ _ _ => trivial) hi hpre

theorem Run.accepted {e : Evaluation} {row : ReceiptRow} (hi : s.phase i = .idle)
    (hpre : preflight c = .ok (.evaluate hash value)) (hacc : Accepts reg c hash value s.db e row) :
    ∃ es, Run reg s es ⟨e.accept s.db row, Function.update s.phase i .idle⟩ :=
  RunWhere.accepted (fun _ _ _ => trivial) (fun _ => trivial) hi hpre hacc

/-- A call that has read the state root writes its rejection receipt. -/
theorem Run.rejected {pending : Pending} {schema : String} {tables : Tables} {row : ReceiptRow}
    (hi : s.phase i = .rejecting c pending ⟨some schema, tables, []⟩)
    (hrej : Rejects c pending.rejection pending.head (stateRootForSchema schema tables) s.db row) :
    ∃ es, Run reg s es ⟨s.db.addReceipt row, Function.update s.phase i .idle⟩ := by
  obtain ⟨receipt, hreceipt⟩ := rowToReceipt_of_receiptRow hrej
  have hinsert : insertReceipt c s.db (pending.rejection.input pending.head
      (stateRootForSchema schema tables)) = .ok (receipt, s.db.addReceipt row) :=
    insertReceipt_eq_ok.mpr ⟨row, hrej, hreceipt, rfl⟩
  refine ⟨_, Run.one (.finish i c ⟨s.db.addReceipt row, .idle, some (.ok receipt)⟩
    (.ok receipt) ?_ rfl ?_)⟩
  · rw [hi]
    simp only [Phase.advance, RootReading.root?, hinsert]
  · rw [hi]
    rfl

end

end SharedMind
