import SharedMind.Gen.Episodes
import SharedMind.Kernel.Conflicts
import SharedMind.Law.Evidence

/-!
# The table of conflicts

* `ConflictTable`: one conflict for each family and kind, of claims of that family, whose
  episode and version count what the ledger says happened to it.
* `conflict_table`: the law over every interleaving.
-/

namespace SharedMind

open Py Episodes

/-! ### Turns of a conflict -/

/-- What an event does to a conflict. -/
def LedgerEvent.turn? (id : RecordId) : LedgerEvent → Option Turn
  | .conflictOpened c => if c.conflictId = id then some .opened else none
  | .conflictResolved conflictId _ => if conflictId = id then some .closed else none
  | _ => none

def turns (events : List LedgerEvent) (id : RecordId) : List Turn :=
  events.filterMap (LedgerEvent.turn? id)

theorem turns_append (es fs : List LedgerEvent) (id : RecordId) :
    turns (es ++ fs) id = turns es id ++ turns fs id := List.filterMap_append

theorem turn?_of_continuity {e : LedgerEvent} (h : e.continuity = true) (id : RecordId) :
    e.turn? id = none := by
  cases e <;> first | rfl | exact nomatch h

theorem turns_of_none {es : List LedgerEvent} {id : RecordId} (h : ∀ e ∈ es, e.turn? id = none) :
    turns es id = [] := List.filterMap_eq_nil_iff.mpr h

/-! ### The invariant -/

/-- The claim `m` has the family of a member that was compared with it under its own
predicate. -/
def SharesFamily (reg : Registry) (t : Tables) (members : List RecordId) (family : Hash)
    (m : RecordId) : Prop :=
  ∃ i ∈ members, ∃ (incoming other : ClaimRow) (predicate : PredicateDefinition),
    t.claims[i]? = some incoming ∧ t.claims[m]? = some other ∧
    reg.predicate? incoming.proposition.predicate = some predicate ∧
    familyKey incoming.proposition predicate = family ∧ familyKey other.proposition predicate = family

/-- A row by itself: its members, its digest and its status. -/
structure ConflictRow.Sound (row : ConflictRow) : Prop where
  sorted : row.members.Pairwise (· < ·)
  two : 2 ≤ row.members.length
  digest : row.memberDigest = membersDigest row.members
  resolution : row.status = .open ↔ row.resolution = none

structure ConflictTable (reg : Registry) (t : Tables) (events : List LedgerEvent) : Prop where
  unique : t.OneConflictEach
  sound : ∀ (id : RecordId) (row : ConflictRow), t.conflicts[id]? = some row → row.Sound
  members : ∀ (id : RecordId) (row : ConflictRow), t.conflicts[id]? = some row → ∀ m ∈ row.members,
    SharesFamily reg t row.members row.familyKey m
  counted : ∀ (id : RecordId) (row : ConflictRow), t.conflicts[id]? = some row →
    Counted (turns events id) row.episode row.version (row.status = .open)
  fresh : ∀ id : RecordId, t.conflicts[id]? = none → turns events id = []
  first : ∀ (id : RecordId) (row : ConflictRow), t.conflicts[id]? = some row →
    ∃ c, .conflictOpened c ∈ events ∧ c.conflictId = id ∧ conflictIdOf c.memberClaimIds = id ∧
      ∀ m ∈ c.memberClaimIds, ∃ claim, t.claims[m]? = some claim

theorem ConflictTable.empty {reg : Registry} : ConflictTable reg .empty [] where
  unique id _ row _ h := by simp [Tables.empty] at h
  sound id row h := by simp [Tables.empty] at h
  members id row h := by simp [Tables.empty] at h
  counted id row h := by simp [Tables.empty] at h
  fresh _ _ := rfl
  first id row h := by simp [Tables.empty] at h

section

variable {reg : Registry} {s t : Tables} {members members' : List RecordId} {family : Hash}
  {m : RecordId} {events es : List LedgerEvent}

theorem SharesFamily.grow (h : SharesFamily reg s members family m) (hg : s.Grows t)
    (hsub : members ⊆ members') : SharesFamily reg t members' family m := by
  obtain ⟨i, hi, incoming, other, predicate, h1, h2, h3, h4, h5⟩ := h
  obtain ⟨incoming', hi', hp⟩ := hg.claims i incoming h1
  obtain ⟨other', ho', hp'⟩ := hg.claims m other h2
  exact ⟨i, hsub hi, incoming', other', predicate, hi', ho', by rw [hp]; exact h3,
    by rw [hp]; exact h4, by rw [hp']; exact h5⟩

/-- Conflicts that stay, and events that are of none. -/
theorem ConflictTable.keep (h : ConflictTable reg s events) (hg : s.Grows t)
    (hc : t.conflicts = s.conflicts) (hes : ∀ e ∈ es, ∀ id, e.turn? id = none) :
    ConflictTable reg t (events ++ es) := by
  have hturns : ∀ id, turns (events ++ es) id = turns events id := by
    intro id
    rw [turns_append, turns_of_none fun e he => hes e he id, List.append_nil]
  refine ⟨?_, ?_, ?_, ?_, ?_, ?_⟩
  · exact fun a b ra rb ha hb => h.unique a b ra rb (hc ▸ ha) (hc ▸ hb)
  all_goals rw [hc]
  · exact h.sound
  · exact fun id row hrow m hm => (h.members id row hrow m hm).grow hg (List.Subset.refl _)
  · exact fun id row hrow => by rw [hturns]; exact h.counted id row hrow
  · exact fun id hid => by rw [hturns]; exact h.fresh id hid
  · intro id row hrow
    obtain ⟨c, hmem, hcid, hid, hclaims⟩ := h.first id row hrow
    refine ⟨c, List.mem_append_left _ hmem, hcid, hid, fun m hm => ?_⟩
    obtain ⟨claim, hclaim⟩ := hclaims m hm
    obtain ⟨claim', hclaim', _⟩ := hg.claims m claim hclaim
    exact ⟨claim', hclaim'⟩

end

/-! ### A contradiction -/

section

variable {reg : Registry} {t : Tables} {family : Hash} {kind : ConflictKind}
  {members : List RecordId} {c : RecordId × ConflictRow} {events : List LedgerEvent}

/-- A list with two different elements. -/
theorem two_le_length_of_ne {ids : List RecordId} {a b : RecordId} (ha : a ∈ ids) (hb : b ∈ ids)
    (hne : a ≠ b) : 2 ≤ ids.length := by
  match ids, ha, hb with
  | [x], ha, hb => exact absurd ((List.mem_singleton.mp ha).trans (List.mem_singleton.mp hb).symm) hne
  | _ :: _ :: _, _, _ => simp

/-- The conflict a contradiction leaves behind fits in. -/
theorem ConflictTable.insert (h : ConflictTable reg t events)
    (hc : Contradicted t family kind members c)
    (hshare : ∀ m ∈ members, SharesFamily reg t members family m)
    (htwo : ∃ a ∈ members, ∃ b ∈ members, a ≠ b) :
    ConflictTable reg { t with conflicts := t.conflicts.insert c.1 c.2 }
      (events ++ [.conflictOpened (conflictDocument c.1 c.2)]) := by
  have hget : ∀ id : RecordId, (t.conflicts.insert c.1 c.2)[id]? =
      if id = c.1 then some c.2 else t.conflicts[id]? := fun id => Table.get_insert _ _ _ _
  have hturns : ∀ id, turns (events ++ [.conflictOpened (conflictDocument c.1 c.2)]) id =
      turns events id ++ if c.1 = id then [.opened] else [] := by
    intro id
    rw [turns_append]
    by_cases hid : c.1 = id <;> simp [turns, LedgerEvent.turn?, conflictDocument, hid]
  have hgrows : t.Grows { t with conflicts := t.conflicts.insert c.1 c.2 } := .of_eq rfl rfl rfl
  refine ⟨?_, ?_, ?_, ?_, ?_, ?_⟩
  · exact hc.one h.unique
  · intro id row hrow
    rw [hget] at hrow
    split at hrow
    · cases hrow
      obtain ⟨a, ha, b, hb, hne⟩ := htwo
      refine ⟨hc.sorted, two_le_length_of_ne (hc.covers ha) (hc.covers hb) hne, hc.digest_eq,
        iff_of_true hc.status_eq ?_⟩
      cases hold : t.conflicts[c.1]? with
      | none => exact (hc.new hold).2.2.2.2
      | some old =>
        obtain ⟨_, _, _, ⟨hs, _, hr, _⟩ | ⟨_, _, hr, _⟩⟩ := hc.old old hold
        · rw [hr]
          exact (h.sound _ old hold).resolution.mp hs
        · exact hr
    · exact h.sound id row hrow
  · intro id row hrow m hm
    rw [hget] at hrow
    split at hrow
    · cases hrow
      have hnew : m ∈ members → SharesFamily reg _ c.2.members c.2.familyKey m := fun hmem =>
        hc.family_eq ▸ (hshare m hmem).grow hgrows hc.covers
      cases hold : t.conflicts[c.1]? with
      | none =>
        rw [(hc.new hold).2.1, mem_sortedSet] at hm
        exact hnew hm
      | some old =>
        obtain ⟨hf, _, _, ⟨_, _, _, hsub, hmem⟩ | ⟨_, _, _, hmem⟩⟩ := hc.old old hold
        · rcases hmem m hm with hmem | hmem
          · rw [hc.family_eq, ← hf]
            exact (h.members _ old hold m hmem).grow hgrows hsub
          · exact hnew hmem
        · exact hnew (hmem m hm)
    · exact (h.members id row hrow m hm).grow hgrows (List.Subset.refl _)
  · intro id row hrow
    rw [hget] at hrow
    rw [hturns]
    split at hrow
    · next hid =>
      cases hrow
      rw [if_pos hid.symm, hid]
      cases hold : t.conflicts[c.1]? with
      | none =>
        obtain ⟨_, _, hep, hv, _⟩ := hc.new hold
        rw [h.fresh _ hold, hep, hv]
        exact Counted.first hc.status_eq
      | some old =>
        have hcount := h.counted _ old hold
        obtain ⟨_, _, hv, ⟨hs, hep, _⟩ | ⟨hs, hep, _⟩⟩ := hc.old old hold
        · rw [hv, hep]
          exact hcount.extend hs hc.status_eq
        · rw [hv, hep]
          exact hcount.reopen (by rw [hs]; decide) hc.status_eq
    · next hid =>
      rw [if_neg fun heq => hid heq.symm, List.append_nil]
      exact h.counted id row hrow
  · intro id hid
    rw [hget] at hid
    split at hid
    · exact nomatch hid
    · next hne =>
      rw [hturns, if_neg fun heq => hne heq.symm, List.append_nil]
      exact h.fresh id hid
  · intro id row hrow
    rw [hget] at hrow
    have hkeep : ∀ {id : RecordId} {row : ConflictRow}, t.conflicts[id]? = some row →
        ∃ d, .conflictOpened d ∈ events ++ [.conflictOpened (conflictDocument c.1 c.2)] ∧
          d.conflictId = id ∧ conflictIdOf d.memberClaimIds = id ∧
          ∀ m ∈ d.memberClaimIds, ∃ claim, t.claims[m]? = some claim := by
      intro id row hrow
      obtain ⟨d, hmem, hd⟩ := h.first id row hrow
      exact ⟨d, List.mem_append_left _ hmem, hd⟩
    split at hrow
    · next hid =>
      cases hrow
      rw [hid]
      cases hold : t.conflicts[c.1]? with
      | none =>
        obtain ⟨hcid, hmembers, _⟩ := hc.new hold
        refine ⟨conflictDocument c.1 c.2, by simp, rfl, ?_, fun m hm => ?_⟩
        · rw [hcid, conflictDocument, hmembers]
        replace hm : m ∈ c.2.members := hm
        rw [hmembers, mem_sortedSet] at hm
        obtain ⟨_, _, _, other, _, _, hother, _⟩ := hshare m hm
        exact ⟨other, hother⟩
      | some old => exact hkeep hold
    · exact hkeep hrow

/-- A conflict that is resolved. -/
theorem ConflictTable.resolve (h : ConflictTable reg t events) {id : RecordId} {row : ConflictRow}
    (hrow : t.conflicts[id]? = some row) (resolution : Resolution) :
    ConflictTable reg { t with conflicts := t.conflicts.modify id fun r => r.resolve resolution }
      (events ++ [.conflictResolved id resolution]) := by
  have hget : ∀ id' : RecordId, (t.conflicts.modify id fun r => r.resolve resolution)[id']? =
      if id' = id then some (row.resolve resolution) else t.conflicts[id']? := by
    intro id'
    rw [Table.get_modify]
    split
    · next hid => rw [hid, hrow]; rfl
    · rfl
  have hturns : ∀ id', turns (events ++ [.conflictResolved id resolution]) id' =
      turns events id' ++ if id = id' then [.closed] else [] := by
    intro id'
    rw [turns_append]
    by_cases hid : id = id' <;> simp [turns, LedgerEvent.turn?, hid]
  have hgrows : t.Grows { t with conflicts := t.conflicts.modify id fun r => r.resolve resolution } :=
    .of_eq rfl rfl rfl
  -- Nothing but the status, the version and the resolution of the row changes.
  have hold : ∀ (id' : RecordId) (row' : ConflictRow),
      (t.conflicts.modify id fun r => r.resolve resolution)[id']? = some row' →
      ∃ old, t.conflicts[id']? = some old ∧ old.familyKey = row'.familyKey ∧ old.kind = row'.kind ∧
        old.members = row'.members := by
    intro id' row' hrow'
    rw [hget] at hrow'
    split at hrow'
    · next hid => cases hrow'; exact ⟨row, hid ▸ hrow, rfl, rfl, rfl⟩
    · exact ⟨row', hrow', rfl, rfl, rfl⟩
  refine ⟨?_, ?_, ?_, ?_, ?_, ?_⟩
  · intro a b ra rb ha hb hf hk
    obtain ⟨oa, hoa, hfa, hka, _⟩ := hold a ra ha
    obtain ⟨ob, hob, hfb, hkb, _⟩ := hold b rb hb
    exact h.unique a b oa ob hoa hob (hfa.trans (hf.trans hfb.symm)) (hka.trans (hk.trans hkb.symm))
  · intro a ra ha
    rw [hget] at ha
    split at ha
    · cases ha
      obtain ⟨h1, h2, h3, _⟩ := h.sound id row hrow
      exact ⟨h1, h2, h3, by simp [ConflictRow.resolve]⟩
    · exact h.sound a ra ha
  · intro a ra ha m hm
    obtain ⟨old, hold, hf, _, hmem⟩ := hold a ra ha
    rw [← hmem] at hm ⊢
    rw [← hf]
    exact (h.members a old hold m hm).grow hgrows (List.Subset.refl _)
  · intro a ra ha
    rw [hget] at ha
    rw [hturns]
    split at ha
    · next hid =>
      cases ha
      rw [if_pos hid.symm, hid]
      exact (h.counted id row hrow).close (by simp [ConflictRow.resolve])
    · next hid =>
      rw [if_neg fun heq => hid heq.symm, List.append_nil]
      exact h.counted a ra ha
  · intro a ha
    rw [hget] at ha
    split at ha
    · exact nomatch ha
    · next hne =>
      rw [hturns, if_neg fun heq => hne heq.symm, List.append_nil]
      exact h.fresh a ha
  · intro a ra ha
    obtain ⟨old, hold, _⟩ := hold a ra ha
    obtain ⟨c, hmem, hc⟩ := h.first a old hold
    exact ⟨c, List.mem_append_left _ hmem, hc⟩

end

/-! ### Operations -/

/-- The claim that was inserted, and the claims it was found to contradict. -/
structure Incoming (reg : Registry) (t : Tables) (incoming : Claim) (predicate : PredicateDefinition)
    (found : List (RecordId × ConflictKind)) : Prop where
  row : ∃ row, t.claims[incoming.claimId]? = some row ∧ row.proposition = incoming.proposition
  known : reg.predicate? incoming.proposition.predicate = some predicate
  found : ∀ id kind, (id, kind) ∈ found → id ≠ incoming.claimId ∧ ∃ row, t.claims[id]? = some row ∧
    familyKey row.proposition predicate = familyKey incoming.proposition predicate

section

variable {reg : Registry} {w w' : Txn} {hist : List LedgerEvent} {incoming : Claim}
  {predicate : PredicateDefinition} {found : List (RecordId × ConflictKind)} {kind : ConflictKind}
  {openedSeq : Nat}

theorem Incoming.shares (h : Incoming reg w.tables incoming predicate found) :
    ∀ m ∈ incoming.claimId :: membersOf found kind, SharesFamily reg w.tables
      (incoming.claimId :: membersOf found kind) (familyKey incoming.proposition predicate) m := by
  obtain ⟨row, hrow, hp⟩ := h.row
  have hpred : reg.predicate? row.proposition.predicate = some predicate := by
    rw [hp]
    exact h.known
  intro m hm
  rcases List.mem_cons.mp hm with rfl | hm
  · exact ⟨_, List.mem_cons_self, row, row, predicate, hrow, hrow, hpred, by rw [hp], by rw [hp]⟩
  · obtain ⟨_, other, hother, hfam⟩ := h.found m kind (mem_membersOf.mp hm)
    exact ⟨_, List.mem_cons_self, row, other, predicate, hrow, hother, hpred, by rw [hp], hfam⟩

theorem Incoming.two (h : Incoming reg w.tables incoming predicate found)
    (hne : membersOf found kind ≠ []) : ∃ a ∈ incoming.claimId :: membersOf found kind,
      ∃ b ∈ incoming.claimId :: membersOf found kind, a ≠ b := by
  obtain ⟨m, hm⟩ := List.exists_mem_of_ne_nil _ hne
  exact ⟨m, List.mem_cons_of_mem _ hm, incoming.claimId, List.mem_cons_self,
    (h.found m kind (mem_membersOf.mp hm)).1⟩

theorem openConflictOf_table
    (h : openConflictOf w incoming (familyKey incoming.proposition predicate) kind found openedSeq =
      .ok w')
    (hin : Incoming reg w.tables incoming predicate found)
    (hI : ConflictTable reg w.tables (hist ++ w.events)) :
    ConflictTable reg w'.tables (hist ++ w'.events) ∧
      Incoming reg w'.tables incoming predicate found := by
  rcases openConflictOf_eq_ok.mp h with ⟨_, rfl⟩ | ⟨hne, c, hc, rfl⟩
  · exact ⟨hI, hin⟩
  · refine ⟨?_, ⟨hin.row, hin.known, hin.found⟩⟩
    rw [← List.append_assoc]
    exact hI.insert (conflictRowFor_contradicted hc hI.unique) hin.shares (hin.two hne)

variable [Host] {claim : Claim} {evidence : List EvidenceLink} {ignored : List RecordId}

/-- The state in which a claim's contradictions are looked for. -/
theorem incoming_of_inserted {t : Tables} (hvalid : validateClaim reg claim evidence = .ok predicate)
    (hins : insertClaim w.tables claim evidence = .ok t)
    (hfound : contradicting t claim predicate ignored = .ok found) :
    Incoming reg t claim predicate found := by
  refine ⟨⟨claim.row, ?_, rfl⟩, validateClaim_predicate hvalid, fun id kind hmem => ?_⟩
  · rw [insertClaim_frame hins, Table.get_insert, if_pos rfl]
  · obtain ⟨row, hrow, _, hne, _, hfam, _⟩ := (mem_contradicting hfound id).mp hmem
    exact ⟨hne, row, hrow, hfam⟩

omit [Host] in
theorem insertClaim_grows {t t' : Tables} (h : insertClaim t claim evidence = .ok t') :
    t.Grows t' := by
  obtain ⟨hid, hfold⟩ := insertClaim_eq_ok.mp h
  exact foldlM_inv (P := fun s => t.Grows s)
    (fun _ _ _ _ hs hlink => hs.trans (validateAndInsertEvidence_grows hlink))
    (.insert_claim hid) hfold

omit [Host] in
/-- The claim and its evidence are there, the conflicts are not opened yet. -/
theorem insertClaim_table {t : Tables} (h : insertClaim w.tables claim evidence = .ok t)
    (hI : ConflictTable reg w.tables (hist ++ w.events)) :
    ConflictTable reg t (hist ++ (w.emit t (.claimAsserted claim evidence)).events) := by
  rw [Txn.emit_events, ← List.append_assoc]
  refine hI.keep (insertClaim_grows h) (by rw [insertClaim_frame h]) ?_
  simp [LedgerEvent.turn?]

theorem assertClaim_table (h : assertClaim reg w claim evidence ignored openedSeq = .ok w')
    (hI : ConflictTable reg w.tables (hist ++ w.events)) :
    ConflictTable reg w'.tables (hist ++ w'.events) := by
  obtain ⟨predicate, t, hvalid, hins, hopen⟩ := assertClaim_eq_ok.mp h
  obtain ⟨found, v, hfound, hv, hw⟩ := openConflicts_eq_ok.mp hopen
  obtain ⟨hIv, hinv⟩ := openConflictOf_table hv (incoming_of_inserted hvalid hins hfound)
    (insertClaim_table hins hI)
  exact (openConflictOf_table hw hinv hIv).1

variable {proposer : ActorRef} {op : Operation}

theorem applyOperation_table (h : applyOperation reg proposer openedSeq w op = .ok w')
    (hI : ConflictTable reg w.tables (hist ++ w.events)) :
    ConflictTable reg w'.tables (hist ++ w'.events) := by
  cases op with
  | registerSourceRevision _ source =>
    have hgrows := registerSourceRevision_grows h
    rcases registerSourceRevision_eq_ok.mp h with ⟨_, _, _, _, rfl⟩ | ⟨_, _, _, _, rfl⟩ <;>
    · rw [Txn.emit_events, ← List.append_assoc]
      exact hI.keep hgrows rfl (by simp [LedgerEvent.turn?])
  | assertClaim claim evidence _ => exact assertClaim_table h hI
  | attachEvidence link _ =>
    obtain ⟨row, _, t, _, _, _, _, ht, rfl⟩ := attachEvidence_eq_ok.mp h
    rw [Txn.emit_events, ← List.append_assoc]
    refine hI.keep ((validateAndInsertEvidence_grows ht).trans
      (.modify_claim link.claimId fun _ => rfl)) ?_ (by simp [LedgerEvent.turn?])
    rw [validateAndInsertEvidence_frame ht]
    rfl
  | supersedeClaim op =>
    obtain ⟨_, v, _, _, hv, rfl⟩ := supersedeClaim_eq_ok.mp h
    rw [Txn.emit_events, ← List.append_assoc]
    exact (assertClaim_table hv hI).keep (.modify_claim op.targetClaimId fun _ => rfl) rfl
      (by simp [LedgerEvent.turn?])
  | retractClaim op =>
    obtain ⟨_, _, _, _, _, rfl⟩ := retractClaim_eq_ok.mp h
    rw [Txn.emit_events, ← List.append_assoc]
    exact hI.keep (.modify_claim op.targetClaimId fun _ => rfl) rfl (by simp [LedgerEvent.turn?])
  | resolveConflict op =>
    obtain ⟨row, hrow, _, rfl⟩ := resolveConflict_eq_ok.mp h
    rw [Txn.emit_events, ← List.append_assoc]
    exact hI.resolve hrow op.resolution
  | recordDecision | supersedeDecision | openQuestion | answerQuestion | dropQuestion
  | createWorkItem | updateWorkItemStatus =>
    have hkeep := applyOperation_keepsMemory h (by simp [applyContinuityOperation])
    obtain ⟨es, he, hes⟩ := hkeep.events
    rw [he, ← List.append_assoc]
    exact hI.keep (.of_eq hkeep.sources hkeep.claims hkeep.evidence) hkeep.conflicts
      fun e hmem => turn?_of_continuity (hes e hmem)

end

/-! ### Identifiers -/

/-- The member lists the ledger names. -/
def openedMembers (events : List LedgerEvent) : Set (List RecordId) :=
  {members | ∃ c, .conflictOpened c ∈ events ∧ members = c.memberClaimIds}

section

variable {reg : Registry} {t : Tables} {events : List LedgerEvent} {members : List RecordId}

/-- Members of which one is not stored yet are the first of no conflict. -/
theorem ConflictTable.free (h : ConflictTable reg t events)
    (hnew : ∃ m ∈ members, t.claims[m]? = none) {ms : Set (List RecordId)}
    (hapart : Set.InjOn conflictIdOf ms) (hopened : openedMembers events ⊆ ms)
    (hmem : members ∈ ms) : t.conflicts[conflictIdOf members]? = none := by
  by_contra hne
  obtain ⟨row, hrow⟩ := Option.ne_none_iff_exists'.mp hne
  obtain ⟨c, hc, _, hid, hclaims⟩ := h.first _ row hrow
  obtain ⟨m, hm, hnone⟩ := hnew
  have hsame : c.memberClaimIds = members := hapart (hopened ⟨c, hc, rfl⟩) hmem hid
  obtain ⟨claim, hclaim⟩ := hclaims m (hsame ▸ hm)
  rw [hnone] at hclaim
  exact nomatch hclaim

theorem conflictRowFor_of_free {family : Hash} {kind : ConflictKind} {openedSeq : Nat}
    (h : t.conflicts[conflictIdOf (sortedSet members)]? = none) :
    ∃ c, conflictRowFor t family kind members openedSeq = .ok c ∧
      (c.1 = conflictIdOf (sortedSet members) ∨ ∃ row, t.conflicts[c.1]? = some row) := by
  cases ho : openConflict? t family kind with
  | some b => exact ⟨_, conflictRowFor_eq_ok.mpr (Or.inl ⟨b, ho, rfl⟩),
      Or.inr ⟨_, (openConflict?_eq_some ho).1⟩⟩
  | none =>
    cases hr : resolvedConflict? t family kind with
    | some b => exact ⟨_, conflictRowFor_eq_ok.mpr (Or.inr (Or.inl ⟨ho, b, hr, rfl⟩)),
        Or.inr ⟨_, (resolvedConflict?_eq_some hr).1⟩⟩
    | none => exact ⟨_, conflictRowFor_eq_ok.mpr (Or.inr (Or.inr ⟨ho, hr, h, rfl⟩)), Or.inl rfl⟩

theorem openConflictOf_of_free {w : Txn} {incoming : Claim} {family : Hash} {kind : ConflictKind}
    {found : List (RecordId × ConflictKind)} {openedSeq : Nat}
    (h : w.tables.conflicts[conflictIdOf (sortedSet (incoming.claimId :: membersOf found kind))]? =
      none) :
    ∃ w', openConflictOf w incoming family kind found openedSeq = .ok w' ∧
      ∀ id, w'.tables.conflicts[id]? = none ∨ (∃ row, w.tables.conflicts[id]? = some row) ∨
        membersOf found kind ≠ [] ∧
          id = conflictIdOf (sortedSet (incoming.claimId :: membersOf found kind)) := by
  by_cases hne : membersOf found kind = []
  · refine ⟨w, openConflictOf_eq_ok.mpr (Or.inl ⟨hne, rfl⟩), fun id => ?_⟩
    cases hid : w.tables.conflicts[id]? with
    | none => exact Or.inl rfl
    | some row => exact Or.inr (Or.inl ⟨row, rfl⟩)
  · obtain ⟨c, hc, hold⟩ := @conflictRowFor_of_free _ _ family kind openedSeq h
    refine ⟨_, openConflictOf_eq_ok.mpr (Or.inr ⟨hne, c, hc, rfl⟩), fun id => ?_⟩
    by_cases hid : id = c.1
    · rw [hid]
      exact Or.inr (hold.elim (fun h => Or.inr ⟨hne, h⟩) Or.inl)
    · simp only [Table.get_insert, if_neg hid]
      cases hget : w.tables.conflicts[id]? with
      | none => exact Or.inl rfl
      | some row => exact Or.inr (Or.inl ⟨row, rfl⟩)

end

/-- The member lists of the conflicts an incoming claim would open. -/
def newMembers (incoming : Claim) (found : List (RecordId × ConflictKind)) : Set (List RecordId) :=
  {members | ∃ kind, members = sortedSet (incoming.claimId :: membersOf found kind)}

section

variable [Host] {reg : Registry} {w w' : Txn} {hist : List LedgerEvent} {incoming : Claim}
  {predicate : PredicateDefinition} {found : List (RecordId × ConflictKind)} {openedSeq : Nat}
  {evidence : List EvidenceLink} {ignored : List RecordId} {t : Tables}

/-- A claim contradicts another in one way. -/
theorem contradicting_kind_unique {kind kind' : ConflictKind} {id : RecordId}
    (h : contradicting t incoming predicate ignored = .ok found) (hk : (id, kind) ∈ found)
    (hk' : (id, kind') ∈ found) : kind = kind' := by
  obtain ⟨row, hrow, _, _, _, _, hkind⟩ := (mem_contradicting h id).mp hk
  obtain ⟨row', hrow', _, _, _, _, hkind'⟩ := (mem_contradicting h id).mp hk'
  rw [hrow] at hrow'
  cases hrow'
  rw [hkind] at hkind'
  exact Option.some.inj (Except.ok.inj hkind')

/-- **No conflict needs an identifier that is taken.** -/
theorem openConflicts_of_apart (hI : ConflictTable reg w.tables (hist ++ w.events))
    (hins : insertClaim w.tables incoming evidence = .ok t)
    (hfound : contradicting t incoming predicate ignored = .ok found)
    (hapart : Set.InjOn conflictIdOf (openedMembers (hist ++ w.events) ∪ newMembers incoming found)) :
    ∃ w', openConflicts (w.emit t (.claimAsserted incoming evidence)) incoming predicate ignored
      openedSeq = .ok w' := by
  have hconflicts : t.conflicts = w.tables.conflicts := by rw [insertClaim_frame hins]
  have hfree : ∀ kind, t.conflicts[conflictIdOf (sortedSet
      (incoming.claimId :: membersOf found kind))]? = none := by
    intro kind
    rw [hconflicts]
    exact hI.free ⟨incoming.claimId, by simp, (insertClaim_eq_ok.mp hins).1⟩ hapart
      Set.subset_union_left (Set.mem_union_right _ ⟨kind, rfl⟩)
  obtain ⟨v, hv, hids⟩ := @openConflictOf_of_free (w.emit t (.claimAsserted incoming evidence)) _
    (familyKey incoming.proposition predicate) _ _ openedSeq (hfree .exclusiveValueConflict)
  have hfree' : v.tables.conflicts[conflictIdOf (sortedSet
      (incoming.claimId :: membersOf found .polarityConflict))]? = none := by
    rcases hids (conflictIdOf (sortedSet (incoming.claimId :: membersOf found .polarityConflict)))
      with hnone | ⟨row, hrow⟩ | ⟨hne, hid⟩
    · exact hnone
    · rw [Txn.emit_tables, hfree .polarityConflict] at hrow
      exact nomatch hrow
    · -- The claims of the other kind are different ones.
      exfalso
      have hsame := hapart (Set.mem_union_right _ ⟨.polarityConflict, rfl⟩)
        (Set.mem_union_right _ ⟨.exclusiveValueConflict, rfl⟩) hid
      obtain ⟨m, hm⟩ := List.exists_mem_of_ne_nil _ hne
      have hmem : m ∈ sortedSet (incoming.claimId :: membersOf found .polarityConflict) := by
        rw [hsame]
        simp [hm]
      rw [mem_sortedSet, List.mem_cons] at hmem
      obtain ⟨_, _, _, hne', _⟩ := (mem_contradicting hfound m).mp (mem_membersOf.mp hm)
      have hkind := contradicting_kind_unique hfound (mem_membersOf.mp hm)
        (mem_membersOf.mp (hmem.resolve_left hne'))
      exact nomatch hkind
  obtain ⟨w', hw', _⟩ := @openConflictOf_of_free _ _ (familyKey incoming.proposition predicate) _ _
    openedSeq hfree'
  exact ⟨w', openConflicts_eq_ok.mpr ⟨found, v, hfound, hv, hw'⟩⟩

theorem applyOperations_table {proposer : ActorRef} {ops : List Operation}
    (h : applyOperations reg proposer openedSeq t ops = .ok w') (hI : ConflictTable reg t hist) :
    ConflictTable reg w'.tables (hist ++ w'.events) :=
  foldlM_inv (P := fun w : Txn => ConflictTable reg w.tables (hist ++ w.events))
    (fun _ _ _ _ hw hop => applyOperation_table hop hw) (by simpa using hI) h

end

/-! ### The law -/

section

variable [Host] {reg : Registry}

omit [Host] in
/-- When families name their predicate and their hashes do not collide, the family a member
shares is its own. -/
theorem SharesFamily.own {t : Tables} {members : List RecordId} {family : Hash} {m : RecordId}
    (h : SharesFamily reg t members family m) (hreg : reg.FamiliesNamePredicate)
    (hapart : Set.InjOn sha256Json (familyInputs reg t)) :
    ∃ claim predicate, t.claims[m]? = some claim ∧
      reg.predicate? claim.proposition.predicate = some predicate ∧
      familyKey claim.proposition predicate = family := by
  obtain ⟨i, _, incoming, other, predicate, hi, hm, hpred, hfam, hfam'⟩ := h
  have hp := (predicate?_mem hpred).1
  have hvalues : familyValues other.proposition predicate =
      familyValues incoming.proposition predicate :=
    hapart ⟨m, other, predicate, hm, hp, rfl⟩ ⟨i, incoming, predicate, hi, hp, rfl⟩
      (hfam'.trans hfam.symm)
  exact ⟨other, predicate, hm, by rw [hreg.eq hp hvalues]; exact hpred, hfam'⟩

/-- Whatever operations are applied next, no conflict they open needs an identifier that is
taken, as long as the digests the identifiers are cut from do not collide. -/
def IdsFree (reg : Registry) (db : Db) : Prop :=
  ∀ proposer ops w claim evidence ignored predicate t found,
    applyOperations reg proposer (nextLedgerSeq db.ledger) db.tables ops = .ok w →
    insertClaim w.tables claim evidence = .ok t →
    contradicting t claim predicate ignored = .ok found →
    Set.InjOn conflictIdOf (openedMembers (db.events ++ w.events) ∪ newMembers claim found) →
    ∃ w', openConflicts (w.emit t (.claimAsserted claim evidence)) claim predicate ignored
      (nextLedgerSeq db.ledger) = .ok w'

variable {ι : Type} [DecidableEq ι]

/-- **The table of conflicts** in every state of every interleaving. -/
theorem conflict_table (reg : Registry) (es : List (Event ι)) (u : Sys ι)
    (hrun : Run reg (.start .empty) es u) :
    ConflictTable reg u.db.tables u.db.events ∧
    (reg.FamiliesNamePredicate → Set.InjOn sha256Json (familyInputs reg u.db.tables) →
      ∀ (id : RecordId) (row : ConflictRow), u.db.tables.conflicts[id]? = some row →
      ∀ m ∈ row.members, ∃ claim predicate, u.db.tables.claims[m]? = some claim ∧
        reg.predicate? claim.proposition.predicate = some predicate ∧
        familyKey claim.proposition predicate = row.familyKey) ∧
    IdsFree reg u.db := by
  have htable : ConflictTable reg u.db.tables u.db.events :=
    hrun.history .empty fun _ _ _ _ _ _ h => applyOperation_table h
  refine ⟨htable, fun hreg hapart id row hrow m hm => ?_, ?_⟩
  · exact (htable.members id row hrow m hm).own hreg hapart
  · intro proposer ops w claim evidence ignored predicate t found happly hins hfound hapart
    exact openConflicts_of_apart (applyOperations_table happly htable) hins hfound hapart

end

/-! ### Two owners -/

/-- Somebody else owns the ledger. -/
def rivalClaim : Claim :=
  { ownerClaim with
    claimId := ⟨"claim_00000002", by decide⟩
    proposition := ownerProposition ⟨"Bob", by decide⟩
    propositionHash :=
      ⟨"sha256:4f6b1019683b438191b5c17f7fb52ba2d49e684dd8d1d365c13767ddb270ef4a", by decide⟩ }

/-- The source, quoted to its end. -/
def sourceEnd : AtLeast 1 := .ofInt (3 : Nat) (by decide)

def rivalLink : EvidenceLink :=
  { ownerLink sourceEnd with
    claimId := rivalClaim.claimId
    evidenceLinkId := ⟨"evidence_00000002", by decide⟩ }

def rivalAssert : Operation :=
  .assertClaim rivalClaim ⟨[rivalLink], List.pairwise_singleton _ _, by simp⟩
    ⟨"op_00000003", by decide⟩

/-- A proposal that asserts both claims. -/
def rivalAssertion : Proposal :=
  { ownerAssertion sourceEnd with
    operations := ⟨(ownerAssertion sourceEnd).operations.1 ++ [rivalAssert],
      by simp [ownerAssertion]⟩ }

/-- The conflict of the two. -/
def rivalConflict : RecordId × ConflictRow :=
  (conflictIdOf (sortedSet [rivalClaim.claimId, ownerClaim.claimId]),
    .new (familyKey rivalClaim.proposition ownerPredicate) .exclusiveValueConflict
      [rivalClaim.claimId, ownerClaim.claimId] 1)

/-- The tables once both claims are asserted, without the conflict. -/
def rivalClaims : Tables :=
  { ownerTables sourceEnd with
    claims := (ownerTables sourceEnd).claims.insert rivalClaim.claimId rivalClaim.row
    evidence := (ownerTables sourceEnd).evidence.insert rivalLink.evidenceLinkId
      ⟨rivalClaim.claimId, ownerSource.revisionId, rivalLink⟩ }

def rivalTables : Tables :=
  { rivalClaims with
    conflicts := (∅ : Table RecordId ConflictRow).insert rivalConflict.1 rivalConflict.2 }

def rivalTxn : Txn :=
  ⟨rivalTables, (ownerTxn sourceEnd).events ++ [.claimAsserted rivalClaim [rivalLink],
    .conflictOpened (conflictDocument rivalConflict.1 rivalConflict.2)], [rivalConflict.1]⟩

theorem rivalProposition_hash :
    sha256Json (Proposition.codec.enc rivalClaim.proposition) = rivalClaim.propositionHash := by
  have hhex : sha256Hex (utf8 (Proposition.codec.enc rivalClaim.proposition).dumps) =
      "4f6b1019683b438191b5c17f7fb52ba2d49e684dd8d1d365c13767ddb270ef4a".toList := by
    rw [JsonOf.dumps, utf8_ofList]
    decide +kernel
  refine Text.ext ?_
  show String.ofList ("sha256:".toList ++ sha256Hex _) = _
  rw [hhex]
  decide

/-- The two claims have one family. -/
theorem rival_family : familyKey ownerClaim.proposition ownerPredicate =
    familyKey rivalClaim.proposition ownerPredicate := congrArg sha256Json (by rfl)

theorem insertClaim_rival (conflicts : Table RecordId ConflictRow) :
    insertClaim { ownerTables sourceEnd with conflicts } rivalClaim [rivalLink] =
      .ok { rivalClaims with conflicts } := by
  have hbacked : Backed [65, 100, 97] rivalLink.selector 0 3 := by
    refine ⟨rfl, rfl, ?_, ?_⟩
    · decide
    · exact ownerSource_hash
  have hsource : (ownerTables sourceEnd).sources[ownerSource.revisionId]? =
      some ⟨ownerSource.contentHash, ownerSource, [65, 100, 97]⟩ := by
    rw [ownerTables, Table.get_insert, if_pos rfl]
  have hnew : (ownerTables sourceEnd).claims[rivalClaim.claimId]? = none := by decide
  refine insertClaim_eq_ok.mpr ⟨hnew, ?_⟩
  simp only [List.foldlM_cons, List.foldlM_nil, bind_eq_ok, pure_eq_ok]
  exact ⟨_, validateAndInsertEvidence_eq_ok.mpr ⟨rfl, ⟨_, 0, 3, hsource, hbacked⟩, by rfl,
    ⟨rivalClaim.row, by rfl⟩, rfl⟩, rfl⟩

section

attribute [local instance] Host.utc

theorem contradicting_rival : contradicting rivalClaims rivalClaim ownerPredicate [] =
    .ok [(ownerClaim.claimId, .exclusiveValueConflict)] := by
  have hlist : rivalClaims.claims.toList =
      [(ownerClaim.claimId, ownerClaim.row), (rivalClaim.claimId, rivalClaim.row)] := by decide
  have hkind : conflictKind rivalClaim.proposition ownerClaim.row.proposition ownerPredicate =
      .ok (some .exclusiveValueConflict) := by rfl
  rw [contradicting, hlist]
  simp only [List.foldlM_cons, List.foldlM_nil]
  rw [if_pos ⟨rfl, by decide, List.not_mem_nil, rival_family⟩, hkind]
  simp only [ok_bind, ne_eq, not_true_eq_false, false_and, and_false, if_false]
  rfl

theorem validateClaim_rival :
    validateClaim ownerRegistry rivalClaim [rivalLink] = .ok ownerPredicate := by
  simp only [validateClaim, bind_eq_ok, require_eq_ok, pure_eq_ok, orRaise_eq_ok]
  exact ⟨(), rivalProposition_hash, ownerPredicate, by rfl, (), by decide, (), by rfl, (),
    by decide, rfl⟩

theorem assertClaim_rival :
    assertClaim ownerRegistry (ownerTxn sourceEnd) rivalClaim [rivalLink] [] 1 = .ok rivalTxn := by
  refine assertClaim_eq_ok.mpr ⟨ownerPredicate, _, validateClaim_rival, insertClaim_rival ∅, ?_⟩
  refine openConflicts_eq_ok.mpr ⟨_, rivalTxn, contradicting_rival, ?_, ?_⟩
  · exact openConflictOf_eq_ok.mpr (Or.inr ⟨by decide, rivalConflict,
      conflictRowFor_eq_ok.mpr (Or.inr (Or.inr ⟨by rfl, by rfl, by rfl, rfl⟩)), by rfl⟩)
  · exact openConflictOf_eq_ok.mpr (Or.inl ⟨by decide, rfl⟩)

/-- With the first claim active, the second is found to contradict it. -/
theorem contradicting_first {p : Prediction}
    (hactive : p.active = [(ownerClaim.claimId, ownerClaim.proposition)]) :
    p.contradicting rivalClaim ownerPredicate [] =
      .ok [(ownerClaim.claimId, .exclusiveValueConflict)] := by
  have hkind : conflictKind rivalClaim.proposition ownerClaim.proposition ownerPredicate =
      .ok (some .exclusiveValueConflict) := by rfl
  rw [Prediction.contradicting, hactive]
  simp only [List.foldlM_cons, List.foldlM_nil]
  rw [if_pos ⟨List.not_mem_nil, rival_family⟩, hkind]
  rfl

/-- Nothing refers to the conflict that is predicted. -/
theorem validateReferences_rival : validateContinuityReferences ownerRegistry .empty
    rivalAssertion.operations.1 = .ok () := by
  let p : Prediction :=
    (Prediction.start .empty).set ownerClaim.claimId ownerClaim.proposition
  have hstep : ∃ q, Prediction.step ownerRegistry p (.assertClaim rivalClaim
      ⟨[rivalLink], List.pairwise_singleton _ _, by simp⟩ ⟨"op_00000003", by decide⟩) = .ok q := by
    show ∃ q, (p.contradicting rivalClaim ownerPredicate [] >>= _) = .ok q
    rw [contradicting_first (p := p) rfl]
    exact ⟨_, rfl⟩
  obtain ⟨q, hq⟩ := hstep
  rw [validateContinuityReferences, bind_eq_ok]
  refine ⟨q.predicted, ?_, by rfl⟩
  simp only [predictedConflictIds, rivalAssertion, ownerAssertion, List.cons_append, List.nil_append,
    List.foldlM_cons, List.foldlM_nil, bind_eq_ok, pure_eq_ok]
  exact ⟨q, ⟨_, rfl, p, by rfl, q, hq, rfl⟩, rfl⟩

theorem rivalAssertion_accepts : ∃ row, Accepts ownerRegistry rivalAssertion.call
    (sha256Json (Proposal.codec.enc rivalAssertion)) (Proposal.codec.enc rivalAssertion) .empty
    (rivalAssertion.evaluation .empty rivalTxn) row := by
  refine accepts_of_checks .empty (JsonOf.toJson?_raw (Proposal.codec.sorted _)) (by decide) (by decide)
    (fun _ h => absurd h List.not_mem_nil) ?_ ?_ (by decide) ?_ (fun _ h => absurd h List.not_mem_nil)
  · simp only [validateProposal, bind_eq_ok]
    exact ⟨(), validateVersions_owner, (), by rfl, (), by rfl, validateReferences_rival⟩
  · simp only [applyOperations, rivalAssertion, ownerAssertion, List.cons_append, List.nil_append,
      List.foldlM_cons, List.foldlM_nil, bind_eq_ok, pure_eq_ok]
    exact ⟨_, registerSourceRevision_owner, _, assertClaim_owner (by decide) le_rfl _, _,
      assertClaim_rival, rfl⟩
  · intro ev hev
    simp only [rivalTxn, ownerTxn, List.cons_append, List.nil_append, List.mem_cons,
      List.not_mem_nil, or_false] at hev
    rcases hev with rfl | rfl | rfl | rfl
    · trivial
    · simp [LedgerEvent.Valid]
    · simp [LedgerEvent.Valid]
    · exact ⟨rfl, rfl, by decide, uniqueItems_of_sorted (sortedSet_sorted _), by decide⟩

/-- The run in which both claims are asserted. -/
theorem rival_run : ∃ es u, Run ownerRegistry (.start .empty : Sys Unit) es u ∧
    u.db.tables = rivalTables := by
  obtain ⟨row, hacc⟩ := rivalAssertion_accepts
  have hpre : preflight rivalAssertion.call = .ok (.evaluate
      (sha256Json (Proposal.codec.enc rivalAssertion)) (Proposal.codec.enc rivalAssertion)) :=
    preflight_evaluate.mpr ⟨by decide, JsonOf.toJson?_raw (Proposal.codec.sorted _),
      by decide, JsonOf.length_utf8_dumps_le (by decide), rfl⟩
  obtain ⟨es, hes⟩ := Run.accepted (s := (.start .empty : Sys Unit)) (i := ()) rfl hpre hacc
  exact ⟨es, _, hes, rfl⟩

end

/-- The state in which two claims of an owner stand against each other. -/
theorem conflict_table_of_rivals : letI := Host.utc
    ∃ u : Sys Unit, u.db.tables = rivalTables ∧
      ConflictTable ownerRegistry u.db.tables u.db.events := by
  obtain ⟨es, u, hrun, hu⟩ := rival_run
  exact ⟨u, hu, letI := Host.utc; (conflict_table ownerRegistry es u hrun).1⟩

end SharedMind
