import SharedMind.Kernel.Conflicts
import SharedMind.Kernel.Events
import SharedMind.Kernel.History

/-!
# Predicted conflicts

References are checked before any operation is applied, against conflicts that a second
implementation of conflict detection predicts in memory.

* `Prediction.Tracks`: the active claims and the conflicts it carries are those of the
  tables.
* `predictedConflictIds_of_applied`: of operations that apply, it predicts the conflicts
  that are opened.
-/

namespace SharedMind

open Py

/-- An operation of a continuity record opens no conflict. -/
theorem Txn.KeepsMemory.conflictIds {w w' : Txn} (h : w.KeepsMemory w') (he : w.Emits w') :
    w'.conflictIds = w.conflictIds := by
  obtain ⟨es, hes, hids⟩ := he
  obtain ⟨fs, hfs, hall⟩ := h.events
  obtain rfl : es = fs := List.append_cancel_left (hes.symm.trans hfs)
  have hnone : openedIds es = [] := by
    refine List.filterMap_eq_nil_iff.mpr fun e hmem => ?_
    have hcont := hall e hmem
    cases e <;> first | rfl | exact nomatch hcont
  rw [hids, hnone, List.append_nil]

namespace Prediction

variable [Host] {p : Prediction} {incoming : Claim} {predicate : PredicateDefinition}
  {ignored : List RecordId} {found : List (RecordId × ConflictKind)}

theorem contradicting_eq_collect : p.contradicting incoming predicate ignored =
    collect (fun c => c.1 ∉ ignored ∧
        familyKey c.2 predicate = familyKey incoming.proposition predicate)
      (fun c => conflictKind incoming.proposition c.2 predicate)
      (fun c kind => (c.1, kind)) p.active [] := by
  unfold contradicting collect
  congr 1
  funext found c
  congr 1
  dsimp only
  cases conflictKind incoming.proposition c.2 predicate with
  | error => rfl
  | ok kind => cases kind <;> rfl

omit [Host] in
theorem mem_set {id : RecordId} {proposition : Proposition} {c : RecordId × Proposition}
    (hnew : ∀ q, (id, q) ∉ p.active) :
    c ∈ (p.set id proposition).active ↔ c ∈ p.active ∨ c = (id, proposition) := by
  have hany : p.active.any (fun c => c.1 = id) = false := by
    rw [List.any_eq_false]
    rintro ⟨id', q⟩ hmem heq
    rw [decide_eq_true_eq] at heq
    subst heq
    exact hnew q hmem
  simp [set, hany]

omit [Host] in
@[simp] theorem set_episodes (id : RecordId) (proposition : Proposition) :
    (p.set id proposition).episodes = p.episodes := rfl

omit [Host] in
@[simp] theorem set_predicted (id : RecordId) (proposition : Proposition) :
    (p.set id proposition).predicted = p.predicted := rfl

omit [Host] in
theorem mem_foldl_pop {ids : List RecordId} {c : RecordId × Proposition} :
    c ∈ (ids.foldl pop p).active ↔ c ∈ p.active ∧ c.1 ∉ ids := by
  induction ids generalizing p with
  | nil => simp
  | cons id ids ih =>
    rw [List.foldl_cons, ih, pop, List.mem_filter, List.mem_cons, not_or, decide_eq_true_eq, and_assoc]

omit [Host] in
theorem foldl_pop_frame (ids : List RecordId) : (ids.foldl pop p).episodes = p.episodes ∧
    (ids.foldl pop p).predicted = p.predicted := by
  induction ids generalizing p with
  | nil => exact ⟨rfl, rfl⟩
  | cons id ids ih => exact ih

omit [Host] in
@[simp] theorem predict_active (id : RecordId) (family : Hash) (kind : ConflictKind) :
    (p.predict id family kind found).active = p.active := by
  unfold predict
  split <;> rfl

omit [Host] in
theorem predict_of_nil {id : RecordId} {family : Hash} {kind : ConflictKind}
    (h : membersOf found kind = []) : p.predict id family kind found = p := by
  rw [membersOf] at h
  rw [predict, h]

omit [Host] in
theorem predict_of_ne_nil {id conflictId : RecordId} {family : Hash} {kind : ConflictKind}
    (h : membersOf found kind ≠ []) (hid : (p.episodes family kind).getD
      (conflictIdOf (sortedSet (id :: membersOf found kind))) = conflictId) :
    p.predict id family kind found = { p with
      episodes := fun f k => if f = family ∧ k = kind then some conflictId else p.episodes f k
      predicted := p.predicted ++ [conflictId] } := by
  rw [← hid, predict]
  rw [membersOf] at h
  split
  · next hnone => exact absurd hnone h
  · rfl

/-- The conflicts a claim is predicted to open, once its contradictions are found. -/
theorem step_predicted {reg : Registry} {op : Operation} (hop : incoming? op = some (incoming, ignored))
    (hpredicate : reg.predicate? incoming.proposition.predicate = some predicate)
    (hfound : p.contradicting incoming predicate ignored = .ok found) :
    ∃ q, step reg p op = .ok q ∧ q.predicted =
      ((p.predict incoming.claimId (familyKey incoming.proposition predicate)
        .exclusiveValueConflict found).predict incoming.claimId
        (familyKey incoming.proposition predicate) .polarityConflict found).predicted := by
  simp only [step, hop, hpredicate, hfound, ok_bind]
  exact ⟨_, rfl, (foldl_pop_frame ignored).2⟩

/-! ### What a prediction tracks -/

/-- The conflicts are those of the tables, and those predicted are those listed. -/
structure TracksConflicts (p : Prediction) (t : Tables) (opened : List RecordId) : Prop where
  one : t.OneConflictEach
  episodes : ∀ family kind id, p.episodes family kind = some id ↔
    ∃ row, t.conflicts[id]? = some row ∧ row.familyKey = family ∧ row.kind = kind
  predicted : ∀ id, id ∈ p.predicted ↔ id ∈ opened

/-- So are the active claims. -/
structure Tracks (p : Prediction) (t : Tables) (opened : List RecordId) : Prop extends
    TracksConflicts p t opened where
  active : ∀ id q, (id, q) ∈ p.active ↔ ∃ row, t.claims[id]? = some row ∧ row.status = .active ∧
    row.proposition = q

omit [Host] in
/-- With one conflict each, the stored one is the one. -/
theorem storedEpisode_eq_some {t : Tables} (hone : t.OneConflictEach) {family : Hash}
    {kind : ConflictKind} {id : RecordId} : storedEpisode t family kind = some id ↔
      ∃ row, t.conflicts[id]? = some row ∧ row.familyKey = family ∧ row.kind = kind := by
  have hmem : ∀ {c : RecordId × ConflictRow},
      c ∈ t.conflicts.toList.filter (fun c => c.2.familyKey = family ∧ c.2.kind = kind) ↔
        t.conflicts[c.1]? = some c.2 ∧ c.2.familyKey = family ∧ c.2.kind = kind := by
    intro c
    rw [List.mem_filter, decide_eq_true_eq, ← Table.mem_toList]
  -- Whichever it picks, it is a conflict of the family and kind.
  have hsome : ∀ {id}, storedEpisode t family kind = some id →
      ∃ row, t.conflicts[id]? = some row ∧ row.familyKey = family ∧ row.kind = kind := by
    intro id h
    unfold storedEpisode at h
    dsimp only at h
    split at h
    · next c hc =>
      cases h
      exact ⟨c.2, hmem.mp (List.mem_of_mem_filter (latest_mem hc))⟩
    · obtain ⟨c, hc, rfl⟩ := Option.map_eq_some_iff.mp h
      exact ⟨c.2, hmem.mp (latest_mem hc)⟩
  refine ⟨hsome, fun ⟨row, hrow, hf, hk⟩ => ?_⟩
  cases h : storedEpisode t family kind with
  | some id' =>
    obtain ⟨row', hrow', hf', hk'⟩ := hsome h
    rw [hone id' id row' row hrow' hrow (hf'.trans hf.symm) (hk'.trans hk.symm)]
  | none =>
    exfalso
    unfold storedEpisode at h
    dsimp only at h
    split at h
    · exact nomatch h
    · rw [Option.map_eq_none_iff, latest_eq_none] at h
      have hin := (hmem (c := (id, row))).mpr ⟨hrow, hf, hk⟩
      rw [h] at hin
      exact absurd hin List.not_mem_nil

omit [Host] in
theorem start_tracks {t : Tables} (hone : t.OneConflictEach) : (start t).Tracks t [] where
  active id q := by
    simp only [start, List.mem_map, List.mem_filter, decide_eq_true_eq, Prod.mk.injEq, Prod.exists,
      Table.mem_toList]
    constructor
    · rintro ⟨id', row, ⟨hrow, hs⟩, rfl, rfl⟩
      exact ⟨row, hrow, hs, rfl⟩
    · rintro ⟨row, hrow, hs, rfl⟩
      exact ⟨id, row, ⟨hrow, hs⟩, rfl, rfl⟩
  one := hone
  episodes _ _ _ := storedEpisode_eq_some hone
  predicted _ := Iff.rfl

variable {w w' : Txn} {family : Hash} {kind : ConflictKind} {openedSeq : Nat}
  {found' : List (RecordId × ConflictKind)}

omit [Host] in
/-- One kind of contradiction, found with the same claims on both sides. -/
theorem predict_tracks (h : p.TracksConflicts w.tables w.conflictIds)
    (hsame : ∀ id, (id, kind) ∈ found' ↔ (id, kind) ∈ found)
    (hopen : openConflictOf w incoming family kind found openedSeq = .ok w') :
    (p.predict incoming.claimId family kind found').TracksConflicts w'.tables w'.conflictIds := by
  have hmembers : ∀ id, id ∈ membersOf found' kind ↔ id ∈ membersOf found kind := by
    intro id
    rw [mem_membersOf, mem_membersOf, hsame]
  have hnil : membersOf found' kind = [] ↔ membersOf found kind = [] := by
    simp only [List.eq_nil_iff_forall_not_mem, hmembers]
  rcases openConflictOf_eq_ok.mp hopen with ⟨hnone, rfl⟩ | ⟨hne, c, hc, rfl⟩
  · rw [predict_of_nil (hnil.mpr hnone)]
    exact h
  · have hcon := conflictRowFor_contradicted hc h.one
    have hid : (p.episodes family kind).getD
        (conflictIdOf (sortedSet (incoming.claimId :: membersOf found' kind))) = c.1 := by
      cases hep : p.episodes family kind with
      | some id =>
        obtain ⟨row, hrow, hf, hk⟩ := (h.episodes family kind id).mp hep
        exact hcon.only id row hrow hf hk
      | none =>
        have hfree : w.tables.conflicts[c.1]? = none := by
          by_contra hsome
          obtain ⟨row, hrow⟩ := Option.ne_none_iff_exists'.mp hsome
          obtain ⟨hf, hk, _⟩ := hcon.old row hrow
          rw [(h.episodes family kind c.1).mpr ⟨row, hrow, hf, hk⟩] at hep
          exact nomatch hep
        rw [Option.getD_none, (hcon.new hfree).1]
        refine congrArg conflictIdOf (eq_of_sorted (sortedSet_sorted _) (sortedSet_sorted _) ?_)
        simp [hmembers]
    rw [predict_of_ne_nil (fun h => hne (hnil.mp h)) hid]
    refine ⟨hcon.one h.one, fun f k id => ?_, fun id => ?_⟩
    · dsimp only
      split
      · next hfk =>
        obtain ⟨rfl, rfl⟩ := hfk
        constructor
        · rintro ⟨⟩
          exact ⟨c.2, by rw [Table.get_insert, if_pos rfl], hcon.family_eq, hcon.kind_eq⟩
        · rintro ⟨row, hrow, hf, hk⟩
          rw [Table.get_insert] at hrow
          split at hrow
          · next hid => rw [hid]
          · rw [hcon.only id row hrow hf hk]
      · next hfk =>
        rw [h.episodes]
        have hother : ∀ row, w.tables.conflicts[c.1]? = some row →
            ¬(row.familyKey = f ∧ row.kind = k) := by
          rintro row hrow ⟨rfl, rfl⟩
          obtain ⟨hf, hk, _⟩ := hcon.old row hrow
          exact hfk ⟨hf, hk⟩
        refine exists_congr fun row => ?_
        rw [Table.get_insert]
        split
        · next hid =>
          constructor
          · rintro ⟨hrow, hf⟩
            exact absurd hf (hother row (hid ▸ hrow))
          · rintro ⟨hrow, hf, hk⟩
            cases hrow
            exact absurd ⟨hf.symm.trans hcon.family_eq, hk.symm.trans hcon.kind_eq⟩ hfk
        · rfl
    · simp [h.predicted]

/-! ### Operations -/

variable {reg : Registry} {claim : Claim} {evidence : List EvidenceLink} {proposer : ActorRef}
  {op : Operation}

/-- A claim that is asserted, apart from the claims that are ignored. -/
theorem assertClaim_tracks (h : p.Tracks w.tables w.conflictIds)
    (hop : incoming? op = some (claim, ignored))
    (hassert : assertClaim reg w claim evidence ignored openedSeq = .ok w') :
    ∃ q, step reg p op = .ok q ∧ q.TracksConflicts w'.tables w'.conflictIds ∧
      ∀ id r, (id, r) ∈ q.active ↔ id ∉ ignored ∧ ∃ row, w'.tables.claims[id]? = some row ∧
        row.status = .active ∧ row.proposition = r := by
  obtain ⟨predicate, t, hvalid, hins, hopen⟩ := assertClaim_eq_ok.mp hassert
  obtain ⟨found, v, hfound, hv, hw⟩ := openConflicts_eq_ok.mp hopen
  have hnew := (insertClaim_eq_ok.mp hins).1
  have hframe := insertClaim_frame hins
  have hactive : ∀ id q, (id, q) ∈ p.active ↔ id ≠ claim.claimId ∧
      ∃ row, t.claims[id]? = some row ∧ row.status = .active ∧ row.proposition = q := by
    intro id q
    rw [h.active, hframe, Table.get_insert]
    by_cases hid : id = claim.claimId
    · simp [hid, hnew]
    · simp [hid]
  -- The claims compared are the same on both sides.
  obtain ⟨found', hfound'⟩ : ∃ found', p.contradicting claim predicate ignored = .ok found' := by
    rw [contradicting_eq_collect]
    refine exists_collect ?_ []
    rintro ⟨id, q⟩ hmem ⟨hignored, hfamily⟩
    obtain ⟨hne, row, hrow, hs, rfl⟩ := (hactive id q).mp hmem
    exact conflictKind_of_contradicting hfound hrow hs hne hignored hfamily
  have hsame : ∀ id kind, (id, kind) ∈ found' ↔ (id, kind) ∈ found := by
    intro id kind
    rw [contradicting_eq_collect] at hfound'
    rw [(collect_spec hfound').2, mem_contradicting hfound]
    constructor
    · rintro (hnil | ⟨⟨id', q⟩, hmem, ⟨hignored, hfamily⟩, k, hk, hentry⟩)
      · exact absurd hnil List.not_mem_nil
      · cases hentry
        obtain ⟨hne, row, hrow, hs, rfl⟩ := (hactive _ q).mp hmem
        exact ⟨row, hrow, hs, hne, hignored, hfamily, hk⟩
    · rintro ⟨row, hrow, hs, hne, hignored, hfamily, hk⟩
      exact Or.inr ⟨(id, row.proposition), (hactive id _).mpr ⟨hne, row, hrow, hs, rfl⟩,
        ⟨hignored, hfamily⟩, kind, hk, rfl⟩
  have hstart : p.TracksConflicts (w.emit t (.claimAsserted claim evidence)).tables
      (w.emit t (.claimAsserted claim evidence)).conflictIds := by
    have hconflicts : t.conflicts = w.tables.conflicts := by rw [hframe]
    refine ⟨?_, ?_, h.predicted⟩
    · intro id id' row row' hrow hrow'
      exact h.one id id' row row' (hconflicts ▸ hrow) (hconflicts ▸ hrow')
    · intro family kind id
      rw [Txn.emit_tables, hconflicts]
      exact h.episodes family kind id
  let opened := (p.predict claim.claimId (familyKey claim.proposition predicate)
    .exclusiveValueConflict found').predict claim.claimId (familyKey claim.proposition predicate)
    .polarityConflict found'
  have htracked : opened.TracksConflicts w'.tables w'.conflictIds :=
    predict_tracks (predict_tracks hstart (hsame · _) hv) (hsame · _) hw
  have hopened : opened.active = p.active := by rw [predict_active, predict_active]
  obtain ⟨hepisodes, hpredicted⟩ := foldl_pop_frame
    (p := opened.set claim.claimId claim.proposition) ignored
  refine ⟨ignored.foldl pop (opened.set claim.claimId claim.proposition), ?_,
    ⟨htracked.one, ?_, ?_⟩, fun id r => ?_⟩
  · simp only [step, hop, validateClaim_predicate hvalid, hfound', ok_bind]
    rfl
  · rw [hepisodes]
    exact htracked.episodes
  · rw [hpredicted]
    exact htracked.predicted
  · have hfresh : ∀ q, (claim.claimId, q) ∉ p.active := fun q hmem =>
      absurd rfl ((hactive _ q).mp hmem).1
    have hclaims : w'.tables.claims = t.claims := by
      rw [(openConflictOf_frame hw).1, (openConflictOf_frame hv).1]
      rfl
    rw [mem_foldl_pop, mem_set (by rwa [hopened]), hopened, hactive, hclaims, and_comm]
    refine and_congr_right fun _ => ?_
    rw [hframe]
    dsimp only
    rw [Table.get_insert]
    by_cases hid : id = claim.claimId
    · simp [hid, Claim.row, eq_comm]
    · simp [hid]

omit [Host] in
theorem Tracks.keep {t t' : Tables} {opened : List RecordId} (h : p.Tracks t opened)
    (hconflicts : t'.conflicts = t.conflicts) (hclaims : t'.claims = t.claims) :
    p.Tracks t' opened := by
  obtain ⟨⟨hone, hepisodes, hpredicted⟩, hactive⟩ := h
  refine ⟨⟨?_, ?_, hpredicted⟩, ?_⟩
  · rw [Tables.OneConflictEach, hconflicts]
    exact hone
  · rw [hconflicts]
    exact hepisodes
  · rw [hclaims]
    exact hactive

omit [Host] in
/-- A claim of which neither the proposition changes nor whether it is active. -/
theorem Tracks.modify {t : Tables} {opened : List RecordId} {id : RecordId}
    {f : ClaimRow → ClaimRow} (h : p.Tracks t opened)
    (hf : ∀ row, (f row).status = row.status ∧ (f row).proposition = row.proposition) :
    p.Tracks { t with claims := t.claims.modify id f } opened := by
  refine ⟨⟨h.one, h.episodes, h.predicted⟩, fun id' q => ?_⟩
  rw [h.active, Table.get_modify]
  split
  · cases t.claims[id']? with
    | none => simp
    | some row => simp [hf row]
  · rfl

omit [Host] in
/-- A claim that is no longer active. -/
theorem TracksConflicts.deactivate {t : Tables} {opened : List RecordId} {id : RecordId}
    {f : ClaimRow → ClaimRow} {q : Prediction} (h : q.TracksConflicts t opened)
    (hf : ∀ row, (f row).status ≠ .active)
    (hactive : ∀ id' r, (id', r) ∈ q.active ↔ id' ≠ id ∧
      ∃ row, t.claims[id']? = some row ∧ row.status = .active ∧ row.proposition = r) :
    q.Tracks { t with claims := t.claims.modify id f } opened := by
  refine ⟨⟨h.one, h.episodes, h.predicted⟩, fun id' r => ?_⟩
  rw [hactive, Table.get_modify]
  by_cases hid : id' = id
  · cases t.claims[id']? with
    | none => simp [hid]
    | some row => simp [hid, hf row]
  · simp [hid]

omit [Host] in
theorem Tracks.resolve {t : Tables} {opened : List RecordId} {id : RecordId}
    {resolution : Resolution} (h : p.Tracks t opened) :
    p.Tracks { t with conflicts := t.conflicts.modify id fun r => r.resolve resolution } opened := by
  have hget : ∀ (family : Hash) (kind : ConflictKind) (id' : RecordId),
      (∃ row, (t.conflicts.modify id fun r => r.resolve resolution)[id']? = some row ∧
        row.familyKey = family ∧ row.kind = kind) ↔
      ∃ row, t.conflicts[id']? = some row ∧ row.familyKey = family ∧ row.kind = kind := by
    intro family kind id'
    rw [Table.get_modify]
    split
    · cases t.conflicts[id']? with
      | none => simp
      | some row => simp [ConflictRow.resolve]
    · rfl
  refine ⟨⟨fun a b ra rb ha hb hf hk => ?_, fun family kind id' => ?_, h.predicted⟩, h.active⟩
  · obtain ⟨oa, hoa, hfa, hka⟩ := (hget _ _ a).mp ⟨ra, ha, rfl, rfl⟩
    obtain ⟨ob, hob, hfb, hkb⟩ := (hget _ _ b).mp ⟨rb, hb, rfl, rfl⟩
    exact h.one a b oa ob hoa hob (by rw [hfa, hfb, hf]) (by rw [hka, hkb, hk])
  · rw [h.episodes, hget]

omit [Host] in
theorem mem_pop {id : RecordId} {c : RecordId × Proposition} :
    c ∈ (p.pop id).active ↔ c ∈ p.active ∧ c.1 ≠ id := by
  simp [pop]

/-- One operation on both sides. -/
theorem step_tracks (h : p.Tracks w.tables w.conflictIds)
    (happly : applyOperation reg proposer openedSeq w op = .ok w') :
    ∃ q, step reg p op = .ok q ∧ q.Tracks w'.tables w'.conflictIds := by
  cases op with
  | registerSourceRevision _ source =>
    rcases registerSourceRevision_eq_ok.mp happly with ⟨_, _, _, _, rfl⟩ | ⟨_, _, _, _, rfl⟩ <;>
      exact ⟨p, rfl, h.keep rfl rfl⟩
  | assertClaim claim evidence opId =>
    obtain ⟨q, hq, htracked, hactive⟩ := @assertClaim_tracks _ _ _ _ _ _ _ _ _ (.assertClaim claim
      evidence opId) h rfl happly
    exact ⟨q, hq, htracked, fun id r => by simpa using hactive id r⟩
  | attachEvidence link _ =>
    obtain ⟨row, _, t, _, _, _, _, ht, rfl⟩ := attachEvidence_eq_ok.mp happly
    have hframe := validateAndInsertEvidence_frame ht
    have hkept : p.Tracks t w.conflictIds := h.keep (by rw [hframe]) (by rw [hframe])
    exact ⟨p, rfl, hkept.modify fun _ => ⟨rfl, rfl⟩⟩
  | supersedeClaim op =>
    obtain ⟨_, v, _, _, hv, rfl⟩ := supersedeClaim_eq_ok.mp happly
    obtain ⟨q, hq, htracked, hactive⟩ := @assertClaim_tracks _ _ _ _ _ _ _ _ _ (.supersedeClaim op)
      h rfl hv
    exact ⟨q, hq, htracked.deactivate (fun _ => by simp [ClaimRow.supersede])
      fun id r => by simpa using hactive id r⟩
  | retractClaim op =>
    obtain ⟨_, _, _, _, _, rfl⟩ := retractClaim_eq_ok.mp happly
    refine ⟨p.pop op.targetClaimId, rfl, TracksConflicts.deactivate ⟨h.one, h.episodes, h.predicted⟩
      (fun _ => by simp [ClaimRow.retract]) fun id r => ?_⟩
    rw [mem_pop, h.active, and_comm]
  | resolveConflict op =>
    obtain ⟨_, _, _, rfl⟩ := resolveConflict_eq_ok.mp happly
    exact ⟨p, rfl, h.resolve⟩
  | recordDecision | supersedeDecision | openQuestion | answerQuestion | dropQuestion
  | createWorkItem | updateWorkItemStatus =>
    have hkeep := applyOperation_keepsMemory happly (by simp [applyContinuityOperation])
    refine ⟨p, rfl, ?_⟩
    rw [hkeep.conflictIds (applyOperation_emits happly)]
    exact h.keep hkeep.conflicts hkeep.claims

end Prediction

/-! ### The law of the prediction -/

section

variable [Host] {reg : Registry} {proposer : ActorRef} {openedSeq : Nat} {t : Tables}
  {ops : List Operation} {w : Txn}

/-- **The conflicts predicted are those opened**, of operations that apply to tables with one
conflict for each family and kind. -/
theorem predictedConflictIds_of_applied (hone : t.OneConflictEach)
    (happly : applyOperations reg proposer openedSeq t ops = .ok w) :
    (∃ ids, predictedConflictIds reg t ops = .ok ids ∧ ∀ id, id ∈ ids ↔ id ∈ w.conflictIds) ∧
      w.tables.OneConflictEach := by
  have hinv := foldlM_prefix_inv (P := fun ops w => ∃ p, ops.foldlM (Prediction.step reg)
    (Prediction.start t) = .ok p ∧ p.Tracks w.tables w.conflictIds) ?_ ?_ happly
  · obtain ⟨p, hp, htracks⟩ := hinv
    refine ⟨⟨p.predicted, ?_, htracks.predicted⟩, htracks.one⟩
    rw [predictedConflictIds, hp]
    rfl
  · exact ⟨_, rfl, Prediction.start_tracks hone⟩
  · rintro done op later w w' - ⟨p, hp, htracks⟩ hop
    obtain ⟨q, hq, htracks'⟩ := Prediction.step_tracks htracks hop
    refine ⟨q, ?_, htracks'⟩
    rw [List.foldlM_append, hp, ok_bind, List.foldlM_cons, hq]
    rfl

end

end SharedMind
