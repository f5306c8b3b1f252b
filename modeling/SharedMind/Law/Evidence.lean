import SharedMind.Kernel.History

/-!
# Evidence

An evidence link quotes a byte range of a source.

* `Tables.Grows`: sources and evidence are never changed, nor the proposition of a claim.
* `EvidenceRow.Stands`, `ClaimRow.Covered`: a link's excerpt is what its source has in its
  range, and a claim has as many links as its predicate asks for.
* `evidence_backed`: the law over every interleaving in which no applied proposal has a
  link that ends beyond its source.
* `evidence_clamped`: one that does is stored as it is.
-/

namespace SharedMind

open Py

/-! ### Growth -/

/-- Sources and evidence are kept as they are, and claims with their propositions. -/
structure Tables.Grows (s t : Tables) : Prop where
  sources : ∀ (id : RecordId) (row : SourceRow), s.sources[id]? = some row →
    t.sources[id]? = some row
  claims : ∀ (id : RecordId) (row : ClaimRow), s.claims[id]? = some row →
    ∃ row', t.claims[id]? = some row' ∧ row'.proposition = row.proposition
  evidence : ∀ (id : RecordId) (row : EvidenceRow), s.evidence[id]? = some row →
    t.evidence[id]? = some row

namespace Tables.Grows

variable {s t u : Tables}

theorem refl (s : Tables) : Grows s s := ⟨fun _ _ h => h, fun _ row h => ⟨row, h, rfl⟩, fun _ _ h => h⟩

theorem trans (h : Grows s t) (h' : Grows t u) : Grows s u := by
  refine ⟨fun id row hr => h'.sources id row (h.sources id row hr), fun id row hr => ?_,
    fun id row hr => h'.evidence id row (h.evidence id row hr)⟩
  obtain ⟨r₁, hr₁, hp₁⟩ := h.claims id row hr
  obtain ⟨r₂, hr₂, hp₂⟩ := h'.claims id r₁ hr₁
  exact ⟨r₂, hr₂, hp₂.trans hp₁⟩

theorem of_eq (hs : t.sources = s.sources) (hc : t.claims = s.claims)
    (he : t.evidence = s.evidence) : Grows s t :=
  ⟨fun id row h => by rw [hs]; exact h, fun id row h => ⟨row, by rw [hc]; exact h, rfl⟩,
    fun id row h => by rw [he]; exact h⟩

/-- A claim whose proposition stays. -/
theorem modify_claim (id : RecordId) {f : ClaimRow → ClaimRow}
    (hf : ∀ row, (f row).proposition = row.proposition) :
    Grows s { s with claims := s.claims.modify id f } := by
  refine ⟨fun _ _ h => h, fun id' row hr => ?_, fun _ _ h => h⟩
  by_cases hid : id' = id
  · exact ⟨f row, by rw [Table.get_modify, if_pos hid, hr]; rfl, hf row⟩
  · exact ⟨row, by rw [Table.get_modify, if_neg hid, hr], rfl⟩

theorem insert_claim {id : RecordId} {row : ClaimRow} (hid : s.claims[id]? = none) :
    Grows s { s with claims := s.claims.insert id row } := by
  refine ⟨fun _ _ h => h, fun id' row' hr => ?_, fun _ _ h => h⟩
  have hne : id' ≠ id := by
    rintro rfl
    rw [hid] at hr
    exact nomatch hr
  exact ⟨row', by rw [Table.get_insert, if_neg hne, hr], rfl⟩

end Tables.Grows

/-! ### Links and claims -/

/-- The excerpt of a stored link is what its source has in its range. -/
structure EvidenceRow.Stands (t : Tables) (id : RecordId) (row : EvidenceRow) : Prop where
  id_eq : row.document.evidenceLinkId = id
  claim_eq : row.document.claimId = row.claimId
  source_eq : row.document.sourceRevisionId = row.sourceRevisionId
  claim : ∃ claim, t.claims[row.claimId]? = some claim
  backed : ∃ source start stop, t.sources[row.sourceRevisionId]? = some source ∧
    Backed source.content row.document.selector start stop ∧ start < stop ∧
    stop ≤ source.content.length

/-- A stored claim has as many links as its predicate asks for, and at least one. -/
def ClaimRow.Covered (reg : Registry) (t : Tables) (id : RecordId) (row : ClaimRow) : Prop :=
  ∃ (predicate : PredicateDefinition) (links : List RecordId),
    reg.predicate? row.proposition.predicate = some predicate ∧ links.Nodup ∧ max 1 predicate.evidencePolicy.minimum ≤ links.length ∧
    ∀ link ∈ links, ∃ e : EvidenceRow, t.evidence[link]? = some e ∧ e.claimId = id

structure EvidenceBacked (reg : Registry) (t : Tables) : Prop where
  stands : ∀ (id : RecordId) (row : EvidenceRow), t.evidence[id]? = some row → row.Stands t id
  covered : ∀ (id : RecordId) (row : ClaimRow), t.claims[id]? = some row → row.Covered reg t id

section

variable {reg : Registry} {s t : Tables} {id : RecordId}

theorem EvidenceBacked.empty : EvidenceBacked reg .empty :=
  ⟨fun id row h => by simp [Tables.empty] at h, fun id row h => by simp [Tables.empty] at h⟩

theorem EvidenceRow.Stands.grow {row : EvidenceRow} (h : row.Stands s id) (hg : s.Grows t) :
    row.Stands t id := by
  obtain ⟨claim, hclaim⟩ := h.claim
  obtain ⟨source, start, stop, hsource, hbacked⟩ := h.backed
  obtain ⟨claim', hclaim', _⟩ := hg.claims _ claim hclaim
  exact ⟨h.id_eq, h.claim_eq, h.source_eq, ⟨claim', hclaim'⟩, source, start, stop,
    hg.sources _ source hsource, hbacked⟩

theorem ClaimRow.Covered.grow {row row' : ClaimRow} (h : row.Covered reg s id) (hg : s.Grows t)
    (hp : row'.proposition = row.proposition) : row'.Covered reg t id := by
  obtain ⟨predicate, links, hpred, hnodup, hlen, hlinks⟩ := h
  refine ⟨predicate, links, by rw [hp]; exact hpred, hnodup, hlen, fun link hmem => ?_⟩
  obtain ⟨e, he, hclaim⟩ := hlinks link hmem
  exact ⟨e, hg.evidence link e he, hclaim⟩

/-- Tables that grow keep the law when their new links and claims meet it. -/
theorem EvidenceBacked.grow (h : EvidenceBacked reg s) (hg : s.Grows t)
    (hlinks : ∀ (id : RecordId) (row : EvidenceRow), t.evidence[id]? = some row →
      s.evidence[id]? = some row ∨ row.Stands t id)
    (hclaims : ∀ (id : RecordId) (row : ClaimRow), t.claims[id]? = some row →
      (∃ row₀, s.claims[id]? = some row₀ ∧ row.proposition = row₀.proposition) ∨
        row.Covered reg t id) : EvidenceBacked reg t := by
  refine ⟨fun id row hrow => ?_, fun id row hrow => ?_⟩
  · rcases hlinks id row hrow with hold | hnew
    · exact (h.stands id row hold).grow hg
    · exact hnew
  · rcases hclaims id row hrow with ⟨row₀, hold, hp⟩ | hnew
    · exact (h.covered id row₀ hold).grow hg hp
    · exact hnew

/-- Tables with the same links and the same propositions. -/
theorem EvidenceBacked.keep (h : EvidenceBacked reg s) (hg : s.Grows t)
    (he : t.evidence = s.evidence)
    (hclaims : ∀ (id : RecordId) (row : ClaimRow), t.claims[id]? = some row →
      ∃ row₀, s.claims[id]? = some row₀ ∧ row.proposition = row₀.proposition) :
    EvidenceBacked reg t :=
  h.grow hg (fun id row hrow => Or.inl (by rw [← he]; exact hrow))
    fun id row hrow => Or.inl (hclaims id row hrow)

theorem modify_claim_proposition {claims : Table RecordId ClaimRow} {target : RecordId}
    {f : ClaimRow → ClaimRow} (hf : ∀ row, (f row).proposition = row.proposition) (id : RecordId)
    (row : ClaimRow) (h : (claims.modify target f)[id]? = some row) :
    ∃ row₀, claims[id]? = some row₀ ∧ row.proposition = row₀.proposition := by
  rw [Table.get_modify] at h
  split at h
  · obtain ⟨row₀, hrow₀, rfl⟩ := Option.map_eq_some_iff.mp h
    exact ⟨row₀, hrow₀, hf row₀⟩
  · exact ⟨row, h, rfl⟩

end

/-! ### Links that fit -/

/-- The end of a link's byte range. -/
def EvidenceLink.stop (link : EvidenceLink) : Nat := link.selector.endByte.toNat

/-- The link ends within its source, if its source is there. -/
def EvidenceLink.Fits (link : EvidenceLink) (t : Tables) : Prop :=
  ∀ source, t.sources[link.sourceRevisionId]? = some source → link.stop ≤ source.content.length

section

variable {t t' : Tables} {link : EvidenceLink} {claimId : RecordId}

/-- An excerpt is not empty, so its range is not either. -/
theorem Backed.start_lt {content : Bytes} {selector : TextSelector} {start stop : Nat}
    (h : Backed content selector start stop) : start < min stop content.length := by
  by_contra hge
  have hslice : slice content start stop = [] := by
    rw [slice, List.drop_eq_nil_iff, List.length_take]
    omega
  have hdecoded := h.decoded
  rw [hslice, show utf8Decode? [] = some "" by decide] at hdecoded
  have hlen := selector.excerpt.2
  rw [lengthIn, Bool.and_eq_true, decide_eq_true_eq] at hlen
  rw [show selector.excerpt.1 = "" from (Option.some.inj hdecoded).symm] at hlen
  exact absurd hlen.1 (by decide)

theorem Backed.stop_eq_stop {content : Bytes} {start stop : Nat}
    (h : Backed content link.selector start stop) : stop = link.stop := by
  have hstop := h.stop_eq
  rw [EvidenceLink.stop, AtLeast.toNat]
  unfold sliceIndex at hstop
  split at hstop
  · next i hi =>
    rw [hi, PyNum.toInt?_int]
    exact (Except.ok.inj hstop).symm
  · exact nomatch hstop

theorem validateAndInsertEvidence_grows (h : validateAndInsertEvidence t link claimId = .ok t') :
    t.Grows t' := by
  obtain ⟨_, _, hnew, _, rfl⟩ := validateAndInsertEvidence_eq_ok.mp h
  refine ⟨fun _ _ h => h, fun _ row h => ⟨row, h, rfl⟩, fun id row hrow => ?_⟩
  have hne : id ≠ link.evidenceLinkId := by
    rintro rfl
    rw [hnew] at hrow
    exact nomatch hrow
  rw [Table.get_insert, if_neg hne]
  exact hrow

/-- A link that fits stands once it is inserted. -/
theorem validateAndInsertEvidence_stands (h : validateAndInsertEvidence t link claimId = .ok t')
    (hfits : link.Fits t) :
    EvidenceRow.Stands t' link.evidenceLinkId ⟨claimId, link.sourceRevisionId, link⟩ := by
  obtain ⟨hclaim, ⟨source, start, stop, hsource, hbacked⟩, _, hrow, rfl⟩ :=
    validateAndInsertEvidence_eq_ok.mp h
  have hstop : stop ≤ source.content.length := by
    rw [hbacked.stop_eq_stop]
    exact hfits source hsource
  have hlt := hbacked.start_lt
  exact ⟨rfl, hclaim, rfl, hrow, source, start, stop, hsource, hbacked, by omega, hstop⟩

end

/-! ### Operations -/

/-- The links an operation submits. -/
def Operation.links : Operation → List EvidenceLink
  | .assertClaim _ evidence _ => evidence.1
  | .attachEvidence link _ => [link]
  | .supersedeClaim op => op.initialEvidence.1
  | _ => []

section

variable {reg : Registry} {t t' : Tables} {claim : Claim} {evidence : List EvidenceLink}

/-- What is there once some of a claim's links are inserted. -/
structure LinksInserted (t : Tables) (claim : Claim) (links : List EvidenceLink) (s : Tables) :
    Prop where
  sources : s.sources = t.sources
  claims : s.claims = t.claims.insert claim.claimId claim.row
  grows : t.Grows s
  nodup : (links.map EvidenceLink.evidenceLinkId).Nodup
  inserted : ∀ link ∈ links, s.evidence[link.evidenceLinkId]? =
    some ⟨claim.claimId, link.sourceRevisionId, link⟩
  stands : ∀ (id : RecordId) (row : EvidenceRow), s.evidence[id]? = some row →
    t.evidence[id]? = some row ∨ row.Stands s id

theorem LinksInserted.step {links : List EvidenceLink} {link : EvidenceLink} {s s' : Tables}
    (h : LinksInserted t claim links s) (hfits : link.Fits t)
    (hlink : validateAndInsertEvidence s link claim.claimId = .ok s') :
    LinksInserted t claim (links ++ [link]) s' := by
  have hgrows := validateAndInsertEvidence_grows hlink
  have hstands := validateAndInsertEvidence_stands hlink fun source hsource =>
    hfits source (by rw [← h.sources]; exact hsource)
  obtain ⟨_, _, hnew, _, hs'⟩ := validateAndInsertEvidence_eq_ok.mp hlink
  have hget : ∀ id : RecordId, s'.evidence[id]? = if id = link.evidenceLinkId then
      some ⟨claim.claimId, link.sourceRevisionId, link⟩ else s.evidence[id]? := by
    intro id
    rw [hs', Table.get_insert]
  have hfresh : ∀ l ∈ links, l.evidenceLinkId ≠ link.evidenceLinkId := by
    intro l hl heq
    rw [← heq, h.inserted l hl] at hnew
    exact nomatch hnew
  refine ⟨by rw [hs', ← h.sources], by rw [hs', ← h.claims], h.grows.trans hgrows, ?_, ?_, ?_⟩
  · rw [List.map_append, List.nodup_append]
    refine ⟨h.nodup, List.nodup_singleton _, ?_⟩
    rintro _ hid _ hb rfl
    obtain ⟨l, hl, rfl⟩ := List.mem_map.mp hid
    exact hfresh l hl (List.mem_singleton.mp hb)
  · intro l hl
    rw [hget]
    rcases List.mem_append.mp hl with hl | hl
    · rw [if_neg (hfresh l hl)]
      exact h.inserted l hl
    · rw [List.mem_singleton.mp hl, if_pos rfl]
  · intro id row hrow
    rw [hget] at hrow
    split at hrow
    · next hid =>
      cases hrow
      exact Or.inr (hid ▸ hstands)
    · exact (h.stands id row hrow).imp (fun hold => hold) fun hold => hold.grow hgrows

theorem insertClaim_linksInserted (h : insertClaim t claim evidence = .ok t')
    (hfits : ∀ link ∈ evidence, link.Fits t) : LinksInserted t claim evidence t' := by
  obtain ⟨hid, hfold⟩ := insertClaim_eq_ok.mp h
  refine foldlM_prefix_inv (P := fun links s => LinksInserted t claim links s) ?_ ?_ hfold
  · exact ⟨rfl, rfl, .insert_claim hid, .nil, fun _ hl => absurd hl List.not_mem_nil,
      fun _ _ hrow => Or.inl hrow⟩
  · intro links link later s s' hall hs hlink
    exact hs.step (hfits link (by rw [hall]; simp)) hlink

theorem insertClaim_backed {predicate : PredicateDefinition}
    (h : insertClaim t claim evidence = .ok t') (hfits : ∀ link ∈ evidence, link.Fits t)
    (hpred : reg.predicate? claim.proposition.predicate = some predicate)
    (hmin : predicate.evidencePolicy.minimum ≤ evidence.length) (hne : evidence ≠ [])
    (hI : EvidenceBacked reg t) : EvidenceBacked reg t' := by
  have hins := insertClaim_linksInserted h hfits
  refine hI.grow hins.grows hins.stands fun id row hrow => ?_
  rw [hins.claims, Table.get_insert] at hrow
  split at hrow
  · next hid =>
    cases hrow
    refine Or.inr ⟨predicate, evidence.map EvidenceLink.evidenceLinkId, hpred, hins.nodup, ?_, ?_⟩
    · rw [List.length_map]
      exact max_le (List.length_pos_iff.mpr hne) hmin
    · intro id' hmem
      obtain ⟨link, hlink, rfl⟩ := List.mem_map.mp hmem
      exact ⟨_, hins.inserted link hlink, hid.symm⟩
  · exact Or.inl ⟨row, hrow, rfl⟩

variable [Host] {w w' : Txn} {openedSeq : Nat} {proposer : ActorRef} {op : Operation}

/-- Conflicts are no matter of sources, claims or evidence. -/
theorem assertClaim_tables {ignored : List RecordId}
    (h : assertClaim reg w claim evidence ignored openedSeq = .ok w') :
    ∃ predicate t, validateClaim reg claim evidence = .ok predicate ∧
      insertClaim w.tables claim evidence = .ok t ∧ w'.tables.sources = t.sources ∧
      w'.tables.claims = t.claims ∧ w'.tables.evidence = t.evidence := by
  obtain ⟨predicate, _, hvalid, _, _⟩ := assertClaim_eq_ok.mp h
  obtain ⟨_, _, _, hins, _⟩ := assertClaim_frame h
  exact ⟨predicate, _, hvalid, hins, rfl, rfl, rfl⟩

theorem assertClaim_backed {ignored : List RecordId}
    (h : assertClaim reg w claim evidence ignored openedSeq = .ok w')
    (hfits : ∀ link ∈ evidence, link.Fits w.tables) (hne : evidence ≠ [])
    (hI : EvidenceBacked reg w.tables) :
    EvidenceBacked reg w'.tables ∧ w.tables.Grows w'.tables := by
  obtain ⟨predicate, t, hvalid, hins, hs, hc, he⟩ := assertClaim_tables h
  obtain ⟨hpred, hmin⟩ := validateClaim_minimum hvalid
  have hback := insertClaim_backed hins hfits hpred hmin hne hI
  have hgrows : t.Grows w'.tables := .of_eq hs hc he
  exact ⟨hback.keep hgrows he fun id row hrow => ⟨row, hc ▸ hrow, rfl⟩,
    (insertClaim_linksInserted hins hfits).grows.trans hgrows⟩

omit [Host] in
theorem registerSourceRevision_grows {source : SourceRevision}
    (h : registerSourceRevision w source = .ok w') : w.tables.Grows w'.tables := by
  rcases registerSourceRevision_eq_ok.mp h with ⟨_, _, _, _, rfl⟩ | ⟨hid, _, _, _, rfl⟩
  · exact .refl _
  · refine ⟨fun id row hrow => ?_, fun _ row h => ⟨row, h, rfl⟩, fun _ _ h => h⟩
    have hne : id ≠ source.revisionId := by
      rintro rfl
      rw [hid] at hrow
      exact nomatch hrow
    rw [Txn.emit_tables, Table.get_insert, if_neg hne]
    exact hrow

/-- An operation whose links fit keeps the law. -/
theorem applyOperation_backed (h : applyOperation reg proposer openedSeq w op = .ok w')
    (hfits : ∀ link ∈ op.links, link.Fits w.tables) (hI : EvidenceBacked reg w.tables) :
    EvidenceBacked reg w'.tables := by
  cases op with
  | registerSourceRevision _ source =>
    have hgrows := registerSourceRevision_grows h
    rcases registerSourceRevision_eq_ok.mp h with ⟨_, _, _, _, rfl⟩ | ⟨_, _, _, _, rfl⟩
    · exact hI
    · exact hI.keep hgrows rfl fun id row hrow => ⟨row, hrow, rfl⟩
  | assertClaim claim evidence _ => exact (assertClaim_backed h hfits evidence.2.2 hI).1
  | attachEvidence link _ =>
    obtain ⟨row, _, t, hrow, _, _, _, ht, rfl⟩ := attachEvidence_eq_ok.mp h
    have hgrows := validateAndInsertEvidence_grows ht
    have hstands := validateAndInsertEvidence_stands ht (hfits link (List.mem_singleton_self link))
    obtain ⟨_, _, _, _, rfl⟩ := validateAndInsertEvidence_eq_ok.mp ht
    have hattached := hI.grow hgrows (fun id row hget => by
      rw [Table.get_insert] at hget
      split at hget
      · next hid => cases hget; exact Or.inr (hid ▸ hstands)
      · exact Or.inl hget) fun id row hget => Or.inl ⟨row, hget, rfl⟩
    exact hattached.keep (.modify_claim link.claimId fun _ => rfl) rfl
      (modify_claim_proposition fun _ => rfl)
  | supersedeClaim op =>
    obtain ⟨row, v, hrow, _, hv, rfl⟩ := supersedeClaim_eq_ok.mp h
    exact (assertClaim_backed hv hfits op.initialEvidence.2.2 hI).1.keep
      (.modify_claim op.targetClaimId fun _ => rfl) rfl (modify_claim_proposition fun _ => rfl)
  | retractClaim op =>
    obtain ⟨row, hrow, _, _, _, rfl⟩ := retractClaim_eq_ok.mp h
    exact hI.keep (.modify_claim op.targetClaimId fun _ => rfl) rfl
      (modify_claim_proposition fun _ => rfl)
  | resolveConflict op =>
    obtain ⟨_, _, _, rfl⟩ := resolveConflict_eq_ok.mp h
    exact hI.keep (.of_eq rfl rfl rfl) rfl fun id row hget => ⟨row, hget, rfl⟩
  | recordDecision | supersedeDecision | openQuestion | answerQuestion | dropQuestion
  | createWorkItem | updateWorkItemStatus =>
    have hkeep := applyOperation_keepsMemory h (by simp [applyContinuityOperation])
    exact hI.keep (.of_eq hkeep.sources hkeep.claims hkeep.evidence) hkeep.evidence
      fun id row hget => ⟨row, hkeep.claims ▸ hget, rfl⟩

end

/-! ### Proposals -/

/-- The content an operation registers under an identifier. -/
def Operation.content? (id : RecordId) : Operation → Option Bytes
  | .registerSourceRevision _ source =>
    if source.revisionId = id then contentFromBlobRef source.blobRef else none
  | _ => none

/-- The content of a source when operations are applied: what is stored, or what the
first of them registers. -/
def sourceContent? (t : Tables) (ops : List Operation) (id : RecordId) : Option Bytes :=
  match t.sources[id]? with
  | some row => some row.content
  | none => ops.findSome? fun op => op.content? id

/-- No link the proposal submits ends beyond its source. -/
def Proposal.LinksFit (p : Proposal) (t : Tables) : Prop :=
  ∀ op ∈ p.operations.1, ∀ link ∈ op.links, ∀ content,
    sourceContent? t p.operations.1 link.sourceRevisionId = some content →
    link.stop ≤ content.length

theorem sourceContent?_append {t : Tables} {ops later : List Operation} {id : RecordId}
    {content : Bytes} (h : sourceContent? t ops id = some content) :
    sourceContent? t (ops ++ later) id = some content := by
  unfold sourceContent? at h ⊢
  split
  · next row hrow => rw [hrow] at h; exact h
  · next hnone =>
    rw [hnone] at h
    rw [List.findSome?_append, show ops.findSome? _ = some content from h]
    rfl

section

variable [Host] {reg : Registry} {proposer : ActorRef} {openedSeq : Nat} {op : Operation}
  {w w' : Txn}

/-- Only a registration touches the sources. -/
theorem applyOperation_sources (h : applyOperation reg proposer openedSeq w op = .ok w')
    (hop : ∀ id source, op ≠ .registerSourceRevision id source) :
    w'.tables.sources = w.tables.sources ∧ ∀ id, op.content? id = none := by
  cases op with
  | registerSourceRevision opId source => exact absurd rfl (hop opId source)
  | assertClaim claim evidence _ => exact ⟨(assertClaim_frame h).2.2.1, fun _ => rfl⟩
  | attachEvidence link _ =>
    obtain ⟨_, _, t, _, _, _, _, ht, rfl⟩ := attachEvidence_eq_ok.mp h
    exact ⟨by rw [validateAndInsertEvidence_frame ht]; rfl, fun _ => rfl⟩
  | supersedeClaim op =>
    obtain ⟨_, v, _, _, hv, rfl⟩ := supersedeClaim_eq_ok.mp h
    exact ⟨(assertClaim_frame hv).2.2.1, fun _ => rfl⟩
  | retractClaim op =>
    obtain ⟨_, _, _, _, _, rfl⟩ := retractClaim_eq_ok.mp h
    exact ⟨rfl, fun _ => rfl⟩
  | resolveConflict op =>
    obtain ⟨_, _, _, rfl⟩ := resolveConflict_eq_ok.mp h
    exact ⟨rfl, fun _ => rfl⟩
  | recordDecision | supersedeDecision | openQuestion | answerQuestion | dropQuestion
  | createWorkItem | updateWorkItemStatus =>
    exact ⟨(applyOperation_keepsMemory h (by simp [applyContinuityOperation])).sources,
      fun _ => rfl⟩

/-- The sources are those `sourceContent?` tells. -/
theorem applyOperation_sourceContent {t : Tables} {ops : List Operation}
    (h : applyOperation reg proposer openedSeq w op = .ok w')
    (hw : ∀ id : RecordId, w.tables.sources[id]?.map SourceRow.content = sourceContent? t ops id)
    (id : RecordId) :
    w'.tables.sources[id]?.map SourceRow.content = sourceContent? t (ops ++ [op]) id := by
  have hold : ∀ id : RecordId, (∃ content, sourceContent? t ops id = some content) ∨
      op.content? id = none → sourceContent? t (ops ++ [op]) id = sourceContent? t ops id := by
    intro id hid
    rcases hid with ⟨content, hcontent⟩ | hnone
    · rw [hcontent]
      exact sourceContent?_append hcontent
    · unfold sourceContent?
      split
      · rfl
      · simp [List.findSome?_append, hnone]
  by_cases hop : ∀ opId source, op ≠ .registerSourceRevision opId source
  · obtain ⟨hsources, hnone⟩ := applyOperation_sources h hop
    rw [hsources, hw, hold id (Or.inr (hnone id))]
  · push Not at hop
    obtain ⟨opId, source, rfl⟩ := hop
    rcases registerSourceRevision_eq_ok.mp h with ⟨row, hrow, _, _, rfl⟩ |
        ⟨hid, content, hcontent, _, rfl⟩
    · rw [Txn.emit_tables, hw]
      refine (hold id ?_).symm
      by_cases heq : source.revisionId = id
      · left
        exact ⟨row.content, by rw [← hw, ← heq, hrow]; rfl⟩
      · exact Or.inr (if_neg heq)
    · rw [Txn.emit_tables, Table.get_insert]
      split
      · next heq =>
        subst heq
        have hnone := hw source.revisionId
        rw [hid] at hnone
        unfold sourceContent? at hnone ⊢
        cases ht : t.sources[source.revisionId]? with
        | some row =>
          rw [ht] at hnone
          exact nomatch hnone
        | none =>
          rw [ht] at hnone
          rw [List.findSome?_append, show ops.findSome? _ = none from hnone.symm]
          simp [Operation.content?, hcontent]
      · next hne =>
        rw [hw, hold id (Or.inr (if_neg fun heq => hne heq.symm))]

theorem applyOperations_backed {t : Tables} {p : Proposal} {w' : Txn}
    (h : applyOperations reg proposer openedSeq t p.operations.1 = .ok w') (hfits : p.LinksFit t)
    (hI : EvidenceBacked reg t) : EvidenceBacked reg w'.tables := by
  have hinv := foldlM_prefix_inv (P := fun ops w => EvidenceBacked reg w.tables ∧
    ∀ id : RecordId, w.tables.sources[id]?.map SourceRow.content = sourceContent? t ops id)
    ⟨hI, fun id => ?_⟩ ?_ h
  · exact hinv.1
  · unfold sourceContent?
    cases t.sources[id]? <;> rfl
  · intro ops op later w w' hall hw hop
    refine ⟨applyOperation_backed hop (fun link hlink source hsource => ?_) hw.1,
      applyOperation_sourceContent hop hw.2⟩
    refine hfits op (by rw [hall]; simp) link hlink source.content ?_
    rw [hall]
    refine sourceContent?_append ?_
    rw [← hw.2, hsource]
    rfl

end

/-! ### The law -/

section

variable [Host] {ι : Type} [DecidableEq ι]

/-- A step that applies no proposal with a link that ends beyond its source. -/
def LinksFit (reg : Registry) (s : Sys ι) (ev : Event ι) : Prop :=
  ∀ i c receipt hash value e row, ev = .ended i c (.ok receipt) → s.phase i = .ready c hash value →
    Accepts reg c hash value s.db e row → e.proposal.LinksFit s.db.tables

/-- An acceptance keeps the law when its links fit. -/
theorem Step.Accepting.evidenceBacked {reg : Registry} {s u : Sys ι} {ev : Event ι} {i : ι}
    {c : Call} {hash : Hash} {value : Json} {e : Evaluation} {row : ReceiptRow}
    (hacc : Step.Accepting reg s ev u i c hash value e row) (hfits : LinksFit reg s ev)
    (hq : EvidenceBacked reg s.db.tables) : EvidenceBacked reg (e.accept s.db row).tables := by
  obtain ⟨receipt, _, hev⟩ := hacc.ended
  obtain ⟨_, _, happly, _⟩ := evaluate_eq_ok.mp hacc.accepts.evaluated
  exact applyOperations_backed happly
    (hfits i c receipt hash value e row hev hacc.phase hacc.accepts) hq

/-- **Evidence is backed by its source**, and every claim has the links its predicate asks
for, in every state of every interleaving in which no applied proposal has a link that ends
beyond its source. -/
theorem evidence_backed (reg : Registry) (es : List (Event ι)) (u : Sys ι)
    (hrun : RunWhere reg (LinksFit reg) (.start .empty) es u) : EvidenceBacked reg u.db.tables := by
  refine hrun.accepted_inv (Q := fun db => EvidenceBacked reg db.tables) .empty (fun _ _ h => h) ?_
  intro s ev u i c hash value e row hfits hq hacc
  exact hacc.evidenceBacked hfits hq

end

/-! ### A link that ends beyond its source -/

/-- The text `Ada`. -/
def ownerSource : SourceRevision where
  blobRef := ⟨"data:,Ada", by decide⟩
  capturedAt := "2026-01-01T00:00:00Z"
  contentHash :=
    ⟨"sha256:99a563ab2f6e21e96998f9fddd2a2bab82b70ac019579502b8d7fc0032ff62bb", by decide⟩
  mediaType := .plain
  registeredBy := ownerActor
  revisionId := ⟨"revision_00000001", by decide⟩
  sourceId := ⟨"source:owners", by decide⟩
  sourceLocator := none
  title := none

/-- Somebody owns the ledger. -/
def ownerProposition (owner : Bounded 1 4096) : Proposition where
  object := .string owner
  polarity := .positive
  predicate := ownerPredicate.key
  propositionVersion := propositionVersionOne
  scope := ⟨none, none, none, none⟩
  subject := ledgerSystem
  validTime := ⟨none, none⟩

def ownerClaim : Claim where
  assertedAt := "2026-01-01T00:00:00Z"
  assertedBy := ownerActor
  claimId := ⟨"claim_00000001", by decide⟩
  proposition := ownerProposition ⟨"Ada", by decide⟩
  propositionHash :=
    ⟨"sha256:0d4f4201e82a7f3fc139c1beed5aee7e7695a1f2579bc5a331d78b98cf447d87", by decide⟩

/-- The whole source, quoted up to `stop`. -/
def ownerLink (stop : AtLeast 1) : EvidenceLink where
  claimId := ownerClaim.claimId
  evidenceLinkId := ⟨"evidence_00000001", by decide⟩
  interpretation := .direct
  linkedAt := "2026-01-01T00:00:00Z"
  linkedBy := ownerActor
  selector := {
    endByte := stop
    excerpt := ⟨"Ada", by decide⟩
    excerptHash := ownerSource.contentHash
    prefixHash := none
    startByte := .ofInt 0 (by decide)
    suffixHash := none }
  sourceRevisionId := ownerSource.revisionId
  stance := .supports


/-- A proposal that registers the source and asserts the claim. -/
def ownerAssertion (stop : AtLeast 1) : Proposal :=
  { ownerProposal ⟨"assert-owner-1", by decide⟩ secondProposal
      (.registerSourceRevision firstOperation ownerSource) with
    operations := ⟨[.registerSourceRevision firstOperation ownerSource,
      .assertClaim ownerClaim ⟨[ownerLink stop], List.pairwise_singleton _ _, by simp⟩
        ⟨"op_00000002", by decide⟩], by simp⟩ }

/-- The tables once the claim is asserted. -/
def ownerTables (stop : AtLeast 1) : Tables :=
  { Tables.empty with
    sources := (∅ : Table RecordId SourceRow).insert ownerSource.revisionId
      ⟨ownerSource.contentHash, ownerSource, [65, 100, 97]⟩
    claims := (∅ : Table RecordId ClaimRow).insert ownerClaim.claimId ownerClaim.row
    evidence := (∅ : Table RecordId EvidenceRow).insert (ownerLink stop).evidenceLinkId
      ⟨ownerClaim.claimId, ownerSource.revisionId, ownerLink stop⟩ }

/-- The state between its operations. -/
def ownerSourceTxn : Txn :=
  ⟨{ Tables.empty with
      sources := (∅ : Table RecordId SourceRow).insert ownerSource.revisionId
        ⟨ownerSource.contentHash, ownerSource, [65, 100, 97]⟩ },
    [.sourceRevisionRegistered ownerSource], []⟩

def ownerTxn (stop : AtLeast 1) : Txn :=
  ⟨ownerTables stop, [.sourceRevisionRegistered ownerSource,
    .claimAsserted ownerClaim [ownerLink stop]], []⟩

theorem ownerProposition_hash :
    sha256Json (Proposition.codec.enc ownerClaim.proposition) = ownerClaim.propositionHash := by
  have hhex : sha256Hex (utf8 (Proposition.codec.enc ownerClaim.proposition).dumps) =
      "0d4f4201e82a7f3fc139c1beed5aee7e7695a1f2579bc5a331d78b98cf447d87".toList := by
    rw [JsonOf.dumps, utf8_ofList]
    decide +kernel
  refine Text.ext ?_
  show String.ofList ("sha256:".toList ++ sha256Hex _) = _
  rw [hhex]
  decide

theorem ownerSource_hash : sha256Bytes [65, 100, 97] = ownerSource.contentHash := by
  have hhex : sha256Hex [65, 100, 97] =
      "99a563ab2f6e21e96998f9fddd2a2bab82b70ac019579502b8d7fc0032ff62bb".toList := by
    decide +kernel
  refine Text.ext ?_
  show String.ofList ("sha256:".toList ++ sha256Hex _) = _
  rw [hhex]
  decide

theorem registerSourceRevision_owner :
    registerSourceRevision ⟨.empty, [], []⟩ ownerSource = .ok ownerSourceTxn :=
  registerSourceRevision_eq_ok.mpr
    (Or.inr ⟨by decide, [65, 100, 97], by decide +kernel, ownerSource_hash, rfl⟩)

/-- A link that starts at the beginning of the source and ends at its end or later. -/
theorem insertClaim_owner {n : Nat} (hn : (1 : Int) ≤ n) (hlen : 3 ≤ n) :
    insertClaim ownerSourceTxn.tables ownerClaim [ownerLink (.ofInt n hn)] =
      .ok (ownerTables (.ofInt n hn)) := by
  have hslice : slice [65, 100, 97] 0 n = [65, 100, 97] := by
    rw [slice, List.take_of_length_le hlen]
    rfl
  have hbacked : Backed [65, 100, 97] (ownerLink (.ofInt n hn)).selector 0 n := by
    refine ⟨rfl, rfl, ?_, ?_⟩
    · rw [hslice]
      show utf8Decode? [65, 100, 97] = some "Ada"
      decide
    · rw [hslice]
      exact ownerSource_hash
  have hsource : ownerSourceTxn.tables.sources[ownerSource.revisionId]? =
      some ⟨ownerSource.contentHash, ownerSource, [65, 100, 97]⟩ := by
    rw [ownerSourceTxn, Table.get_insert, if_pos rfl]
  refine insertClaim_eq_ok.mpr ⟨by decide, ?_⟩
  simp only [List.foldlM_cons, List.foldlM_nil, bind_eq_ok, pure_eq_ok]
  exact ⟨_, validateAndInsertEvidence_eq_ok.mpr ⟨rfl,
    ⟨_, 0, n, hsource, hbacked⟩, by rfl,
    ⟨ownerClaim.row, by rfl⟩, rfl⟩, rfl⟩

section

attribute [local instance] Host.utc

theorem assertClaim_owner {n : Nat} (hn : (1 : Int) ≤ n) (hlen : 3 ≤ n) (seq : Nat) :
    assertClaim ownerRegistry ownerSourceTxn ownerClaim [ownerLink (.ofInt n hn)] [] seq =
      .ok (ownerTxn (.ofInt n hn)) := by
  refine assertClaim_eq_ok.mpr ⟨ownerPredicate, _, ?_, insertClaim_owner hn hlen, ?_⟩
  · simp only [validateClaim, bind_eq_ok, require_eq_ok, pure_eq_ok, orRaise_eq_ok]
    exact ⟨(), ownerProposition_hash, ownerPredicate, by rfl, (), by decide, (), by rfl, (),
      show ownerPredicate.evidencePolicy.minimum ≤ 1 by decide, rfl⟩
  · exact openConflicts_eq_ok.mpr ⟨[], _, by rfl, openConflictOf_eq_ok.mpr (Or.inl ⟨rfl, rfl⟩),
      openConflictOf_eq_ok.mpr (Or.inl ⟨rfl, rfl⟩)⟩

/-- It is accepted on the empty database. -/
theorem ownerAssertion_accepts {n : Nat} (hn : (1 : Int) ≤ n) (hlen : 3 ≤ n) :
    ∃ row, Accepts ownerRegistry (ownerAssertion (.ofInt n hn)).call
      (sha256Json (Proposal.codec.enc (ownerAssertion (.ofInt n hn))))
      (Proposal.codec.enc (ownerAssertion (.ofInt n hn))) .empty
      ((ownerAssertion (.ofInt n hn)).evaluation .empty (ownerTxn (.ofInt n hn))) row := by
  refine accepts_of_checks .empty (JsonOf.toJson?_raw (Proposal.codec.sorted _))
    (show recordIdPattern.fullmatch "proposal_00000002" = true by decide)
    (show idempotencyKeyPattern.fullmatch "assert-owner-1" = true by decide)
    (fun _ h => absurd h List.not_mem_nil) ?_ ?_ (List.cons_ne_nil _ _) ?_ (fun _ h => absurd h List.not_mem_nil)
  · simp only [validateProposal, bind_eq_ok]
    exact ⟨(), validateVersions_owner, (), rfl, (), rfl, rfl⟩
  · simp only [applyOperations, ownerAssertion, List.foldlM_cons, List.foldlM_nil, bind_eq_ok,
      pure_eq_ok]
    exact ⟨_, registerSourceRevision_owner, _, assertClaim_owner hn hlen _, rfl⟩
  · intro ev hev
    simp only [ownerTxn, List.mem_cons, List.not_mem_nil, or_false] at hev
    rcases hev with rfl | rfl
    · trivial
    · simp [LedgerEvent.Valid]

theorem preflight_ownerAssertion {stop : AtLeast 1}
    (hdepth : (ownerAssertion stop).call.proposal.depth ≤ maxProposalDepth)
    (hsize : 4 * (Proposal.codec.enc (ownerAssertion stop)).sizeBound ≤ maxProposalBytes) :
    preflight (ownerAssertion stop).call =
      .ok (.evaluate (sha256Json (Proposal.codec.enc (ownerAssertion stop)))
        (Proposal.codec.enc (ownerAssertion stop))) :=
  preflight_evaluate.mpr ⟨hdepth.trans (by decide), JsonOf.toJson?_raw (Proposal.codec.sorted _),
    hdepth, JsonOf.length_utf8_dumps_le hsize, rfl⟩

/-- The run in which the claim is asserted with a link up to `n`. -/
theorem ownerAssertion_run {P : Sys Unit → Event Unit → Prop} {n : Nat} (hn : (1 : Int) ≤ n)
    (hlen : 3 ≤ n)
    (hdepth : (ownerAssertion (.ofInt n hn)).call.proposal.depth ≤ maxProposalDepth)
    (hsize : 4 * (Proposal.codec.enc (ownerAssertion (.ofInt n hn))).sizeBound ≤ maxProposalBytes)
    (hopen : ∀ s ev, (∀ i c result, ev ≠ .ended i c result) → P s ev)
    (hend : ∀ receipt, P ⟨.empty, Function.update (fun _ => .idle) () (.ready
        (ownerAssertion (.ofInt n hn)).call
        (sha256Json (Proposal.codec.enc (ownerAssertion (.ofInt n hn))))
        (Proposal.codec.enc (ownerAssertion (.ofInt n hn))))⟩
      (.ended () (ownerAssertion (.ofInt n hn)).call (.ok receipt))) :
    ∃ es u, RunWhere ownerRegistry P (.start .empty) es u ∧
      u.db.tables = ownerTables (.ofInt n hn) := by
  obtain ⟨row, hacc⟩ := ownerAssertion_accepts hn hlen
  obtain ⟨es, hes⟩ := RunWhere.accepted (s := (.start .empty : Sys Unit)) (i := ()) hopen
    hend rfl (preflight_ownerAssertion hdepth hsize) hacc
  exact ⟨es, _, hes, rfl⟩

theorem sourceContent?_owner (stop : AtLeast 1) :
    sourceContent? .empty (ownerAssertion stop).operations.1 ownerSource.revisionId =
      some [65, 100, 97] := by
  have hcontent : contentFromBlobRef "data:,Ada" = some [65, 100, 97] := by decide
  rw [sourceContent?, show (Tables.empty.sources)[ownerSource.revisionId]? = none by rfl]
  simp only [ownerAssertion, List.findSome?_cons, Operation.content?, if_pos]
  exact hcontent

/-- The proposal that is applied is the one that was brought. -/
theorem ownerAssertion_linksFit {n : Nat} (hn : (1 : Int) ≤ n) (hle : n ≤ 3) {receipt : Receipt} :
    LinksFit ownerRegistry ⟨.empty, Function.update (fun _ => .idle) () (.ready
        (ownerAssertion (.ofInt n hn)).call
        (sha256Json (Proposal.codec.enc (ownerAssertion (.ofInt n hn))))
        (Proposal.codec.enc (ownerAssertion (.ofInt n hn))))⟩
      (.ended () (ownerAssertion (.ofInt n hn)).call (.ok receipt)) := by
  intro i c receipt hash value e row _ hphase hacc
  simp only [Function.update_self, Phase.ready.injEq] at hphase
  obtain ⟨rfl, rfl, rfl⟩ := hphase
  obtain ⟨hp, _⟩ := evaluate_eq_ok.mp hacc.evaluated
  rw [← Proposal.codec.enc_injective hp]
  intro op hop link hlink content hcontent
  simp only [ownerAssertion, List.mem_cons, List.not_mem_nil, or_false] at hop
  rcases hop with rfl | rfl
  · exact absurd hlink List.not_mem_nil
  · obtain rfl := List.mem_singleton.mp hlink
    obtain rfl := Option.some.inj ((sourceContent?_owner _).symm.trans hcontent)
    show (n : Int).toNat ≤ 3
    omega

end

/-- A link that ends where its source does. -/
theorem evidence_backed_of_owner : letI := Host.utc
    ∃ u : Sys Unit, u.db.tables = ownerTables (.ofInt 3 (by decide)) ∧
      EvidenceBacked ownerRegistry u.db.tables := by
  let := Host.utc
  obtain ⟨es, u, hrun, hu⟩ := ownerAssertion_run (P := LinksFit ownerRegistry) (n := 3) (by decide)
    le_rfl (by decide) (by decide)
    (fun s ev hopen i c receipt hash value e row hev => absurd hev (hopen i c _))
    fun receipt => ownerAssertion_linksFit (by decide) le_rfl
  exact ⟨u, hu, evidence_backed ownerRegistry es u hrun⟩

/-- **A link is stored that ends beyond its source**, at byte 1000 of three. -/
theorem evidence_clamped : letI := Host.utc
    ¬ ∀ (es : List (Event Unit)) (u : Sys Unit), Run ownerRegistry (.start .empty) es u →
      EvidenceBacked ownerRegistry u.db.tables := by
  let := Host.utc
  intro h
  obtain ⟨es, u, hrun, hu⟩ := ownerAssertion_run (P := fun _ _ => True) (n := 1000) (by decide)
    (by decide) (by decide) (by decide) (fun _ _ _ => trivial) fun _ => trivial
  have hback := h es u hrun
  rw [hu, ownerTables] at hback
  obtain ⟨source, start, stop, hsource, hbacked, _, hstop⟩ := (hback.stands
    (ownerLink (.ofInt (1000 : Nat) (by decide))).evidenceLinkId _
    (by rw [Table.get_insert, if_pos rfl])).backed
  rw [Table.get_insert, if_pos rfl] at hsource
  obtain rfl := Option.some.inj hsource
  rw [hbacked.stop_eq_stop] at hstop
  exact absurd hstop (by decide)

end SharedMind
