import SharedMind.Gen.Raises
import SharedMind.Law.Evidence
import SharedMind.Law.Prediction

/-!
# What the evaluation of a proposal raises

* `Benign`: exceptions that no receipt reports as a malformed proposal.
* `Quiet`: the times and the excerpts of a proposal are read, and so are the times that are
  stored.
* `Benign.transaction`: the transaction of a quiet proposal raises benign exceptions only.
-/

namespace SharedMind

open Py Exceptions

/-- The codes that say a proposal is no proposal, or one of another version. -/
def ReasonCode.malformed : ReasonCode → Bool
  | .malformedProposal | .proposalTooDeep | .proposalTooLarge | .schemaValidationFailed
  | .ledgerEntrySchemaInvalid | .decisionReceiptSchemaInvalid | .unsupportedSchemaVersion
  | .unsupportedPredicateRegistry | .predicateRegistryContentMismatch
  | .unsupportedConflictRulesVersion | .unsupportedGuardDslVersion
  | .unsupportedProjectionVersion => true
  | _ => false

/-- The other refusals of the kernel are in `P`. -/
structure Benign (P : PyExc → Prop) : Prop where
  failure : ∀ code : ReasonCode, code.malformed = false → P (.validationFailure code)
  conflict : ∀ code : ReasonCode, code.malformed = false → P (.transactionConflict code)
  integrity : ∀ e, P (.integrityError e)

section

variable {P : PyExc → Prop} {c : Prop} [Decidable c] {code : ReasonCode}

theorem Benign.check (hP : Benign P) (h : code.malformed = false) : Raises P (require c code) :=
  raises_ensure fun _ => hP.failure code h

theorem Benign.checkNow (hP : Benign P) (h : code.malformed = false) :
    Raises P (requireNow c code) := raises_ensure fun _ => hP.conflict code h

end

/-! ### Times -/

section

variable [Host] {P : PyExc → Prop} {reg : Registry}

/-- Both ends are read, or what they raise is in `P`. -/
structure TimesRaise (P : PyExc → Prop) (v : ValidTime) : Prop where
  start : Raises P (parseTime v.from)
  stop : Raises P (parseTime v.to)

theorem TimesRaise.overlaps {left right : ValidTime} (hl : TimesRaise P left)
    (hr : TimesRaise P right) : Raises P (overlaps left right) := by
  unfold SharedMind.overlaps
  refine hl.start.bind fun _ _ => hr.start.bind fun _ _ => ?_
  exact hl.stop.bind fun _ _ => hr.stop.bind fun _ _ => raises_pure _

theorem TimesRaise.conflictKind {incoming other : Proposition} {predicate : PredicateDefinition}
    (hi : TimesRaise P incoming.validTime) (ho : TimesRaise P other.validTime) :
    Raises P (conflictKind incoming other predicate) := by
  unfold SharedMind.conflictKind
  dsimp only
  split
  · refine ((hi.overlaps ho).bind fun _ _ => raises_pure _).bind fun _ _ => ?_
    repeat' split
    all_goals exact raises_pure _
  · refine (raises_pure false).bind fun _ _ => ?_
    repeat' split
    all_goals exact raises_pure _

/-! ### Claims -/

omit [Host] in
theorem Benign.interpretations (hP : Benign P) (predicate : PredicateDefinition)
    (evidence : List EvidenceLink) : Raises P (validateEvidenceInterpretations predicate evidence) :=
  hP.check rfl

theorem Benign.predicateSemantics (hP : Benign P) {proposition : Proposition}
    {predicate : PredicateDefinition} {evidence : List EvidenceLink}
    (htimes : TimesRaise P proposition.validTime) :
    Raises P (validatePredicateSemantics proposition predicate evidence) := by
  have hscope : Raises P (do
      require (∀ f ∈ scopeFields, proposition.scope.get f.text ≠ none →
        f ∈ predicate.scope.allowedFields.1) .scopeFieldNotAllowed
      require (∀ f ∈ predicate.scope.requiredFields.1, proposition.scope.get f.text ≠ none)
        .requiredScopeMissing
      let start ← parseTime proposition.validTime.from
      let stop ← parseTime proposition.validTime.to
      require (predicate.temporal = .required → start ≠ none) .validTimeRequired
      require (predicate.temporal = .forbidden → start = none ∧ stop = none) .validTimeForbidden
      require (∀ s ∈ start, ∀ e ∈ stop, s < e) .invalidValidTimeRange
      validateEvidenceInterpretations predicate evidence) := by
    refine (hP.check rfl).bind fun _ _ => (hP.check rfl).bind fun _ _ => ?_
    refine htimes.start.bind fun _ _ => htimes.stop.bind fun _ _ => ?_
    refine (hP.check rfl).bind fun _ _ => (hP.check rfl).bind fun _ _ => ?_
    exact (hP.check rfl).bind fun _ _ => hP.interpretations _ _
  unfold validatePredicateSemantics
  refine (hP.check rfl).bind fun _ _ => ?_
  dsimp only
  split
  · exact (hP.check rfl).bind fun _ _ => hscope
  · exact (hP.check rfl).bind fun _ _ => hscope
  · exact hscope

theorem Benign.validateClaim (hP : Benign P) {claim : Claim} {evidence : List EvidenceLink}
    (htimes : TimesRaise P claim.proposition.validTime) :
    Raises P (validateClaim reg claim evidence) := by
  unfold SharedMind.validateClaim
  refine (hP.check rfl).bind fun _ _ => ?_
  refine (raises_orRaise fun _ => hP.failure _ rfl).bind fun _ _ => ?_
  refine (hP.check rfl).bind fun _ _ => (hP.predicateSemantics htimes).bind fun _ _ => ?_
  exact (hP.check rfl).bind fun _ _ => raises_pure _

/-- The text of a selector's range. -/
def readExcerpt (content : Bytes) (selector : TextSelector) : Kernel String := do
  let start ← sliceIndex selector.startByte.1
  let stop ← sliceIndex selector.endByte.1
  orRaise (utf8Decode? (slice content start stop)) .valueError

/-- The excerpts of a link are read, or what that raises is in `P`. -/
def LinkRaises (P : PyExc → Prop) (t : Tables) (link : EvidenceLink) : Prop :=
  ∀ row, t.sources[link.sourceRevisionId]? = some row →
    Raises P (readExcerpt row.content link.selector)

omit [Host] in
theorem Benign.insertEvidence (hP : Benign P) {t : Tables} {link : EvidenceLink} {claimId : RecordId}
    (hlink : LinkRaises P t link) : Raises P (validateAndInsertEvidence t link claimId) := by
  intro e h
  simp only [validateAndInsertEvidence, bind_eq_error, orRaise_eq_ok] at h
  rcases h with h | ⟨_, _, h | ⟨source, hsource, h⟩⟩
  · exact hP.check rfl e h
  · exact raises_orRaise (fun _ => hP.failure _ rfl) e h
  have hread := hlink source hsource
  rcases h with h | ⟨start, hstart, h | ⟨stop, hstop, h | ⟨text, htext, h⟩⟩⟩
  · exact hread e (bind_eq_error.mpr (Or.inl h))
  · exact hread e (bind_eq_error.mpr (Or.inr ⟨start, hstart, bind_eq_error.mpr (Or.inl h)⟩))
  · exact hread e (bind_eq_error.mpr (Or.inr ⟨start, hstart,
      bind_eq_error.mpr (Or.inr ⟨stop, hstop, h⟩)⟩))
  rcases h with h | ⟨_, _, h | ⟨_, _, h | ⟨_, _, h⟩⟩⟩
  · exact hP.check rfl e h
  · exact raises_ensure (fun _ => hP.integrity _) e h
  · exact raises_ensure (fun _ => hP.integrity _) e h
  · cases h

omit [Host] in
theorem Benign.insertClaim (hP : Benign P) {t : Tables} {claim : Claim}
    {evidence : List EvidenceLink} (hlinks : ∀ link ∈ evidence, LinkRaises P t link) :
    Raises P (insertClaim t claim evidence) := by
  unfold SharedMind.insertClaim
  refine (raises_ensure fun _ => hP.integrity _).bind fun _ _ => ?_
  refine raises_foldlM (fun _ (s : Tables) => s.sources = t.sources) rfl
    fun pre link post s hall hs => ⟨?_, ?_⟩
  · refine hP.insertEvidence fun row hrow => hlinks link (hall ▸ by simp) row ?_
    rw [← hs]
    exact hrow
  · intro s' hs'
    rw [validateAndInsertEvidence_frame hs']
    exact hs

theorem raises_contradicting {t : Tables} {incoming : Claim}
    {predicate : PredicateDefinition} {ignored : List RecordId}
    (hin : TimesRaise P incoming.proposition.validTime)
    (hstored : ∀ (id : RecordId) (row : ClaimRow), t.claims[id]? = some row →
      TimesRaise P row.proposition.validTime) :
    Raises P (contradicting t incoming predicate ignored) := by
  refine raises_foldlM (fun _ _ => True) trivial
    fun pre c post found hall _ => ⟨?_, fun _ _ => trivial⟩
  have hmem : c ∈ t.claims.toList := hall ▸ by simp
  split
  · refine (hin.conflictKind (hstored c.1 c.2 (Table.mem_toList.mp hmem))).bind fun r _ => ?_
    cases r with
    | none => exact raises_pure _
    | some kind => exact raises_pure _
  · exact raises_pure _

omit [Host] in
theorem Benign.openConflictOf (hP : Benign P) {w : Txn} {incoming : Claim} {family : Hash}
    {kind : ConflictKind} {found : List (RecordId × ConflictKind)} {openedSeq : Nat} :
    Raises P (openConflictOf w incoming family kind found openedSeq) := by
  unfold SharedMind.openConflictOf
  split
  · exact raises_ok _
  · refine Raises.bind ?_ fun _ _ => raises_pure _
    unfold conflictRowFor
    split
    · exact raises_ok _
    · exact raises_ok _
    · exact (raises_ensure fun _ => hP.integrity _).bind fun _ _ => raises_pure _

theorem Benign.assertClaim (hP : Benign P) {w : Txn} {claim : Claim} {evidence : List EvidenceLink}
    {ignored : List RecordId} {openedSeq : Nat}
    (hin : TimesRaise P claim.proposition.validTime)
    (hstored : ∀ (id : RecordId) (row : ClaimRow), w.tables.claims[id]? = some row →
      TimesRaise P row.proposition.validTime)
    (hlinks : ∀ link ∈ evidence, LinkRaises P w.tables link) :
    Raises P (assertClaim reg w claim evidence ignored openedSeq) := by
  unfold SharedMind.assertClaim
  refine (hP.validateClaim hin).bind fun predicate _ => (hP.insertClaim hlinks).bind fun t ht => ?_
  unfold SharedMind.openConflicts
  refine Raises.bind (raises_contradicting hin ?_) fun _ _ => hP.openConflictOf.bind
    fun _ _ => hP.openConflictOf
  intro id row hrow
  rw [Txn.emit_tables, insertClaim_frame ht, Table.get_insert] at hrow
  split at hrow
  · obtain rfl := Option.some.inj hrow
    exact hin
  · exact hstored id row hrow

/-! ### Operations -/

/-- The claims stored are of these times, and so are the sources of the proposal's links. -/
structure Quiet (P : PyExc → Prop) (t : Tables) (ops : List Operation) : Prop where
  stored : ∀ (id : RecordId) (row : ClaimRow), t.claims[id]? = some row →
    TimesRaise P row.proposition.validTime
  asserted : ∀ op ∈ ops, ∀ claim ignored, Prediction.incoming? op = some (claim, ignored) →
    TimesRaise P claim.proposition.validTime
  cited : ∀ op ∈ ops, ∀ link ∈ op.links, ∀ content,
    sourceContent? t ops link.sourceRevisionId = some content →
    Raises P (readExcerpt content link.selector)

omit [Host] in
theorem Benign.questionTarget (hP : Benign P) {w : Txn} {target : RecordId} :
    Raises P (openQuestionTarget w target) := by
  unfold openQuestionTarget
  refine (raises_orRaise fun _ => hP.conflict _ rfl).bind fun _ _ => ?_
  exact (hP.checkNow rfl).bind fun _ _ => raises_pure _

/-- The claim an operation stores is the one it brings. -/
theorem applyOperation_times {Q : ValidTime → Prop} {proposer : ActorRef} {openedSeq : Nat}
    {w w' : Txn} {op : Operation} (h : applyOperation reg proposer openedSeq w op = .ok w')
    (hstored : ∀ (id : RecordId) (row : ClaimRow), w.tables.claims[id]? = some row →
      Q row.proposition.validTime)
    (hin : ∀ claim ignored, Prediction.incoming? op = some (claim, ignored) →
      Q claim.proposition.validTime) :
    ∀ (id : RecordId) (row : ClaimRow), w'.tables.claims[id]? = some row →
      Q row.proposition.validTime := by
  have hmodify : ∀ {claims : Table RecordId ClaimRow} {target : RecordId} {f : ClaimRow → ClaimRow},
      (∀ row, (f row).proposition = row.proposition) →
      (∀ (id : RecordId) (row : ClaimRow), claims[id]? = some row → Q row.proposition.validTime) →
      ∀ (id : RecordId) (row : ClaimRow), (claims.modify target f)[id]? = some row →
        Q row.proposition.validTime := by
    intro claims target f hf hold id row hrow
    rw [Table.get_modify] at hrow
    split at hrow
    · obtain ⟨old, hget, rfl⟩ := Option.map_eq_some_iff.mp hrow
      rw [hf]
      exact hold id old hget
    · exact hold id row hrow
  have hassert : ∀ {v : Txn} {claim : Claim} {evidence : List EvidenceLink} {ignored : List RecordId},
      assertClaim reg w claim evidence ignored openedSeq = .ok v → Q claim.proposition.validTime →
      ∀ (id : RecordId) (row : ClaimRow), v.tables.claims[id]? = some row →
        Q row.proposition.validTime := by
    intro v claim evidence ignored hv hclaim id row hrow
    rw [(assertClaim_frame hv).2.1, Table.get_insert] at hrow
    split at hrow
    · obtain rfl := Option.some.inj hrow
      exact hclaim
    · exact hstored id row hrow
  cases op with
  | registerSourceRevision _ source =>
    rcases registerSourceRevision_eq_ok.mp h with ⟨_, _, _, _, rfl⟩ | ⟨_, _, _, _, rfl⟩
    · exact hstored
    · exact hstored
  | assertClaim claim evidence _ => exact hassert h (hin claim [] rfl)
  | attachEvidence link _ =>
    obtain ⟨row, _, t, _, _, _, _, ht, rfl⟩ := attachEvidence_eq_ok.mp h
    refine hmodify (fun _ => rfl) ?_
    rw [validateAndInsertEvidence_frame ht]
    exact hstored
  | supersedeClaim op =>
    obtain ⟨_, v, _, _, hv, rfl⟩ := supersedeClaim_eq_ok.mp h
    exact hmodify (fun _ => rfl) (hassert hv (hin op.replacementClaim [op.targetClaimId] rfl))
  | retractClaim op =>
    obtain ⟨_, _, _, _, _, rfl⟩ := retractClaim_eq_ok.mp h
    exact hmodify (fun _ => rfl) hstored
  | resolveConflict op =>
    obtain ⟨_, _, _, rfl⟩ := resolveConflict_eq_ok.mp h
    exact hstored
  | recordDecision | supersedeDecision | openQuestion | answerQuestion | dropQuestion
  | createWorkItem | updateWorkItemStatus =>
    rw [(applyOperation_keepsMemory h (by simp [applyContinuityOperation])).claims]
    exact hstored

/-- What an operation raises on tables whose times and sources are read. -/
theorem Benign.applyOperation (hP : Benign P) {proposer : ActorRef} {openedSeq : Nat} {w : Txn}
    {op : Operation}
    (hstored : ∀ (id : RecordId) (row : ClaimRow), w.tables.claims[id]? = some row →
      TimesRaise P row.proposition.validTime)
    (hin : ∀ claim ignored, Prediction.incoming? op = some (claim, ignored) →
      TimesRaise P claim.proposition.validTime)
    (hlinks : ∀ link ∈ op.links, LinkRaises P w.tables link) :
    Raises P (applyOperation reg proposer openedSeq w op) := by
  cases op with
  | registerSourceRevision _ source =>
    show Raises P (registerSourceRevision w source)
    unfold registerSourceRevision
    split
    · exact (hP.check rfl).bind fun _ _ => (hP.check rfl).bind fun _ _ => raises_pure _
    · refine (raises_orRaise fun _ => hP.failure _ rfl).bind fun _ _ => ?_
      exact (hP.check rfl).bind fun _ _ => raises_pure _
  | assertClaim claim evidence _ => exact hP.assertClaim (hin claim [] rfl) hstored hlinks
  | attachEvidence link _ =>
    show Raises P (attachEvidence reg w link)
    unfold attachEvidence
    refine (raises_orRaise fun _ => hP.conflict _ rfl).bind fun _ _ => ?_
    refine (hP.checkNow rfl).bind fun _ _ => ?_
    refine (raises_orRaise fun _ => hP.failure _ rfl).bind fun _ _ => ?_
    refine (hP.interpretations _ _).bind fun _ _ => ?_
    exact (hP.insertEvidence (hlinks link (List.mem_singleton_self link))).bind
      fun _ _ => raises_pure _
  | supersedeClaim op =>
    show Raises P (supersedeClaim reg w op openedSeq)
    unfold supersedeClaim
    refine (raises_orRaise fun _ => hP.conflict _ rfl).bind fun _ _ => ?_
    refine (hP.checkNow rfl).bind fun _ _ => ?_
    exact (hP.assertClaim (hin op.replacementClaim [op.targetClaimId] rfl) hstored hlinks).bind
      fun _ _ => raises_pure _
  | retractClaim op =>
    show Raises P (retractClaim w proposer op)
    unfold retractClaim
    refine (raises_orRaise fun _ => hP.conflict _ rfl).bind fun _ _ => ?_
    refine (hP.checkNow rfl).bind fun _ _ => (hP.check rfl).bind fun _ _ => ?_
    exact (hP.check rfl).bind fun _ _ => raises_pure _
  | resolveConflict op =>
    show Raises P (resolveConflict w proposer op)
    unfold resolveConflict
    refine (raises_orRaise fun _ => hP.conflict _ rfl).bind fun _ _ => ?_
    refine (hP.checkNow rfl).bind fun _ _ => (hP.checkNow rfl).bind fun _ _ => ?_
    refine (hP.checkNow rfl).bind fun _ _ => (hP.check rfl).bind fun _ _ => ?_
    exact (hP.check rfl).bind fun _ _ => (hP.check rfl).bind fun _ _ => raises_pure _
  | recordDecision decision _ =>
    show Raises P (recordDecision w decision.1)
    unfold recordDecision
    refine Raises.bind ?_ fun _ _ => (hP.check rfl).bind fun _ _ => raises_pure _
    exact raises_of_ok (validateNewDecision_eq_ok.mpr rfl)
  | supersedeDecision op =>
    show Raises P (supersedeDecision w op.targetDecisionId op.targetDisposition
      op.replacementDecision.1 op.rationale)
    unfold supersedeDecision
    refine (raises_orRaise fun _ => hP.conflict _ rfl).bind fun _ _ => ?_
    refine (hP.checkNow rfl).bind fun _ _ => Raises.bind ?_ fun _ _ => ?_
    · exact raises_of_ok (validateNewDecision_eq_ok.mpr rfl)
    · exact (hP.check rfl).bind fun _ _ => raises_pure _
  | openQuestion _ question =>
    show Raises P (openQuestion w question.1)
    unfold openQuestion
    refine Raises.bind ?_ fun _ _ => (hP.check rfl).bind fun _ _ => raises_pure _
    exact raises_of_ok (validateNewQuestion_eq_ok.mpr rfl)
  | answerQuestion answer _ target =>
    show Raises P (answerQuestion w target answer)
    exact hP.questionTarget.bind fun _ _ => raises_pure _
  | dropQuestion drop _ target =>
    show Raises P (dropQuestion w target drop)
    exact hP.questionTarget.bind fun _ _ => raises_pure _
  | createWorkItem _ workItem =>
    show Raises P (createWorkItem w workItem.1)
    unfold createWorkItem
    refine Raises.bind ?_ fun _ _ => (hP.check rfl).bind fun _ _ => raises_pure _
    exact raises_of_ok (validateNewWorkItem_eq_ok.mpr rfl)
  | updateWorkItemStatus op =>
    show Raises P (updateWorkItemStatus w op.1.targetWorkItemId op.1.newStatus op.1.blocker
      op.1.rationale op.1.updatedBy op.1.updatedAt)
    unfold updateWorkItemStatus
    refine (hP.check rfl).bind fun _ _ => ?_
    exact (raises_orRaise fun _ => hP.conflict _ rfl).bind fun _ _ => raises_pure _

/-- What a quiet list of operations raises. -/
theorem Benign.applyOperations (hP : Benign P) {proposer : ActorRef} {openedSeq : Nat} {t : Tables}
    {ops : List Operation} (hq : Quiet P t ops) :
    Raises P (applyOperations reg proposer openedSeq t ops) := by
  refine raises_foldlM (fun pre w =>
    (∀ (id : RecordId) (row : ClaimRow), w.tables.claims[id]? = some row →
      TimesRaise P row.proposition.validTime) ∧
    ∀ id : RecordId, w.tables.sources[id]?.map SourceRow.content = sourceContent? t pre id)
    ⟨hq.stored, fun id => ?_⟩ fun pre op post w hall hw => ⟨?_, fun w' hop => ⟨?_, ?_⟩⟩
  · unfold sourceContent?
    cases t.sources[id]? <;> rfl
  · have hmem : op ∈ ops := hall ▸ by simp
    refine hP.applyOperation hw.1 (hq.asserted op hmem) fun link hlink row hrow => ?_
    refine hq.cited op hmem link hlink row.content ?_
    rw [hall]
    refine sourceContent?_append ?_
    rw [← hw.2, hrow]
    rfl
  · exact applyOperation_times hop hw.1 (hq.asserted op (hall ▸ by simp))
  · exact applyOperation_sourceContent hop hw.2

/-! ### The checks of a proposal -/

omit [Host] in
theorem Benign.requiredReads (hP : Benign P) {p : Proposal} :
    Raises P (validateRequiredOperationReads p) := by
  refine raises_forM fun op _ => ?_
  split
  · exact raises_pure ()
  · next target _ => exact hP.check (by cases target.1 <;> rfl)

omit [Host] in
theorem Benign.readsAndGuards (hP : Benign P) {t : Tables} {p : Proposal} :
    Raises P (validateReadsAndGuards reg t p) := by
  refine (raises_forM fun read _ => ?_).bind fun _ _ => raises_forM fun guard _ => ?_
  · cases read with
    | collection read => exact hP.checkNow rfl
    | aggregate read => exact hP.checkNow (by cases read.aggregateType <;> rfl)
  · cases guard <;> exact hP.checkNow rfl

omit [Host] in
theorem Prediction.mem_of_set {p : Prediction} {id : RecordId} {proposition : Proposition}
    {c : RecordId × Proposition} (h : c ∈ (p.set id proposition).active) :
    c ∈ p.active ∨ c = (id, proposition) := by
  simp only [Prediction.set] at h
  split at h
  · obtain ⟨d, hd, rfl⟩ := List.mem_map.mp h
    split
    · exact Or.inr rfl
    · exact Or.inl hd
  · exact (List.mem_append.mp h).imp_right List.mem_singleton.mp

theorem raises_predictContradicting {p : Prediction} {incoming : Claim}
    {predicate : PredicateDefinition} {ignored : List RecordId}
    (hin : TimesRaise P incoming.proposition.validTime)
    (hp : ∀ c ∈ p.active, TimesRaise P c.2.validTime) :
    Raises P (p.contradicting incoming predicate ignored) := by
  refine raises_foldlM (fun _ _ => True) trivial
    fun pre c post found hall _ => ⟨?_, fun _ _ => trivial⟩
  split
  · refine (hin.conflictKind (hp c (hall ▸ by simp))).bind fun r _ => ?_
    cases r with
    | none => exact raises_pure _
    | some kind => exact raises_pure _
  · exact raises_pure _

/-- A step of the prediction, and the times of the claims it leaves active. -/
theorem raises_predictStep {p : Prediction} {op : Operation}
    (hin : ∀ claim ignored, Prediction.incoming? op = some (claim, ignored) →
      TimesRaise P claim.proposition.validTime)
    (hp : ∀ c ∈ p.active, TimesRaise P c.2.validTime) :
    Raises P (p.step reg op) ∧
      ∀ q, p.step reg op = .ok q → ∀ c ∈ q.active, TimesRaise P c.2.validTime := by
  cases hop : Prediction.incoming? op with
  | none =>
    have hpop : ∀ id, ∀ c ∈ (p.pop id).active, TimesRaise P c.2.validTime :=
      fun id c hc => hp c (List.mem_filter.mp hc).1
    simp only [Prediction.step, hop]
    split
    · exact ⟨raises_ok _, fun q h => Except.ok.inj h ▸ hpop _⟩
    · exact ⟨raises_ok _, fun q h => Except.ok.inj h ▸ hp⟩
  | some incoming =>
    obtain ⟨claim, ignored⟩ := incoming
    have hclaim := hin claim ignored hop
    simp only [Prediction.step, hop]
    split
    · exact ⟨raises_ok _, fun q h => Except.ok.inj h ▸ hp⟩
    · refine ⟨(raises_predictContradicting hclaim hp).bind fun _ _ => raises_pure _, fun q h => ?_⟩
      obtain ⟨found, _, h⟩ := bind_eq_ok.mp h
      obtain rfl := pure_eq_ok.mp h
      intro c hc
      rcases Prediction.mem_of_set (Prediction.mem_foldl_pop.mp hc).1 with hc | rfl
      · rw [Prediction.predict_active, Prediction.predict_active] at hc
        exact hp c hc
      · exact hclaim

theorem raises_predict {t : Tables} {ops : List Operation} (hq : Quiet P t ops) :
    Raises P (predictedConflictIds reg t ops) := by
  have hfold : Raises P (ops.foldlM (Prediction.step reg) (Prediction.start t)) := by
    refine raises_foldlM (fun _ p => ∀ c ∈ p.active, TimesRaise P c.2.validTime) ?_
      fun pre op post p hall hp => raises_predictStep (hq.asserted op (hall ▸ by simp)) hp
    intro c hc
    obtain ⟨row, hrow, rfl⟩ := List.mem_map.mp hc
    exact hq.stored row.1 row.2 (Table.mem_toList.mp (List.mem_filter.mp hrow).1)
  exact hfold.bind fun _ _ => raises_pure _

omit [Host] in
theorem Benign.reference (hP : Benign P) {ids : RecordType → List RecordId} {type : RecordType}
    {id : RecordId} : Raises P (requireReference ids type id) := by
  unfold requireReference
  split
  · exact raises_ok ()
  · split
    · exact raises_error (hP.failure _ rfl)
    · exact raises_error (hP.failure _ rfl)

/-- The checks before that of the references are met. -/
def Proposal.Checked (reg : Registry) (t : Tables) (p : Proposal) : Prop :=
  validateVersions reg p.versions = .ok () ∧ validateRequiredOperationReads p = .ok () ∧
    validateReadsAndGuards reg t p = .ok ()

/-- What the checks of a proposal raise, which is quiet once it passes the first of them. -/
theorem Benign.validateProposal (hP : Benign P) {t : Tables} {p : Proposal}
    (hq : p.Checked reg t → Quiet P t p.operations.1)
    (hver : Raises P (validateVersions reg p.versions)) :
    Raises P (validateProposal reg t p) := by
  unfold SharedMind.validateProposal
  refine hver.bind fun _ hv => hP.requiredReads.bind fun _ hr => hP.readsAndGuards.bind
    fun _ hg => ?_
  exact (raises_predict (hq ⟨hv, hr, hg⟩)).bind fun _ _ => raises_forM fun _ _ => hP.reference

theorem Proposal.checked {t : Tables} {p : Proposal} (h : SharedMind.validateProposal reg t p = .ok ()) :
    p.Checked reg t := by
  simp only [SharedMind.validateProposal, bind_eq_ok] at h
  obtain ⟨_, hv, _, hr, _, hg, _⟩ := h
  exact ⟨hv, hr, hg⟩

/-! ### The transaction -/

variable {c : Call} {db : Db} {hash : Hash} {value : Json}

/-- What is required of a proposal so that its transaction raises what is in `P`. -/
structure Proposal.Quiet (P : PyExc → Prop) (reg : Registry) (db : Db) (hash : Hash)
    (p : Proposal) : Prop where
  versions : Raises P (validateVersions reg p.versions)
  quiet : p.Checked reg db.tables → SharedMind.Quiet P db.tables p.operations.1
  entry : ∀ w, applyOperations reg p.proposer (nextLedgerSeq db.ledger) db.tables p.operations.1 =
    .ok w → (LedgerEntry.codec.dec (ledgerDocument (entryParts db p hash w)
      (sha256Json (ledgerEnvelope (entryParts db p hash w))) p.proposalId)).isSome = true ∨
      P (.validationFailure .ledgerEntrySchemaInvalid)
  named : p.Checked reg db.tables → recordIdPattern.fullmatch p.proposalId = true ∧
    idempotencyKeyPattern.fullmatch p.idempotencyKey = true ∨
      P (.validationFailure .decisionReceiptSchemaInvalid)

/-- Numbers are left for another entry and another receipt. -/
structure Db.HasNumbers (db : Db) : Prop where
  seq : nextLedgerSeq db.ledger ≤ maxRowId
  id : nextReceiptId db.receipts ≤ maxRowId

theorem Benign.evaluate (hP : Benign P) (hroom : db.HasNumbers) (hcontract : Raises P
    (contractProposal reg value)) (hq : ∀ p, value = Proposal.codec.enc p → p.Quiet P reg db hash) :
    Raises P (evaluate reg db value hash) := by
  unfold SharedMind.evaluate
  refine hcontract.bind fun p hp => ?_
  have hq := hq p (contractProposal_eq_ok.mp hp)
  refine (hP.validateProposal hq.quiet hq.versions).bind fun _ hv => ?_
  refine (hP.applyOperations (hq.quiet (Proposal.checked hv))).bind fun w hw => ?_
  refine (raises_ensure fun hinvalid => ?_).bind fun _ _ => ?_
  · exact (hq.entry w hw).resolve_left hinvalid
  · refine (raises_ensure fun hseq => absurd hroom.seq hseq).bind fun _ _ => ?_
    exact (raises_ensure fun _ => hP.integrity _).bind fun _ _ => raises_pure _

/-- What the receipt of an applied proposal raises. -/
theorem raises_acceptedReceipt {e : Evaluation} (hroom : db.HasNumbers)
    (hhead : HashText (headEntryHash db.ledger)) (heval : evaluate reg db value hash = .ok e)
    (hjson : c.proposal.toJson? = some value) (hq : e.proposal.Quiet P reg db hash) :
    Raises P (insertReceipt c (e.apply db) (e.receiptInput hash)) := by
  obtain ⟨hvalue, hvalid, _, hparts, hrow, _⟩ := evaluate_eq_ok.mp heval
  have hkey := idempotencyKey_of_toJson? (hvalue ▸ hjson)
  have hid := proposalId_of_toJson? (hvalue ▸ hjson)
  obtain ⟨decidedAt, hdec⟩ : ∃ t, (decidedAtText c (e.receiptInput hash).decidedAt).toString? =
      some t := by
    rw [Evaluation.receiptInput, decidedAtText]
    split
    · exact ⟨_, PyStr.toString?_ofString c.now⟩
    · exact ⟨_, PyStr.toString?_ofString _⟩
  have hraise : Raises P (receiptRow c (e.apply db) (e.receiptInput hash)) := by
    unfold receiptRow
    refine (raises_of_ok (Evaluation.receiptLinks_accepted heval)).bind fun links hlinks => ?_
    obtain rfl := Except.ok.inj ((Evaluation.receiptLinks_accepted heval).symm.trans hlinks)
    dsimp only
    refine (raises_ensure fun hinvalid => ?_).bind fun _ _ => ?_
    · refine (hq.named (Proposal.checked hvalid)).resolve_left fun hnamed => hinvalid ?_
      obtain ⟨hid', hkey'⟩ := hnamed
      have hseq : e.parts.seq = nextLedgerSeq db.ledger := by rw [hparts]; rfl
      obtain ⟨d, hd⟩ := @receiptDocument_valid _ _ _ _ _ (nextReceiptId db.receipts) decidedAt
        (@Evaluation.receiptInput_valid _ _ e hash ⟨entryIdText e.parts.seq, entryIdText_admitted
        (hseq ▸ hroom.seq)⟩ (hvalue ▸ hjson) hid' hkey') hhead (hashText_some (sha256Json
        (ledgerEnvelope e.parts))) hroom.id
      rw [hdec, Option.getD_some, hrow]
      exact Option.isSome_iff_exists.mpr ⟨d, DecisionReceipt.codec.dec_eq_some_iff.mpr hd⟩
    · rw [hkey, hid, columnText_str, columnText_str]
      refine (raises_ok _).bind fun key hk => (raises_ok _).bind fun id hi => ?_
      obtain rfl := Except.ok.inj hk
      obtain rfl := Except.ok.inj hi
      refine (raises_ensure fun hnone => absurd ?_ hnone).bind fun _ _ => ?_
      · rw [hdec]
        rfl
      refine (raises_ok _).bind fun _ _ => (raises_ok _).bind fun _ _ => ?_
      exact (raises_ensure fun hfull => absurd hroom.id hfull).bind fun _ _ => raises_pure _
  refine hraise.bind fun row hrow => ?_
  obtain ⟨receipt, hreceipt⟩ := rowToReceipt_of_receiptRow hrow
  exact (raises_of_ok hreceipt).bind fun _ _ => raises_pure _

omit [Host] in
theorem prior?_mem {receipts : List ReceiptRow} {key : Option String} {row : ReceiptRow}
    (h : prior? receipts key = some row) : row ∈ receipts := by
  obtain ⟨_, _, hfind⟩ := Option.bind_eq_some_iff.mp h
  exact List.mem_of_find?_eq_some hfind

/-- **What a transaction raises**: no more than its quiet proposal, or its stored receipt. -/
theorem Benign.transaction (hP : Benign P) {key : Option String} (hroom : db.HasNumbers)
    (hhead : HashText (headEntryHash db.ledger))
    (hread : ∀ r ∈ db.receipts, ∃ receipt, rowToReceipt r = .ok receipt)
    (hkey : columnText c.idempotencyKey = .ok key) (hjson : c.proposal.toJson? = some value)
    (hcontract : Raises P (contractProposal reg value))
    (hq : ∀ p, value = Proposal.codec.enc p → p.Quiet P reg db hash) :
    Raises P (transaction reg c db hash value) := by
  unfold SharedMind.transaction
  refine (raises_of_ok hkey).bind fun key _ => ?_
  split
  · next row hprior =>
    split
    · exact raises_pure _
    · obtain ⟨receipt, hreceipt⟩ := hread row (prior?_mem hprior)
      exact (raises_of_ok hreceipt).bind fun _ _ => raises_pure _
  · refine (hP.evaluate hroom hcontract hq).bind fun e he => ?_
    have hvalue := (evaluate_eq_ok.mp he).1
    exact (raises_acceptedReceipt hroom hhead he hjson (hq _ hvalue)).bind fun _ _ => raises_pure _

end

end SharedMind
