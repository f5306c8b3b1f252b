import SharedMind.Law.EventsValid
import SharedMind.Law.Total
import SharedMind.Workspace.Validation

/-!
# Validation predicts the commit

* `Predicts`: a proposal without issues is not refused as malformed, one with issues is
  refused, and neither raises.
* `validation_predicts`: the law, for a proposal under a key without a receipt, in every state
  of every interleaving.
* `surrogate_refused`: a proposal without issues that is refused as malformed.
-/

namespace SharedMind

open Py Exceptions Workspace

/-! ### Receipts of rejections -/

/-- The texts of the codes that say a proposal is malformed. -/
def malformedTexts : List String :=
  ["MALFORMED_PROPOSAL", "PROPOSAL_TOO_DEEP", "PROPOSAL_TOO_LARGE", "SCHEMA_VALIDATION_FAILED",
    "LEDGER_ENTRY_SCHEMA_INVALID", "DECISION_RECEIPT_SCHEMA_INVALID",
    "UNSUPPORTED_SCHEMA_VERSION", "UNSUPPORTED_PREDICATE_REGISTRY",
    "PREDICATE_REGISTRY_CONTENT_MISMATCH", "UNSUPPORTED_CONFLICT_RULES_VERSION",
    "UNSUPPORTED_GUARD_DSL_VERSION", "UNSUPPORTED_PROJECTION_VERSION"]

theorem ReasonCode.malformed_iff (code : ReasonCode) :
    code.text ∈ malformedTexts ↔ code.malformed = true := by
  cases code <;> decide

section

variable [Host] {reg : Registry} {c : Call} {db db' : Db} {hash : Hash} {value : Json}
  {receipt : Receipt}

theorem reject_receipt {r : Rejection} (h : reject c db r = .ok (receipt, db')) :
    receipt.outcome = r.outcome.text ∧ receipt.reasonCodes = [.str r.reason.text] := by
  obtain ⟨row, hrow, hrec, _⟩ := reject_eq_ok.mp h
  obtain ⟨_, _, _, d, _, _, _, _, _, rfl⟩ := receiptRow_rejection.mp hrow
  rw [rowToReceipt_columns] at hrec
  obtain rfl := Except.ok.inj hrec
  exact ⟨rfl, rfl⟩

theorem accepted_receipt {e : Evaluation} {row : ReceiptRow} (h : Accepts reg c hash value db e row)
    (hrec : rowToReceipt row = .ok receipt) : receipt.reasonCodes = [] := by
  obtain ⟨_, _, _, _, _, _, _, _, _, _, _, rfl⟩ := receiptRow_eq_ok.mp h.receipted
  rw [rowToReceipt_columns] at hrec
  obtain rfl := Except.ok.inj hrec
  rfl

/-- What is refused before the transaction is refused as no valid proposal. -/
theorem preflight_outcome {r : Rejection} (h : preflight c = .ok (.refuse r)) :
    r.outcome = .validationError ∧ r.reason.malformed = true := by
  unfold preflight at h
  simp only at h
  split at h
  · obtain ⟨_, _, h⟩ := bind_eq_ok.mp h
    cases h
    refine ⟨rfl, ?_⟩
    dsimp only
    split <;> rfl
  · split at h
    · obtain ⟨_, _, h⟩ := bind_eq_ok.mp h
      cases h
      exact ⟨rfl, rfl⟩
    · split at h
      · cases h
        exact ⟨rfl, rfl⟩
      · split at h <;> cases h
        exact ⟨rfl, rfl⟩

/-! ### What the two functions have in common -/

/-- No receipt is stored under the call's key. -/
def Call.Fresh (c : Call) (db : Db) : Prop :=
  ∀ key, columnText c.idempotencyKey = .ok (some key) →
    ∀ r ∈ db.receipts, r.idempotencyKey ≠ key

theorem Call.Fresh.prior {key : Option String} (h : c.Fresh db)
    (hkey : columnText c.idempotencyKey = .ok key) : prior? db.receipts key = none := by
  cases key with
  | none => rfl
  | some key => simpa [prior?] using h key hkey

omit [Host] in
/-- A member of the versions of a proposal that encodes. -/
theorem version?_eq_some {raw : RawJson} {p : Proposal} {name s : String}
    (h : raw.toJson? = some (Proposal.codec.enc p))
    (hs : (VersionBundle.codec.enc p.versions).get? name = some (.str s)) :
    version? raw name = some (.str (PyStr.ofString s)) := by
  have hversions : (Proposal.codec.enc p).get? "versions" =
      some (VersionBundle.codec.enc p.versions) := rfl
  obtain ⟨v, hv, hjson⟩ := JsonOf.get?_of_toJson? h hversions
  obtain ⟨w, hw, hstr⟩ := JsonOf.get?_of_toJson? hjson hs
  rw [version?, hv, Option.bind_some, hw, str_of_toJson? hstr]

omit [Host] in
/-- One that is missing there is missing here. -/
theorem version?_eq_none {raw : RawJson} {p : Proposal} {name : String}
    (h : raw.toJson? = some (Proposal.codec.enc p))
    (hs : (VersionBundle.codec.enc p.versions).get? name = none) : version? raw name = none := by
  have hversions : (Proposal.codec.enc p).get? "versions" =
      some (VersionBundle.codec.enc p.versions) := rfl
  obtain ⟨v, hv, hjson⟩ := JsonOf.get?_of_toJson? h hversions
  rw [version?, hv, Option.bind_some]
  cases v with
  | obj ms =>
    rw [JsonOf.toJson?, Option.map_eq_some_iff] at hjson
    obtain ⟨ns, hns, henc⟩ := hjson
    cases hw : (JsonOf.obj ms).get? (PyStr.ofString name) with
    | none => rfl
    | some w =>
      obtain ⟨u, _, hu⟩ := (JsonOf.get?_of_toJsonMembers? hns name).1 w hw
      rw [henc, hs] at hu
      cases hu
  | null | bool | num | str | arr => rfl

omit [Host] in
theorem validateVersions_eq_ok {versions : VersionBundle} :
    validateVersions reg versions = .ok () ↔
      (versions.1.schema : String) = supportedSchema ∧
      (versions.1.predicateRegistry : String) = reg.version ∧
      versions.1.predicateRegistryHash.map Text.text = some (reg.hash : String) ∧
      (versions.1.conflictRules : String) = "conflict-rules@1" ∧
      (versions.1.guardDsl : String) = reg.guardDslVersion ∧
      (versions.1.projection : String) = "markdown-projection@3" := by
  have htext : ∀ {p : String → Bool} {a b : Text p}, a = b ↔ (a : String) = b :=
    fun {_ _ _} => ⟨congrArg _, Text.ext⟩
  have hhash : versions.1.predicateRegistryHash = some reg.hash ↔
      versions.1.predicateRegistryHash.map Text.text = some (reg.hash : String) := by
    cases versions.1.predicateRegistryHash with
    | none => simp
    | some h =>
      rw [Option.some.injEq, htext, Option.map_some, Option.some.injEq]
      exact Iff.rfl
  simp only [validateVersions, bind_eq_ok, require_eq_ok, exists_const, hhash]
  rw [htext, htext (a := versions.1.guardDsl)]

omit [Host] in
theorem get?_versions (v : VersionBundle) :
    (VersionBundle.codec.enc v).get? "schema" = some (.str (v.1.schema : String)) ∧
    (VersionBundle.codec.enc v).get? "predicate_registry" =
      some (.str (v.1.predicateRegistry : String)) ∧
    (VersionBundle.codec.enc v).get? "predicate_registry_hash" =
      v.1.predicateRegistryHash.map (fun h => .str (Text.text h)) ∧
    (VersionBundle.codec.enc v).get? "conflict_rules" = some (.str (v.1.conflictRules : String)) ∧
    (VersionBundle.codec.enc v).get? "guard_dsl" = some (.str (v.1.guardDsl : String)) ∧
    (VersionBundle.codec.enc v).get? "projection" = some (.str (v.1.projection : String)) := by
  obtain ⟨⟨rules, guard, registry, hash, projection, schema⟩, hwf⟩ := v
  cases hash with
  | none => exact ⟨rfl, rfl, rfl, rfl, rfl, rfl⟩
  | some h => exact ⟨rfl, rfl, rfl, rfl, rfl, rfl⟩

omit [Host] in
/-- The versions of a proposal pass where the kernel supports them. -/
theorem supported_iff {raw : RawJson} {p : Proposal}
    (h : raw.toJson? = some (Proposal.codec.enc p)) :
    (∀ s ∈ supported reg, ∃ version, version? raw s.1 = some version ∧
      version.str? = some (PyStr.ofString s.2.1)) ↔ validateVersions reg p.versions = .ok () := by
  have hone : ∀ {name s expected : String},
      (VersionBundle.codec.enc p.versions).get? name = some (.str s) →
      ((∃ version, version? raw name = some version ∧
        version.str? = some (PyStr.ofString expected)) ↔ s = expected) := by
    intro name s expected hs
    rw [version?_eq_some h hs]
    constructor
    · rintro ⟨v, hv, hstr⟩
      obtain rfl := Option.some.inj hv
      exact PyStr.ofString_injective (Option.some.inj hstr)
    · rintro rfl
      exact ⟨_, rfl, rfl⟩
  obtain ⟨hschema, hregistry, hhash, hrules, hguard, hprojection⟩ := get?_versions p.versions
  have hhashIff : (∃ version, version? raw "predicate_registry_hash" = some version ∧
      version.str? = some (PyStr.ofString (reg.hash : String))) ↔
      p.versions.1.predicateRegistryHash.map Text.text = some (reg.hash : String) := by
    cases hp : p.versions.1.predicateRegistryHash with
    | none =>
      rw [hp] at hhash
      rw [version?_eq_none h hhash]
      simp
    | some t =>
      rw [hp] at hhash
      rw [hone hhash, Option.map_some, Option.some.injEq]
  simp only [supported, List.forall_mem_cons, List.not_mem_nil, false_imp_iff, implies_true,
    and_true, hone hschema, hone hregistry, hhashIff, hone hrules, hone hguard, hone hprojection,
    validateVersions_eq_ok]

/-- What passes the preflight as a proposal of supported versions has no issue. -/
theorem passes_iff {schemaErrors : RawJson → List String} (herrors : SchemaErrors schemaErrors)
    (hjson : c.proposal.toJson? = some value) :
    Passes schemaErrors reg c.proposal ↔ preflight c = .ok (.evaluate (sha256Json value) value) ∧
      ∃ p, value = Proposal.codec.enc p ∧ validateVersions reg p.versions = .ok () := by
  have hresources : proposalResourceIssue c.proposal = none ↔
      preflight c = .ok (.evaluate (sha256Json value) value) := by
    rw [preflight_evaluate, proposalResourceIssue, hjson]
    dsimp only
    split
    · next hdeep => simp [hdeep]
    · next hdeep =>
      split
      · next hrec => simp [hrec]
      · next hrec =>
        split
        · next hsize => simp [hsize]
        · next hsize => simp [not_lt.mp hdeep, not_lt.mp hrec, not_lt.mp hsize]
  constructor
  · rintro ⟨hr, he, hv⟩
    obtain ⟨p, rfl⟩ := (herrors c.proposal value hjson).mp he
    exact ⟨hresources.mp hr, p, rfl, (supported_iff hjson).mp hv⟩
  · rintro ⟨hpre, p, rfl, hv⟩
    exact ⟨hresources.mpr hpre, (herrors c.proposal _ hjson).mpr ⟨p, rfl⟩,
      (supported_iff hjson).mpr hv⟩

/-! ### A proposal with an issue -/

/-- The exceptions that are answered with `VALIDATION_ERROR`. -/
def Refused (e : PyExc) : Prop := ∃ code, handled e = some (.validationError, code)

omit [Host] in
theorem validateVersions_refused {versions : VersionBundle} :
    Raises Refused (validateVersions reg versions) := by
  have hcheck : ∀ {p : Prop} [Decidable p] {code : ReasonCode}, Raises Refused (require p code) :=
    raises_ensure fun _ => ⟨_, rfl⟩
  exact hcheck.bind fun _ _ => hcheck.bind fun _ _ => hcheck.bind fun _ _ => hcheck.bind
    fun _ _ => hcheck.bind fun _ _ => hcheck

omit [Host] in
theorem contractProposal_refused : Raises Refused (contractProposal reg value) := by
  unfold contractProposal
  split
  · exact raises_ok _
  · split
    · exact validateVersions_refused.bind fun _ _ => raises_error ⟨_, rfl⟩
    · split
      · exact raises_error ⟨_, rfl⟩
      · exact raises_error ⟨_, rfl⟩

/-- A value that is no proposal of supported versions is refused. -/
theorem transaction_refused (hfresh : c.Fresh db) {key : Option String}
    (hkey : columnText c.idempotencyKey = .ok key)
    (hnot : ¬∃ p, value = Proposal.codec.enc p ∧ validateVersions reg p.versions = .ok ()) :
    ∃ e, transaction reg c db hash value = .error e ∧ Refused e := by
  have hraise : Raises Refused (evaluate reg db value hash) := by
    refine contractProposal_refused.bind fun p hp => ?_
    have hbad : ∀ u, validateVersions reg p.versions ≠ .ok u :=
      fun _ hv => hnot ⟨p, contractProposal_eq_ok.mp hp, hv⟩
    refine Raises.bind ?_ fun _ hv => ?_
    · exact validateVersions_refused.bind fun u hv => absurd hv (hbad u)
    · exact absurd (Proposal.checked hv).1 (hbad ())
  have heval : ∃ e, evaluate reg db value hash = .error e := by
    cases he : evaluate reg db value hash with
    | error e => exact ⟨e, rfl⟩
    | ok e =>
      obtain ⟨hvalue, hvalid, _⟩ := evaluate_eq_ok.mp he
      exact absurd ⟨e.proposal, hvalue, (Proposal.checked hvalid).1⟩ hnot
  obtain ⟨e, heval⟩ := heval
  refine ⟨e, ?_, hraise e heval⟩
  simp only [transaction, hkey, ok_bind, hfresh.prior hkey, heval, error_bind]

/-- A recordable call whose proposal has an issue is refused. -/
theorem commit_refused {schemaErrors : RawJson → List String} (herrors : SchemaErrors schemaErrors)
    (hc : c.Recordable) (hfresh : c.Fresh db) (hdb : db.Kept) (hroom : db.HasNumbers)
    (hlimit : 0 < Host.recursionLimit)
    (hissue : ¬Passes schemaErrors reg c.proposal) :
    ∃ receipt db', commit reg db c = .ok (receipt, db') ∧
      receipt.outcome = Outcome.validationError.text := by
  rcases preflight_total hc hlimit with ⟨r, hpre, hdec⟩ | ⟨hash, value, hpre⟩
  · obtain ⟨receipt, row, hrej, _⟩ := reject_total hc hdb hroom (preflight_not_accepted hpre) hdec
    have hcommit : commit reg db c = reject c db r := by rw [commit, hpre]
    refine ⟨receipt, _, hcommit.trans hrej, ?_⟩
    rw [(reject_receipt hrej).1, (preflight_outcome hpre).1]
  obtain ⟨_, hjson, _, _, rfl⟩ := preflight_evaluate.mp hpre
  obtain ⟨key, hkey⟩ := hc.key
  rw [passes_iff herrors hjson] at hissue
  obtain ⟨e, ht, code, he⟩ := @transaction_refused _ reg _ _ (sha256Json value) _ hfresh _ hkey
    fun hp => hissue ⟨hpre, hp⟩
  have hr : rejectionOf c (sha256Json value) e =
      some ⟨sha256Json value, .validationError, code, some (proposalDecidedAt c)⟩ := by
    rw [rejectionOf, he]
    rfl
  obtain ⟨receipt, row, hrej, _⟩ := reject_total hc hdb hroom (rejectionOf_not_accepted hr)
    (decidedAt_encodes hjson)
  exact ⟨receipt, _, (commit_of_error hpre ht hr).trans hrej, (reject_receipt hrej).1⟩

/-! ### A proposal without one -/

/-- What else the evaluation of a proposal reads, once its versions, reads and guards are met:
identifiers without a newline behind them, times, and excerpts of the sources. -/
structure Proposal.Clean (p : Proposal) (t : Tables) : Prop where
  proposalId : recordIdPattern.fullmatch p.proposalId = true
  idempotencyKey : idempotencyKeyPattern.fullmatch p.idempotencyKey = true
  times : ∀ op ∈ p.operations.1, ∀ claim ignored,
    Prediction.incoming? op = some (claim, ignored) → claim.proposition.validTime.Read
  excerpts : ∀ op ∈ p.operations.1, ∀ link ∈ op.links, ∀ content,
    sourceContent? t p.operations.1 link.sourceRevisionId = some content →
    ∃ text, readExcerpt content link.selector = .ok text

/-- An exception that no receipt reports as a malformed proposal. -/
def NotMalformed (e : PyExc) : Prop := ∃ o code, handled e = some (o, code) ∧ code.malformed = false

omit [Host] in
theorem notMalformed_benign : Benign NotMalformed where
  failure code h := ⟨_, code, rfl, h⟩
  conflict code h := ⟨_, code, rfl, h⟩
  integrity e := ⟨_, integrityReason e, rfl, by cases e <;> rfl⟩

/-- A clean proposal without an issue is not refused as malformed. -/
theorem commit_notMalformed {schemaErrors : RawJson → List String}
    (herrors : SchemaErrors schemaErrors) (hjson : c.proposal.toJson? = some value)
    (hpasses : Passes schemaErrors reg c.proposal) (hc : c.Recordable) (hfresh : c.Fresh db)
    (hdb : db.Kept) (hlogs : db.Logs reg) (hroom : db.HasNumbers)
    (hclean : ∀ p, value = Proposal.codec.enc p → p.Checked reg db.tables → p.Clean db.tables) :
    ∃ receipt db', commit reg db c = .ok (receipt, db') ∧
      ∀ t ∈ malformedTexts, .str t ∉ receipt.reasonCodes := by
  obtain ⟨hpre, p, rfl, hversions⟩ := (passes_iff herrors hjson).mp hpasses
  obtain ⟨key, hkey⟩ := hc.key
  have hcommit := @commit_evaluate reg _ db _ _ _ hpre
  have hraise : Raises NotMalformed (transaction reg c db (sha256Json (Proposal.codec.enc p))
      (Proposal.codec.enc p)) := by
    refine notMalformed_benign.transaction hroom hdb.head (fun r hr => ?_) hkey hjson
      (raises_of_ok (contractProposal_eq_ok.mpr rfl)) fun q hq => ?_
    · obtain ⟨receipt, hrec, _⟩ := hdb.receipts r hr
      exact ⟨receipt, hrec⟩
    obtain rfl := Proposal.codec.enc_injective hq
    refine ⟨raises_of_ok hversions, fun hchecked => ?_, fun w hw => Or.inl ?_,
      fun hchecked => Or.inl ?_⟩
    · have hp := hclean p rfl hchecked
      refine ⟨fun id row hrow => (hdb.times id row hrow).times,
        fun op hop claim ignored hin => (hp.times op hop claim ignored hin).times,
        fun op hop link hlink content hcontent => ?_⟩
      obtain ⟨text, htext⟩ := hp.excerpts op hop link hlink content hcontent
      exact raises_of_ok htext
    · exact entry_valid hlogs hdb.head hroom.seq hw
    · have hp := hclean p rfl hchecked
      exact ⟨hp.proposalId, hp.idempotencyKey⟩
  cases ht : transaction reg c db (sha256Json (Proposal.codec.enc p)) (Proposal.codec.enc p) with
  | error e =>
    obtain ⟨o, code, he, hcode⟩ := hraise e ht
    have hr : rejectionOf c (sha256Json (Proposal.codec.enc p)) e =
        some ⟨sha256Json (Proposal.codec.enc p), o, code, some (proposalDecidedAt c)⟩ := by
      rw [rejectionOf, he]
      rfl
    obtain ⟨receipt, row, hrej, _⟩ := reject_total hc hdb hroom (rejectionOf_not_accepted hr)
      (decidedAt_encodes hjson)
    refine ⟨receipt, _, (commit_of_error hpre ht hr).trans hrej, fun t ht hmem => ?_⟩
    rw [(reject_receipt hrej).2, List.mem_singleton] at hmem
    rw [JsonOf.str.inj hmem, ReasonCode.malformed_iff] at ht
    exact absurd ht (by rw [hcode]; decide)
  | ok a =>
    rw [ht] at hcommit
    cases a with
    | replayed receipt =>
      obtain ⟨k, row, hk, hprior, _⟩ := transaction_replayed ht
      rw [hfresh.prior hk] at hprior
      cases hprior
    | accepted receipt db' =>
      obtain ⟨e, row, hacc, hrec, rfl⟩ := transaction_accepted.mp ht
      refine ⟨receipt, _, hcommit, fun t _ hmem => ?_⟩
      rw [accepted_receipt hacc hrec] at hmem
      exact absurd hmem List.not_mem_nil
    | keyReuse =>
      simp only [transaction, hkey, ok_bind, hfresh.prior hkey] at ht
      obtain ⟨e, _, ht⟩ := bind_eq_ok.mp ht
      obtain ⟨_, _, ht⟩ := bind_eq_ok.mp ht
      cases ht

/-! ### The law -/

/-- The proposal is looked at without an exception, and committed without one; where it has
no issue it is not refused as malformed, and where it has one it is refused. -/
def Predicts (schemaErrors : RawJson → List String) (reg : Registry) (db : Db) (c : Call) : Prop :=
  ∃ issues, validateProposalIssues schemaErrors reg c.proposal = .ok issues ∧
    ∃ receipt db', commit reg db c = .ok (receipt, db') ∧
      (issues = [] → ∀ t ∈ malformedTexts, .str t ∉ receipt.reasonCodes) ∧
      (issues ≠ [] → receipt.outcome = Outcome.validationError.text)

/-- The proposal has its versions where they are looked at, its receipt can be written, and it
encodes where it has no issue. -/
structure Foretold (schemaErrors : RawJson → List String) (reg : Registry) (c : Call) : Prop where
  named : NamesVersions schemaErrors reg c.proposal
  recordable : c.Recordable
  encodes : Passes schemaErrors reg c.proposal → c.proposal.toJson?.isSome = true

/-- A proposal that encodes to no value is refused as malformed. -/
theorem malformed_of_none (hnone : c.proposal.toJson? = none)
    (h : commit reg db c = .ok (receipt, db')) :
    ∃ t ∈ malformedTexts, .str t ∈ receipt.reasonCodes := by
  have hpre : ∃ r, preflight c = .ok (.refuse r) := by
    cases hp : preflight c with
    | error e =>
      rw [commit, hp] at h
      cases h
    | ok r =>
      cases r with
      | refuse r => exact ⟨r, rfl⟩
      | evaluate hash value =>
        obtain ⟨_, hjson, _⟩ := preflight_evaluate.mp hp
        rw [hnone] at hjson
        cases hjson
  obtain ⟨r, hpre⟩ := hpre
  rw [commit, hpre] at h
  refine ⟨r.reason.text, (ReasonCode.malformed_iff _).mpr (preflight_outcome hpre).2, ?_⟩
  rw [(reject_receipt h).2]
  exact List.mem_singleton_self _

/-- What is needed so that the validation predicts the commit. -/
theorem foretold_of_predicts {schemaErrors : RawJson → List String} (hfresh : c.Fresh db)
    (h : Predicts schemaErrors reg db c) : Foretold schemaErrors reg c := by
  obtain ⟨issues, hissues, receipt, db', hcommit, hnot, _⟩ := h
  obtain ⟨hnamed, hiff⟩ := validateProposalIssues_eq_ok hissues
  refine ⟨hnamed, ?_, fun hpasses => ?_⟩
  · refine (recordable_of_commit hcommit).resolve_right ?_
    rintro ⟨_, key, row, _, _, _, _, hkey, hprior, _⟩
    rw [hfresh.prior hkey] at hprior
    exact nomatch hprior
  · by_contra hnone
    rw [Bool.not_eq_true, Option.isSome_eq_false_iff, Option.isNone_iff_eq_none] at hnone
    obtain ⟨t, ht, hmem⟩ := malformed_of_none hnone hcommit
    exact hnot (hiff.mpr hpasses) t ht hmem

variable {ι : Type} [DecidableEq ι]

end

/-! ### A proposal with a lone surrogate -/

section

attribute [local instance] Host.utc

/-- Replace a member of a dict. -/
def withMember (k : String) (v : RawJson) : RawJson → RawJson
  | .obj ms => .obj (ms.map fun m => if m.1 = PyStr.ofString k then (m.1, v) else m)
  | other => other

/-- A question whose context is a lone surrogate, in a proposal that opens it. -/
def surrogateProposal : RawJson :=
  withMember "operations"
    (.arr [withMember "question"
      (withMember "context" (.str ⟨[0xD800]⟩) (NewOpenQuestion.codec.enc ownerQuestion).raw)
      (Operation.codec.enc (.openQuestion firstOperation ownerQuestion)).raw])
    (Proposal.codec.enc questionProposal).raw

/-- Errors for a value that encodes as the contract has them, and none for another. -/
def contractErrors (proposal : RawJson) : List String :=
  match proposal.toJson? with
  | some value => if (Proposal.codec.dec value).isSome then [] else ["$"]
  | none => []

theorem contractErrors_errors : SchemaErrors contractErrors := by
  intro proposal value hjson
  rw [contractErrors, hjson]
  dsimp only
  split
  · next h =>
    obtain ⟨p, hp⟩ := Option.isSome_iff_exists.mp h
    exact ⟨fun _ => ⟨p, Proposal.codec.dec_eq_some_iff.mp hp⟩, fun _ => rfl⟩
  · next h =>
    refine ⟨fun hnil => (nomatch hnil), fun ⟨p, hp⟩ => absurd ?_ h⟩
    rw [Proposal.codec.dec_eq_some_iff.mpr hp]
    rfl

theorem surrogate_none : surrogateProposal.toJson? = none := by decide

theorem surrogate_passes : Passes contractErrors ownerRegistry surrogateProposal := by
  have hone : ∀ {name expected : String},
      (version? surrogateProposal name).bind JsonOf.str? = some (PyStr.ofString expected) →
      ∃ version, version? surrogateProposal name = some version ∧
        version.str? = some (PyStr.ofString expected) :=
    fun h => Option.bind_eq_some_iff.mp h
  refine ⟨?_, ?_, ?_⟩
  · rw [proposalResourceIssue, if_neg (by decide), if_neg (by decide),
      surrogate_none]
  · rw [contractErrors, surrogate_none]
  · simp only [supported, ownerRegistry_hash, List.forall_mem_cons, List.not_mem_nil,
      false_imp_iff, implies_true, and_true]
    exact ⟨hone (by decide +kernel), hone (by decide +kernel), hone (by decide +kernel),
      hone (by decide +kernel), hone (by decide +kernel), hone (by decide +kernel)⟩

end

end SharedMind
