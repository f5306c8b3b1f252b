import SharedMind.Remote.Label
import SharedMind.Remote.Returned

/-!
# Deny by default

`Admitted` says which requests a policy lets through, in the words of the policy.

* `allows_iff`: the checks let through what is authorized and asks for listed fields only,
  of the fields it asks for by name.
* `denies_by_default`: a request is decided as `Admitted` says exactly when the strings its
  decision repeats encode, and no request is authorized that asks for what is no name.
-/

namespace SharedMind.Remote

open Py

/-! ### What is let through -/

/-- The label that prefixes the reference and that no longer one does. -/
def IsLongestPrefix (policy : Policy) (ref : PyStr) (label : SourceRoot) : Prop :=
  label ∈ policy.sourceLabels ∧ ref.StartsWith label.sourceRoot ∧
    ∀ other ∈ policy.sourceLabels, ref.StartsWith other.sourceRoot →
      other.sourceRoot.length ≤ label.sourceRoot.length

/-- What the policy pins a request to, by the name of the member. -/
def pinned (policy : Policy) : List (String × String) :=
  [("request_version", "remote-policy-request@1"), ("endpoint_id", policy.endpointPin.endpointId),
    ("protocol_version", policy.endpointPin.protocolVersion),
    ("adapter_version", policy.endpointPin.adapterVersion),
    ("registry_version", policy.registryVersion)]

/-- The request is authorized under the scope, whatever fields it asks for. -/
structure Authorized (policy : Policy) (request binding : RawJson) (scope : CapabilityScope) :
    Prop where
  versions : ∀ pin ∈ pinned policy, member request pin.1 = .str (.ofString pin.2)
  /-- The binding is one of the policy's, claimed by the request and listed by the scope. -/
  trusted : ∃ b ∈ policy.trustBindings,
    (∀ field ∈ b.fields, member binding field.1 = .str (.ofString field.2)) ∧
      member request "claimed_actor_id" = .str (.ofString b.actorId) ∧ b.actorId ∈ scope.actorIds
  capability : scope ∈ policy.capabilityScopes ∧
    member request "capability" = .str (.ofString scope.capability)
  operation : ∃ op ∈ scope.operationTypes, member request "operation_type" = .str (.ofString op)
  /-- The reference is safe, under a root of the scope, and of a sensitivity it allows. -/
  source : ∃ ref, member request "source_ref" = .str ref ∧ sourceRefIsSafe ref = true ∧
    (∃ root ∈ scope.sourceRoots, ref.StartsWith root) ∧
    ∃ label, IsLongestPrefix policy ref label ∧ label.sensitivity ∈ scope.allowedSensitivities

/-- The requested fields are strings, some and all of them listed. -/
def RequestsListed (scope : CapabilityScope) (request : RawJson) : Prop :=
  ∃ items, member request "requested_fields" = .arr items ∧ items ≠ [] ∧
    ∀ item ∈ items, ∃ field ∈ scope.allowFields, item = .str (.ofString field)

/-- What the policy lets through. -/
def Admitted (policy : Policy) (request binding : RawJson) : Prop :=
  ∃ scope, Authorized policy request binding scope ∧ RequestsListed scope request

/-! ### Policies that were checked -/

theorem checkItems_forall {α : Type} {check : Nat → Json → Checked α} {P : α → Prop}
    (hcheck : ∀ i v a, check i v = .ok a → P a) {items : List Json} {as : List α}
    (h : checkItems check items = .ok as) : ∀ a ∈ as, P a := by
  rw [checkItems] at h
  revert h
  generalize items.zipIdx = numbered
  intro h
  induction numbered generalizing as with
  | nil =>
    rw [List.mapM_nil, pure_eq_ok] at h
    subst h
    exact fun a ha => absurd ha List.not_mem_nil
  | cons item rest ih =>
    simp only [List.mapM_cons, bind_eq_ok, pure_eq_ok] at h
    obtain ⟨b, hb, bs, hbs, rfl⟩ := h
    rw [List.forall_mem_cons]
    exact ⟨hcheck _ _ _ hb, ih hbs⟩

theorem requireNonEmptyString_ok {document : Json} {field context s : String}
    (h : requireNonEmptyString document field context = .ok s) : isNonEmpty s = true := by
  rw [requireNonEmptyString] at h
  split at h
  · split at h
    · next hs => exact Except.ok.inj h ▸ hs
    · exact nomatch h
  · exact nomatch h

theorem validateTrustBinding_ok {index : Nat} {binding : Json} {b : TrustBinding}
    (h : validateTrustBinding index binding = .ok b) :
    ∀ field ∈ b.fields, isNonEmpty field.2 = true := by
  simp only [validateTrustBinding, bind_eq_ok, pure_eq_ok] at h
  obtain ⟨id, hid, issuer, hissuer, subject, hsubject, actor, hactor, rfl⟩ := h
  simp only [TrustBinding.fields, List.forall_mem_cons]
  exact ⟨requireNonEmptyString_ok hid, requireNonEmptyString_ok hissuer,
    requireNonEmptyString_ok hsubject, requireNonEmptyString_ok hactor,
    fun _ h => absurd h List.not_mem_nil⟩

/-- A checked policy has no empty trust field. -/
theorem validatePolicy_trustBindings [NetlocCheck] {document : Json} {policy : Policy}
    (h : validatePolicy document = .ok policy) :
    ∀ b ∈ policy.trustBindings, ∀ field ∈ b.fields, isNonEmpty field.2 = true := by
  simp only [validatePolicy, bind_eq_ok] at h
  obtain ⟨_, _, _, _, _, _, _, _, _, _, _, _, _, _, _, _, _, _, _, _, bindings, hbindings, h⟩ := h
  obtain ⟨_, _, _, _, _, _, _, _, _, _, _, _, h⟩ := h
  split at h
  · rw [pure_eq_ok] at h
    subst h
    exact checkItems_forall (fun _ _ _ => validateTrustBinding_ok) hbindings
  · cases h

/-! ### What the checks let through -/

theorem isNonEmptyValue_ofString {s : String} (h : isNonEmpty s = true) :
    isNonEmptyValue (.str (.ofString s)) = true := by
  simp only [isNonEmpty, List.any_eq_true] at h
  obtain ⟨c, hc, hspace⟩ := h
  simp only [isNonEmptyValue, PyStr.ofString, List.any_map, List.any_eq_true, Function.comp_apply]
  refine ⟨c, hc, ?_⟩
  rw [PyStr.toChar?_ofChar]
  exact hspace

section

variable {policy : Policy} {request binding : RawJson} {scope : CapabilityScope}

theorem isText_iff {value : RawJson} {text : String} :
    IsText value text ↔ value = .str (.ofString text) := by
  rw [IsText]
  cases value <;> simp [JsonOf.pyEq]

theorem stringMember_eq_some {key : String} {s : PyStr} :
    stringMember request key = some s ↔ member request key = .str s := by
  rw [stringMember]
  cases member request key <;> simp [JsonOf.str?]

theorem matches_iff {b : TrustBinding} : b.Matches binding ↔
    ∀ field ∈ b.fields, member binding field.1 = .str (.ofString field.2) :=
  forall₂_congr fun _ _ => isText_iff

/-- The binding that is given names the one it is. -/
theorem trustedBinding_eq_some {b : TrustBinding}
    (hbindings : ∀ b ∈ policy.trustBindings, ∀ field ∈ b.fields, isNonEmpty field.2 = true) :
    trustedBinding policy binding = some b ↔ b ∈ policy.trustBindings ∧ b.Matches binding := by
  constructor
  · intro h
    have hobj : ∃ members, binding = .obj members := by
      cases binding <;> first | exact ⟨_, rfl⟩ | exact nomatch h
    obtain ⟨members, rfl⟩ := hobj
    rw [trustedBinding] at h
    split at h
    · exact ⟨List.mem_of_find?_eq_some h, by simpa using List.find?_some h⟩
    · exact nomatch h
  · rintro ⟨hb, hmatches⟩
    have hfields := matches_iff.mp hmatches
    have hobj : ∃ members, binding = .obj members := by
      have hid := hfields _ List.mem_cons_self
      cases binding <;> first | exact ⟨_, rfl⟩ | exact nomatch hid
    obtain ⟨members, rfl⟩ := hobj
    have hnonEmpty : (trustFields.all fun field => isNonEmptyValue (member (.obj members) field))
        = true := by
      rw [List.all_eq_true]
      intro name hname
      obtain ⟨field, hfield, rfl⟩ := List.mem_map.mp (show name ∈ b.fields.map Prod.fst from hname)
      rw [hfields field hfield]
      exact isNonEmptyValue_ofString (hbindings b hb field hfield)
    rw [trustedBinding, if_pos hnonEmpty]
    cases hfind : policy.trustBindings.find? fun b => b.Matches (.obj members) with
    | none => exact absurd hmatches (by simpa using List.find?_eq_none.mp hfind b hb)
    | some b' =>
      have hid := hfields _ List.mem_cons_self
      have hid' := matches_iff.mp (by simpa using List.find?_some hfind) _ List.mem_cons_self
      have hsame := PyStr.ofString_injective (JsonOf.str.inj (hid'.symm.trans hid))
      rw [List.inj_on_of_nodup_map policy.valid.bindingIds (List.mem_of_find?_eq_some hfind) hb hsame]

/-- The capability names its scope. -/
theorem capabilityScope_eq_some :
    capabilityScope policy (stringMember request "capability") = some scope ↔
      scope ∈ policy.capabilityScopes ∧
        member request "capability" = .str (.ofString scope.capability) := by
  rw [← stringMember_eq_some, capabilityScope]
  constructor
  · intro h
    have hname := List.find?_some h
    rw [decide_eq_true_eq] at hname
    exact ⟨List.mem_of_find?_eq_some h, hname.symm⟩
  · rintro ⟨hscope, hcapability⟩
    rw [hcapability]
    cases hfind : policy.capabilityScopes.find? fun s =>
        some (.ofString s.capability) = some (PyStr.ofString scope.capability) with
    | none => exact absurd (decide_eq_true rfl) (List.find?_eq_none.mp hfind scope hscope)
    | some scope' =>
      have hname := List.find?_some hfind
      rw [decide_eq_true_eq, Option.some.injEq] at hname
      rw [List.inj_on_of_nodup_map policy.valid.capabilities (List.mem_of_find?_eq_some hfind) hscope
        (PyStr.ofString_injective hname)]

theorem label_allowed {ref : PyStr} (hsafe : sourceRefIsSafe ref = true) :
    ((sourceLabel policy (some ref)).sourceRoot ≠ none ∧
      ∃ sensitivity ∈ (sourceLabel policy (some ref)).sensitivity,
        sensitivity ∈ scope.allowedSensitivities) ↔
      ∃ label, IsLongestPrefix policy ref label ∧
        label.sensitivity ∈ scope.allowedSensitivities := by
  simp only [IsLongestPrefix, ← matchedLabel_eq_some_iff]
  simp only [sourceLabel, if_pos hsafe]
  cases matchedLabel policy ref <;> simp [SourceLabel.none]

theorem source_allowed : (SourceIsAllowed scope (stringMember request "source_ref") ∧
    (sourceLabel policy (stringMember request "source_ref")).sourceRoot ≠ none ∧
      ∃ sensitivity ∈ (sourceLabel policy (stringMember request "source_ref")).sensitivity,
        sensitivity ∈ scope.allowedSensitivities) ↔
    ∃ ref, member request "source_ref" = .str ref ∧ sourceRefIsSafe ref = true ∧
      (∃ root ∈ scope.sourceRoots, ref.StartsWith root) ∧
      ∃ label, IsLongestPrefix policy ref label ∧
        label.sensitivity ∈ scope.allowedSensitivities := by
  constructor
  · rintro ⟨⟨ref, href, hsafe, hroot⟩, hlabel⟩
    rw [Option.mem_def] at href
    rw [href, label_allowed hsafe] at hlabel
    exact ⟨ref, stringMember_eq_some.mp href, hsafe, hroot, hlabel⟩
  · rintro ⟨ref, href, hsafe, hroot, hlabel⟩
    rw [← stringMember_eq_some] at href
    rw [href, label_allowed hsafe]
    exact ⟨⟨ref, rfl, hsafe, hroot⟩, hlabel⟩

/-- **What the checks let through.** -/
theorem allows_iff
    (hbindings : ∀ b ∈ policy.trustBindings, ∀ field ∈ b.fields, isNonEmpty field.2 = true) :
    denialReason policy request binding = none ↔
      ∃ scope, Authorized policy request binding scope ∧ DisclosureIsAllowed scope request := by
  simp only [denialReason_eq_none, scopeReason_eq_none, trustedBinding_eq_some hbindings,
    capabilityScope_eq_some, isText_iff, matches_iff]
  constructor
  · rintro ⟨hversion, b, ⟨hb, hmatches⟩, hclaimed, hendpoint, hprotocol, hadapter, hregistry, scope,
      hscope, hoperation, hactor, hsource, hroot, hsensitivity, hdisclosure⟩
    refine ⟨scope, ⟨?_, ⟨b, hb, hmatches, hclaimed, hactor⟩, hscope, hoperation,
      source_allowed.mp ⟨hsource, hroot, hsensitivity⟩⟩, hdisclosure⟩
    simp only [pinned, List.forall_mem_cons]
    exact ⟨hversion, hendpoint, hprotocol, hadapter, hregistry, fun _ h => absurd h List.not_mem_nil⟩
  · rintro ⟨scope, ⟨hversions, ⟨b, hb, hmatches, hclaimed, hactor⟩, hscope, hoperation, hsource⟩,
      hdisclosure⟩
    simp only [pinned, List.forall_mem_cons] at hversions
    obtain ⟨hversion, hendpoint, hprotocol, hadapter, hregistry, _⟩ := hversions
    obtain ⟨hallowed, hroot, hsensitivity⟩ := source_allowed.mpr hsource
    exact ⟨hversion, b, ⟨hb, hmatches⟩, hclaimed, hendpoint, hprotocol, hadapter, hregistry, scope,
      hscope, hoperation, hactor, hallowed, hroot, hsensitivity, hdisclosure⟩

end

/-! ### Deny by default -/

/-- Every field that is requested is a string. -/
def OnlyStrings (request : RawJson) : Prop :=
  ∀ items, member request "requested_fields" = .arr items → ∀ item ∈ items, ∃ s, item = .str s

section

variable {policy : Policy} {request binding : RawJson} {scope : CapabilityScope}

/-- What is listed is what the checks let through, if it is strings. -/
theorem requestsListed_iff :
    RequestsListed scope request ↔ DisclosureIsAllowed scope request ∧ OnlyStrings request := by
  constructor
  · rintro ⟨items, hitems, hne, hlisted⟩
    have hvalues : ∀ s, s ∈ requestedFields request ↔ .str s ∈ items := by
      intro s
      rw [requestedFields, hitems, stringValues, List.mem_filterMap]
      constructor
      · rintro ⟨item, hitem, hs⟩
        obtain ⟨f, _, rfl⟩ := hlisted item hitem
        exact Option.some.inj hs ▸ hitem
      · exact fun h => ⟨_, h, rfl⟩
    refine ⟨⟨?_, fun s hs => ?_⟩, fun items' hitems' item hitem => ?_⟩
    · obtain ⟨item, rest, rfl⟩ := List.exists_cons_of_ne_nil hne
      obtain ⟨f, _, rfl⟩ := hlisted item List.mem_cons_self
      exact List.ne_nil_of_mem ((hvalues _).mpr List.mem_cons_self)
    · obtain ⟨f, hf, heq⟩ := hlisted _ ((hvalues s).mp hs)
      exact List.mem_map.mpr ⟨f, hf, (JsonOf.str.inj heq).symm⟩
    · rw [hitems] at hitems'
      obtain ⟨f, _, rfl⟩ := hlisted item (JsonOf.arr.inj hitems' ▸ hitem)
      exact ⟨_, rfl⟩
  · rintro ⟨⟨hne, hlisted⟩, hstrings⟩
    have hitems : ∃ items, member request "requested_fields" = .arr items := by
      rw [requestedFields] at hne
      cases hmember : member request "requested_fields" with
      | arr items => exact ⟨items, rfl⟩
      | _ => rw [hmember] at hne; exact absurd rfl hne
    obtain ⟨items, hitems⟩ := hitems
    refine ⟨items, hitems, ?_, fun item hitem => ?_⟩
    · rintro rfl
      rw [requestedFields, hitems] at hne
      exact hne rfl
    · obtain ⟨s, rfl⟩ := hstrings items hitems item hitem
      have hs : s ∈ requestedFields request := by
        rw [requestedFields, hitems, stringValues, List.mem_filterMap]
        exact ⟨_, hitem, rfl⟩
      obtain ⟨f, hf, rfl⟩ := List.mem_map.mp (hlisted s hs)
      exact ⟨f, hf, rfl⟩

end

theorem outcome_eq_allow {a : Audit} : a.outcome = .allow ↔ a.reason = none := by
  rw [Audit.outcome]
  cases a.reason <;> simp

theorem outcome_eq_deny {a : Audit} : a.outcome = .deny ↔ a.reason.isSome := by
  rw [Audit.outcome]
  cases a.reason <;> simp

/-- The request gets a decision that verifies, allows it exactly when it is admitted, and
discloses what the scope says of it, or nothing. -/
def DecidedAsSaid (compiled : CompiledPolicy) (request binding : RawJson) : Prop :=
  ∃ d, evaluateRequest compiled request binding = .ok d ∧
    (∃ document, d.asDict = .ok document) ∧
    (d.audit.outcome = .allow ↔ Admitted compiled.policy request binding) ∧
    (d.audit.outcome = .allow → ∃ scope, Authorized compiled.policy request binding scope ∧
      d.audit.disclosure.redactedPaths.Perm
        (scope.redactPaths.filter fun path => rootField path ∈ requestedFields request)) ∧
    (d.audit.outcome = .deny → d.audit.disclosure = ⟨[], []⟩)

section

variable [NetlocCheck] {raw : RawJson} {compiled : CompiledPolicy} {request binding : RawJson}

theorem audit_allows (hcompiled : compilePolicy raw = .ok compiled) :
    (auditOf compiled request binding).outcome = .allow ↔
      ∃ scope, Authorized compiled.policy request binding scope ∧
        DisclosureIsAllowed scope request := by
  obtain ⟨_, _, hvalid, _⟩ := compilePolicy_eq_ok.mp hcompiled
  rw [outcome_eq_allow, ← allows_iff (validatePolicy_trustBindings hvalid)]
  rfl

/-- What an allowed request is told of redactions. -/
theorem audit_redacts (hcompiled : compilePolicy raw = .ok compiled)
    (h : (auditOf compiled request binding).outcome = .allow) :
    ∃ scope, Authorized compiled.policy request binding scope ∧
      (auditOf compiled request binding).disclosure.redactedPaths.Perm
        (scope.redactPaths.filter fun path => rootField path ∈ requestedFields request) := by
  obtain ⟨scope, hauthorized, _⟩ := (audit_allows hcompiled).mp h
  refine ⟨scope, hauthorized, ?_⟩
  have hreason : denialReason compiled.policy request binding = none := outcome_eq_allow.mp h
  simp only [auditOf, hreason, capabilityScope_eq_some.mpr hauthorized.capability]
  exact List.perm_insertionSort _ _

/-- **A request is decided as the policy says**, exactly when the strings its decision
repeats encode and, if it is authorized and the strings it asks for are listed, it asks for
strings only. -/
theorem denies_by_default (hcompiled : compilePolicy raw = .ok compiled) :
    DecidedAsSaid compiled request binding ↔ Encodes request ∧
      ∀ scope, Authorized compiled.policy request binding scope →
        DisclosureIsAllowed scope request → OnlyStrings request := by
  obtain ⟨_, _, _, hhash⟩ := compilePolicy_eq_ok.mp hcompiled
  constructor
  · rintro ⟨d, hd, _, hallow, _⟩
    refine ⟨(evaluateRequest_returns hhash).mp ⟨d, hd⟩, fun scope hauthorized hdisclosure => ?_⟩
    rw [((evaluateRequest_eq_ok hhash).mp hd).1] at hallow
    obtain ⟨scope', _, hlisted⟩ := hallow.mp ((audit_allows hcompiled).mpr ⟨scope, hauthorized, hdisclosure⟩)
    exact (requestsListed_iff.mp hlisted).2
  · rintro ⟨hencodes, hstrings⟩
    obtain ⟨d, hd⟩ := (@evaluateRequest_returns _ _ binding hhash).mpr hencodes
    obtain ⟨haudit, hdigest⟩ := (evaluateRequest_eq_ok hhash).mp hd
    refine ⟨d, hd, asDict_of_returned hdigest, ?_, ?_, ?_⟩
    · rw [haudit, audit_allows hcompiled]
      constructor
      · rintro ⟨scope, hauthorized, hdisclosure⟩
        exact ⟨scope, hauthorized,
          requestsListed_iff.mpr ⟨hdisclosure, hstrings scope hauthorized hdisclosure⟩⟩
      · rintro ⟨scope, hauthorized, hlisted⟩
        exact ⟨scope, hauthorized, (requestsListed_iff.mp hlisted).1⟩
    · rw [haudit]
      exact audit_redacts hcompiled
    · rw [haudit, outcome_eq_deny]
      exact fun hreason => if_pos hreason

end

section

attribute [local instance] noBrackets

/-- A request for two titles of one source, named by what does not encode. -/
def surrogateRequest : RawJson :=
  cornerRequest ⟨[0xD800]⟩ [.str (.ofString "title")] (.ofString "kb://h/x")

/-- A request for the title and for a number. -/
def mixedRequest : RawJson :=
  cornerRequest (.ofString "r") [.str (.ofString "title"), .num (.int 5)] (.ofString "kb://h/x")

/-- **A name that does not encode raises, and what is no name is allowed.** -/
theorem surrogate_raises : ∃ compiled, compilePolicy cornerPolicy.raw = .ok compiled ∧
    evaluateRequest compiled surrogateRequest cornerBinding = .error .unicodeEncodeError ∧
    ¬DecidedAsSaid compiled surrogateRequest cornerBinding ∧
    ¬DecidedAsSaid compiled mixedRequest cornerBinding := by
  obtain ⟨policy, hcompiled, hmixed⟩ := compile_corner (P := fun policy =>
    denialReason policy mixedRequest cornerBinding = none) (by decide)
  have hraises := @evaluateRequest_raises ⟨cornerPolicy, sha256Json cornerPolicy, policy⟩
    surrogateRequest cornerBinding rfl (by rw [Encodes]; decide)
  refine ⟨_, hcompiled, hraises, ?_, ?_⟩
  · rintro ⟨d, hd, _⟩
    cases hraises.symm.trans hd
  rintro ⟨d, hd, _, hallow, _⟩
  rw [((evaluateRequest_eq_ok rfl).mp hd).1, outcome_eq_allow] at hallow
  obtain ⟨_, _, hlisted⟩ := hallow.mp hmixed
  have hitems : member mixedRequest "requested_fields" =
    .arr [.str (.ofString "title"), .num (.int 5)] := by rfl
  obtain ⟨s, hs⟩ := (requestsListed_iff.mp hlisted).2 _ hitems (.num (.int 5)) (by simp)
  cases hs

theorem denies_by_default_corner : ∃ compiled, compilePolicy cornerPolicy.raw = .ok compiled ∧
    let request := cornerRequest (.ofString "r") [.str (.ofString "title")] (.ofString "kb://h/x")
    (DecidedAsSaid compiled request cornerBinding ↔ Encodes request ∧
      ∀ scope, Authorized compiled.policy request cornerBinding scope →
        DisclosureIsAllowed scope request → OnlyStrings request) := by
  obtain ⟨policy, hcompiled, _⟩ := compile_corner (P := fun _ => True) (by decide)
  exact ⟨_, hcompiled, denies_by_default hcompiled⟩

end

end SharedMind.Remote
