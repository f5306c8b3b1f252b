import SharedMind.Remote.Decision

/-!
# What a request gets back

A decision repeats three strings of the request, and a policy has no string that does not
encode; so what is returned is told by those three.

* `denialReason_eq_none`: the checks a request has passed that is not denied.
* `evaluateRequest_eq_ok`: a decision comes back exactly when the three strings encode.
* `asDict_of_returned`: a decision that came back verifies.
* `cornerPolicy`: a policy whose one root has a restricted root below it.
-/

namespace SharedMind.Remote

open Py

/-! ### Passing the checks -/

section

variable {policy : Policy} {request binding : RawJson} {trusted : TrustBinding}

theorem scopeReason_eq_none {scope : Option CapabilityScope} {sourceRef : Option PyStr}
    {label : SourceLabel} :
    scopeReason request trusted scope sourceRef label = none ↔ ∃ s, scope = some s ∧
      (∃ op ∈ s.operationTypes, IsText (member request "operation_type") op) ∧
      trusted.actorId ∈ s.actorIds ∧ SourceIsAllowed s sourceRef ∧ label.sourceRoot ≠ none ∧
      (∃ sensitivity ∈ label.sensitivity, sensitivity ∈ s.allowedSensitivities) ∧
      DisclosureIsAllowed s request := by
  cases scope with
  | none => simp [scopeReason]
  | some s =>
    simp only [scopeReason, ite_not, Option.some.injEq, exists_eq_left']
    constructor
    · intro h
      split_ifs at h with hop hactor hsource hsensitivity hdisclosure
      rw [not_or, not_not] at hsource
      exact ⟨hop, hactor, hsource.1, hsource.2, hsensitivity, hdisclosure⟩
    · rintro ⟨hop, hactor, hsource, hroot, hsensitivity, hdisclosure⟩
      rw [if_pos hop, if_pos hactor, if_neg (by simp [hsource, hroot]),
        if_pos hsensitivity, if_pos hdisclosure]

/-- The checks of a request that is not denied. -/
theorem denialReason_eq_none : denialReason policy request binding = none ↔
    IsText (member request "request_version") "remote-policy-request@1" ∧
    ∃ trusted, trustedBinding policy binding = some trusted ∧
      IsText (member request "claimed_actor_id") trusted.actorId ∧
      IsText (member request "endpoint_id") policy.endpointPin.endpointId ∧
      IsText (member request "protocol_version") policy.endpointPin.protocolVersion ∧
      IsText (member request "adapter_version") policy.endpointPin.adapterVersion ∧
      IsText (member request "registry_version") policy.registryVersion ∧
      scopeReason request trusted (capabilityScope policy (stringMember request "capability"))
        (stringMember request "source_ref")
        (sourceLabel policy (stringMember request "source_ref")) = none := by
  simp only [denialReason]
  by_cases hversion : IsText (member request "request_version") "remote-policy-request@1"
  · rw [if_neg (not_not.mpr hversion)]
    cases htrusted : trustedBinding policy binding with
    | none => cases binding <;> simp
    | some trusted =>
      have hobj : ∃ members, binding = .obj members := by
        cases binding <;> first | exact ⟨_, rfl⟩ | exact nomatch htrusted
      obtain ⟨members, rfl⟩ := hobj
      simp only [hversion, true_and, Option.some.injEq, exists_eq_left', ite_not]
      constructor
      · intro h
        split_ifs at h with hclaimed hendpoint hpins hregistry
        rw [not_or, not_not, not_not] at hpins
        exact ⟨hclaimed, hendpoint, hpins.1, hpins.2, hregistry, h⟩
      · rintro ⟨hclaimed, hendpoint, hprotocol, hadapter, hregistry, h⟩
        rw [if_pos hclaimed, if_pos hendpoint, if_neg (by simp [hprotocol, hadapter]),
          if_pos hregistry, h]
  · rw [if_pos hversion]
    simp [hversion]

end

/-! ### What encodes -/

/-- The strings of a request that its decision repeats encode. -/
def Encodes (request : RawJson) : Prop :=
  ∀ field ∈ ["request_id", "capability", "operation_type"],
    ∀ s ∈ stringMember request field, s.toString?.isSome

/-- A raw value that has a JSON text. -/
def Encodable (value : RawJson) : Prop := value.toJson?.isSome

section

variable {s : String} {t : PyStr} {items : List RawJson} {members : List (PyStr × RawJson)}

@[simp] theorem encodable_null : Encodable .null := rfl

@[simp] theorem encodable_str : Encodable (.str t) ↔ t.toString?.isSome := by
  rw [Encodable, JsonOf.toJson?, Option.isSome_map]

@[simp] theorem encodable_arr : Encodable (.arr items) ↔ ∀ v ∈ items, Encodable v :=
  JsonOf.toJson?_arr_isSome

@[simp] theorem encodable_obj :
    Encodable (.obj members) ↔ ∀ m ∈ members, m.1.toString?.isSome ∧ Encodable m.2 :=
  JsonOf.toJson?_obj_isSome

@[simp] theorem isSome_toString?_ofString : (PyStr.ofString s).toString?.isSome := by
  rw [PyStr.toString?_ofString]
  rfl

@[simp] theorem encodable_text : Encodable (Audit.text s) := by simp [Audit.text]

@[simp] theorem encodable_optionalText {o : Option String} : Encodable (Audit.optionalText o) := by
  cases o <;> simp [Audit.optionalText]

@[simp] theorem encodable_optional {o : Option PyStr} :
    Encodable (Audit.optional o) ↔ ∀ s ∈ o, s.toString?.isSome := by
  cases o <;> simp [Audit.optional]

end

/-- The audit document encodes when what it takes from the request does. -/
theorem encodable_members {a : Audit} : Encodable (.obj a.members) ↔
    (∀ s ∈ a.requestId, s.toString?.isSome) ∧ (∀ s ∈ a.capability, s.toString?.isSome) ∧
      (∀ s ∈ a.operationType, s.toString?.isSome) ∧
      ∀ field ∈ a.disclosure.allowedFields, field.toString?.isSome := by
  simp only [Audit.members, encodable_obj, List.forall_mem_map, List.forall_mem_cons,
    isSome_toString?_ofString, true_and, encodable_text, encodable_optional,
    encodable_optionalText, encodable_arr, encodable_str]
  simp

/-! ### What comes back -/

section

variable {compiled : CompiledPolicy} {request binding : RawJson} {d : RemoteDecision}

/-- What is disclosed are names the policy lists. -/
theorem allowedFields_listed {field : PyStr}
    (h : field ∈ (auditOf compiled request binding).disclosure.allowedFields) :
    ∃ scope ∈ compiled.policy.capabilityScopes, ∃ f ∈ scope.allowFields, field = .ofString f := by
  simp only [auditOf] at h
  split at h
  · exact absurd h List.not_mem_nil
  · next hreason =>
    rw [Option.not_isSome_iff_eq_none, denialReason_eq_none] at hreason
    obtain ⟨_, _, _, _, _, _, _, _, hscope⟩ := hreason
    obtain ⟨scope, hfind, _, _, _, _, _, hdisclosure⟩ := scopeReason_eq_none.mp hscope
    rw [hfind] at h
    have hfield := hdisclosure.2 field (mem_sortedSet.mp h)
    obtain ⟨f, hf, rfl⟩ := List.mem_map.mp hfield
    exact ⟨scope, List.mem_of_find?_eq_some hfind, f, hf, rfl⟩

theorem encodable_audit : Encodable (.obj (auditOf compiled request binding).members) ↔
    Encodes request := by
  have hfields : ∀ field ∈ (auditOf compiled request binding).disclosure.allowedFields,
      field.toString?.isSome := by
    intro field hfield
    obtain ⟨_, _, f, _, rfl⟩ := allowedFields_listed hfield
    exact isSome_toString?_ofString
  rw [encodable_members]
  simp only [Encodes, List.forall_mem_cons]
  constructor
  · rintro ⟨hid, hcapability, hoperation, _⟩
    exact ⟨hid, hcapability, hoperation, fun _ h => absurd h List.not_mem_nil⟩
  · rintro ⟨hid, hcapability, hoperation, _⟩
    exact ⟨hid, hcapability, hoperation, hfields⟩

theorem toString?_of_decisionDigest {members : List (PyStr × RawJson)} {digest : PyStr}
    (h : decisionDigest members = .ok digest) : digest.toString?.isSome := by
  rw [decisionDigest] at h
  cases hdocument : (JsonOf.obj members).toJson? with
  | none => rw [hdocument] at h; exact nomatch h
  | some document =>
    rw [hdocument] at h
    rw [← Except.ok.inj h]
    exact isSome_toString?_ofString

theorem decisionDigest_eq_ok {members : List (PyStr × RawJson)} :
    (∃ digest, decisionDigest members = .ok digest) ↔ Encodable (.obj members) := by
  rw [Encodable, decisionDigest]
  cases (JsonOf.obj members).toJson? with
  | none => exact iff_of_false (fun ⟨_, h⟩ => nomatch h) Bool.false_ne_true
  | some document => exact iff_of_true ⟨_, rfl⟩ rfl

/-- **A decision comes back exactly when the strings it repeats encode.** -/
theorem evaluateRequest_eq_ok (hhash : sha256Json compiled.document = compiled.policyHash) :
    evaluateRequest compiled request binding = .ok d ↔
      d.audit = auditOf compiled request binding ∧
        decisionDigest d.audit.members = .ok d.decisionId := by
  rw [evaluateRequest, ensure, if_pos hhash]
  obtain ⟨audit, decisionId⟩ := d
  cases hdigest : decisionDigest (auditOf compiled request binding).members with
  | error e =>
    refine iff_of_false (fun h => ?_) ?_
    · simp only [hdigest] at h
      cases h
    · rintro ⟨rfl, h⟩
      cases hdigest.symm.trans h
  | ok digest =>
    constructor
    · intro h
      simp only [hdigest] at h
      cases h
      exact ⟨rfl, hdigest⟩
    · rintro ⟨rfl, h⟩
      cases hdigest.symm.trans h
      simp only [hdigest]
      rfl

theorem evaluateRequest_returns (hhash : sha256Json compiled.document = compiled.policyHash) :
    (∃ d, evaluateRequest compiled request binding = .ok d) ↔ Encodes request := by
  rw [← @encodable_audit compiled _ binding, ← decisionDigest_eq_ok]
  constructor
  · rintro ⟨d, h⟩
    obtain ⟨haudit, hdigest⟩ := (evaluateRequest_eq_ok hhash).mp h
    exact ⟨d.decisionId, haudit ▸ hdigest⟩
  · rintro ⟨digest, h⟩
    exact ⟨⟨auditOf compiled request binding, digest⟩, (evaluateRequest_eq_ok hhash).mpr ⟨rfl, h⟩⟩

theorem evaluateRequest_map {α : Type} {f : Audit → α} (request binding : RawJson)
    (hhash : sha256Json compiled.document = compiled.policyHash) (h : Encodes request) :
    (evaluateRequest compiled request binding).map (fun d => f d.audit) =
      .ok (f (auditOf compiled request binding)) := by
  obtain ⟨d, hd⟩ := (@evaluateRequest_returns _ _ binding hhash).mpr h
  rw [hd, Except.map, ((evaluateRequest_eq_ok hhash).mp hd).1]

/-- What does not encode fails the digest. -/
theorem evaluateRequest_raises (hhash : sha256Json compiled.document = compiled.policyHash)
    (h : ¬Encodes request) :
    evaluateRequest compiled request binding = .error .unicodeEncodeError := by
  rw [← @encodable_audit compiled _ binding, Encodable,
    Option.not_isSome_iff_eq_none] at h
  simp only [evaluateRequest, ensure, if_pos hhash, decisionDigest, h, orRaise]
  rfl

theorem members_ne_decisionId (a : Audit) : ∀ m ∈ a.members, m.1 ≠ .ofString "decision_id" := by
  intro m hm heq
  obtain ⟨n, hn, rfl⟩ := List.mem_map.mp hm
  have hname : n.1 = "decision_id" := PyStr.ofString_injective heq
  simp only [List.mem_cons, List.not_mem_nil, or_false] at hn
  rcases hn with rfl | rfl | rfl | rfl | rfl | rfl | rfl | rfl | rfl | rfl | rfl | rfl | rfl <;>
    simp at hname

/-- **A decision that came back verifies.** -/
theorem asDict_of_returned (hdigest : decisionDigest d.audit.members = .ok d.decisionId) :
    ∃ document, d.asDict = .ok document := by
  have hpayload : (d.members.filter fun m => m.1 ≠ .ofString "decision_id") = d.audit.members := by
    rw [RemoteDecision.members, List.filter_append, List.filter_eq_self.mpr, List.filter_cons_of_neg]
    · simp
    · simp
    · simpa using members_ne_decisionId d.audit
  have hmember : member (.obj d.members) "decision_id" = .str d.decisionId := by
    rw [member, RemoteDecision.members, JsonOf.get?_obj_append, if_pos rfl]
    rfl
  have hencodes : Encodable (.obj d.members) := by
    have haudit := encodable_obj.mp (decisionDigest_eq_ok.mp ⟨_, hdigest⟩)
    rw [encodable_obj, RemoteDecision.members, List.forall_mem_append, List.forall_mem_singleton]
    refine ⟨haudit, isSome_toString?_ofString, ?_⟩
    rw [encodable_str]
    exact toString?_of_decisionDigest hdigest
  rw [RemoteDecision.asDict]
  obtain ⟨document, hdocument⟩ := Option.isSome_iff_exists.mp hencodes
  refine ⟨document, ?_⟩
  simp only [hpayload, hdigest, hmember, JsonOf.pyEq_refl, if_true, hdocument]
  rfl

end

theorem compilePolicy_eq_ok [NetlocCheck] {raw : RawJson} {compiled : CompiledPolicy} :
    compilePolicy raw = .ok compiled ↔ raw.toJson? = some compiled.document ∧
      finiteJson compiled.document = true ∧ validatePolicy compiled.document = .ok compiled.policy ∧
      sha256Json compiled.document = compiled.policyHash := by
  obtain ⟨document, policyHash, policy⟩ := compiled
  rw [compilePolicy]
  cases hraw : raw.toJson? with
  | none =>
    refine iff_of_false (fun h => ?_) fun h => ?_
    · cases h
    · cases h.1
  | some document' =>
    simp only [orRaise, ensure, bind, Except.bind]
    by_cases hfinite : finiteJson document' = true
    · simp only [if_pos hfinite]
      cases hvalid : validatePolicy document' with
      | error message =>
        refine iff_of_false (fun h => by cases h) ?_
        rintro ⟨hdocument, _, h, _⟩
        obtain rfl := Option.some.inj hdocument
        cases hvalid.symm.trans h
      | ok policy' =>
        constructor
        · intro h
          obtain ⟨rfl, rfl, rfl⟩ := CompiledPolicy.mk.inj (Except.ok.inj h)
          exact ⟨rfl, hfinite, hvalid, rfl⟩
        · rintro ⟨hdocument, _, h, rfl⟩
          obtain rfl := Option.some.inj hdocument
          rw [Except.ok.inj (hvalid.symm.trans h)]
          rfl
    · simp only [if_neg hfinite]
      refine iff_of_false (fun h => by cases h) ?_
      rintro ⟨hdocument, h, _⟩
      obtain rfl := Option.some.inj hdocument
      exact hfinite h

/-! ### A restricted corner -/

/-- No network location in brackets or beyond ASCII is one. -/
@[reducible] def noBrackets : NetlocCheck := ⟨fun _ => false⟩

def texts (items : List String) : Json := .arr (items.map .str)

/-- What lies under `kb://h/` is internal, but for what lies under `kb://h/p/`. -/
def cornerPolicy : Json := .obj [
  ("capability_scopes", .arr [.obj [
    ("actor_ids", texts ["agent"]),
    ("allowed_sensitivities", texts ["INTERNAL"]),
    ("capability", .str "source.read"),
    ("disclosure", .obj [("allow_fields", texts ["title"]), ("redact_paths", texts ["title.author"])]),
    ("operation_types", texts ["READ_SOURCE"]),
    ("source_roots", texts ["kb://h/"])]]),
  ("default_effect", .str "DENY"),
  ("endpoint_pin", .obj [("adapter_version", .str "1"), ("endpoint_id", .str "e"),
    ("origin", .str "o"), ("protocol_version", .str "1")]),
  ("policy_id", .str "p"),
  ("policy_version", .str "remote-adapter-policy@1"),
  ("registry_version", .str "1"),
  ("source_labels", .arr [
    .obj [("data_classes", texts []), ("sensitivity", .str "INTERNAL"), ("source_root", .str "kb://h/")],
    .obj [("data_classes", texts []), ("sensitivity", .str "RESTRICTED"),
      ("source_root", .str "kb://h/p/")]]),
  ("trust_bindings", .arr [.obj [("actor_id", .str "agent"), ("binding_id", .str "b"),
    ("issuer", .str "i"), ("subject", .str "s")]])]

def cornerBinding : RawJson := JsonOf.raw (.obj [("actor_id", .str "agent"), ("binding_id", .str "b"),
  ("issuer", .str "i"), ("subject", .str "s")])

def cornerRequest (requestId : PyStr) (fields : List RawJson) (sourceRef : PyStr) : RawJson :=
  .obj (JsonOf.rawMembers [("adapter_version", .str "1"), ("capability", .str "source.read"),
    ("claimed_actor_id", .str "agent"), ("endpoint_id", .str "e"),
    ("operation_type", .str "READ_SOURCE"), ("protocol_version", .str "1"),
    ("registry_version", .str "1"), ("request_version", .str "remote-policy-request@1")] ++
    [(.ofString "request_id", .str requestId), (.ofString "requested_fields", .arr fields)] ++
    [(.ofString "source_ref", .str sourceRef)])

section

attribute [local instance] noBrackets

/-- What holds of the policy the document is compiled to. -/
theorem compile_corner {P : Policy → Prop} [DecidablePred P]
    (h : (match validatePolicy cornerPolicy with
      | .ok policy => decide (P policy)
      | .error _ => false) = true) :
    ∃ policy, compilePolicy cornerPolicy.raw =
      .ok ⟨cornerPolicy, sha256Json cornerPolicy, policy⟩ ∧ P policy := by
  cases hvalid : validatePolicy cornerPolicy with
  | error message => rw [hvalid] at h; exact nomatch h
  | ok policy =>
    rw [hvalid] at h
    have hfinite : finiteJson cornerPolicy = true := by decide
    exact ⟨policy, compilePolicy_eq_ok.mpr ⟨rfl, hfinite, hvalid, rfl⟩, of_decide_eq_true h⟩

end

end SharedMind.Remote
