import SharedMind.Remote.Label
import SharedMind.Remote.Returned

/-!
# Spellings of a source reference

Safety is judged on what a reference decodes to, its label by what is written.

* `spellings_agree`: two references that decode to one get one decision exactly when they
  are under the same roots as they are written.
* `escape_lowers_label`: an escaped letter takes a reference from under a restricted root.
-/

namespace SharedMind.Remote

open Py

/-! ### Labels and roots -/

section

variable {policy : Policy} {a b : PyStr}

/-- Of one root, the same roots. -/
theorem under_of_root {root : String} (ha : (sourceLabel policy (some a)).sourceRoot = some root)
    (hb : (sourceLabel policy (some b)).sourceRoot = some root) {label : SourceRoot}
    (hlabel : label ∈ policy.sourceLabels) (h : Under a label.sourceRoot) :
    Under b label.sourceRoot := by
  have hsafe : sourceRefIsSafe b = true := by
    by_contra hun
    rw [sourceLabel_not_safe hun] at hb
    exact nomatch hb
  rw [sourceLabel_root h.1, Option.map_eq_some_iff] at ha
  rw [sourceLabel_root hsafe, Option.map_eq_some_iff] at hb
  obtain ⟨selected, hselected, rfl⟩ := ha
  obtain ⟨selected', hselected', hroot⟩ := hb
  obtain ⟨_, hstart, hmax⟩ := matchedLabel_eq_some hselected
  obtain ⟨_, hstart', _⟩ := matchedLabel_eq_some hselected'
  exact ⟨hsafe, startsWith_of_longer h.2 hstart (hmax label hlabel h.2) (hroot ▸ hstart')⟩

/-- **The label tells the roots, and the roots the label.** -/
theorem sourceLabel_eq_iff : sourceLabel policy (some a) = sourceLabel policy (some b) ↔
    ∀ label ∈ policy.sourceLabels, Under a label.sourceRoot ↔ Under b label.sourceRoot := by
  constructor
  · intro h label hlabel
    cases hroot : (sourceLabel policy (some a)).sourceRoot with
    | none =>
      have hroot' := h ▸ hroot
      exact iff_of_false (sourceLabel_root_eq_none.mp hroot label hlabel)
        (sourceLabel_root_eq_none.mp hroot' label hlabel)
    | some root =>
      have hroot' := h ▸ hroot
      exact ⟨under_of_root hroot hroot' hlabel, under_of_root hroot' hroot hlabel⟩
  · intro h
    by_cases ha : sourceRefIsSafe a = true <;> by_cases hb : sourceRefIsSafe b = true
    · have hmatched : matchedLabel policy a = matchedLabel policy b :=
        matchedLabel_congr fun label hl => by simpa [Under, ha, hb] using h label hl
      simp only [sourceLabel, if_pos ha, if_pos hb, hmatched]
    · have hnone : matchedLabel policy a = none :=
        matchedLabel_eq_none.mpr fun label hl hs => hb ((h label hl).mp ⟨ha, hs⟩).1
      rw [sourceLabel_not_safe hb]
      simp only [sourceLabel, if_pos ha, hnone]
    · have hnone : matchedLabel policy b = none :=
        matchedLabel_eq_none.mpr fun label hl hs => ha ((h label hl).mpr ⟨hb, hs⟩).1
      rw [sourceLabel_not_safe ha]
      simp only [sourceLabel, if_pos hb, hnone]
    · rw [sourceLabel_not_safe ha, sourceLabel_not_safe hb]

end

/-! ### Requests that differ in the reference -/

/-- The same request, but for its source reference. -/
def SameElsewhere (request request' : RawJson) : Prop :=
  ∀ key, key ≠ "source_ref" → member request key = member request' key

/-- What a decision says: its outcome, its reason and its label. -/
def verdict (a : Audit) : Outcome × Option ReasonCode × SourceLabel :=
  (a.outcome, a.reason, a.sourceLabel)

/-- The two references decode to one. -/
def DecodeAlike (a b : PyStr) : Prop := ∃ m n, unquote^[m] a = unquote^[n] b

section

variable {policy : Policy} {request request' binding : RawJson} {a b : PyStr}

theorem sourceIsAllowed_some {scope : CapabilityScope} {ref : PyStr} :
    SourceIsAllowed scope (some ref) ↔ ∃ root ∈ scope.sourceRoots, Under ref root := by
  constructor
  · rintro ⟨ref', href, hsafe, root, hroot, hstart⟩
    obtain rfl := Option.some.inj href
    exact ⟨root, hroot, hsafe, hstart⟩
  · rintro ⟨root, hroot, hsafe, hstart⟩
    exact ⟨ref, rfl, hsafe, root, hroot, hstart⟩

/-- A scope's roots are labelled, so references of one label are alike to it. -/
theorem sourceIsAllowed_congr {scope : CapabilityScope} (hscope : scope ∈ policy.capabilityScopes)
    (h : ∀ label ∈ policy.sourceLabels, Under a label.sourceRoot ↔ Under b label.sourceRoot) :
    SourceIsAllowed scope (some a) ↔ SourceIsAllowed scope (some b) := by
  rw [sourceIsAllowed_some, sourceIsAllowed_some]
  refine exists_congr fun root => and_congr_right fun hroot => ?_
  obtain ⟨label, hlabel, rfl⟩ := List.mem_map.mp (policy.valid.rooted scope hscope root hroot)
  exact h label hlabel

theorem scopeReason_congr {trusted : TrustBinding} {scope : Option CapabilityScope} {label : SourceLabel}
    (hsame : SameElsewhere request request')
    (hallowed : ∀ s, scope = some s → (SourceIsAllowed s (some a) ↔ SourceIsAllowed s (some b))) :
    scopeReason request trusted scope (some a) label =
      scopeReason request' trusted scope (some b) label := by
  cases scope with
  | none => rfl
  | some s =>
    have hfields : requestedFields request = requestedFields request' :=
      congrArg stringValues (hsame _ (by decide))
    have hdisclosure : DisclosureIsAllowed s request ↔ DisclosureIsAllowed s request' := by
      rw [DisclosureIsAllowed, DisclosureIsAllowed, hfields]
    simp only [scopeReason, hsame "operation_type" (by decide), hallowed s rfl, hdisclosure]

/-- Of one label, one reason. -/
theorem denialReason_congr (hsame : SameElsewhere request request')
    (ha : member request "source_ref" = .str a) (hb : member request' "source_ref" = .str b)
    (hlabel : sourceLabel policy (some a) = sourceLabel policy (some b)) :
    denialReason policy request binding = denialReason policy request' binding := by
  have hrefa : stringMember request "source_ref" = some a := congrArg JsonOf.str? ha
  have hrefb : stringMember request' "source_ref" = some b := congrArg JsonOf.str? hb
  have hcapability : stringMember request "capability" = stringMember request' "capability" :=
    congrArg JsonOf.str? (hsame _ (by decide))
  have hscope : ∀ trusted, scopeReason request trusted
      (capabilityScope policy (stringMember request' "capability")) (some a)
        (sourceLabel policy (some b)) = scopeReason request' trusted
      (capabilityScope policy (stringMember request' "capability")) (some b)
        (sourceLabel policy (some b)) := fun trusted =>
    scopeReason_congr hsame fun s hs =>
      sourceIsAllowed_congr (List.mem_of_find?_eq_some hs) (sourceLabel_eq_iff.mp hlabel)
  simp only [denialReason, hrefa, hrefb, hcapability, hlabel, hscope,
    hsame "request_version" (by decide), hsame "claimed_actor_id" (by decide),
    hsame "endpoint_id" (by decide), hsame "protocol_version" (by decide),
    hsame "adapter_version" (by decide), hsame "registry_version" (by decide)]

theorem encodes_congr (hsame : SameElsewhere request request') :
    Encodes request ↔ Encodes request' := by
  have hmember : ∀ field ∈ ["request_id", "capability", "operation_type"],
      stringMember request field = stringMember request' field := by
    intro field hfield
    refine congrArg JsonOf.str? (hsame field ?_)
    rintro rfl
    exact absurd hfield (by decide)
  refine forall₂_congr fun field hfield => ?_
  rw [hmember field hfield]

/-- **Two spellings get one verdict exactly when they are under the same roots**, or when
none comes back. -/
theorem spellings_agree [NetlocCheck] {raw : RawJson} {compiled : CompiledPolicy}
    (hcompiled : compilePolicy raw = .ok compiled) (hsame : SameElsewhere request request')
    (ha : member request "source_ref" = .str a) (hb : member request' "source_ref" = .str b) :
    (evaluateRequest compiled request binding).map (fun d => verdict d.audit) =
        (evaluateRequest compiled request' binding).map (fun d => verdict d.audit) ↔
      ¬Encodes request ∨ ∀ label ∈ compiled.policy.sourceLabels,
        Under a label.sourceRoot ↔ Under b label.sourceRoot := by
  obtain ⟨_, _, _, hhash⟩ := compilePolicy_eq_ok.mp hcompiled
  by_cases hencodes : Encodes request
  · have hencodes' := (encodes_congr hsame).mp hencodes
    rw [evaluateRequest_map _ _ hhash hencodes, evaluateRequest_map _ _ hhash hencodes',
      Except.ok.injEq, ← sourceLabel_eq_iff]
    have hrefa : stringMember request "source_ref" = some a := congrArg JsonOf.str? ha
    have hrefb : stringMember request' "source_ref" = some b := congrArg JsonOf.str? hb
    constructor
    · intro h
      have hlabel : (auditOf compiled request binding).sourceLabel =
          (auditOf compiled request' binding).sourceLabel := congrArg (fun v => v.2.2) h
      simp only [auditOf, hrefa, hrefb] at hlabel
      exact Or.inr hlabel
    · intro h
      have hlabel := h.resolve_left (not_not.mpr hencodes)
      have hreason := @denialReason_congr _ _ _ binding _ _ hsame ha hb hlabel
      simp only [verdict, Audit.outcome, auditOf, hrefa, hrefb, hlabel, hreason]
  · rw [evaluateRequest_raises hhash hencodes,
      evaluateRequest_raises hhash fun h => hencodes ((encodes_congr hsame).mpr h)]
    exact iff_of_true rfl (Or.inl hencodes)

end

/-! ### A letter escaped -/

section

attribute [local instance] noBrackets

/-- The corner, and the corner with a letter escaped. -/
def corner : PyStr := .ofString "kb://h/p/x"

def escapedCorner : PyStr := .ofString "kb://h/%70/x"

/-- A request for the title of what the reference names. -/
def titleRequest (sourceRef : PyStr) : RawJson :=
  cornerRequest (.ofString "r") [.str (.ofString "title")] sourceRef

theorem titleRequest_sameElsewhere (a b : PyStr) :
    SameElsewhere (titleRequest a) (titleRequest b) := by
  intro key hkey
  have hne : PyStr.ofString "source_ref" ≠ PyStr.ofString key :=
    fun h => hkey (PyStr.ofString_injective h).symm
  rw [titleRequest, titleRequest, cornerRequest, cornerRequest, member, member,
    JsonOf.get?_obj_append, JsonOf.get?_obj_append, if_neg hne, if_neg hne]

theorem titleRequest_sourceRef (ref : PyStr) :
    member (titleRequest ref) "source_ref" = .str ref := by
  rw [titleRequest, cornerRequest, member, JsonOf.get?_obj_append, if_pos rfl]
  rfl

theorem titleRequest_encodes (ref : PyStr) : Encodes (titleRequest ref) :=
  (encodes_congr (titleRequest_sameElsewhere corner ref)).mp (by
    rw [Encodes]
    decide)

theorem corner_decodeAlike : DecodeAlike escapedCorner corner := ⟨1, 0, by decide⟩

/-- **An escaped letter lowers the label**: the title of the corner is denied, and the title
of the same corner with a letter escaped is allowed under the label of the root above. -/
theorem escape_lowers_label : ∃ compiled, compilePolicy cornerPolicy.raw = .ok compiled ∧
    SameElsewhere (titleRequest escapedCorner) (titleRequest corner) ∧
    DecodeAlike escapedCorner corner ∧
    (evaluateRequest compiled (titleRequest corner) cornerBinding).map (fun d => verdict d.audit) =
      .ok (.deny, some .sensitivityDenied, ⟨"kb://h/p/", "RESTRICTED", []⟩) ∧
    (evaluateRequest compiled (titleRequest escapedCorner) cornerBinding).map
        (fun d => verdict d.audit) = .ok (.allow, none, ⟨"kb://h/", "INTERNAL", []⟩) := by
  obtain ⟨policy, hcompiled, hcorner, hescaped⟩ := compile_corner (P := fun policy =>
    (denialReason policy (titleRequest corner) cornerBinding = some .sensitivityDenied ∧
      sourceLabel policy corner = ⟨"kb://h/p/", "RESTRICTED", []⟩) ∧
    denialReason policy (titleRequest escapedCorner) cornerBinding = none ∧
      sourceLabel policy escapedCorner = ⟨"kb://h/", "INTERNAL", []⟩) (by decide)
  have href : ∀ ref, stringMember (titleRequest ref) "source_ref" = some ref := fun ref =>
    congrArg JsonOf.str? (titleRequest_sourceRef ref)
  refine ⟨_, hcompiled, titleRequest_sameElsewhere _ _, corner_decodeAlike, ?_, ?_⟩
  · rw [evaluateRequest_map _ _ rfl (titleRequest_encodes _)]
    simp only [verdict, Audit.outcome, auditOf, href, hcorner.1, hcorner.2]
    rfl
  · rw [evaluateRequest_map _ _ rfl (titleRequest_encodes _)]
    simp only [verdict, Audit.outcome, auditOf, href, hescaped.1, hescaped.2]
    rfl

theorem spellings_agree_corner : ∃ compiled, compilePolicy cornerPolicy.raw = .ok compiled ∧
    ((evaluateRequest compiled (titleRequest corner) cornerBinding).map (fun d => verdict d.audit) =
        (evaluateRequest compiled (titleRequest escapedCorner) cornerBinding).map
          (fun d => verdict d.audit) ↔
      ¬Encodes (titleRequest corner) ∨ ∀ label ∈ compiled.policy.sourceLabels,
        Under corner label.sourceRoot ↔ Under escapedCorner label.sourceRoot) := by
  obtain ⟨policy, hcompiled, _⟩ := compile_corner (P := fun _ => True) (by decide)
  exact ⟨_, hcompiled, spellings_agree hcompiled (titleRequest_sameElsewhere _ _)
    (titleRequest_sourceRef _) (titleRequest_sourceRef _)⟩

end

end SharedMind.Remote
