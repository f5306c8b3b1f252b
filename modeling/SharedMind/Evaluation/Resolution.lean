import SharedMind.Kernel.StateRoot
import SharedMind.Py.RawJson
import SharedMind.Py.TextLines

/-!
# Evaluation of a resolution

* `evaluateConflictResolution`: what `continuity_eval.py` finds between two snapshots of a conflict.
* `conflictSnapshot`: a conflict with the documents of its members.
* `evaluateConflictResolution_eq_ok`: when it finds nothing.
-/

namespace SharedMind.Evaluation

open Py

structure EvaluationError where
  code : String
  message : String
  path : String
  deriving DecidableEq

/-! ### Values -/

/-- `value.get(key)`. -/
def member (value : Json) (key : String) : Json := (value.get? key).getD .null

/-- `_mapping`. -/
def mapping (value : Json) (name code : String) : Except EvaluationError Json :=
  match value with
  | .obj members => .ok (.obj members)
  | _ => .error ⟨code, name ++ " must be an object", "$"⟩

/-- The strings of an array, after those in `result`, the first of them at `index`. -/
def stringSequenceFrom (path code : String) (result : List String) (index : Nat) :
    List Json → Except EvaluationError (List String)
  | [] => .ok result
  | item :: items =>
    let place := path ++ "[" ++ toString index ++ "]"
    match item with
    | .str s =>
      if s = "" then .error ⟨code, "array items must be non-empty strings", place⟩
      else if s ∈ result then .error ⟨code, "duplicate ID: " ++ s, place⟩
      else stringSequenceFrom path code (result ++ [s]) (index + 1) items
    | _ => .error ⟨code, "array items must be non-empty strings", place⟩

/-- `_string_sequence`. -/
def stringSequence (value : Json) (path code : String) : Except EvaluationError (List String) :=
  match value with
  | .arr items => stringSequenceFrom path code [] 0 items
  | _ => .error ⟨code, path ++ " must be an array", path⟩

/-- `_soft_string_sequence`. -/
def softStringSequence : Json → List String
  | .arr items => items.filterMap fun item => item.str?.filter fun s => s ≠ ""
  | _ => []

/-! ### The report -/

def evaluationInvalid : String := "CONFLICT_EVALUATION_INVALID"

/-- The fields that stay as they are, and what it is called when one does not. -/
def keptFields : List (String × String) :=
  [("conflict_id", "CONFLICT_ID_CHANGED"), ("episode", "CONFLICT_EPISODE_CHANGED"),
    ("member_digest", "CONFLICT_MEMBER_DIGEST_CHANGED"), ("members", "CONFLICT_MEMBERS_CHANGED")]

/-- `isinstance(version, int)` and the next version is one more. -/
def versionStep (before after : Json) : Bool :=
  match before with
  | .num (.int i) => after.pyEq (.num (.int (i + 1)))
  | .bool b => after.pyEq (.num (.int ((if b then 1 else 0) + 1)))
  | _ => false

/-- `isinstance(value, Mapping)`. -/
def isMapping : Json → Bool
  | .obj _ => true
  | _ => false

/-- The members whose documents stay as they are. -/
def preservedMembers (beforeClaims afterClaims : Json) (members : List String) : List String :=
  members.filter fun m => (afterClaims.get? m).any fun claim => claim.pyEq (member beforeClaims m)

/-- The selected and the rejected claims are apart, and together they are the members. -/
def partitionComplete (resolution : Json) (members : List String) : Bool :=
  let selected := softStringSequence (member resolution "selected_claim_ids")
  let rejected := softStringSequence (member resolution "rejected_claim_ids")
  decide (∀ m ∈ selected, m ∉ rejected) && decide (∀ m ∈ selected ++ rejected, m ∈ members) &&
    decide (∀ m ∈ members, m ∈ selected ++ rejected)

def rationalePreserved (resolution : Json) : Bool :=
  (member resolution "rationale").str?.any fun s => decide (strip s.toList ≠ [])

def evidenceLinkIds (resolution : Json) : List String :=
  softStringSequence (member resolution "evidence_link_ids")

/-- The checks, each with what it is called when it is not met. -/
def resolutionChecks (original resolved beforeClaims afterClaims : Json) (members : List String) :
    List (Bool × String) :=
  let resolution := member resolved "resolution"
  (keptFields.map fun f => ((member original f.1).pyEq (member resolved f.1), f.2)) ++ [
    ((member original "status").pyEq (.str "OPEN") &&
      (member resolved "status").pyEq (.str "RESOLVED"), "CONFLICT_STATUS_TRANSITION_INVALID"),
    (versionStep (member original "version") (member resolved "version"),
      "CONFLICT_VERSION_TRANSITION_INVALID"),
    (decide ((preservedMembers beforeClaims afterClaims members).length = members.length),
      "ORIGINAL_CLAIM_MISSING"),
    (isMapping resolution, "RESOLUTION_MISSING"),
    (partitionComplete resolution members, "MEMBER_PARTITION_INCOMPLETE"),
    (rationalePreserved resolution, "RESOLUTION_RATIONALE_MISSING"),
    ((member resolution "resolution_epoch").pyEq (member original "episode"),
      "RESOLUTION_EPOCH_MISMATCH"),
    (isMapping (member resolution "resolver"), "RESOLUTION_RESOLVER_MISSING"),
    (decide (evidenceLinkIds resolution ≠ []), "RESOLUTION_EVIDENCE_MISSING"),
    ((member resolution "decided_at").str?.any fun s => decide (s ≠ ""), "RESOLUTION_TIME_MISSING")]

/-- The reasons of the checks that are not met, each once. -/
def failuresOf (checks : List (Bool × String)) : List String :=
  ((checks.filter fun c => !c.1).map Prod.snd).eraseDups

structure ResolutionReport where
  reportVersion : String
  beforeHash : Hash
  afterHash : Hash
  originalClaimPreservation : ℚ
  memberPartitionComplete : Bool
  rationalePreserved : Bool
  evidenceLinkCount : Nat
  failures : List String
  passed : Bool

/-- `evaluate_conflict_resolution`. -/
def evaluateConflictResolution (before after : Json) : Except EvaluationError ResolutionReport := do
  let original ← mapping before "before" evaluationInvalid
  let resolved ← mapping after "after" evaluationInvalid
  let members ← stringSequence (member original "members") "$.before.members" evaluationInvalid
  let beforeClaims ← mapping (member original "claims") "before.claims" evaluationInvalid
  let afterClaims ← mapping (member resolved "claims") "after.claims" evaluationInvalid
  let preserved := preservedMembers beforeClaims afterClaims members
  let resolution := member resolved "resolution"
  let failures := failuresOf (resolutionChecks original resolved beforeClaims afterClaims members)
  return {
    reportVersion := "conflict-resolution-eval@1"
    beforeHash := sha256Json original
    afterHash := sha256Json resolved
    originalClaimPreservation := if members = [] then 1 else preserved.length / members.length
    memberPartitionComplete := partitionComplete resolution members
    rationalePreserved := rationalePreserved resolution
    evidenceLinkCount := (evidenceLinkIds resolution).length
    failures := failures
    passed := decide (failures = []) }

/-! ### Snapshots -/

/-- The stored documents of the members. -/
def memberClaims (t : Tables) (members : List RecordId) : Json :=
  .obj (members.filterMap fun m : RecordId =>
    t.claims[m]?.map fun row => ((m : String), Claim.codec.enc row.document))

/-- A conflict as it is stored, with the documents of its members. -/
def conflictSnapshot (t : Tables) (id : RecordId) (row : ConflictRow) : Json :=
  .obj [
    ("claims", memberClaims t row.members),
    ("conflict_id", idColumn id),
    ("episode", intColumn row.episode),
    ("member_digest", idColumn row.memberDigest),
    ("members", .arr (row.members.map idColumn)),
    ("resolution", optColumn Resolution.codec.enc row.resolution),
    ("status", .str row.status.text),
    ("version", intColumn row.version)]

/-! ### When nothing is found -/

theorem failuresOf_eq_nil {checks : List (Bool × String)} :
    failuresOf checks = [] ↔ ∀ c ∈ checks, c.1 = true := by
  have herase : ∀ l : List String, l.eraseDups = [] ↔ l = [] := by
    intro l
    cases l with
    | nil => simp
    | cons s l => simp [List.eraseDups_cons]
  rw [failuresOf, herase, List.map_eq_nil_iff, List.filter_eq_nil_iff]
  simp

theorem stringSequenceFrom_ids {path code : String} {ids : List RecordId} {result : List String}
    {index : Nat} (hnodup : (ids.map Text.text).Nodup) (happart : ∀ id ∈ ids, id.text ∉ result) :
    stringSequenceFrom path code result index (ids.map idColumn) =
      .ok (result ++ ids.map Text.text) := by
  induction ids generalizing result index with
  | nil => rw [List.map_nil, List.map_nil, List.append_nil, stringSequenceFrom]
  | cons id ids ih =>
    rw [List.map_cons, List.nodup_cons] at hnodup
    have hrest : ∀ other ∈ ids, other.text ∉ result ++ [id.text] := by
      intro other hother hmem
      obtain hmem | hmem := List.mem_append.mp hmem
      · exact happart other (List.mem_cons_of_mem id hother) hmem
      · rw [List.mem_singleton] at hmem
        exact hnodup.1 (hmem ▸ List.mem_map_of_mem hother)
    have hne : id.text ≠ "" := recordId_ne_empty id
    have hnew : id.text ∉ result := happart id List.mem_cons_self
    have hstep : stringSequenceFrom path code result index (idColumn id :: ids.map idColumn) =
        stringSequenceFrom path code (result ++ [id.text]) (index + 1) (ids.map idColumn) := by
      show (if id.text = "" then _ else if id.text ∈ result then _ else _) = _
      rw [if_neg hne, if_neg hnew]
      rfl
    rw [List.map_cons, hstep, ih hnodup.2 hrest, List.map_cons, List.append_assoc,
      List.singleton_append]

theorem stringSequence_ids {path code : String} {ids : List RecordId}
    (hsorted : ids.Pairwise (· < ·)) :
    stringSequence (.arr (ids.map idColumn)) path code = .ok (ids.map Text.text) := by
  rw [stringSequence, stringSequenceFrom_ids, List.nil_append]
  · exact (hsorted.imp ne_of_lt).map _ fun _ _ hne heq => hne (Text.ext heq)
  · exact fun _ _ => List.not_mem_nil

theorem softStringSequence_ids (ids : List RecordId) :
    softStringSequence (.arr (ids.map idColumn)) = ids.map Text.text := by
  rw [softStringSequence, List.filterMap_map]
  apply List.filterMap_eq_map_iff_forall_eq_some.mpr
  intro id _
  show Option.filter (fun s : String => decide (s ≠ "")) (some id.text) = some id.text
  exact Option.filter_eq_some_iff.mpr ⟨rfl, decide_eq_true (recordId_ne_empty id)⟩

/-- What the contract does not ask of a resolution: a reason, a link and a time. -/
structure Retained (r : Resolution) : Prop where
  rationale : strip (r.rationale : String).toList ≠ []
  evidence : r.evidenceLinkIds.1 ≠ []
  decidedAt : r.decidedAt ≠ ""

section

variable {t t' : Tables} {id : RecordId} {row : ConflictRow} {r : Resolution}

/-- The documents of the members that are there. -/
theorem memberClaims_get? {members : List RecordId} {m : RecordId} {claim : ClaimRow}
    (hsorted : members.Pairwise (· < ·)) (hm : m ∈ members) (hclaim : t.claims[m]? = some claim) :
    (memberClaims t members).get? m.text = some (Claim.codec.enc claim.document) := by
  induction members with
  | nil => exact absurd hm List.not_mem_nil
  | cons n members ih =>
    rw [List.pairwise_cons] at hsorted
    obtain ⟨hlt, hsorted⟩ := hsorted
    have hkeys : ∀ e ∈ members.filterMap fun m : RecordId => t.claims[m]?.map fun row =>
        ((m : String), Claim.codec.enc row.document), e.1 ≠ n.text := by
      intro e he heq
      obtain ⟨k, hk, hrow⟩ := List.mem_filterMap.mp he
      obtain ⟨row, -, rfl⟩ := Option.map_eq_some_iff.mp hrow
      exact (hlt k hk).ne (Text.ext heq).symm
    by_cases hn : n = m
    · subst hn
      rw [memberClaims, List.filterMap_cons_some (by rw [hclaim]; rfl), JsonOf.get?_obj_cons hkeys]
      exact if_pos rfl
    · have hrest := ih hsorted (List.mem_of_ne_of_mem (Ne.symm hn) hm)
      cases hrow : t.claims[n]? with
      | none =>
        rw [memberClaims, List.filterMap_cons_none (by rw [hrow]; rfl)]
        exact hrest
      | some row =>
        rw [memberClaims, List.filterMap_cons_some (by rw [hrow]; rfl), JsonOf.get?_obj_cons hkeys]
        exact (if_neg fun heq => hn (Text.ext heq)).trans hrest

/-- A resolution that the kernel makes of an open conflict: the evaluation finds what the contract
does not ask for, and nothing else. -/
theorem evaluate_resolve (id : RecordId) (hopen : row.status = .open)
    (hsorted : row.members.Pairwise (· < ·)) (hclaims : t'.claims = t.claims)
    (hmembers : ∀ m ∈ row.members, ∃ claim, t.claims[m]? = some claim)
    (hepoch : r.resolutionEpoch.eqInt row.episode = true)
    (hapart : ∀ m ∈ r.selectedClaimIds.1, m ∉ r.rejectedClaimIds.1)
    (hcovers : ∀ m, m ∈ r.selectedClaimIds.1 ++ r.rejectedClaimIds.1 ↔ m ∈ row.members) :
    ∃ report, evaluateConflictResolution (conflictSnapshot t id row)
        (conflictSnapshot t' id (row.resolve r)) = .ok report ∧
      (report.failures = [] ↔ Retained r) := by
  have hseq : stringSequence (member (conflictSnapshot t id row) "members") "$.before.members"
      evaluationInvalid = .ok (row.members.map Text.text) := stringSequence_ids hsorted
  have hreport : ∃ report, evaluateConflictResolution (conflictSnapshot t id row)
      (conflictSnapshot t' id (row.resolve r)) = .ok report ∧
      report.failures = failuresOf (resolutionChecks (conflictSnapshot t id row)
        (conflictSnapshot t' id (row.resolve r)) (memberClaims t row.members)
        (memberClaims t' row.members) (row.members.map Text.text)) := by
    refine ⟨_, bind_eq_ok.mpr ⟨_, rfl, bind_eq_ok.mpr ⟨_, rfl, bind_eq_ok.mpr ⟨_, hseq,
      bind_eq_ok.mpr ⟨_, rfl, bind_eq_ok.mpr ⟨_, rfl, rfl⟩⟩⟩⟩⟩, rfl⟩
  obtain ⟨report, hok, hfailures⟩ := hreport
  refine ⟨report, hok, ?_⟩
  have hkept : ∀ f ∈ keptFields, (member (conflictSnapshot t id row) f.1).pyEq
      (member (conflictSnapshot t' id (row.resolve r)) f.1) = true := by
    simp only [keptFields, List.forall_mem_cons]
    exact ⟨JsonOf.pyEq_refl _, JsonOf.pyEq_refl _, JsonOf.pyEq_refl _, JsonOf.pyEq_refl _,
      fun _ h => absurd h List.not_mem_nil⟩
  have hstatus : ((member (conflictSnapshot t id row) "status").pyEq (.str "OPEN") &&
      (member (conflictSnapshot t' id (row.resolve r)) "status").pyEq (.str "RESOLVED")) = true := by
    show ((JsonOf.str row.status.text).pyEq _ && (JsonOf.str "RESOLVED").pyEq _) = true
    rw [hopen]
    rfl
  have hversion : versionStep (member (conflictSnapshot t id row) "version")
      (member (conflictSnapshot t' id (row.resolve r)) "version") = true := by
    show (JsonOf.num (.int ((row.version + 1 : ℕ) : ℤ)) : Json).pyEq
      (.num (.int ((row.version : ℤ) + 1))) = true
    rw [Nat.cast_add, Nat.cast_one]
    exact JsonOf.pyEq_refl _
  have hpreserved : (preservedMembers (memberClaims t row.members) (memberClaims t' row.members)
      (row.members.map Text.text)).length = (row.members.map Text.text).length := by
    rw [preservedMembers, List.length_filter_eq_length_iff, List.forall_mem_map]
    intro m hm
    obtain ⟨claim, hclaim⟩ := hmembers m hm
    have hbefore := memberClaims_get? hsorted hm hclaim
    have hafter := memberClaims_get? hsorted hm (t := t') (hclaims ▸ hclaim)
    rw [hafter, member, hbefore, Option.getD_some, Option.any_some]
    exact JsonOf.pyEq_refl _
  have hpartition : partitionComplete (member (conflictSnapshot t' id (row.resolve r)) "resolution")
      (row.members.map Text.text) = true := by
    have hselected : softStringSequence (member (member (conflictSnapshot t' id (row.resolve r))
        "resolution") "selected_claim_ids") = r.selectedClaimIds.1.map Text.text :=
      softStringSequence_ids _
    have hrejected : softStringSequence (member (member (conflictSnapshot t' id (row.resolve r))
        "resolution") "rejected_claim_ids") = r.rejectedClaimIds.1.map Text.text :=
      softStringSequence_ids _
    have hmap {m : RecordId} {ids : List RecordId} : m.text ∈ ids.map Text.text ↔ m ∈ ids :=
      List.mem_map_of_injective fun _ _ h => Text.ext h
    simp only [partitionComplete, hselected, hrejected, ← List.map_append, Bool.and_eq_true,
      decide_eq_true_eq, List.forall_mem_map, hmap]
    exact ⟨⟨hapart, fun m hm => (hcovers m).mp hm⟩, fun m hm => (hcovers m).mpr hm⟩
  have hrationale : rationalePreserved (member (conflictSnapshot t' id (row.resolve r))
      "resolution") = true ↔ strip (r.rationale : String).toList ≠ [] := decide_eq_true_iff
  have hepoch' : (member (member (conflictSnapshot t' id (row.resolve r)) "resolution")
      "resolution_epoch").pyEq (member (conflictSnapshot t id row) "episode") = true := hepoch
  have hevidence : evidenceLinkIds (member (conflictSnapshot t' id (row.resolve r)) "resolution") =
      r.evidenceLinkIds.1.map Text.text := softStringSequence_ids _
  have hdecided : ((member (member (conflictSnapshot t' id (row.resolve r)) "resolution")
      "decided_at").str?.any fun s => decide (s ≠ "")) = true ↔ r.decidedAt ≠ "" :=
    decide_eq_true_iff
  have hlinks : r.evidenceLinkIds.1.map Text.text ≠ [] ↔ r.evidenceLinkIds.1 ≠ [] := by
    rw [Ne, List.map_eq_nil_iff]
  rw [hfailures, failuresOf_eq_nil, resolutionChecks]
  simp only [List.forall_mem_append, List.forall_mem_map, List.forall_mem_cons, hstatus, hversion,
    hpreserved, hpartition, hrationale, hepoch', hevidence, hdecided, decide_eq_true_eq, hlinks]
  constructor
  · rintro ⟨-, -, -, -, -, -, h1, -, -, h2, h3, -⟩
    exact ⟨h1, h2, h3⟩
  · intro h
    exact ⟨hkept, trivial, trivial, trivial, rfl, trivial, h.rationale, trivial, rfl, h.evidence,
      h.decidedAt, fun _ h => absurd h List.not_mem_nil⟩

end

end SharedMind.Evaluation
