import SharedMind.Product.Lifecycle
import SharedMind.Py.Members

/-!
# The replay of skills

* `replaySkillOperation`, `verifySkillReplay`: the skills as the committed proposals tell them,
  compared with the skills that are stored.
* `Agrees`: the same skills, shown alike.
* `replay_agrees_iff`: **when an operation replays** to what it did.
* `skill_replay_valid`, `skill_replay_valid_iff`: when a run verifies.
-/

namespace SharedMind.Product

open Py

/-! ### Replay -/

/-- `replayed`: records by `skill_id` and `version`. -/
abbrev ReplayedSkills := Table (String ×ₗ Nat) SkillRecord

namespace SkillRecord

def restamp (skill : SkillRecord) (status : SkillStatus) (updatedAt : Timestamp) : SkillRecord :=
  { skill with status := status, updatedAt := updatedAt }

/-- What a record becomes when a version of the skill is approved; a record that is created or
imported leaves its time alone. -/
def beside (skillId : String) (occurredAt : Option Timestamp) (key : String ×ₗ Nat)
    (skill : SkillRecord) : SkillRecord :=
  if (ofLex key).1 = skillId ∧ skill.status = .approved then
    skill.restamp .deprecated (occurredAt.getD skill.updatedAt)
  else skill

end SkillRecord

/-- The operations that change the status of a version; `none` is a `KeyError`. -/
def replayStatus (occurredAt : Timestamp) (state : ReplayedSkills) (skillId : String)
    (version : Nat) (status : SkillStatus) : Option ReplayedSkills := do
  let current ← state[skillKey skillId version]?
  let others := if status = .approved then state.map (SkillRecord.beside skillId (some occurredAt))
    else state
  return others.insert (skillKey skillId version) (current.restamp status occurredAt)

/-- `_replay_skill_operation`. -/
def replaySkillOperation (occurredAt : Timestamp) (state : ReplayedSkills) :
    SkillOperation → Option ReplayedSkills
  | .createSkill _ skill | .importSkill _ skill =>
    let others := if skill.status = .approved then
        state.map (SkillRecord.beside skill.skillId.text none)
      else state
    some (others.insert (keyOf skill) skill)
  | .reviseSkill o => some (state.insert (keyOf o.replacementSkill) o.replacementSkill)
  | .markSkillTested o => replayStatus occurredAt state o.skillId.text (versionOf o.version) .tested
  | .approveSkill o => replayStatus occurredAt state o.skillId.text (versionOf o.version) .approved
  | .deprecateSkill o =>
    replayStatus occurredAt state o.skillId.text (versionOf o.version) .deprecated

/-- `list_product_proposals(outcome="COMMITTED")`, by the rows of the receipts. -/
def committedProposals (db : ProductDb) : List ProductProposal :=
  db.receipts.filterMap fun r =>
    if r.outcome = .committed then
      (db.proposals.find? fun row => row.proposal.proposalId = r.proposalId).map
        ProposalRow.proposal
    else none

def replaySkills (proposals : List ProductProposal) : Option ReplayedSkills :=
  proposals.foldlM (fun state p =>
    p.operations.1.foldlM (replaySkillOperation p.proposedAt) state) ∅

/-- `list_skills`. -/
def listSkills (skills : SkillTable) : List Json :=
  skills.toList.map fun r => skillRecordJson r.1 r.2

structure SkillReplayReport where
  valid : Bool
  proposalCount : Nat
  replayedSkillCount : Nat
  actualSkillCount : Nat
  replayedHash : Hash
  actualHash : Hash

/-- `verify_skill_replay`. -/
def verifySkillReplay (db : ProductDb) : Option SkillReplayReport := do
  let replayed ← replaySkills (committedProposals db)
  let replayRows := replayed.toList.map fun r => SkillRecord.codec.enc r.2
  let actualRows := listSkills db.tables.skills
  return {
    valid := (JsonOf.arr replayRows).dumps = (JsonOf.arr actualRows).dumps
    proposalCount := (committedProposals db).length
    replayedSkillCount := replayRows.length
    actualSkillCount := actualRows.length
    replayedHash := sha256Json (.arr replayRows)
    actualHash := sha256Json (.arr actualRows) }

/-! ### Records and rows -/

/-- The record is shown as the row is. -/
def Tells (key : String ×ₗ Nat) (row : SkillRow) (skill : SkillRecord) : Prop :=
  SkillRecord.codec.enc skill = skillRecordJson key row

section

variable {key : String ×ₗ Nat} {row : SkillRow} {skill : SkillRecord}

theorem Tells.recorded (h : Tells key row skill) : Recorded key row skill :=
  recorded_of_dec (SkillRecord.codec.dec_eq_some_iff.mpr h.symm)

/-- A record under another status shows its status and its time anew. -/
theorem enc_restamp (skill : SkillRecord) (status : SkillStatus) (updatedAt : Timestamp)
    (k : String) : (SkillRecord.codec.enc (skill.restamp status updatedAt)).get? k =
      if k = "status" then some (.str status.text)
      else if k = "updated_at" then some (.str updatedAt.text)
      else (SkillRecord.codec.enc skill).get? k := by
  have henc : ∀ s : SkillRecord, SkillRecord.codec.enc s = .obj [
    ("content_hash", Text.codec.enc s.contentHash), ("created_at", Text.codec.enc s.createdAt),
    ("document", AnyObject.codec.enc s.document),
    ("expected_outputs", Codec.str.list.enc s.expectedOutputs),
    ("object_type", .str "SKILL_RECORD"), ("preconditions", Codec.str.list.enc s.preconditions),
    ("provenance", AnyObject.codec.enc s.provenance), ("purpose", Text.codec.enc s.purpose),
    ("resources", SkillResource.codec.list.enc s.resources), ("skill_id", Text.codec.enc s.skillId),
    ("status", SkillStatus.codec.enc s.status), ("steps", (listed Text.codec).enc s.steps),
    ("triggers", (listed Text.codec).enc s.triggers), ("updated_at", Text.codec.enc s.updatedAt),
    ("validation_rules", (listed AnyObject.codec).enc s.validationRules),
    ("version", AtLeast.codec.enc s.version)] := fun _ => rfl
  rw [henc, henc]
  by_cases hstatus : k = "status"
  · subst hstatus
    rfl
  by_cases hupdated : k = "updated_at"
  · subst hupdated
    rfl
  rw [if_neg hstatus, if_neg hupdated]
  simp only [JsonOf.get?, List.findRev?_eq_find?_reverse, List.reverse_cons, List.reverse_nil,
    List.nil_append, List.cons_append, List.find?_cons, Ne.symm hstatus, Ne.symm hupdated,
    decide_false]
  rfl

/-- So does its row. -/
theorem skillRecordJson_restamp (key : String ×ₗ Nat) (row : SkillRow) (status : SkillStatus)
    (updatedAt : String) (k : String) : (skillRecordJson key (row.restamp status updatedAt)).get? k =
      if k = "status" then some (.str status.text)
      else if k = "updated_at" then some (.str updatedAt)
      else (skillRecordJson key row).get? k := by
  rw [skillRecordJson, skillRecordJson, JsonOf.get?_dictOf, JsonOf.get?_dictOf]
  by_cases hstatus : k = "status"
  · subst hstatus
    simp [JsonOf.get?, SkillRow.restamp]
  by_cases hupdated : k = "updated_at"
  · subst hupdated
    simp [JsonOf.get?, SkillRow.restamp]
  rw [if_neg hstatus, if_neg hupdated]
  simp only [JsonOf.get?, List.findRev?_eq_find?_reverse, List.reverse_append, List.reverse_cons,
    List.reverse_nil, List.nil_append, List.cons_append, List.find?_cons, Ne.symm hstatus,
    Ne.symm hupdated, decide_false]
  rfl
theorem enc_isObj (skill : SkillRecord) : ∃ ms, SkillRecord.codec.enc skill = .obj ms ∧
    (ms.map Prod.fst).Pairwise (· < ·) := by
  obtain ⟨ms, hms⟩ : ∃ ms, SkillRecord.codec.enc skill = .obj ms := ⟨_, rfl⟩
  have hsorted := SkillRecord.codec.sorted skill
  rw [hms] at hsorted
  cases hsorted with
  | obj h _ => exact ⟨ms, hms, h⟩

/-- A record and its row show the same under another status when both change alike. -/
theorem tells_restamp (h : Tells key row skill) {status status' : SkillStatus}
    {updatedAt : Timestamp} {updatedAt' : String} :
    Tells key (row.restamp status' updatedAt') (skill.restamp status updatedAt) ↔
      status = status' ∧ updatedAt.text = updatedAt' := by
  constructor
  · intro hafter
    have hget := fun k => congrArg (fun v => JsonOf.get? v k) (show _ = _ from hafter)
    simp only [enc_restamp, skillRecordJson_restamp] at hget
    have hstatus := hget "status"
    have hupdated := hget "updated_at"
    simp only [if_true, if_neg (show "updated_at" ≠ "status" by decide)] at hstatus hupdated
    exact ⟨SkillStatus.text_injective (JsonOf.str.inj (Option.some.inj hstatus)),
      JsonOf.str.inj (Option.some.inj hupdated)⟩
  · intro hsame
    obtain ⟨rfl, rfl⟩ := hsame
    obtain ⟨ms, hms, hsorted⟩ := enc_isObj (skill.restamp status updatedAt)
    rw [Tells, hms, skillRecordJson]
    congr 1
    refine JsonOf.obj_ext hsorted (dictOf_sorted _) fun k => ?_
    rw [← hms, enc_restamp, h]
    exact (skillRecordJson_restamp key row status updatedAt.text k).symm

theorem Tells.status (h : Tells key row skill) : skill.status = row.status :=
  (congrArg SkillRow.status h.recorded.row_eq).symm

theorem Tells.updatedAt (h : Tells key row skill) : skill.updatedAt.text = row.updatedAt :=
  (congrArg SkillRow.updatedAt h.recorded.row_eq).symm

/-- Beside a version that an operation approves, record and row change alike. -/
theorem Tells.beside (h : Tells key row skill) (skillId : String) (occurredAt : Timestamp) :
    Tells key (row.beside skillId occurredAt.text key)
      (skill.beside skillId (some occurredAt) key) := by
  rw [SkillRow.beside, SkillRecord.beside, h.status]
  split
  · exact (tells_restamp h).mpr ⟨rfl, rfl⟩
  · exact h

/-- Beside a version that is stored approved, the record keeps its time. -/
theorem tells_beside_none (h : Tells key row skill) (skillId now : String) :
    Tells key (row.beside skillId now key) (skill.beside skillId none key) ↔
      ((ofLex key).1 = skillId → row.status = .approved → row.updatedAt = now) := by
  rw [SkillRow.beside, SkillRecord.beside, h.status]
  split
  · next hboth =>
    rw [tells_restamp h]
    constructor
    · intro hsame _ _
      exact h.updatedAt.symm.trans hsame.2
    · intro hnow
      exact ⟨rfl, h.updatedAt.trans (hnow hboth.1 hboth.2)⟩
  · next hboth => exact ⟨fun _ hid hstatus => absurd ⟨hid, hstatus⟩ hboth, fun _ => h⟩

/-- Beside a revision, it does not change at all. -/
theorem tells_beside_self (h : Tells key row skill) (skillId now : String) :
    Tells key (row.beside skillId now key) skill ↔
      ((ofLex key).1 = skillId → row.status ≠ .approved) := by
  rw [SkillRow.beside]
  split
  · next hboth =>
    constructor
    · intro hafter
      have hstatus : SkillStatus.deprecated = row.status := hafter.status.symm.trans h.status
      rw [hboth.2] at hstatus
      exact absurd hstatus (by decide)
    · intro hne
      exact absurd hboth.2 (hne hboth.1)
  · next hboth => exact ⟨fun _ hid hstatus => hboth ⟨hid, hstatus⟩, fun _ => h⟩

end

/-! ### Agreement -/

/-- The same skills, shown alike. -/
def Agrees (state : ReplayedSkills) (skills : SkillTable) : Prop :=
  ∀ key : String ×ₗ Nat,
    state[key]?.map SkillRecord.codec.enc = skills[key]?.map (skillRecordJson key)

section

variable {state state' : ReplayedSkills} {skills skills' : SkillTable} {key : String ×ₗ Nat}
  {row : SkillRow} {skill : SkillRecord}

theorem Agrees.stored (h : Agrees state skills) (hskill : state[key]? = some skill) :
    ∃ row, skills[key]? = some row ∧ Tells key row skill := by
  have hkey := h key
  rw [hskill] at hkey
  obtain ⟨row, hrow, hshown⟩ := Option.map_eq_some_iff.mp hkey.symm
  exact ⟨row, hrow, hshown.symm⟩

theorem Agrees.replayed (h : Agrees state skills) (hrow : skills[key]? = some row) :
    ∃ skill, state[key]? = some skill ∧ Tells key row skill := by
  have hkey := h key
  rw [hrow] at hkey
  obtain ⟨skill, hskill, hshown⟩ := Option.map_eq_some_iff.mp hkey
  exact ⟨skill, hskill, hshown⟩

/-- One version is stored on both sides, and the others change in some way. -/
theorem agrees_stored_iff (h : Agrees state skills) {f : String ×ₗ Nat → SkillRecord → SkillRecord}
    {g : String ×ₗ Nat → SkillRow → SkillRow} (hskill : state'[key]? = some skill)
    (hrow : skills'[key]? = some row) (hstate : ∀ k ≠ key, state'[k]? = state[k]?.map (f k))
    (hskills : ∀ k ≠ key, skills'[k]? = skills[k]?.map (g k)) :
    Agrees state' skills' ↔ Tells key row skill ∧ ∀ k ≠ key, ∀ old record, skills[k]? = some old →
      Tells k old record → Tells k (g k old) (f k record) := by
  constructor
  · intro hafter
    have hkey := hafter key
    rw [hskill, hrow] at hkey
    refine ⟨Option.some.inj hkey, fun k hk old record hold htells => ?_⟩
    obtain ⟨found, hfound, hshown⟩ := h.replayed hold
    obtain rfl := SkillRecord.codec.enc_injective (hshown.trans htells.symm)
    have hother := hafter k
    rw [hstate k hk, hskills k hk, hfound, hold] at hother
    exact Option.some.inj hother
  · intro hboth k
    obtain ⟨hkey, hothers⟩ := hboth
    by_cases hk : k = key
    · rw [hk, hskill, hrow]
      exact congrArg some hkey
    · rw [hstate k hk, hskills k hk]
      cases hold : skills[k]? with
      | none =>
        have hnone := h k
        rw [hold, Option.map_none, Option.map_eq_none_iff] at hnone
        rw [hnone]
        rfl
      | some old =>
        obtain ⟨found, hfound, hshown⟩ := h.replayed hold
        rw [hfound]
        exact congrArg some (hothers k hk old found hold hshown)

/-- The approved versions beside the one that is stored were changed when it was. -/
def ChangedAt (now : String) (skills : SkillTable) (skillId : String) : Prop :=
  ∀ version row, skills[skillKey skillId version]? = some row → row.status = .approved →
    row.updatedAt = now

/-- No version of the skill is approved. -/
def NoneApproved (skills : SkillTable) (skillId : String) : Prop :=
  ∀ version row, skills[skillKey skillId version]? = some row → row.status ≠ .approved

/-- When an operation replays to what it did.  A record that is stored carries the members of its
document, and one that is sent again is as it is stored.  One that is stored approved finds no
approved version, or one that was changed at the same time; a revision must find none. -/
def SkillOperation.Plain (now : String) (skills : SkillTable) : SkillOperation → Prop
  | .createSkill _ skill | .importSkill _ skill =>
    (∀ row, skills[keyOf skill]? = some row → Tells (keyOf skill) row skill) ∧
    (skills[keyOf skill]? = none → Tells (keyOf skill) (rowOf skill) skill ∧
      (skill.status = .approved → ChangedAt now skills skill.skillId.text))
  | .reviseSkill o => Tells (keyOf o.replacementSkill) (rowOf o.replacementSkill) o.replacementSkill ∧
      (o.replacementSkill.status = .approved → NoneApproved skills o.skillId.text)
  | .markSkillTested _ | .approveSkill _ | .deprecateSkill _ => True

variable {now : String} {occurredAt : Timestamp}

/-- A record is stored, and those beside it change when it is approved. -/
theorem agrees_insert_iff (h : Agrees state skills) {approved : Prop} [Decidable approved]
    {f : String ×ₗ Nat → SkillRecord → SkillRecord} {g : String ×ₗ Nat → SkillRow → SkillRow}
    (hrow : skills'[key]? = some row)
    (hskills : ∀ k ≠ key, skills'[k]? = if approved then skills[k]?.map (g k) else skills[k]?) :
    Agrees ((if approved then state.map f else state).insert key skill) skills' ↔
      Tells key row skill ∧ (approved → ∀ k ≠ key, ∀ old record, skills[k]? = some old →
        Tells k old record → Tells k (g k old) (f k record)) := by
  by_cases happroved : approved
  · have hskills' : ∀ k ≠ key, skills'[k]? = skills[k]?.map (g k) := by
      intro k hk
      rw [hskills k hk, if_pos happroved]
    rw [if_pos happroved, agrees_stored_iff h (f := f) (by rw [Table.get_insert, if_pos rfl]) hrow
      (fun k hk => by rw [Table.get_insert, if_neg hk, Table.get_mapped]) hskills']
    exact and_congr_right fun _ => ⟨fun hothers _ => hothers, fun hothers => hothers happroved⟩
  · have hskills' : ∀ k ≠ key, skills'[k]? = skills[k]?.map fun old => old := by
      intro k hk
      rw [hskills k hk, if_neg happroved]
      exact Option.map_id'.symm
    rw [if_neg happroved, agrees_stored_iff h (f := fun _ record => record)
      (by rw [Table.get_insert, if_pos rfl]) hrow
      (fun k hk => by rw [Table.get_insert, if_neg hk]; exact Option.map_id'.symm) hskills']
    exact and_congr_right fun _ => ⟨fun _ h => absurd h happroved, fun _ _ _ _ _ _ h => h⟩

theorem changedAt_iff (hagree : Agrees state skills) {skillId : String} {version : Nat}
    (hnone : skills[skillKey skillId version]? = none) :
    (∀ k ≠ skillKey skillId version, ∀ old record, skills[k]? = some old → Tells k old record →
      Tells k (old.beside skillId now k) (record.beside skillId none k)) ↔
      ChangedAt now skills skillId := by
  constructor
  · intro hothers v old hold hstatus
    have hne : skillKey skillId v ≠ skillKey skillId version := by
      intro heq
      rw [heq, hnone] at hold
      cases hold
    obtain ⟨record, _, htells⟩ := hagree.replayed hold
    exact (tells_beside_none htells skillId now).mp (hothers _ hne old record hold htells) rfl hstatus
  · intro hchanged k _ old record hold htells
    refine (tells_beside_none htells skillId now).mpr fun hid hstatus => ?_
    refine hchanged (ofLex k).2 old ?_ hstatus
    rw [← skillKey_eq.mpr ⟨hid, rfl⟩]
    exact hold

theorem noneApproved_iff (hagree : Agrees state skills) {skillId : String} {version : Nat}
    (hnone : skills[skillKey skillId version]? = none) :
    (∀ k ≠ skillKey skillId version, ∀ old record, skills[k]? = some old → Tells k old record →
      Tells k (old.beside skillId now k) record) ↔ NoneApproved skills skillId := by
  constructor
  · intro hothers v old hold
    have hne : skillKey skillId v ≠ skillKey skillId version := by
      intro heq
      rw [heq, hnone] at hold
      cases hold
    obtain ⟨record, _, htells⟩ := hagree.replayed hold
    exact (tells_beside_self htells skillId now).mp (hothers _ hne old record hold htells) rfl
  · intro hnoneApproved k _ old record hold htells
    refine (tells_beside_self htells skillId now).mpr fun hid => ?_
    refine hnoneApproved (ofLex k).2 old ?_
    rw [← skillKey_eq.mpr ⟨hid, rfl⟩]
    exact hold

/-- What a version beside a stored one becomes. -/
theorem get_settle_of_ne {skillId at' : String} {version : Nat} {k : String ×ₗ Nat}
    (hk : k ≠ skillKey skillId version) : (settle skills skillId at' version row)[k]? =
      if row.status = .approved then skills[k]?.map (SkillRow.beside skillId at' k)
      else skills[k]? := by
  rw [get_settle, if_neg hk]

theorem get_settle_self {skillId at' : String} {version : Nat} :
    (settle skills skillId at' version row)[skillKey skillId version]? = some row := by
  rw [get_settle, if_pos rfl]

/-- A record is stored, and its row is settled. -/
theorem agrees_settle_iff (h : Agrees state skills) (skillId : String) (version : Nat)
    (skill : SkillRecord) (row : SkillRow) (now : String)
    (f : String ×ₗ Nat → SkillRecord → SkillRecord) :
    Agrees ((if row.status = .approved then state.map f else state).insert
      (skillKey skillId version) skill) (settle skills skillId now version row) ↔
      Tells (skillKey skillId version) row skill ∧ (row.status = .approved →
        ∀ k ≠ skillKey skillId version, ∀ old record, skills[k]? = some old →
        Tells k old record → Tells k (old.beside skillId now k) (f k record)) :=
  agrees_insert_iff h get_settle_self fun _ hk => get_settle_of_ne hk

/-- A record that is created or imported. -/
theorem putSkill_agrees_iff (hone : OneApproved skills) (hagree : Agrees state skills)
    (h : putSkill now skills skill = .ok skills') :
    Agrees ((if skill.status = .approved then
      state.map (SkillRecord.beside skill.skillId.text none) else state).insert (keyOf skill) skill)
        skills' ↔
      (∀ row, skills[keyOf skill]? = some row → Tells (keyOf skill) row skill) ∧
      (skills[keyOf skill]? = none → Tells (keyOf skill) (rowOf skill) skill ∧
        (skill.status = .approved → ChangedAt now skills skill.skillId.text)) := by
  obtain ⟨⟨row, hrow⟩, rfl⟩ | ⟨hnone, rfl⟩ := putSkill_ok hone h
  · rw [agrees_insert_iff (g := fun _ old => old) hagree hrow
      fun k _ => by rw [Option.map_id', ite_self], hrow]
    constructor
    · intro hboth
      refine ⟨fun found hfound => ?_, fun hnone => nomatch hnone⟩
      obtain rfl := Option.some.inj hfound
      exact hboth.1
    · intro hboth
      have htells := hboth.1 row rfl
      refine ⟨htells, fun hstatus k hk old record hold hrecord => ?_⟩
      -- the version itself is the approved one
      have hother : ¬((ofLex k).1 = skill.skillId.text ∧ record.status = .approved) := by
        intro hboth
        obtain ⟨hid, hstatus'⟩ := hboth
        have hkey : k = skillKey skill.skillId.text (ofLex k).2 := skillKey_eq.mpr ⟨hid, rfl⟩
        rw [hkey] at hold
        have hsame := hone _ _ _ old row hold hrow (hrecord.status.symm.trans hstatus')
          (htells.status.symm.trans hstatus)
        exact hk (hkey.trans (by rw [hsame]; rfl))
      rw [SkillRecord.beside, if_neg hother]
      exact hrecord
  · refine (agrees_settle_iff hagree skill.skillId.text (versionOf skill.version) skill (rowOf skill)
      now _).trans ?_
    rw [changedAt_iff hagree hnone]
    constructor
    · intro hboth
      refine ⟨fun row hrow => ?_, fun _ => hboth⟩
      rw [hnone] at hrow
      cases hrow
    · exact fun hboth => hboth.2 hnone

/-- The version after the latest one is not there. -/
theorem absent_after_latest {skillId : String} {latest : Nat}
    (h : (skillVersions skills skillId).getLast? = some latest) :
    skills[skillKey skillId (latest + 1)]? = none := by
  cases hrow : skills[skillKey skillId (latest + 1)]? with
  | none => rfl
  | some row =>
    have hmem : (skillKey skillId (latest + 1), row) ∈
        skills.toList.filter fun r => (ofLex r.1).1 = skillId := by
      rw [List.mem_filter]
      exact ⟨Table.mem_toList.mpr hrow, decide_eq_true rfl⟩
    have hsorted : (skillVersions skills skillId).Pairwise (· ≤ ·) := by
      rw [skillVersions, List.pairwise_map]
      refine (skills.toList_sorted.filter _).imp_of_mem fun {a b} ha hb hlt => ?_
      have hida := (List.mem_filter.mp ha).2
      have hidb := (List.mem_filter.mp hb).2
      simp only [decide_eq_true_eq] at hida hidb
      obtain hfirst | hboth := Prod.Lex.lt_iff.mp hlt
      · rw [hida, hidb] at hfirst
        exact absurd hfirst (lt_irrefl _)
      · exact hboth.2.le
    have hversion : latest + 1 ∈ skillVersions skills skillId :=
      List.mem_map.mpr ⟨_, hmem, rfl⟩
    obtain ⟨before, hbefore⟩ := List.getLast?_eq_some_iff.mp h
    rw [hbefore, List.pairwise_append] at hsorted
    rw [hbefore, List.mem_append, List.mem_singleton] at hversion
    obtain hversion | hversion := hversion
    · have hle := hsorted.2.2 _ hversion latest (List.mem_singleton_self latest)
      omega
    · omega

/-- A record that replaces the latest version. -/
theorem reviseSkill_agrees_iff {o : ReviseSkill} {occurredAt : String} (hone : OneApproved skills)
    (hagree : Agrees state skills)
    (h : applySkillOperation now occurredAt skills (.reviseSkill o) = .ok skills') :
    Agrees (state.insert (keyOf o.replacementSkill) o.replacementSkill) skills' ↔
      Tells (keyOf o.replacementSkill) (rowOf o.replacementSkill) o.replacementSkill ∧
      (o.replacementSkill.status = .approved → NoneApproved skills o.skillId.text) := by
  simp only [applySkillOperation, bind_eq_ok, ensure_eq_ok] at h
  obtain ⟨_, _, _, hlatest, _, hrevision, h⟩ := h
  obtain ⟨hid, hversion⟩ := hrevision
  have hnone : skills[keyOf o.replacementSkill]? = none := by
    rw [keyOf, hid, hversion]
    exact absent_after_latest hlatest
  obtain ⟨⟨row, hrow⟩, _⟩ | ⟨_, rfl⟩ := putSkill_ok hone h
  · rw [hnone] at hrow
    cases hrow
  · have hplain : (if (rowOf o.replacementSkill).status = .approved then
        state.map (fun _ record => record) else state) = state := by
      split
      · exact Table.ext fun k => by rw [Table.get_mapped, Option.map_id']
      · rfl
    have hiff := agrees_settle_iff hagree o.replacementSkill.skillId.text
      (versionOf o.replacementSkill.version) o.replacementSkill (rowOf o.replacementSkill) now
      fun _ record => record
    rw [hplain, noneApproved_iff hagree hnone, hid] at hiff
    rw [keyOf, hid]
    exact hiff

/-- A version whose status changes. -/
theorem updateSkillStatus_agrees {skillId : String} {version : Nat} {status expected : SkillStatus}
    (hexpected : status = .approved → expected ≠ .approved) (hagree : Agrees state skills)
    (h : updateSkillStatus occurredAt.text skills skillId version status expected = .ok skills') :
    ∃ state', replayStatus occurredAt state skillId version status = some state' ∧
      Agrees state' skills' := by
  obtain ⟨old, hold, _, rfl⟩ := updateSkillStatus_ok hexpected h
  obtain ⟨current, hcurrent, htells⟩ := hagree.replayed hold
  refine ⟨_, by rw [replayStatus, hcurrent]; rfl, ?_⟩
  refine (agrees_settle_iff hagree skillId version (current.restamp status occurredAt)
    (old.restamp status occurredAt.text) occurredAt.text _).mpr ⟨?_, ?_⟩
  · exact (tells_restamp htells).mpr ⟨rfl, rfl⟩
  · exact fun _ k _ _ _ _ h => h.beside skillId occurredAt

/-- **When an operation replays** to what it did. -/
theorem replay_agrees_iff {op : SkillOperation} (hone : OneApproved skills)
    (hagree : Agrees state skills)
    (h : applySkillOperation now occurredAt.text skills op = .ok skills') :
    ∃ state', replaySkillOperation occurredAt state op = some state' ∧
      (Agrees state' skills' ↔ op.Plain now skills) := by
  have hstatus : ∀ {skillId : String} {version : Nat} {status expected : SkillStatus},
      (status = .approved → expected ≠ .approved) →
      updateSkillStatus occurredAt.text skills skillId version status expected = .ok skills' →
      ∃ state', replayStatus occurredAt state skillId version status = some state' ∧
        (Agrees state' skills' ↔ True) := by
    intro skillId version status expected hexpected h
    obtain ⟨state', hstate, hafter⟩ := updateSkillStatus_agrees hexpected hagree h
    exact ⟨state', hstate, iff_of_true hafter trivial⟩
  cases op with
  | createSkill _ skill => exact ⟨_, rfl, putSkill_agrees_iff hone hagree h⟩
  | importSkill _ skill => exact ⟨_, rfl, putSkill_agrees_iff hone hagree h⟩
  | reviseSkill o => exact ⟨_, rfl, reviseSkill_agrees_iff hone hagree h⟩
  | markSkillTested o =>
    simp only [applySkillOperation, bind_eq_ok] at h
    obtain ⟨_, _, _, _, h⟩ := h
    exact hstatus (fun _ => by decide) h
  | approveSkill o =>
    simp only [applySkillOperation, bind_eq_ok] at h
    obtain ⟨_, _, _, _, h⟩ := h
    exact hstatus (fun _ => by decide) h
  | deprecateSkill o =>
    simp only [applySkillOperation, bind_eq_ok] at h
    obtain ⟨_, _, _, _, h⟩ := h
    exact hstatus (fun h => absurd h (by decide)) h

/-! ### Keys -/

/-- Every record is under its own key. -/
def Keyed (state : ReplayedSkills) : Prop :=
  ∀ (key : String ×ₗ Nat) (skill : SkillRecord), state[key]? = some skill → keyOf skill = key

theorem Keyed.insert (h : Keyed state) (hskill : keyOf skill = key) :
    Keyed (state.insert key skill) := by
  intro k record hrecord
  rw [Table.get_insert] at hrecord
  split at hrecord
  · next hk =>
    obtain rfl := Option.some.inj hrecord
    rw [hskill, hk]
  · exact h k record hrecord

theorem Keyed.map (h : Keyed state) (skillId : String) (occurredAt : Option Timestamp) :
    Keyed (state.map (SkillRecord.beside skillId occurredAt)) := by
  intro k record hrecord
  rw [Table.get_mapped] at hrecord
  obtain ⟨old, hold, rfl⟩ := Option.map_eq_some_iff.mp hrecord
  have hsame : keyOf (old.beside skillId occurredAt k) = keyOf old := by
    rw [SkillRecord.beside]
    split <;> rfl
  rw [hsame]
  exact h k old hold

theorem Keyed.replay {op : SkillOperation} (h : Keyed state)
    (hop : replaySkillOperation occurredAt state op = some state') : Keyed state' := by
  have hput : ∀ {skill : SkillRecord}, Keyed ((if skill.status = .approved then
      state.map (SkillRecord.beside skill.skillId.text none) else state).insert
        (keyOf skill) skill) := by
    intro skill
    refine Keyed.insert ?_ rfl
    split
    · exact h.map _ _
    · exact h
  have hstatus : ∀ {skillId : String} {version : Nat} {status : SkillStatus},
      replayStatus occurredAt state skillId version status = some state' → Keyed state' := by
    intro skillId version status hstatus
    obtain ⟨current, hcurrent, hstate⟩ := Option.bind_eq_some_iff.mp hstatus
    obtain rfl := Option.some.inj hstate
    refine Keyed.insert ?_ (h _ current hcurrent)
    split
    · exact h.map _ _
    · exact h
  cases op with
  | createSkill _ skill => exact Option.some.inj hop ▸ hput
  | importSkill _ skill => exact Option.some.inj hop ▸ hput
  | reviseSkill o => exact Option.some.inj hop ▸ h.insert rfl
  | markSkillTested o => exact hstatus hop
  | approveSkill o => exact hstatus hop
  | deprecateSkill o => exact hstatus hop

theorem agrees_iff_shown (h : Keyed state) : Agrees state skills ↔
    state.toList.map (fun r => SkillRecord.codec.enc r.2) = listSkills skills := by
  constructor
  · intro hagree
    exact Table.toList_congr (f := fun _ record => SkillRecord.codec.enc record) hagree
  · intro hshown k
    -- what is shown tells its key
    have hforth : ∀ record, state[k]? = some record → ∃ row, skills[k]? = some row ∧
        Tells k row record := by
      intro record hrecord
      have hmem : SkillRecord.codec.enc record ∈ listSkills skills := by
        rw [← hshown]
        exact List.mem_map.mpr ⟨(k, record), Table.mem_toList.mpr hrecord, rfl⟩
      obtain ⟨⟨k', row⟩, hrow, htells⟩ := List.mem_map.mp hmem
      have htells' : Tells k' row record := htells.symm
      obtain rfl : k = k' := (h k record hrecord).symm.trans htells'.recorded.key_eq
      exact ⟨row, Table.mem_toList.mp hrow, htells'⟩
    have hback : ∀ row, skills[k]? = some row → ∃ record, state[k]? = some record := by
      intro row hrow
      have hmem : skillRecordJson k row ∈ state.toList.map fun r => SkillRecord.codec.enc r.2 := by
        rw [hshown]
        exact List.mem_map.mpr ⟨(k, row), Table.mem_toList.mpr hrow, rfl⟩
      obtain ⟨⟨k', record⟩, hrecord, htells⟩ := List.mem_map.mp hmem
      have htells' : Tells k row record := htells
      have hfound := Table.mem_toList.mp hrecord
      obtain rfl : k' = k := (h k' record hfound).symm.trans htells'.recorded.key_eq
      exact ⟨record, hfound⟩
    cases hrecord : state[k]? with
    | some record =>
      obtain ⟨row, hrow, htells⟩ := hforth record hrecord
      rw [hrow]
      exact congrArg some htells
    | none =>
      cases hrow : skills[k]? with
      | none => rfl
      | some row =>
        obtain ⟨record, hfound⟩ := hback row hrow
        rw [hfound] at hrecord
        cases hrecord

/-! ### Proposals -/

/-- The operations replay, each where the ones before it lead. -/
def PlainFrom (now occurredAt : String) : SkillTable → List SkillOperation → Prop
  | _, [] => True
  | skills, op :: ops => op.Plain now skills ∧ ∀ skills',
      applySkillOperation now occurredAt skills op = .ok skills' →
        PlainFrom now occurredAt skills' ops

theorem replay_operations {ops : List SkillOperation} (hone : OneApproved skills)
    (hagree : Agrees state skills) (hkeyed : Keyed state)
    (h : ops.foldlM (applySkillOperation now occurredAt.text) skills = .ok skills')
    (hplain : PlainFrom now occurredAt.text skills ops) :
    ∃ state', ops.foldlM (replaySkillOperation occurredAt) state = some state' ∧
      Agrees state' skills' ∧ Keyed state' := by
  induction ops generalizing state skills with
  | nil =>
    obtain rfl := Except.ok.inj h
    exact ⟨state, rfl, hagree, hkeyed⟩
  | cons op ops ih =>
    rw [List.foldlM_cons, bind_eq_ok] at h
    obtain ⟨next, hop, h⟩ := h
    obtain ⟨hopPlain, hrest⟩ := hplain
    obtain ⟨middle, hmiddle, hiff⟩ := replay_agrees_iff hone hagree hop
    obtain ⟨state', hstate, hafter⟩ := ih (hone.apply hop) (hiff.mpr hopPlain) (hkeyed.replay hmiddle)
      h (hrest next hop)
    refine ⟨state', ?_, hafter⟩
    rw [List.foldlM_cons, hmiddle]
    exact hstate

end

/-! ### The store -/

/-- What the transaction of a commit finds and leaves. -/
theorem commitTransaction_spec {now : String} {p : ProductProposal} {before : Hash}
    {db db' : ProductDb} {receipt : ProductReceipt}
    (h : commitTransaction now p before db = .ok (receipt, db')) :
    (∀ row ∈ db.proposals, row.proposal.proposalId ≠ p.proposalId) ∧
      receipt.outcome = .committed ∧ receipt.proposalId = p.proposalId ∧
      db'.proposals = db.proposals ++ [⟨p.hash, p⟩] ∧ db'.receipts = db.receipts ++ [receipt] := by
  simp only [commitTransaction, bind_eq_ok, pure_eq_ok] at h
  obtain ⟨db₁, h₁, skills, _, db₂, h₂, h⟩ := h
  obtain ⟨hnew, rfl⟩ := insertProductProposal_ok h₁
  obtain ⟨-, rfl⟩ := insertProductReceipt_ok h₂
  obtain ⟨rfl, rfl⟩ := Prod.mk.inj h
  exact ⟨fun row hrow => (hnew row hrow).1, rfl, rfl, rfl, rfl⟩

/-- The proposal of every commit is stored, and replayed they are the skills. -/
structure ReplaysSkills (db : ProductDb) : Prop where
  stored : ∀ r ∈ db.receipts, r.outcome = .committed → ∃ row ∈ db.proposals,
    row.proposal.proposalId = r.proposalId
  agrees : ∃ state, replaySkills (committedProposals db) = some state ∧
    Agrees state db.tables.skills ∧ Keyed state

section

variable {db db' : ProductDb} {p : ProductProposal} {receipt : ProductReceipt}

/-- A proposal and its receipt more. -/
theorem committedProposals_append
    (hstored : ∀ r ∈ db.receipts, r.outcome = .committed → ∃ row ∈ db.proposals,
      row.proposal.proposalId = r.proposalId)
    (hproposals : db'.proposals = db.proposals ++ [⟨p.hash, p⟩])
    (hreceipts : db'.receipts = db.receipts ++ [receipt]) :
    committedProposals db' = committedProposals db ++ (if receipt.outcome = .committed then
      ((db'.proposals.find? fun row => row.proposal.proposalId = receipt.proposalId).map
        ProposalRow.proposal).toList else []) := by
  rw [committedProposals, hreceipts, List.filterMap_append]
  congr 1
  · refine List.filterMap_congr fun r hr => ?_
    split
    · next houtcome =>
      obtain ⟨row, hrow, hid⟩ := hstored r hr houtcome
      have hfound : (db.proposals.find? fun row => row.proposal.proposalId = r.proposalId).isSome :=
        List.find?_isSome.mpr ⟨row, hrow, decide_eq_true hid⟩
      obtain ⟨found, hfound⟩ := Option.isSome_iff_exists.mp hfound
      rw [hproposals, List.find?_append, hfound]
      rfl
    · rfl
  · rw [List.filterMap_cons, List.filterMap_nil]
    by_cases houtcome : receipt.outcome = .committed
    · rw [if_pos houtcome, if_pos houtcome]
      generalize Option.map ProposalRow.proposal _ = found
      cases found <;> rfl
    · rw [if_neg houtcome, if_neg houtcome]

/-- The operations of a proposal that is committed are replayed last. -/
theorem replaySkills_commit {now : String} {before : Hash} {state : ReplayedSkills}
    (hdb : ReplaysSkills db) (h : commitTransaction now p before db = .ok (receipt, db'))
    (hstate : replaySkills (committedProposals db) = some state) :
    replaySkills (committedProposals db') =
      p.operations.1.foldlM (replaySkillOperation p.proposedAt) state := by
  obtain ⟨hnew, houtcome, hid, hproposals, hreceipts⟩ := commitTransaction_spec h
  have hnone : db.proposals.find? (fun row => row.proposal.proposalId = receipt.proposalId) =
      none := by
    refine List.find?_eq_none.mpr fun row hrow => ?_
    rw [hid, decide_eq_true_eq]
    exact hnew row hrow
  have hfind : db'.proposals.find? (fun row => row.proposal.proposalId = receipt.proposalId) =
      some ⟨p.hash, p⟩ := by
    rw [hproposals, List.find?_append, hnone, hid]
    simp
  rw [committedProposals_append hdb.stored hproposals hreceipts, if_pos houtcome, hfind,
    replaySkills, List.foldlM_append]
  rw [replaySkills] at hstate
  rw [hstate]
  show ([p].foldlM (fun state p => p.operations.1.foldlM (replaySkillOperation p.proposedAt) state)
    state) = _
  simp only [List.foldlM_cons, List.foldlM_nil, bind_pure]

theorem ReplaysSkills.commit {now : String} {before : Hash} (hdb : ReplaysSkills db)
    (hone : OneApproved db.tables.skills)
    (h : commitTransaction now p before db = .ok (receipt, db'))
    (hplain : PlainFrom now p.proposedAt.text db.tables.skills p.operations.1) :
    ReplaysSkills db' := by
  obtain ⟨_, _, hid, hproposals, hreceipts⟩ := commitTransaction_spec h
  obtain ⟨state, hstate, hagree, hkeyed⟩ := hdb.agrees
  obtain ⟨state', hstate', hafter⟩ := replay_operations hone hagree hkeyed
    (commitTransaction_skills h) hplain
  refine ⟨?_, state', (replaySkills_commit hdb h hstate).trans hstate', hafter⟩
  intro r hr hcommitted
  rw [hreceipts] at hr
  rw [hproposals]
  obtain hr | hr := List.mem_append.mp hr
  · obtain ⟨row, hrow, hid⟩ := hdb.stored r hr hcommitted
    exact ⟨row, List.mem_append_left _ hrow, hid⟩
  · obtain rfl := List.mem_singleton.mp hr
    exact ⟨_, List.mem_append_right _ (List.mem_singleton_self _), hid.symm⟩

theorem ReplaysSkills.reject (hdb : ReplaysSkills db) (houtcome : receipt.outcome ≠ .committed)
    (h : rejectTransaction p receipt db = .ok db') : ReplaysSkills db' := by
  have hafter := rejectTransaction_eq_ok h
  have hproposals : db'.proposals = db.proposals ++ [⟨p.hash, p⟩] := by rw [hafter]
  have hreceipts : db'.receipts = db.receipts ++ [receipt] := by rw [hafter]
  refine ⟨?_, ?_⟩
  · intro r hr hcommitted
    rw [hreceipts] at hr
    rw [hproposals]
    obtain hr | hr := List.mem_append.mp hr
    · obtain ⟨row, hrow, hid⟩ := hdb.stored r hr hcommitted
      exact ⟨row, List.mem_append_left _ hrow, hid⟩
    · obtain rfl := List.mem_singleton.mp hr
      exact absurd hcommitted houtcome
  · rw [committedProposals_append hdb.stored hproposals hreceipts, if_neg houtcome,
      List.append_nil, show db'.tables.skills = db.tables.skills by rw [hafter]]
    exact hdb.agrees

theorem ReplaysSkills.same (hdb : ReplaysSkills db) (h : db.SameStore db') : ReplaysSkills db' := by
  obtain ⟨hskills, hproposals, hreceipts⟩ := h
  refine ⟨?_, ?_⟩
  · rw [hproposals, hreceipts]
    exact hdb.stored
  · rw [committedProposals, hproposals, hreceipts, hskills]
    exact hdb.agrees

end

/-! ### Runs -/

/-- A step that commits a proposal commits one that replays. -/
def Taken.Plain {ι : Type} (st : Taken ι) : Prop :=
  ∀ i c p rows receipt, st.before.phase i = .ready c p rows → st.event = .ended i c (.ok receipt) →
    PlainFrom c.now p.proposedAt.text st.before.db.tables.skills p.operations.1

section

variable {ι : Type} [DecidableEq ι] {s : Sys ι} {steps : List (Taken ι)}

theorem Run.replaysSkills (run : Run steps s) (hplain : ∀ st ∈ steps, st.Plain) :
    ReplaysSkills s.db := by
  induction run with
  | nil =>
    refine ⟨fun r hr => absurd hr List.not_mem_nil, ∅, rfl, fun key => ?_, fun key skill h => ?_⟩
    · rw [show Sys.start.db.tables.skills = ∅ from rfl, Table.get_empty, Table.get_empty]
      rfl
    · rw [Table.get_empty] at h
      cases h
  | @snoc steps before after event run h ih =>
    have hbefore := ih fun st hst => hplain st (List.mem_append_left _ hst)
    have hstep := hplain _ (List.mem_append_right _ (List.mem_singleton_self _))
    obtain hsame | ⟨i, c, p, rows, receipt, hphase, rfl, hcommit⟩ |
        ⟨i, c, p, receipt, hphase, hreject⟩ := h.store_cases
    · exact hbefore.same hsame
    · exact hbefore.commit run.oneApproved hcommit (hstep i c p rows receipt hphase rfl)
    · have hok := run.phaseOk i
      rw [hphase] at hok
      exact hbefore.reject hok.2.1 hreject

/-- The report, read off the skills that were replayed. -/
theorem verifySkillReplay_eq {db : ProductDb} {state : ReplayedSkills}
    (hstate : replaySkills (committedProposals db) = some state) (hkeyed : Keyed state) :
    ∃ report, verifySkillReplay db = some report ∧
      (report.valid = true ↔ Agrees state db.tables.skills) := by
  refine ⟨_, by rw [verifySkillReplay, hstate]; rfl, ?_⟩
  rw [agrees_iff_shown hkeyed, decide_eq_true_eq]
  constructor
  · intro hdumps
    refine JsonOf.arr.inj (dumps_injective (.arr fun v hv => ?_) (.arr fun v hv => ?_) hdumps)
    · obtain ⟨r, _, rfl⟩ := List.mem_map.mp hv
      exact SkillRecord.codec.sorted r.2
    · obtain ⟨r, _, rfl⟩ := List.mem_map.mp hv
      exact skillRecordJson_sorted r.1 r.2
  · intro hshown
    rw [hshown]

/-- **A run verifies.**  However connections interleave, when every committed operation replays to
what it did, `verify_skill_replay` finds the stored skills in the committed proposals. -/
theorem skill_replay_valid (steps : List (Taken ι)) (s : Sys ι) (run : Run steps s)
    (hplain : ∀ st ∈ steps, st.Plain) :
    ∃ report, verifySkillReplay s.db = some report ∧ report.valid = true ∧
      report.replayedSkillCount = report.actualSkillCount ∧
      report.replayedHash = report.actualHash := by
  obtain ⟨state, hstate, hagree, hkeyed⟩ := (run.replaysSkills hplain).agrees
  have hshown := (agrees_iff_shown hkeyed).mp hagree
  refine ⟨_, by rw [verifySkillReplay, hstate]; rfl, ?_⟩
  rw [hshown]
  exact ⟨decide_eq_true rfl, rfl, rfl⟩

/-- A connection whose transaction is next, and whose call returns a receipt, commits. -/
theorem Step.commits {t : Sys ι} {i : ι} {c : ProductCall} {p : ProductProposal} {rows : RowsRead}
    {receipt : ProductReceipt} (h : Step s (.ended i c (.ok receipt)) t)
    (hphase : s.phase i = .ready c p rows) :
    commitTransaction c.now p (productStateHash rows) s.db = .ok (receipt, t.db) := by
  cases h with
  | finish i c m result hadvance hresult hcall =>
    have hanswer := advance_answer hadvance hresult
    rw [hphase] at hanswer
    cases hanswer with
    | committed hcommit => exact hcommit

/-- **When one more operation verifies.**  After a run that replays, and a call that commits one
operation, `verify_skill_replay` finds the skills valid exactly when the operation replays to what
it did. -/
theorem skill_replay_valid_iff (steps : List (Taken ι)) (st : Taken ι) (u : Sys ι)
    (run : Run (steps ++ [st]) u) (hplain : ∀ before ∈ steps, before.Plain) (i : ι)
    (c : ProductCall) (p : ProductProposal) (rows : RowsRead) (receipt : ProductReceipt)
    (hphase : st.before.phase i = .ready c p rows) (hevent : st.event = .ended i c (.ok receipt))
    (op : SkillOperation) (hop : p.operations.1 = [op]) :
    (∃ report, verifySkillReplay u.db = some report ∧ report.valid = true) ↔
      op.Plain c.now st.before.db.tables.skills := by
  obtain ⟨hbefore, hstep⟩ := run.last
  rw [hevent] at hstep
  have hcommit := hstep.commits hphase
  have hdb := hbefore.replaysSkills hplain
  obtain ⟨state, hstate, hagree, hkeyed⟩ := hdb.agrees
  have happly := commitTransaction_skills hcommit
  rw [hop, List.foldlM_cons, bind_eq_ok] at happly
  obtain ⟨skills', happly, hskills⟩ := happly
  obtain rfl : skills' = u.db.tables.skills := Except.ok.inj hskills
  obtain ⟨state', hstate', hiff⟩ := replay_agrees_iff hbefore.oneApproved hagree happly
  have hafter : replaySkills (committedProposals u.db) = some state' := by
    rw [replaySkills_commit hdb hcommit hstate, hop, List.foldlM_cons, hstate']
    rfl
  obtain ⟨report, hreport, hvalid⟩ := verifySkillReplay_eq hafter (hkeyed.replay hstate')
  rw [← hiff, ← hvalid]
  constructor
  · intro hfound
    obtain ⟨found, hfound, hfoundValid⟩ := hfound
    rw [hreport] at hfound
    obtain rfl := Option.some.inj hfound
    exact hfoundValid
  · exact fun hreportValid => ⟨report, hreport, hreportValid⟩

end

/-! ### A skill that is created -/

/-- Without a receipt there was no commit. -/
theorem plain_of_no_receipt {ι : Type} [DecidableEq ι] {steps : List (Taken ι)} {s : Sys ι}
    (run : Run steps s) (h : s.db.receipts = []) : ∀ st ∈ steps, st.Plain := by
  induction run with
  | nil => exact fun st hst => absurd hst List.not_mem_nil
  | @snoc steps before after event run hstep ih =>
    have hnone : ∀ {receipts : List ProductReceipt} {receipt : ProductReceipt},
        after.db.receipts ≠ receipts ++ [receipt] := by
      intro receipts receipt heq
      rw [h] at heq
      exact absurd heq (by simp)
    have hbefore : before.db.receipts = [] := by
      obtain hsame | ⟨_, _, _, _, _, _, _, hcommit⟩ | ⟨_, _, _, _, _, hreject⟩ := hstep.store_cases
      · rw [← hsame.receipts]
        exact h
      · exact absurd (commitTransaction_spec hcommit).2.2.2.2 hnone
      · exact absurd (congrArg ProductDb.receipts (rejectTransaction_eq_ok hreject)) hnone
    intro st hst
    obtain hst | hst := List.mem_append.mp hst
    · exact ih hbefore st hst
    · obtain rfl := List.mem_singleton.mp hst
      intro i c p rows receipt hphase hevent
      dsimp only at hphase hevent
      rw [hevent] at hstep
      exact absurd (commitTransaction_spec (hstep.commits hphase)).2.2.2.2 hnone

/-- A call that creates a skill in an empty store. -/
theorem create_taken {skill : SkillRecord} (h : versionOf skill.version ≤ maxRowId) :
    ∃ (steps : List (Taken Unit)) (st : Taken Unit) (u : Sys Unit) (c : ProductCall)
      (p : ProductProposal) (rows : RowsRead) (receipt : ProductReceipt) (opId : ProductOpId),
      Run (steps ++ [st]) u ∧ (∀ before ∈ steps, before.Plain) ∧
      st.before.phase () = .ready c p rows ∧ st.event = .ended () c (.ok receipt) ∧
      p.operations.1 = [.createSkill opId skill] ∧ st.before.db.tables.skills = ∅ := by
  let opId : ProductOpId := ⟨"product_op_000000000000000000000000", by decide +kernel⟩
  let p : ProductProposal :=
    { demoProposal with operations := ⟨[.createSkill opId skill], by simp⟩ }
  let c : ProductCall := ⟨ProductProposal.codec.enc p, ProductProposal.codec.sorted p, demoCall.now⟩
  have hcontinues : Continues (Sys.start : Sys Unit) _ := continues_ready (i := ()) (c := c) rfl
    (ProductProposal.codec.dec_enc p) rfl fun _ h => (Option.some.inj h).symm
  obtain ⟨steps, run, -⟩ := hcontinues [] .nil (by simp)
  have hfold : p.operations.1.foldlM (applySkillOperation c.now p.proposedAt.text) ∅ =
      .ok ((∅ : SkillTable).insert (keyOf skill) (rowOf skill)) :=
    bind_eq_ok.mpr ⟨_, putSkill_empty c.now h, rfl⟩
  obtain ⟨receipt, db, hcommit, -, -⟩ := commitTransaction_fresh
    (productStateHash ProductDb.empty.tables.rows) (fun _ => []) hfold
  have hphase : Function.update (Sys.start : Sys Unit).phase ()
      (.ready c p ProductDb.empty.tables.rows) () = .ready c p ProductDb.empty.tables.rows :=
    Function.update_self ..
  have hadvance := (congrArg (Phase.advance ProductDb.empty) hphase).trans (advance_commit hcommit)
  exact ⟨steps, _, _, c, p, _, receipt, opId,
    run.snoc (.finish () c _ (.ok receipt) hadvance rfl (congrArg Phase.call? hphase)),
    plain_of_no_receipt run rfl, hphase, rfl, rfl, rfl⟩

theorem version_demoSkill : versionOf demoSkill.version ≤ maxRowId := by
  simp [demoSkill, versionOf, AtLeast.first, AtLeast.ofInt, maxRowId]

/-- A record that carries the members of its document verifies. -/
theorem skill_replay_valid_of_demo : ∃ s : Sys Unit, s.db.proposals ≠ [] ∧
    ∃ report, verifySkillReplay s.db = some report ∧ report.valid = true ∧
      report.replayedSkillCount = report.actualSkillCount ∧
      report.replayedHash = report.actualHash := by
  obtain ⟨steps, st, u, c, p, rows, receipt, opId, run, hplain, hphase, hevent, hops, hempty⟩ :=
    create_taken (show versionOf (demoPacked []).version ≤ maxRowId from version_demoSkill)
  obtain ⟨_, hstep⟩ := run.last
  rw [hevent] at hstep
  have hproposals := (commitTransaction_spec (hstep.commits hphase)).2.2.2.1
  have hcreate : PlainFrom c.now p.proposedAt.text st.before.db.tables.skills p.operations.1 := by
    rw [hempty, hops]
    refine ⟨⟨fun row hrow => ?_, fun _ => ⟨(demoPacked_record []).symm, fun h => ?_⟩⟩,
      fun _ _ => trivial⟩
    · rw [Table.get_empty] at hrow
      cases hrow
    · exact absurd h (by decide)
  refine ⟨u, by rw [hproposals]; simp, skill_replay_valid _ u run fun before hbefore => ?_⟩
  obtain hbefore | hbefore := List.mem_append.mp hbefore
  · exact hplain before hbefore
  · obtain rfl := List.mem_singleton.mp hbefore
    intro i c' p' rows' receipt' hphase' _
    obtain ⟨rfl, rfl, _⟩ := Phase.ready.inj (hphase.symm.trans hphase')
    exact hcreate

/-- A record that does not is stored, and fails the verification. -/
theorem skill_replay_valid_iff_of_demo : ∃ u : Sys Unit,
    ¬∃ report, verifySkillReplay u.db = some report ∧ report.valid = true := by
  obtain ⟨steps, st, u, c, p, rows, receipt, opId, run, hplain, hphase, hevent, hops, hempty⟩ :=
    create_taken version_demoSkill
  refine ⟨u, fun hvalid => ?_⟩
  have hop := (skill_replay_valid_iff steps st u run hplain () c p rows receipt hphase hevent _
    hops).mp hvalid
  rw [hempty] at hop
  obtain ⟨htells, _⟩ := hop.2 (Table.get_empty _)
  have hpurpose : JsonOf.get? (SkillRecord.codec.enc demoSkill) "purpose" = some (.str "p") := rfl
  rw [htells, skillRecordJson, JsonOf.get?_dictOf] at hpurpose
  cases hpurpose

end SharedMind.Product
