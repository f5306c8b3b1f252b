import SharedMind.Product.PackageTrip
import SharedMind.Product.Total
import SharedMind.Py.Tables

/-!
# The life of a skill

* `settle`: what every operation that changes a skill comes to.  One version is stored, and an
  approved one takes the place of the version that was approved before.
* `OneApproved`: no skill has two approved versions.
* `skill_lifecycle`: versions are never lost, keep their content and never go back.
-/

namespace SharedMind.Product

open Py

/-! ### Rows -/

/-- The order a version goes through its statuses in. -/
def SkillStatus.rank : SkillStatus → Nat
  | draft => 0
  | tested => 1
  | approved => 2
  | deprecated => 3

theorem SkillStatus.rank_lt_deprecated {status : SkillStatus} (h : status ≠ .deprecated) :
    status.rank < SkillStatus.deprecated.rank := by
  cases status with
  | deprecated => exact absurd rfl h
  | draft => decide
  | tested => decide
  | approved => decide

namespace SkillRow

def restamp (row : SkillRow) (status : SkillStatus) (updatedAt : String) : SkillRow :=
  { row with status := status, updatedAt := updatedAt }

/-- What a row becomes when a version of the skill is approved. -/
def beside (skillId occurredAt : String) (key : String ×ₗ Nat) (row : SkillRow) : SkillRow :=
  if (ofLex key).1 = skillId ∧ row.status = .approved then row.restamp .deprecated occurredAt
  else row

/-- The same content under a later status. -/
structure Later (row row' : SkillRow) : Prop where
  rank : row.status.rank < row'.status.rank
  contentHash : row'.contentHash = row.contentHash
  createdAt : row'.createdAt = row.createdAt
  document : row'.document = row.document
  provenance : row'.provenance = row.provenance

/-- What a row can become. -/
def Becomes (row row' : SkillRow) : Prop := row' = row ∨ row.Later row'

theorem Becomes.trans (a b c : SkillRow) (h : a.Becomes b) (h' : b.Becomes c) : a.Becomes c := by
  obtain rfl | h := h
  · exact h'
  · obtain rfl | h' := h'
    · exact .inr h
    · exact .inr ⟨h.rank.trans h'.rank, h'.contentHash.trans h.contentHash,
        h'.createdAt.trans h.createdAt, h'.document.trans h.document,
        h'.provenance.trans h.provenance⟩

theorem later_restamp {row : SkillRow} {status : SkillStatus} {at' : String}
    (h : row.status.rank < status.rank) : row.Later (row.restamp status at') :=
  ⟨h, rfl, rfl, rfl, rfl⟩

theorem becomes_beside {skillId occurredAt : String} {key : String ×ₗ Nat} {row : SkillRow} :
    row.Becomes (row.beside skillId occurredAt key) := by
  rw [beside]
  split
  · next h => exact .inr (later_restamp (by rw [h.2]; decide))
  · exact .inl rfl

theorem beside_status {skillId occurredAt : String} {key : String ×ₗ Nat} {row : SkillRow}
    (hid : (ofLex key).1 = skillId) : (row.beside skillId occurredAt key).status ≠ .approved := by
  rw [beside]
  split
  · show SkillStatus.deprecated ≠ .approved
    decide
  · next h => exact fun happroved => h ⟨hid, happroved⟩

theorem beside_of_ne {skillId occurredAt : String} {key : String ×ₗ Nat} {row : SkillRow}
    (hid : (ofLex key).1 ≠ skillId) : row.beside skillId occurredAt key = row :=
  if_neg fun h => hid h.1

end SkillRow

/-! ### Tables -/

/-- No skill has two approved versions, as `one_approved_skill_version` says. -/
def OneApproved (skills : SkillTable) : Prop :=
  ∀ (skillId : String) (v w : Nat) (row row' : SkillRow), skills[skillKey skillId v]? = some row →
    skills[skillKey skillId w]? = some row' → row.status = .approved → row'.status = .approved →
    v = w

/-- A version is stored, and takes the place of the approved one when it is approved. -/
def settle (skills : SkillTable) (skillId occurredAt : String) (version : Nat) (row : SkillRow) :
    SkillTable :=
  (if row.status = .approved then skills.map (SkillRow.beside skillId occurredAt)
    else skills).insert (skillKey skillId version) row

theorem skillKey_eq {skillId : String} {version : Nat} {key : String ×ₗ Nat} :
    key = skillKey skillId version ↔ (ofLex key).1 = skillId ∧ (ofLex key).2 = version := by
  constructor
  · intro h
    subst h
    exact ⟨rfl, rfl⟩
  · intro h
    obtain ⟨rfl, rfl⟩ := h
    rfl

section

variable {skills skills' : SkillTable} {skillId occurredAt now : String} {version : Nat}
  {row : SkillRow}

theorem get_settle (key : String ×ₗ Nat) :
    (settle skills skillId occurredAt version row)[key]? =
      if key = skillKey skillId version then some row
      else if row.status = .approved then
        skills[key]?.map (SkillRow.beside skillId occurredAt key)
      else skills[key]? := by
  rw [settle, Table.get_insert]
  split
  · rfl
  · split
    · rw [Table.get_mapped]
    · rfl

/-- What is approved afterwards is the version that is stored, or was approved before. -/
theorem approved_settle {key : String ×ₗ Nat} {found : SkillRow}
    (hfound : (settle skills skillId occurredAt version row)[key]? = some found)
    (happroved : found.status = .approved) :
    (key = skillKey skillId version ∧ row.status = .approved) ∨
      (skills[key]? = some found ∧ (row.status = .approved → (ofLex key).1 ≠ skillId)) := by
  rw [get_settle] at hfound
  split at hfound
  · next hkey =>
    obtain rfl := Option.some.inj hfound
    exact .inl ⟨hkey, happroved⟩
  · split at hfound
    · obtain ⟨old, hold, rfl⟩ := Option.map_eq_some_iff.mp hfound
      have hid : (ofLex key).1 ≠ skillId := fun hid => SkillRow.beside_status hid happroved
      rw [SkillRow.beside_of_ne hid]
      exact .inr ⟨hold, fun _ => hid⟩
    · next hrow => exact .inr ⟨hfound, fun h => absurd h hrow⟩

theorem OneApproved.settle (h : OneApproved skills) :
    OneApproved (settle skills skillId occurredAt version row) := by
  intro id v w r r' hr hr' happroved happroved'
  obtain ⟨hkey, hrow⟩ | ⟨hold, hother⟩ := approved_settle hr happroved
  · obtain ⟨rfl, rfl⟩ := skillKey_eq.mp hkey
    obtain ⟨hkey', _⟩ | ⟨_, hother'⟩ := approved_settle hr' happroved'
    · exact (skillKey_eq.mp hkey').2.symm
    · exact absurd rfl (hother' hrow)
  · obtain ⟨hkey', hrow⟩ | ⟨hold', _⟩ := approved_settle hr' happroved'
    · exact absurd (skillKey_eq.mp hkey').1 (hother hrow)
    · exact h id v w r r' hold hold' happroved happroved'

theorem keeps_settle (h : ∀ old, skills[skillKey skillId version]? = some old → old.Later row) :
    Table.Keeps SkillRow.Becomes skills (settle skills skillId occurredAt version row) := by
  intro key old hold
  rw [get_settle]
  by_cases hkey : key = skillKey skillId version
  · subst hkey
    exact ⟨row, if_pos rfl, .inr (h old hold)⟩
  · rw [if_neg hkey]
    split
    · rw [hold]
      exact ⟨_, rfl, SkillRow.becomes_beside⟩
    · exact ⟨old, hold, .inl rfl⟩

/-! ### Operations -/

theorem approvedVersion_eq_some (h : approvedVersion skills skillId = some version) :
    ∃ row, skills[skillKey skillId version]? = some row ∧ row.status = .approved := by
  obtain ⟨⟨key, row⟩, hfind, rfl⟩ := Option.map_eq_some_iff.mp h
  have hmem := Table.mem_toList.mp (List.mem_of_find?_eq_some hfind)
  have hfound := List.find?_some hfind
  simp only [decide_eq_true_eq] at hfound
  obtain ⟨rfl, hstatus⟩ := hfound
  exact ⟨row, hmem, hstatus⟩

theorem approvedVersion_eq_none (h : approvedVersion skills skillId = none) (version : Nat)
    (row : SkillRow) (hrow : skills[skillKey skillId version]? = some row) :
    row.status ≠ .approved := by
  intro hstatus
  have hfind := Option.map_eq_none_iff.mp h
  have := List.find?_eq_none.mp hfind _ (Table.mem_toList.mpr hrow)
  simp only [decide_eq_true_eq] at this
  exact this ⟨rfl, hstatus⟩

/-- The one version that is approved, or none, is what `beside` changes. -/
theorem map_beside (h : OneApproved skills) :
    skills.map (SkillRow.beside skillId occurredAt) =
      (approvedVersion skills skillId).elim skills fun version =>
        skills.modify (skillKey skillId version) fun row => row.restamp .deprecated occurredAt := by
  have hkeep : ∀ (key : String ×ₗ Nat) (row : SkillRow),
      ¬((ofLex key).1 = skillId ∧ row.status = .approved) →
      row.beside skillId occurredAt key = row := fun key row hno => if_neg hno
  apply Table.ext
  intro key
  rw [Table.get_mapped]
  cases hversion : approvedVersion skills skillId with
  | none =>
    show _ = skills[key]?
    cases hrow : skills[key]? with
    | none => rfl
    | some row =>
      rw [Option.map_some, hkeep]
      intro hboth
      obtain ⟨rfl, hstatus⟩ := hboth
      exact approvedVersion_eq_none hversion (ofLex key).2 row hrow hstatus
  | some version =>
    obtain ⟨approved, happroved, hstatus⟩ := approvedVersion_eq_some hversion
    rw [Option.elim_some, Table.get_modify]
    split
    · next hkey =>
      rw [hkey, happroved, Option.map_some, Option.map_some]
      exact congrArg some (if_pos ⟨rfl, hstatus⟩)
    · next hkey =>
      cases hrow : skills[key]? with
      | none => rfl
      | some row =>
        rw [Option.map_some, hkeep]
        intro hboth
        obtain ⟨hid, hrowStatus⟩ := hboth
        have hkeyId : key = skillKey skillId (ofLex key).2 := skillKey_eq.mpr ⟨hid, rfl⟩
        rw [hkeyId] at hrow
        have hsame := h skillId _ _ row approved hrow happroved hrowStatus hstatus
        exact hkey (hkeyId.trans (by rw [hsame]))

/-- A record is stored under a key that is new. -/
theorem putSkill_ok {skill : SkillRecord} (hone : OneApproved skills)
    (h : putSkill now skills skill = .ok skills') :
    ((∃ row, skills[keyOf skill]? = some row) ∧ skills' = skills) ∨
      (skills[keyOf skill]? = none ∧
        skills' = settle skills skill.skillId.text now (versionOf skill.version) (rowOf skill)) := by
  simp only [putSkill, bind_eq_ok, ensure_eq_ok] at h
  obtain ⟨_, _, h⟩ := h
  split at h
  · next row hrow =>
    simp only [bind_eq_ok, pure_eq_ok] at h
    obtain ⟨_, _, rfl⟩ := h
    exact .inl ⟨⟨row, hrow⟩, rfl⟩
  · next hnone =>
    obtain rfl := Except.ok.inj h
    refine .inr ⟨hnone, ?_⟩
    rw [settle, map_beside hone]
    congr 1
    split
    · next version hstatus hversion =>
      rw [if_pos (show (rowOf skill).status = .approved from hstatus), hversion]
      rfl
    · next hother =>
      split
      · next hstatus =>
        cases hversion : approvedVersion skills skill.skillId.text with
        | none => rfl
        | some version => exact absurd hversion (hother version hstatus)
      · rfl

/-- The row of a version is stored again, under its next status. -/
theorem updateSkillStatus_ok {status expected : SkillStatus}
    (hexpected : status = .approved → expected ≠ .approved)
    (h : updateSkillStatus occurredAt skills skillId version status expected = .ok skills') :
    ∃ old, skills[skillKey skillId version]? = some old ∧ old.status = expected ∧
      skills' = settle skills skillId occurredAt version (old.restamp status occurredAt) := by
  simp only [updateSkillStatus, bind_eq_ok, orRaise_eq_ok, ensure_eq_ok, pure_eq_ok] at h
  obtain ⟨old, hold, _, rfl, rfl⟩ := h
  refine ⟨old, hold, rfl, ?_⟩
  apply Table.ext
  intro key
  rw [Table.get_modify, get_settle]
  by_cases hkey : key = skillKey skillId version
  · subst hkey
    rw [if_pos rfl, if_pos rfl]
    split
    · next hstatus =>
      rw [Table.get_mapped, hold, Option.map_some, if_neg fun hboth => hexpected hstatus hboth.2.1]
      rfl
    · rw [hold]
      rfl
  · rw [if_neg hkey, if_neg hkey]
    show _ = if status = .approved then _ else _
    split
    · rw [Table.get_mapped]
      congr 1
      funext row
      have hversion : (ofLex key).1 = skillId → (ofLex key).2 ≠ version :=
        fun hid hversion => hkey (skillKey_eq.mpr ⟨hid, hversion⟩)
      rw [SkillRow.beside]
      by_cases hboth : (ofLex key).1 = skillId ∧ row.status = .approved
      · rw [if_pos ⟨hboth.1, hboth.2, hversion hboth.1⟩, if_pos hboth]
        rfl
      · rw [if_neg fun h => hboth ⟨h.1, h.2.1⟩, if_neg hboth]
    · rfl

/-- What an operation comes to: a version is stored that was not there, or had an earlier
status. -/
theorem applySkillOperation_settles {op : SkillOperation} (hone : OneApproved skills)
    (h : applySkillOperation now occurredAt skills op = .ok skills') :
    skills' = skills ∨ ∃ skillId at' version row,
      skills' = settle skills skillId at' version row ∧
      ∀ old, skills[skillKey skillId version]? = some old → old.Later row := by
  have hput : ∀ {skill : SkillRecord}, putSkill now skills skill = .ok skills' →
      skills' = skills ∨ ∃ skillId at' version row,
        skills' = settle skills skillId at' version row ∧
        ∀ old, skills[skillKey skillId version]? = some old → old.Later row := by
    intro skill h
    obtain ⟨_, rfl⟩ | ⟨hnone, rfl⟩ := putSkill_ok hone h
    · exact .inl rfl
    · refine .inr ⟨_, _, _, _, rfl, fun old hold => ?_⟩
      rw [show skillKey _ _ = keyOf skill from rfl, hnone] at hold
      cases hold
  have hupdate : ∀ {skillId : String} {version : Nat} {status expected : SkillStatus},
      expected.rank < status.rank →
      updateSkillStatus occurredAt skills skillId version status expected = .ok skills' →
      skills' = skills ∨ ∃ skillId at' version row,
        skills' = settle skills skillId at' version row ∧
        ∀ old, skills[skillKey skillId version]? = some old → old.Later row := by
    intro skillId version status expected hrank h
    have hexpected : status = .approved → expected ≠ .approved := by
      intro hstatus heq
      rw [hstatus, heq] at hrank
      exact absurd hrank (lt_irrefl _)
    obtain ⟨old, hold, rfl, rfl⟩ := updateSkillStatus_ok hexpected h
    refine .inr ⟨_, _, _, _, rfl, fun found hfound => ?_⟩
    rw [hold] at hfound
    obtain rfl := Option.some.inj hfound
    exact SkillRow.later_restamp hrank
  cases op with
  | createSkill _ skill => exact hput h
  | importSkill _ skill => exact hput h
  | reviseSkill o =>
    simp only [applySkillOperation, bind_eq_ok] at h
    obtain ⟨_, _, _, _, _, _, h⟩ := h
    exact hput h
  | markSkillTested o =>
    simp only [applySkillOperation, bind_eq_ok] at h
    obtain ⟨_, _, _, _, h⟩ := h
    exact hupdate (by decide) h
  | approveSkill o =>
    simp only [applySkillOperation, bind_eq_ok] at h
    obtain ⟨_, _, _, _, h⟩ := h
    exact hupdate (by decide) h
  | deprecateSkill o =>
    simp only [applySkillOperation, bind_eq_ok] at h
    obtain ⟨_, _, _, _, h⟩ := h
    exact hupdate (SkillStatus.rank_lt_deprecated o.expectedStatus.2) h

theorem OneApproved.apply {op : SkillOperation} (hone : OneApproved skills)
    (h : applySkillOperation now occurredAt skills op = .ok skills') : OneApproved skills' := by
  obtain rfl | ⟨_, _, _, _, rfl, _⟩ := applySkillOperation_settles hone h
  · exact hone
  · exact hone.settle

theorem keeps_apply {op : SkillOperation} (hone : OneApproved skills)
    (h : applySkillOperation now occurredAt skills op = .ok skills') :
    Table.Keeps SkillRow.Becomes skills skills' := by
  obtain rfl | ⟨_, _, _, _, rfl, hlater⟩ := applySkillOperation_settles hone h
  · exact .refl (fun _ => .inl rfl) _
  · exact keeps_settle hlater

end

/-! ### Runs -/

/-- What the operations of a proposal do, one after the other. -/
def Lived (skills skills' : SkillTable) : Prop :=
  OneApproved skills' ∧ Table.Keeps SkillRow.Becomes skills skills'

theorem Lived.refl {skills : SkillTable} (h : OneApproved skills) : Lived skills skills :=
  ⟨h, .refl (fun _ => .inl rfl) skills⟩

theorem Lived.trans {a b c : SkillTable} (h : Lived a b) (h' : Lived b c) : Lived a c :=
  ⟨h'.1, h.2.trans SkillRow.Becomes.trans h'.2⟩

theorem lived_operations {now occurredAt : String} {skills skills' : SkillTable}
    {ops : List SkillOperation} (hone : OneApproved skills)
    (h : ops.foldlM (applySkillOperation now occurredAt) skills = .ok skills') :
    Lived skills skills' :=
  foldlM_inv (P := Lived skills)
    (fun _ _ _ _ hlived hop => hlived.trans ⟨hlived.1.apply hop, keeps_apply hlived.1 hop⟩)
    (.refl hone) h

/-- The skills after a transaction that commits. -/
theorem commitTransaction_skills {now : String} {p : ProductProposal} {before : Hash}
    {db db' : ProductDb} {receipt : ProductReceipt}
    (h : commitTransaction now p before db = .ok (receipt, db')) :
    p.operations.1.foldlM (applySkillOperation now p.proposedAt.text) db.tables.skills =
      .ok db'.tables.skills := by
  simp only [commitTransaction, bind_eq_ok, pure_eq_ok] at h
  obtain ⟨db₁, h₁, skills, hfold, db₂, h₂, heq⟩ := h
  obtain ⟨-, rfl⟩ := insertProductProposal_ok h₁
  obtain ⟨-, rfl⟩ := insertProductReceipt_ok h₂
  obtain ⟨-, rfl⟩ := Prod.mk.inj heq
  exact hfold

section

variable {ι : Type} [DecidableEq ι] {s t : Sys ι} {e : Event ι}

/-- The skills, the proposals and the receipts are as before. -/
structure ProductDb.SameStore (db db' : ProductDb) : Prop where
  skills : db'.tables.skills = db.tables.skills
  proposals : db'.proposals = db.proposals
  receipts : db'.receipts = db.receipts

theorem ProductDb.SameStore.refl (db : ProductDb) : db.SameStore db := ⟨rfl, rfl, rfl⟩

/-- What a step does to the store: nothing, the transaction of a commit, or that of a
rejection. -/
theorem Step.store_cases (h : Step s e t) : s.db.SameStore t.db ∨
    (∃ i c p rows receipt, s.phase i = .ready c p rows ∧ e = .ended i c (.ok receipt) ∧
      commitTransaction c.now p (productStateHash rows) s.db = .ok (receipt, t.db)) ∨
    ∃ i c p receipt, s.phase i = .persisting c p receipt ∧
      rejectTransaction p receipt s.db = .ok t.db := by
  cases h with
  | call i c _ => exact .inl (.refl _)
  | move i m hadvance hresult =>
    have hdb : m.db = s.db := by
      refine advance_db hadvance fun receipt h => ?_
      rw [hresult] at h
      cases h
    exact .inl (hdb ▸ .refl _)
  | finish i c m result hadvance hresult hcall =>
    cases result with
    | error e =>
      have hdb : m.db = s.db := by
        refine advance_db hadvance fun receipt h => ?_
        rw [hresult] at h
        cases h
      exact .inl (hdb ▸ .refl _)
    | ok receipt =>
      have hanswer := advance_answer hadvance hresult
      generalize hphase : s.phase i = phase at hanswer hcall
      cases hanswer with
      | replayed heq _ _ => exact .inl (heq ▸ .refl _)
      | keyReuse heq => exact .inl (heq ▸ .refl _)
      | prior heq _ => exact .inl (heq ▸ .refl _)
      | committed hcommit =>
        obtain rfl := Option.some.inj hcall
        exact .inr (.inl ⟨i, _, _, _, receipt, hphase, rfl, hcommit⟩)
      | rejected hreject => exact .inr (.inr ⟨i, _, _, _, hphase, hreject⟩)
  | fail i c _ => exact .inl (.refl _)
  | others tables => exact .inl ⟨rfl, rfl, rfl⟩

theorem Step.lived (h : Step s e t) (hone : OneApproved s.db.tables.skills) :
    Lived s.db.tables.skills t.db.tables.skills := by
  obtain hsame | ⟨_, _, _, _, _, _, _, hcommit⟩ | ⟨_, _, _, _, _, hreject⟩ := h.store_cases
  · rw [hsame.skills]
    exact .refl hone
  · exact lived_operations hone (commitTransaction_skills hcommit)
  · rw [rejectTransaction_eq_ok hreject]
    exact .refl hone

theorem Run.oneApproved {steps : List (Taken ι)} (run : Run steps s) :
    OneApproved s.db.tables.skills := by
  induction run with
  | nil =>
    intro _ _ _ row _ hrow
    rw [show Sys.start.db.tables.skills = ∅ from rfl, Table.get_empty] at hrow
    cases hrow
  | snoc _ h ih => exact (h.lived ih).1

/-- The last step of a run. -/
theorem Run.last {steps : List (Taken ι)} {st : Taken ι} (run : Run (steps ++ [st]) t) :
    Run steps st.before ∧ Step st.before st.event t := by
  generalize hall : steps ++ [st] = all at run
  cases run with
  | nil => exact absurd hall (by simp)
  | snoc run h =>
    obtain ⟨rfl, hst⟩ := List.append_inj' hall rfl
    obtain rfl := List.singleton_injective hst
    exact ⟨run, h⟩

/-- A run ends where its last step does. -/
theorem Run.unique {steps : List (Taken ι)} (run : Run steps s) (run' : Run steps t) : s = t := by
  cases run with
  | nil =>
    generalize hall : ([] : List (Taken ι)) = all at run'
    cases run' with
    | nil => rfl
    | snoc _ _ => exact absurd hall (by simp)
  | @snoc steps before s event run h =>
    generalize hall : steps ++ [⟨before, event, s⟩] = all at run'
    cases run' with
    | nil => exact absurd hall (by simp)
    | snoc _ _ =>
      obtain ⟨-, hst⟩ := List.append_inj' hall rfl
      exact congrArg Taken.after (List.singleton_injective hst)

end

end SharedMind.Product
