import SharedMind.Product.Linear
import SharedMind.Product.PackageRead
import SharedMind.Py.JsonSize

/-!
# A skill, exported and imported

* `createSkill_empty`: a skill is created in an empty store.
* `Run.stored`: the versions that a run stores.
* `skill_package_round_trip`: a package is imported exactly when it is `Portable`.
* `unloaded_package_refused`: a package exported without a loader is refused.
-/

namespace SharedMind.Product

open Py Py.Zip

/-! ### Records -/

theorem SkillStatus.text_injective {a b : SkillStatus} (h : a.text = b.text) : a = b := by
  cases a <;> cases b <;> first | rfl | exact absurd h (by decide)

/-- What a valid record decodes to says what its row holds. -/
structure Recorded (key : String ×ₗ Nat) (row : SkillRow) (skill : SkillRecord) : Prop where
  key_eq : skillKey skill.skillId.text (versionOf skill.version) = key
  row_eq : row = ⟨skill.status, skill.contentHash, skill.createdAt.text, skill.updatedAt.text,
    skill.document, skill.provenance⟩
  resources : row.document.get? "resources" =
    some (.arr (skill.resources.map SkillResource.codec.enc))

theorem recorded_of_dec {key : String ×ₗ Nat} {row : SkillRow} {skill : SkillRecord}
    (h : SkillRecord.codec.dec (skillRecordJson key row) = some skill) :
    Recorded key row skill := by
  rw [SkillRecord.codec.dec_eq_some_iff] at h
  obtain ⟨hid, hversion, hstatus, hhash, hcreated, hupdated, hdocument, hprovenance⟩ :=
    recordFields key row
  have hresources := recordResources key row
  rw [h] at hid hversion hstatus hhash hcreated hupdated hdocument hprovenance hresources
  have hid' : skill.skillId.text = (ofLex key).1 := JsonOf.str.inj (Option.some.inj hid)
  have hversion' : skill.version.1 = .int (ofLex key).2 := JsonOf.num.inj (Option.some.inj hversion)
  have hstatus' : skill.status.text = row.status.text := JsonOf.str.inj (Option.some.inj hstatus)
  have hhash' : skill.contentHash.text = row.contentHash.text :=
    JsonOf.str.inj (Option.some.inj hhash)
  have hcreated' : skill.createdAt.text = row.createdAt := JsonOf.str.inj (Option.some.inj hcreated)
  have hupdated' : skill.updatedAt.text = row.updatedAt := JsonOf.str.inj (Option.some.inj hupdated)
  have hdocument' : skill.document.members = row.document.members :=
    JsonOf.obj.inj (Option.some.inj hdocument)
  have hprovenance' : skill.provenance.members = row.provenance.members :=
    JsonOf.obj.inj (Option.some.inj hprovenance)
  refine ⟨?_, ?_, hresources.symm⟩
  · have hint : (PyNum.int (ofLex key).2).toInt? = some ((ofLex key).2 : Int) := by
      simp [PyNum.toInt?, PyNum.key]
    rw [hid', versionOf, hversion', hint]
    rfl
  · obtain ⟨status, contentHash, createdAt, updatedAt, ⟨members, _⟩, ⟨provenance, _⟩⟩ := row
    obtain rfl : skill.status = status := SkillStatus.text_injective hstatus'
    obtain rfl : skill.contentHash = contentHash := Subtype.ext hhash'
    dsimp only at hcreated' hupdated' hdocument' hprovenance'
    subst hcreated' hupdated' hdocument' hprovenance'
    rfl

/-! ### A skill in an empty store -/

theorem finishCall_hashing (db : ProductDb) (c : ProductCall) (left : List ProductTable)
    (rows : RowsRead) (n : Nat) : finishCall (left.length + n) db (.hashing c rows left) =
      finishCall n db (.hashing c (readAll db rows left) []) := by
  induction left generalizing rows with
  | nil => rw [List.length_nil, Nat.zero_add]; rfl
  | cons table left ih =>
    rw [List.length_cons, Nat.add_right_comm]
    exact ih _

/-- A proposal without an expected state commits in an empty store. -/
theorem commitProductProposal_empty {now : String} {p : ProductProposal} {op : SkillOperation}
    {skills : SkillTable} (hops : p.operations.1 = [op])
    (hexpected : p.expectedProductStateHash = none)
    (h : applySkillOperation now p.proposedAt.text ∅ op = .ok skills) :
    ∃ receipt db, commitProductProposal now .empty p = (.ok receipt, db) ∧
      receipt.outcome = .committed ∧ db.tables.skills = skills := by
  let c : ProductCall := ⟨ProductProposal.codec.enc p, ProductProposal.codec.sorted p, now⟩
  have hfold : p.operations.1.foldlM (applySkillOperation now p.proposedAt.text) ∅ =
      .ok skills := by
    rw [hops]
    exact bind_eq_ok.mpr ⟨skills, h, rfl⟩
  obtain ⟨receipt, db, hcommit, houtcome, hskills⟩ := commitTransaction_fresh
    (productStateHash ProductDb.empty.tables.rows) (fun _ => []) hfold
  have hdec : ProductProposal.codec.dec c.document = some p := ProductProposal.codec.dec_enc p
  refine ⟨receipt, db, ?_, houtcome, hskills⟩
  refine (finishCall_hashing .empty c ProductTable.all (fun _ => []) 5).trans ?_
  rw [readAll_all]
  have hhashed : Phase.advance .empty (.hashing c ProductDb.empty.tables.rows []) =
      some ⟨.empty, .hashed c p ProductDb.empty.tables.rows, none⟩ := by
    simp only [Phase.advance, hdec]
  have hkey : receiptByKey .empty p.idempotencyKey = none := rfl
  have hready : Phase.advance .empty (.hashed c p ProductDb.empty.tables.rows) =
      some ⟨.empty, .ready c p ProductDb.empty.tables.rows, none⟩ := by
    simp only [Phase.advance, hkey, hexpected]
    exact if_pos fun expected h => by cases h
  have hdone : (Phase.ready c p ProductDb.empty.tables.rows).advance .empty =
      some ⟨db, .idle, some (.ok receipt)⟩ := advance_commit hcommit
  simp only [finishCall, hhashed, hready, hdone]

theorem skillProposal_fields (op : SkillOperation) (proposedAt : Timestamp) :
    (skillProposal op proposedAt).operations.1 = [op] ∧
      (skillProposal op proposedAt).expectedProductStateHash = none ∧
      (skillProposal op proposedAt).proposedAt = proposedAt := by
  simp only [skillProposal, and_self]

/-- What an operation makes of an empty store. -/
theorem commitSkillOperation_empty {now : String} {op : SkillOperation} {skills : SkillTable}
    {proposedAt : Timestamp} (h : applySkillOperation now proposedAt.text ∅ op = .ok skills) :
    ∃ db, commitSkillOperation now .empty op proposedAt = (.ok (), db) ∧
      db.tables.skills = skills := by
  obtain ⟨hops, hexpected, hat⟩ := skillProposal_fields op proposedAt
  rw [← hat] at h
  obtain ⟨receipt, db, hcommit, houtcome, hskills⟩ :=
    commitProductProposal_empty hops hexpected h
  refine ⟨db, ?_, hskills⟩
  rw [commitSkillOperation, hcommit]
  exact congrArg (·, db) (if_pos houtcome)

/-- The row a skill is stored as. -/
def rowOf (skill : SkillRecord) : SkillRow :=
  ⟨skill.status, skill.contentHash, skill.createdAt.text, skill.updatedAt.text, skill.document,
    skill.provenance⟩

def keyOf (skill : SkillRecord) : String ×ₗ Nat :=
  skillKey skill.skillId.text (versionOf skill.version)

theorem putSkill_empty {skill : SkillRecord} (now : String)
    (h : versionOf skill.version ≤ maxRowId) :
    putSkill now ∅ skill = .ok ((∅ : SkillTable).insert (keyOf skill) (rowOf skill)) := by
  have hnone : approvedVersion ∅ skill.skillId.text = none := rfl
  simp only [putSkill, Table.get_empty, hnone, bind_eq_ok, ensure_eq_ok, pure_eq_ok]
  refine ⟨(), h, ?_⟩
  split
  · next heq => cases heq
  · rfl

/-- **A skill** is created in an empty store. -/
theorem createSkill_empty {record : Json} {skill : SkillRecord} (now : String)
    (hdec : SkillRecord.codec.dec record = some skill) (h : versionOf skill.version ≤ maxRowId) :
    ∃ db, createSkill now .empty record = (.ok (skillRecordJson (keyOf skill) (rowOf skill)), db) ∧
      db.tables.skills = (∅ : SkillTable).insert (keyOf skill) (rowOf skill) := by
  obtain ⟨db, hcommit, hskills⟩ := @commitSkillOperation_empty _ (createOperation skill) _
    skill.updatedAt (putSkill_empty now h)
  have hget : db.tables.skills[keyOf skill]? = some (rowOf skill) := by
    rw [hskills, Table.get_insert, if_pos rfl]
  refine ⟨db, ?_, hskills⟩
  have hnone : ProductDb.empty.tables.skills[skillKey skill.skillId.text
      (versionOf skill.version)]? = none := Table.get_empty _
  simp only [createSkill, hdec, if_neg (not_lt.mpr h), hnone, hcommit]
  rw [show skillKey skill.skillId.text (versionOf skill.version) = keyOf skill from rfl, hget]
  rfl

/-! ### What is stored -/

theorem get_map {κ ρ : Type} [LinearOrder κ] (t : Table κ ρ) (k : κ) (f : κ → ρ → ρ) :
    (t.map f)[k]? = t[k]?.map (f k) := Std.ExtTreeMap.getElem?_map

/-- Every version is an integer of the database. -/
def Stored (skills : SkillTable) : Prop :=
  ∀ (key : String ×ₗ Nat) (row : SkillRow), skills[key]? = some row → (ofLex key).2 ≤ maxRowId

section

variable {skills skills' : SkillTable} {now occurredAt : String}

theorem Stored.modify (h : Stored skills) (key : String ×ₗ Nat) (f : SkillRow → SkillRow) :
    Stored (skills.modify key f) := by
  intro a row hrow
  rw [Table.get_modify] at hrow
  split at hrow
  · obtain ⟨old, hold, -⟩ := Option.map_eq_some_iff.mp hrow
    exact h a old hold
  · exact h a row hrow

theorem Stored.map (h : Stored skills) (f : String ×ₗ Nat → SkillRow → SkillRow) :
    Stored (skills.map f) := by
  intro a row hrow
  rw [get_map] at hrow
  obtain ⟨old, hold, -⟩ := Option.map_eq_some_iff.mp hrow
  exact h a old hold

theorem Stored.putSkill {skill : SkillRecord} (h : Stored skills)
    (hput : putSkill now skills skill = .ok skills') : Stored skills' := by
  simp only [Product.putSkill, bind_eq_ok, ensure_eq_ok] at hput
  obtain ⟨_, hversion, hput⟩ := hput
  split at hput
  · simp only [bind_eq_ok, pure_eq_ok] at hput
    obtain ⟨_, _, rfl⟩ := hput
    exact h
  · obtain rfl := Except.ok.inj hput
    intro a row hrow
    rw [Table.get_insert] at hrow
    split at hrow
    · next ha =>
      rw [ha]
      exact hversion
    · revert hrow
      split
      · exact h.modify _ _ a row
      · exact h a row

theorem Stored.updateSkillStatus {skillId : String} {version : Nat} {status expected : SkillStatus}
    (h : Stored skills)
    (hupdate : updateSkillStatus occurredAt skills skillId version status expected = .ok skills') :
    Stored skills' := by
  simp only [Product.updateSkillStatus, bind_eq_ok, pure_eq_ok] at hupdate
  obtain ⟨_, _, _, _, rfl⟩ := hupdate
  split
  · exact (h.map _).modify _ _
  · exact h.modify _ _

/-- An operation stores no other version. -/
theorem Stored.apply {op : SkillOperation} (h : Stored skills)
    (happly : applySkillOperation now occurredAt skills op = .ok skills') : Stored skills' := by
  cases op with
  | createSkill _ skill => exact h.putSkill happly
  | importSkill _ skill => exact h.putSkill happly
  | reviseSkill o =>
    simp only [applySkillOperation, bind_eq_ok] at happly
    obtain ⟨_, _, _, _, _, _, happly⟩ := happly
    exact h.putSkill happly
  | markSkillTested o =>
    simp only [applySkillOperation, bind_eq_ok] at happly
    obtain ⟨_, _, _, _, happly⟩ := happly
    exact h.updateSkillStatus happly
  | approveSkill o =>
    simp only [applySkillOperation, bind_eq_ok] at happly
    obtain ⟨_, _, _, _, happly⟩ := happly
    exact h.updateSkillStatus happly
  | deprecateSkill o =>
    simp only [applySkillOperation, bind_eq_ok] at happly
    obtain ⟨_, _, _, _, happly⟩ := happly
    exact h.updateSkillStatus happly

end

section

variable {ι : Type} [DecidableEq ι] {s t : Sys ι} {e : Event ι}

theorem Answer.stored {db db' : ProductDb} {phase : Phase} {receipt : ProductReceipt}
    (h : Answer db phase db' receipt) (hstored : Stored db.tables.skills) :
    Stored db'.tables.skills := by
  cases h with
  | replayed heq _ _ => exact heq ▸ hstored
  | keyReuse heq => exact heq ▸ hstored
  | prior heq _ => exact heq ▸ hstored
  | committed hcommit =>
    simp only [commitTransaction, bind_eq_ok, pure_eq_ok] at hcommit
    obtain ⟨db₁, h₁, skills, hfold, db₂, h₂, heq⟩ := hcommit
    obtain ⟨-, rfl⟩ := insertProductProposal_ok h₁
    obtain ⟨-, rfl⟩ := insertProductReceipt_ok h₂
    obtain ⟨-, rfl⟩ := Prod.mk.inj heq
    exact foldlM_inv (fun _ _ _ _ h => h.apply) hstored hfold
  | rejected hreject =>
    simp only [rejectTransaction, bind_eq_ok] at hreject
    obtain ⟨db₁, h₁, h₂⟩ := hreject
    obtain ⟨-, rfl⟩ := insertProductProposal_ok h₁
    obtain ⟨-, rfl⟩ := insertProductReceipt_ok h₂
    exact hstored

theorem Step.stored (h : Step s e t) (hstored : Stored s.db.tables.skills) :
    Stored t.db.tables.skills := by
  cases h with
  | call i c _ => exact hstored
  | move i m hadvance hresult =>
    have hdb : m.db = s.db := advance_db hadvance fun receipt h => nomatch hresult.symm.trans h
    exact hdb ▸ hstored
  | finish i c m result hadvance hresult _ =>
    cases result with
    | ok receipt => exact (advance_answer hadvance hresult).stored hstored
    | error e =>
      have hdb : m.db = s.db := advance_db hadvance fun receipt h => nomatch hresult.symm.trans h
      exact hdb ▸ hstored
  | fail i c _ => exact hstored
  | others tables => exact hstored

/-- **What a run stores** has versions of the database. -/
theorem Run.stored {steps : List (Taken ι)} (run : Run steps s) : Stored s.db.tables.skills := by
  induction run with
  | nil => exact fun key row h => nomatch ((Table.get_empty key).symm.trans h)
  | snoc _ h ih => exact h.stored ih

end

/-- What `get_skill` finds is stored. -/
theorem getElem_of_getSkill {skills : SkillTable} {skillId : String} {version : Option Nat}
    {approvedOnly : Bool} {key : String ×ₗ Nat} {row : SkillRow}
    (h : getSkill skills skillId version approvedOnly = some (key, row)) :
    skills[key]? = some row := by
  cases version with
  | some version =>
    obtain ⟨_, hrow, heq⟩ := Option.map_eq_some_iff.mp h
    obtain ⟨rfl, rfl⟩ := Prod.mk.inj heq
    exact hrow
  | none =>
    rw [getSkill] at h
    split at h
    · exact Table.mem_toList.mp (List.mem_of_mem_filter (List.mem_of_find?_eq_some h))
    · exact Table.mem_toList.mp (List.mem_of_mem_filter (List.mem_of_getLast? h))

/-! ### The round trip -/

/-- The resources of a package. -/
def Package.items (pkg : Package) : List Json :=
  match pkg.row.document.get? "resources" with
  | some (.arr items) => items
  | _ => []

/-- What an archive keeps of a resource: its path, its hash and its payload. -/
structure Preserved (k : Packing) (archive : Archive) (resource : Json) : Prop where
  payload : ∃ name, packagePath k resource = .ok name ∧
    read? archive name = some (k.payload resource)
  contentHash : resource.get? "content_hash" = some (.str (sha256Bytes (k.payload resource)).text)

/-- An import into an empty store finds the skill and its resources as they were. -/
structure RoundTrip (k : Packing) (now : String) (pkg : Package) : Prop where
  imported : ∃ record db, importSkillPackage k now .empty pkg.archive = (.ok record, db) ∧
    ∃ key row, getSkill db.tables.skills (ofLex pkg.key).1 (some (ofLex pkg.key).2) false =
      some (key, row) ∧ skillRecordJson key row = skillRecordJson pkg.key pkg.row
  preserved : ∀ resource ∈ pkg.items, Preserved k pkg.archive resource

/-- What survives an export and an import: resources that are read back, and a document that
repeats the fields of its record. -/
structure Portable (k : Packing) (pkg : Package) : Prop where
  readable : Readable k pkg.items pkg.archive
  record : ∃ skill, SkillRecord.codec.dec (skillRecordJson pkg.key pkg.row) = some skill

section

variable {k : Packing} {skills : SkillTable} {skillId : String} {version : Option Nat}
  {pkg : Package}

/-- What an export that returns has found and packed. -/
structure Exported (k : Packing) (skills : SkillTable) (pkg : Package)
    (resources : List PackedResource) : Prop where
  stored : skills[pkg.key]? = some pkg.row
  packed : PackedAll k pkg.items resources
  archive : pkg.archive = packageArchive pkg.key pkg.row resources

theorem exported_of_ok (h : exportSkillPackage k skills skillId version = .ok pkg) :
    ∃ resources, Exported k skills pkg resources := by
  simp only [exportSkillPackage, bind_eq_ok, pure_eq_ok, orRaise_eq_ok] at h
  obtain ⟨⟨key, row⟩, hget, items, hitems, resources, hresources, rfl⟩ := h
  have heq : Package.items ⟨key, row, packageArchive key row resources⟩ = items := by
    rw [Package.items]
    revert hitems
    cases row.document.get? "resources" with
    | none => exact fun h => Except.ok.inj h
    | some v =>
      intro h
      rw [Option.getD_some] at h
      unfold iterate at h
      split at h
      · exact Except.ok.inj h
      · exact Except.ok.inj h
      · exact Except.ok.inj h
      · cases h
  refine ⟨resources, getElem_of_getSkill hget, ?_, rfl⟩
  rw [heq]
  exact packedAll_of_mapM hresources

/-- What an import that returns has read. -/
theorem readPackage_ok {key : String ×ₗ Nat} {row : SkillRow} {items : List Json}
    {resources : List PackedResource} {record : Json} (h : PackedAll k items resources)
    (hread : readPackage k (packageArchive key row resources) = .ok record) :
    k.size (packageArchive key row resources) ≤ 32 * 1024 * 1024 ∧
    (namelist (packageArchive key row resources)).length ≤ 512 ∧
    (jsonLine (manifestOf key row resources)).length ≤ 1024 * 1024 ∧
    (jsonLine (skillRecordJson key row)).length ≤ 4 * 1024 * 1024 ∧
    record = skillRecordJson key row ∧
    ∃ manifest items byPath, loadsBytes (jsonLine (manifestOf key row resources)) = .ok manifest ∧
      iterate ((manifest.get? "resources").getD (.arr [])) = .ok items ∧
      resourceByPath k items = .ok byPath ∧
      ∀ e ∈ byPath, verifyResource (packageArchive key row resources) e.1 e.2 = .ok () := by
  simp only [readPackage, bind_eq_ok, ensure_eq_ok, pure_eq_ok, orRaise_eq_ok,
    read?_manifest h, read?_skill h, Option.some.injEq] at hread
  obtain ⟨_, hsize, _, hcount, _, _, _, rfl, _, rfl, _, ⟨hmanifest, hskill⟩, manifest, hloads, skill,
    hskillLoads, _, _, _, _, _, _, items, hitems, byPath, hbyPath, _, hverify, rfl⟩ := hread
  rw [loadsBytes_jsonLine (skillRecordJson_sorted key row)] at hskillLoads
  exact ⟨hsize, hcount, hmanifest, hskill, (Except.ok.inj hskillLoads).symm, manifest, items, byPath,
    hloads, hitems, hbyPath, forM_eq_ok.mp hverify⟩

/-- What an import that returns has checked. -/
theorem readPackage_verified {key : String ×ₗ Nat} {row : SkillRow} {items : List Json}
    {resources : List PackedResource} {record : Json} (h : PackedAll k items resources)
    (hsorted : ∀ packed ∈ resources, packed.entry.Sorted)
    (hread : readPackage k (packageArchive key row resources) = .ok record) :
    ∃ byPath, resourceByPath k (resources.map PackedResource.entry) = .ok byPath ∧
      ∀ e ∈ byPath, verifyResource (packageArchive key row resources) e.1 e.2 = .ok () := by
  obtain ⟨-, -, -, -, -, manifest, items, byPath, hloads, hitems, hbyPath, hverify⟩ :=
    readPackage_ok h hread
  rw [loadsBytes_jsonLine (manifestOf_sorted hsorted)] at hloads
  obtain rfl := Except.ok.inj hloads
  obtain rfl : resources.map PackedResource.entry = items := Except.ok.inj hitems
  exact ⟨byPath, hbyPath, hverify⟩

theorem importSkillPackage_ok {now : String} {db db' : ProductDb} {archive : Archive}
    {record : Json} (h : importSkillPackage k now db archive = (.ok record, db')) :
    ∃ skill, readPackage k archive = .ok skill ∧ createSkill now db skill = (.ok record, db') := by
  cases hread : readPackage k archive with
  | ok skill =>
    simp only [importSkillPackage, hread] at h
    exact ⟨skill, rfl, h⟩
  | error e =>
    simp only [importSkillPackage, hread] at h
    exact nomatch (Prod.mk.inj h).1

/-- A package that makes the round trip is portable. -/
theorem Portable.of_roundTrip {resources : List PackedResource} {now : String}
    (hexported : Exported k skills pkg resources) (h : RoundTrip k now pkg) : Portable k pkg := by
  obtain ⟨record, db, himport, -⟩ := h.imported
  obtain ⟨skill, hread, hcreate⟩ := importSkillPackage_ok himport
  rw [hexported.archive] at hread
  obtain ⟨hsize, hcount, hmanifest, hskill, rfl, -⟩ := readPackage_ok hexported.packed hread
  refine ⟨⟨?_, ?_, ?_, hexported.archive ▸ hsize, hexported.archive ▸ hcount, ?_, ?_⟩, ?_⟩
  · intro resource hmem hnil
    rw [(h.preserved resource hmem).contentHash, hnil]
  · intro resource hmem name hname
    obtain ⟨_, hpath, hpayload⟩ := (h.preserved resource hmem).payload
    obtain rfl := Except.ok.inj (hname.symm.trans hpath)
    have hentry := mem_of_read? hpayload
    rw [hexported.archive] at hentry
    rcases mem_packageArchive.mp hentry with ⟨rfl, _⟩ | ⟨rfl, _⟩ | ⟨packed, _, rfl, _⟩
    · decide
    · decide
    · exact not_mem_infoName _
  · intro resource hmem other hother name hname hname'
    obtain ⟨_, hpath, hpayload⟩ := (h.preserved resource hmem).payload
    obtain ⟨_, hpath', hpayload'⟩ := (h.preserved other hother).payload
    obtain rfl := Except.ok.inj (hname.symm.trans hpath)
    obtain rfl := Except.ok.inj (hname'.symm.trans hpath')
    exact Option.some.inj (hpayload.symm.trans hpayload')
  · intro payload hpayload
    rw [hexported.archive, read?_manifest hexported.packed] at hpayload
    exact Option.some.inj hpayload ▸ hmanifest
  · intro payload hpayload
    rw [hexported.archive, read?_skill hexported.packed] at hpayload
    exact Option.some.inj hpayload ▸ hskill
  · cases hdec : SkillRecord.codec.dec (skillRecordJson pkg.key pkg.row) with
    | some skill => exact ⟨skill, rfl⟩
    | none =>
      simp only [createSkill, hdec] at hcreate
      exact nomatch (Prod.mk.inj hcreate).1

/-- **A portable package** makes the round trip. -/
theorem Portable.roundTrip {resources : List PackedResource} (now : String)
    (hstored : Stored skills) (hexported : Exported k skills pkg resources) (h : Portable k pkg) :
    RoundTrip k now pkg := by
  obtain ⟨skill, hdec⟩ := h.record
  have hrecorded := recorded_of_dec hdec
  have hkey : keyOf skill = pkg.key := hrecorded.key_eq
  have hrow : rowOf skill = pkg.row := hrecorded.row_eq.symm
  have hversion : versionOf skill.version ≤ maxRowId := by
    have h := hstored pkg.key pkg.row hexported.stored
    rw [← hkey] at h
    exact h
  have hreadable := h.readable
  rw [hexported.archive] at hreadable
  have hread := readPackage_packageArchive hexported.packed hreadable
  obtain ⟨db, hcreate, hskills⟩ := createSkill_empty now hdec hversion
  rw [hkey, hrow] at hcreate hskills
  refine ⟨⟨skillRecordJson pkg.key pkg.row, db, ?_, pkg.key, pkg.row, ?_, rfl⟩,
    fun resource hmem => ?_⟩
  · rw [hexported.archive]
    simp only [importSkillPackage, hread, hcreate]
  · have hget : db.tables.skills[pkg.key]? = some pkg.row := by
      rw [hskills, Table.get_insert, if_pos rfl]
    exact Option.map_eq_some_iff.mpr ⟨pkg.row, hget, rfl⟩
  · obtain ⟨packed, hpacked, hp⟩ := hexported.packed.ofItem resource hmem
    have hpayload := read?_resource hexported.packed hreadable hpacked
    rw [hp.payload] at hpayload
    refine ⟨⟨packed.path, hp.path, hexported.archive ▸ hpayload⟩, ?_⟩
    rcases hp.checked with hnil | hchecked
    · have hnil' : k.payload resource = [] := hp.payload.symm.trans hnil
      rw [hnil']
      exact h.readable.loaded resource hmem hnil'
    · rw [← hp.payload]
      exact hchecked

end

/-- **Skill package round trip**: a skill that a run stored and an export packed is imported into an
empty store as it was exactly when its document repeats the fields of its record, a resource without
a payload has the hash of nothing, no path has a NUL, resources that meet under one path have one
payload, and the archive is within the limits of an import. -/
theorem skill_package_round_trip {ι : Type} [DecidableEq ι] {steps : List (Taken ι)} {s : Sys ι}
    (run : Run steps s) (k : Packing) (skillId : String) (version : Option Nat) (pkg : Package)
    (hexport : exportSkillPackage k s.db.tables.skills skillId version = .ok pkg) (now : String) :
    RoundTrip k now pkg ↔ Portable k pkg := by
  obtain ⟨resources, hexported⟩ := exported_of_ok hexport
  exact ⟨Portable.of_roundTrip hexported, Portable.roundTrip now run.stored hexported⟩

/-! ### Packages -/

/-- A run that creates a skill. -/
theorem run_create {skill : SkillRecord} (h : versionOf skill.version ≤ maxRowId) :
    ∃ (steps : List (Taken Unit)) (s : Sys Unit), Run steps s ∧
      s.db.tables.skills = (∅ : SkillTable).insert (keyOf skill) (rowOf skill) := by
  let p : ProductProposal := { demoProposal with
    operations := ⟨[.createSkill ⟨"product_op_000000000000000000000000", by decide⟩ skill],
      by simp⟩ }
  let c : ProductCall := ⟨ProductProposal.codec.enc p, ProductProposal.codec.sorted p, demoCall.now⟩
  have hcontinues : Continues (Sys.start : Sys Unit) _ := continues_ready (i := ()) (c := c) rfl
    (ProductProposal.codec.dec_enc p) rfl fun _ h => (Option.some.inj h).symm
  obtain ⟨steps, run, -⟩ := hcontinues [] .nil (by simp)
  have hfold : p.operations.1.foldlM (applySkillOperation c.now p.proposedAt.text) ∅ =
      .ok ((∅ : SkillTable).insert (keyOf skill) (rowOf skill)) :=
    bind_eq_ok.mpr ⟨_, putSkill_empty c.now h, rfl⟩
  obtain ⟨receipt, db, hcommit, -, hskills⟩ := commitTransaction_fresh
    (productStateHash ProductDb.empty.tables.rows) (fun _ => []) hfold
  have hphase : Function.update (Sys.start : Sys Unit).phase ()
      (.ready c p ProductDb.empty.tables.rows) () = .ready c p ProductDb.empty.tables.rows :=
    Function.update_self ..
  refine ⟨_, _, run.snoc (.finish () c ⟨db, .idle, some (.ok receipt)⟩ (.ok receipt) ?_ rfl ?_),
    hskills⟩
  · exact (congrArg (Phase.advance ProductDb.empty) hphase).trans (advance_commit hcommit)
  · exact congrArg Phase.call? hphase

/-- The document of a skill, with its resources. -/
def demoDocument (resources : List SkillResource) : AnyObject where
  members := [("expected_outputs", .arr []), ("preconditions", .arr []), ("purpose", .str "p"),
    ("resources", SkillResource.codec.list.enc resources), ("steps", .arr [.str "s"]),
    ("triggers", .arr [.str "t"]), ("validation_rules", .arr [.obj []])]
  sorted := by
    refine .obj (show ["expected_outputs", "preconditions", "purpose", "resources", "steps",
      "triggers", "validation_rules"].Pairwise (· < ·) by decide) ?_
    simp only [List.forall_mem_cons]
    exact ⟨by decide, by decide, .str _, SkillResource.codec.list.sorted resources, by decide,
      by decide, by decide, fun _ h => absurd h List.not_mem_nil⟩

/-- A skill that keeps its fields in its document. -/
def demoPacked (resources : List SkillResource) : SkillRecord :=
  { demoSkill with document := demoDocument resources, resources := resources }

theorem demoPacked_record (resources : List SkillResource) :
    skillRecordJson (keyOf (demoPacked resources)) (rowOf (demoPacked resources)) =
      SkillRecord.codec.enc (demoPacked resources) := by
  have henc : SkillRecord.codec.enc (demoPacked resources) = .obj
    [("content_hash", .str zeroDigest.text), ("created_at", .str demoMoment.text),
      ("document", (demoDocument resources).json), ("expected_outputs", .arr []),
      ("object_type", .str "SKILL_RECORD"), ("preconditions", .arr []), ("provenance", .obj []),
      ("purpose", .str "p"), ("resources", SkillResource.codec.list.enc resources),
      ("skill_id", .str "skill:s"), ("status", .str "DRAFT"), ("steps", .arr [.str "s"]),
      ("triggers", .arr [.str "t"]), ("updated_at", .str demoMoment.text),
      ("validation_rules", .arr [.obj []]), ("version", .num (.int 1))] := rfl
  have hdict : dictOf ((("object_type", .str "SKILL_RECORD") :: (demoDocument resources).members) ++
    [("skill_id", .str "skill:s"), ("version", .num (.int 1)), ("status", .str "DRAFT"),
      ("content_hash", .str zeroDigest.text), ("created_at", .str demoMoment.text),
      ("updated_at", .str demoMoment.text), ("document", (demoDocument resources).json),
      ("provenance", .obj [])]) =
    [("content_hash", .str zeroDigest.text), ("created_at", .str demoMoment.text),
      ("document", (demoDocument resources).json), ("expected_outputs", .arr []),
      ("object_type", .str "SKILL_RECORD"), ("preconditions", .arr []), ("provenance", .obj []),
      ("purpose", .str "p"), ("resources", SkillResource.codec.list.enc resources),
      ("skill_id", .str "skill:s"), ("status", .str "DRAFT"), ("steps", .arr [.str "s"]),
      ("triggers", .arr [.str "t"]), ("updated_at", .str demoMoment.text),
      ("validation_rules", .arr [.obj []]), ("version", .num (.int 1))] := by
    simp only [demoDocument, dictOf, List.cons_append, List.nil_append, List.foldl_cons,
      List.foldl_nil, insertMember, String.reduceLT, String.reduceEq, if_true, if_false]
  rw [henc, ← hdict]
  rfl

theorem keyOf_demoPacked (resources : List SkillResource) :
    keyOf (demoPacked resources) = skillKey "skill:s" 1 := by
  simp [keyOf, demoPacked, demoSkill, versionOf, AtLeast.first, AtLeast.ofInt, Text.text]

/-- A run that stores a skill with these resources. -/
theorem run_demoPacked (resources : List SkillResource) :
    ∃ (steps : List (Taken Unit)) (s : Sys Unit), Run steps s ∧ s.db.tables.skills =
      (∅ : SkillTable).insert (skillKey "skill:s" 1) (rowOf (demoPacked resources)) := by
  have h : versionOf (demoPacked resources).version ≤ maxRowId := by
    simp [demoPacked, demoSkill, versionOf, AtLeast.first, AtLeast.ofInt, maxRowId]
  rw [← keyOf_demoPacked resources]
  exact run_create h

/-- No loader, and an archive of as many bytes as two small entries take. -/
def demoPacking : Packing := ⟨none, JsonOf.dumps, fun _ => 586⟩

theorem export_demoPacked {resources : List SkillResource} {packed : List PackedResource}
    (h : (resources.map SkillResource.codec.enc).mapM (exportResource demoPacking) = .ok packed) :
    exportSkillPackage demoPacking
      ((∅ : SkillTable).insert (skillKey "skill:s" 1) (rowOf (demoPacked resources))) "skill:s"
      (some 1) = .ok ⟨skillKey "skill:s" 1, rowOf (demoPacked resources),
        packageArchive (skillKey "skill:s" 1) (rowOf (demoPacked resources)) packed⟩ := by
  have hget : getSkill ((∅ : SkillTable).insert (skillKey "skill:s" 1) (rowOf (demoPacked resources)))
      "skill:s" (some 1) false = some (skillKey "skill:s" 1, rowOf (demoPacked resources)) := by
    rw [getSkill, Table.get_insert, if_pos rfl]
    rfl
  refine bind_eq_ok.mpr ⟨_, orRaise_eq_ok.mpr hget, ?_⟩
  exact bind_eq_ok.mpr ⟨_, rfl, bind_eq_ok.mpr ⟨packed, h, rfl⟩⟩

theorem length_jsonLine_le {v : Json} {n : Nat} (h : 4 * v.sizeBound < n) :
    (jsonLine v).length ≤ n := by
  have hle := JsonOf.length_utf8_dumps_le (v := v) (n := n - 1) (by omega)
  rw [jsonLine, List.length_append, List.length_singleton]
  omega

theorem utf8ByteSize_hash (value : Bytes) : (sha256Bytes value).text.utf8ByteSize ≤ 284 := by
  have hsize : (sha256Bytes value).text.utf8ByteSize = (utf8 (sha256Bytes value).text).length := by
    show (sha256Bytes value).text.toByteArray.size = _
    rw [← toByteArray_utf8, List.size_toByteArray]
  have hle := length_utf8_le ("sha256:".toList ++ sha256Hex value)
  rw [List.length_append, sha256Hex_length] at hle
  rw [hsize]
  exact hle

/-- How long a manifest without resources is. -/
theorem length_manifest_le {key : String ×ₗ Nat} {row : SkillRow}
    (h : 6 * (ofLex key).1.utf8ByteSize + (PyNum.int (ofLex key).2).text.length ≤ 1000) :
    (jsonLine (manifestOf key row [])).length ≤ 1024 * 1024 := by
  have hhash := utf8ByteSize_hash (jsonLine (skillRecordJson key row))
  have hkeys : "package_version".utf8ByteSize + skillPackageVersion.utf8ByteSize +
      "resources".utf8ByteSize + "skill_hash".utf8ByteSize + "skill_id".utf8ByteSize +
      "skill_version".utf8ByteSize ≤ 1000 := by decide +kernel
  refine length_jsonLine_le ?_
  simp only [manifestOf, packageManifest, JsonOf.sizeBound, JsonOf.membersBound, List.map_nil,
    JsonOf.itemsBound]
  omega

/-- A skill without resources is portable. -/
theorem portable_demoPacked : Portable demoPacking ⟨skillKey "skill:s" 1, rowOf (demoPacked []),
    packageArchive (skillKey "skill:s" 1) (rowOf (demoPacked [])) []⟩ := by
  have hrecord : skillRecordJson (skillKey "skill:s" 1) (rowOf (demoPacked [])) =
      SkillRecord.codec.enc (demoPacked []) := by
    rw [← keyOf_demoPacked []]
    exact demoPacked_record []
  have hall : PackedAll demoPacking [] [] := ⟨by simp, by simp, rfl⟩
  refine ⟨⟨?_, ?_, ?_, ?_, ?_, ?_, ?_⟩, demoPacked [], ?_⟩
  · exact fun resource h => absurd h List.not_mem_nil
  · exact fun resource h => absurd h List.not_mem_nil
  · exact fun resource h => absurd h List.not_mem_nil
  · show 586 ≤ 32 * 1024 * 1024
    decide
  · show (namelist (packageArchive _ _ [])).length ≤ 512
    rw [packageArchive_eq]
    simp [namelist, sortedPayloads]
  · intro payload hpayload
    obtain rfl := Option.some.inj ((read?_manifest hall).symm.trans hpayload)
    exact length_manifest_le (by decide)
  · intro payload hpayload
    obtain rfl := Option.some.inj ((read?_skill hall).symm.trans hpayload)
    refine length_jsonLine_le ?_
    rw [hrecord]
    decide
  · rw [hrecord]
    exact SkillRecord.codec.dec_enc _

/-- A skill without resources makes the round trip. -/
theorem skill_package_round_trip_demo : ∃ (steps : List (Taken Unit)) (s : Sys Unit) (pkg : Package),
    Run steps s ∧ exportSkillPackage demoPacking s.db.tables.skills "skill:s" (some 1) = .ok pkg ∧
      RoundTrip demoPacking demoMoment.text pkg := by
  obtain ⟨steps, s, run, hskills⟩ := run_demoPacked []
  have hexport := @export_demoPacked [] [] rfl
  rw [← hskills] at hexport
  exact ⟨steps, s, _, run, hexport, (skill_package_round_trip run demoPacking "skill:s" (some 1) _
    hexport demoMoment.text).mpr portable_demoPacked⟩

/-! ### Without a loader -/

/-- A resource whose hash is not that of nothing. -/
def demoResource : SkillResource := ⟨zeroDigest, ⟨"a", by decide⟩, none⟩

def demoPackedResource : PackedResource :=
  ⟨.obj [("content_hash", .str zeroDigest.text), ("path", .str "resources/a"),
    ("size", .num (.int 0))], "resources/a", []⟩

theorem export_demoResource :
    exportResource demoPacking (SkillResource.codec.enc demoResource) = .ok demoPackedResource := by
  have hpath : safePackagePath "a" (some "resources") = .ok "resources/a" :=
    bind_eq_ok.mpr ⟨(), ensure_eq_ok.mpr (by decide), pure_eq_ok.mpr (by decide +kernel)⟩
  refine bind_eq_ok.mpr ⟨.str "a", rfl, bind_eq_ok.mpr ⟨"resources/a", hpath, ?_⟩⟩
  refine bind_eq_ok.mpr ⟨.str zeroDigest.text, rfl, bind_eq_ok.mpr ⟨(), ?_, rfl⟩⟩
  exact ensure_eq_ok.mpr (Or.inl rfl)

theorem zeroDigest_ne : sha256Bytes [] ≠ zeroDigest := by
  intro h
  have hdigits := congrArg Hash.digits h
  rw [sha256Bytes_digits] at hdigits
  exact absurd hdigits (by decide +kernel)

/-- A package exported without a loader is refused, though the export returned. -/
theorem unloaded_package_refused : ∃ (steps : List (Taken Unit)) (s : Sys Unit) (pkg : Package),
    Run steps s ∧ exportSkillPackage demoPacking s.db.tables.skills "skill:s" (some 1) = .ok pkg ∧
      ∀ now record db, importSkillPackage demoPacking now .empty pkg.archive ≠ (.ok record, db) := by
  obtain ⟨steps, s, run, hskills⟩ := run_demoPacked [demoResource]
  have hmap : ([demoResource].map SkillResource.codec.enc).mapM (exportResource demoPacking) =
      .ok [demoPackedResource] := by
    rw [List.map_singleton, List.mapM_cons, export_demoResource]
    rfl
  have hexport := export_demoPacked hmap
  rw [← hskills] at hexport
  refine ⟨steps, s, _, run, hexport, fun now record db himport => ?_⟩
  have hall := packedAll_of_mapM hmap
  have hsorted : ∀ packed ∈ [demoPackedResource], packed.entry.Sorted := by
    rw [List.forall_mem_singleton]
    decide
  obtain ⟨skill, hread, -⟩ := importSkillPackage_ok himport
  obtain ⟨byPath, hbyPath, hverify⟩ := readPackage_verified hall hsorted hread
  obtain rfl : [("resources/a", demoPackedResource.entry)] = byPath := Except.ok.inj hbyPath
  have hcheck := hverify _ List.mem_cons_self
  simp only [verifyResource, bind_eq_ok, orRaise_eq_ok, ensure_eq_ok] at hcheck
  obtain ⟨payload, hpayload, _, _, _, _, contentHash, hhash, heq⟩ := hcheck
  obtain rfl : JsonOf.str zeroDigest.text = contentHash := Except.ok.inj hhash
  have hnil : payload = [] := by
    rcases mem_packageArchive.mp (mem_of_read? hpayload) with ⟨h, _⟩ | ⟨h, _⟩ | ⟨q, hq, _, h⟩
    · exact absurd h (by decide)
    · exact absurd h (by decide)
    · rw [h, List.mem_singleton.mp hq]
      rfl
  rw [hnil] at heq
  exact zeroDigest_ne (Subtype.ext (Option.some.inj heq).symm)

end SharedMind.Product
