import SharedMind.Product.System
import SharedMind.Py.Zip

/-!
# Skill packages

* `getSkill`: a skill as the store returns it.
* `exportSkillPackage`: the archive of a skill, its manifest and its resources.
* `createSkill`, `importSkillPackage`: the skill of an archive, proposed to a store.
-/

namespace SharedMind.Product

open Py Py.Zip

/-! ### Records -/

/-- `_skill_row`: what is stored of the skill goes over the members of its document. -/
def skillRecordJson (key : String ×ₗ Nat) (row : SkillRow) : Json :=
  .obj (dictOf ((("object_type", .str "SKILL_RECORD") :: row.document.members) ++
    [("skill_id", .str (ofLex key).1), ("version", .num (.int (ofLex key).2)),
      ("status", .str row.status.text), ("content_hash", .str row.contentHash.text),
      ("created_at", .str row.createdAt), ("updated_at", .str row.updatedAt),
      ("document", row.document.json), ("provenance", row.provenance.json)]))

/-- `get_skill`. -/
def getSkill (skills : SkillTable) (skillId : String) (version : Option Nat) (approvedOnly : Bool) :
    Option ((String ×ₗ Nat) × SkillRow) :=
  match version with
  | some version => (skills[skillKey skillId version]?).map fun row => (skillKey skillId version, row)
  | none =>
    let rows := skills.toList.filter fun r => (ofLex r.1).1 = skillId
    if approvedOnly then rows.find? fun r => r.2.status = .approved else rows.getLast?

/-- What a `SkillError` says, and what else is raised. -/
inductive SkillExc where
  | notFound
  | resourceHashMismatch
  | packagePathInvalid
  | packageTooLarge
  | packageTooManyFiles
  | packageInvalid
  | packageVersionUnsupported
  | packageHashMismatch
  | skillInvalid
  | versionReuse
  | mutation (reason : Option ProductReason)
  | call (e : CallExc)
  | overflowError
  | keyError
  | typeError
  | valueError
  | attributeError
  | assertionError

/-- The code of a `SkillError`. -/
def SkillExc.code : SkillExc → Option String
  | notFound => some "SKILL_NOT_FOUND"
  | resourceHashMismatch => some "SKILL_RESOURCE_HASH_MISMATCH"
  | packagePathInvalid => some "SKILL_PACKAGE_PATH_INVALID"
  | packageTooLarge => some "SKILL_PACKAGE_TOO_LARGE"
  | packageTooManyFiles => some "SKILL_PACKAGE_TOO_MANY_FILES"
  | packageInvalid => some "SKILL_PACKAGE_INVALID"
  | packageVersionUnsupported => some "SKILL_PACKAGE_VERSION_UNSUPPORTED"
  | packageHashMismatch => some "SKILL_PACKAGE_HASH_MISMATCH"
  | skillInvalid => some "SKILL_INVALID"
  | versionReuse => some "SKILL_VERSION_REUSE"
  | mutation reason => some (reason.elim "SKILL_MUTATION_FAILED" ProductReason.text)
  | _ => none

/-! ### Paths -/

/-- `_safe_package_path`. -/
def safePackagePath (path : String) (stem : Option String) : Except SkillExc String := do
  let pure := PurePosixPath.ofChars (path.toList.map fun c => if c = '\\' then '/' else c)
  ensure (¬(pure.absolute ∨ ['.', '.'] ∈ pure.parts)) .packagePathInvalid
  let normalized := PurePosixPath.asPosix pure.parts
  match stem with
  | none => return String.ofList normalized
  | some stem =>
    let start := stem.toList ++ ['/']
    return String.ofList (if start <+: normalized then normalized else start ++ normalized)

/-! ### Export -/

def skillPackageVersion : String := "skill-package@1"

/-- What the export is given, and what it relies on: a loader, `str` of a value that is no string,
and how large an archive gets. -/
structure Packing where
  loader : Option (Json → Bytes)
  str : Json → String
  size : Archive → Nat

namespace Packing

/-- `str(value)`. -/
def text (k : Packing) : Json → String
  | .str s => s
  | v => k.str v

/-- The payload of a resource. -/
def payload (k : Packing) (resource : Json) : Bytes :=
  match k.loader with
  | some load => load resource
  | none => []

end Packing

/-- `value[key]`. -/
def item (value : Json) (key : String) : Except SkillExc Json :=
  match value with
  | .obj _ => orRaise (value.get? key) .keyError
  | _ => .error .typeError

/-- The values a list holds; iterating over an empty dict or string does nothing either. -/
def iterate (value : Json) : Except SkillExc (List Json) :=
  match value with
  | .arr items => .ok items
  | .obj [] => .ok []
  | .str "" => .ok []
  | _ => .error .typeError

/-- An entry of the manifest, its path and its payload. -/
structure PackedResource where
  entry : Json
  path : String
  payload : Bytes

/-- One resource of the export. -/
def exportResource (k : Packing) (resource : Json) : Except SkillExc PackedResource := do
  let path ← safePackagePath (k.text (← item resource "path")) (some "resources")
  let payload := k.payload resource
  let contentHash ← item resource "content_hash"
  ensure (payload = [] ∨ contentHash.str? = some (sha256Bytes payload).text) .resourceHashMismatch
  return ⟨.obj [("content_hash", contentHash), ("path", .str path),
    ("size", .num (.int payload.length))], path, payload⟩

/-- `manifest`. -/
def packageManifest (key : String ×ₗ Nat) (skillBytes : Bytes) (entries : List Json) : Json :=
  .obj [("package_version", .str skillPackageVersion), ("resources", .arr entries),
    ("skill_hash", .str (sha256Bytes skillBytes).text), ("skill_id", .str (ofLex key).1),
    ("skill_version", .num (.int (ofLex key).2))]

/-- `sorted` of the payloads. -/
def sortedPayloads (resources : List PackedResource) : List (String × Bytes) :=
  (resources.map fun r => (r.path, r.payload)).mergeSort fun a b =>
    decide (a.1 < b.1 ∨ a.1 = b.1 ∧ a.2 ≤ b.2)

/-- The archive of a skill. -/
def packageArchive (key : String ×ₗ Nat) (row : SkillRow) (resources : List PackedResource) :
    Archive :=
  let skillBytes := jsonLine (skillRecordJson key row)
  let manifest := packageManifest key skillBytes (resources.map PackedResource.entry)
  ((("manifest.json", jsonLine manifest) :: ("skill.json", skillBytes) ::
    sortedPayloads resources).foldl fun archive e => writestr archive e.1 e.2) []

/-- What an export returns: the skill it found, and the archive. -/
structure Package where
  key : String ×ₗ Nat
  row : SkillRow
  archive : Archive

/-- `export_skill_package`. -/
def exportSkillPackage (k : Packing) (skills : SkillTable) (skillId : String)
    (version : Option Nat) : Except SkillExc Package := do
  let (key, row) ← orRaise (getSkill skills skillId version version.isNone) .notFound
  let items ← iterate ((row.document.get? "resources").getD (.arr []))
  let resources ← items.mapM (exportResource k)
  return ⟨key, row, packageArchive key row resources⟩

/-! ### Proposals of one operation -/

theorem matchPieces_text (cs : List Char) : matchPieces (cs.map Piece.lit) cs = true := by
  induction cs with
  | nil => rfl
  | cons c cs ih =>
    exact matchPieces_cons_iff.mpr ⟨[c], cs, rfl, rfl, by simp [Piece.lit, Piece.one], ih⟩

theorem digestId_admitted (stem : String) (v : Json) : (digestIdPattern stem).search
    (String.ofList (stem.toList ++ (sha256Json v).digits.take 24)) = true := by
  have hlen : (sha256Json v).digits.length = 64 := by
    rw [sha256Json, sha256Bytes_digits, sha256Hex_length]
  have hhex : ∀ c ∈ (sha256Json v).digits.take 24, isHexChar c = true := by
    rw [sha256Json, sha256Bytes_digits]
    exact fun c hc => sha256Hex_digit _ c (List.mem_of_mem_take hc)
  have hdigits : matchPieces [⟨isHexChar, 24, some 24⟩] ((sha256Json v).digits.take 24) = true :=
    matchPieces_singleton (by rw [List.length_take, hlen]; rfl) (List.all_eq_true.mpr hhex)
  refine Pattern.search_of_fullmatch ?_
  rw [Pattern.fullmatch, Pattern.matches_, String.toList_ofList]
  exact List.any_eq_true.mpr ⟨_, List.mem_singleton_self _,
    matchPieces_append (matchPieces_text stem.toList) hdigits⟩

/-- A stem and the first digits of a hash. -/
def digestId (stem : String) (v : Json) : Text (digestIdPattern stem).search :=
  ⟨String.ofList (stem.toList ++ (sha256Json v).digits.take 24), digestId_admitted stem v⟩

theorem skillProposalKey_admitted (v : Json) : productKeyPattern.search
    (String.ofList ("product-skill:".toList ++ (sha256Json v).digits.take 48)) = true := by
  have hlen : (sha256Json v).digits.length = 64 := by
    rw [sha256Json, sha256Bytes_digits, sha256Hex_length]
  have hhex : ∀ c ∈ (sha256Json v).digits.take 48, isHexChar c = true := by
    rw [sha256Json, sha256Bytes_digits]
    exact fun c hc => sha256Hex_digit _ c (List.mem_of_mem_take hc)
  refine Pattern.search_of_fullmatch ?_
  rw [Pattern.fullmatch, Pattern.matches_, String.toList_ofList]
  refine List.any_eq_true.mpr ⟨_, List.mem_singleton_self _, matchPieces_singleton ?_ ?_⟩
  · rw [List.length_append, List.length_take, hlen]
    rfl
  · rw [List.all_append, Bool.and_eq_true]
    refine ⟨by decide, List.all_eq_true.mpr fun c hc => ?_⟩
    exact Bool.or_eq_true_iff.mpr (Or.inl (alnumChar_of_isHexChar (hhex c hc)))

/-- The proposal `_commit_skill_operation` makes of an operation. -/
def skillProposal (op : SkillOperation) (proposedAt : Timestamp) : ProductProposal :=
  let core : Json := .obj [("operation", SkillOperation.codec.enc op),
    ("proposer", .str "service:shared-mind-product")]
  { expectedProductStateHash := none
    idempotencyKey := ⟨String.ofList ("product-skill:".toList ++ (sha256Json core).digits.take 48),
      skillProposalKey_admitted core⟩
    operations := ⟨[op], by simp⟩
    proposalId := digestId "product_proposal_" core
    proposedAt := proposedAt
    proposer := ⟨"service:shared-mind-product", by decide +kernel⟩ }

/-- The end of a call of the only connection.  Fourteen steps end every call. -/
def finishCall : Nat → ProductDb → Phase → Result × ProductDb
  | 0, db, _ => (.error .operationalError, db)
  | n + 1, db, phase =>
    match phase.advance db with
    | none => (.error .operationalError, db)
    | some m =>
      match m.result with
      | some result => (result, m.db)
      | none => finishCall n m.db m.phase

/-- `commit_product_proposal`, by the only connection. -/
def commitProductProposal (now : String) (db : ProductDb) (p : ProductProposal) :
    Result × ProductDb :=
  finishCall 14 db (.hashing ⟨ProductProposal.codec.enc p, ProductProposal.codec.sorted p, now⟩
    (fun _ => []) ProductTable.all)

/-- A receipt that does not say `COMMITTED` is raised. -/
def raiseUnlessCommitted : Result × ProductDb → Except SkillExc Unit × ProductDb
  | (.error e, db) => (.error (.call e), db)
  | (.ok receipt, db) =>
    (if receipt.outcome = .committed then .ok () else .error (.mutation receipt.reason), db)

/-- `_commit_skill_operation`. -/
def commitSkillOperation (now : String) (db : ProductDb) (op : SkillOperation)
    (proposedAt : Timestamp) : Except SkillExc Unit × ProductDb :=
  raiseUnlessCommitted (commitProductProposal now db (skillProposal op proposedAt))

/-! ### Import -/

/-- `{"op": "CREATE_SKILL", "skill": record}`. -/
def createOperation (skill : SkillRecord) : SkillOperation :=
  .createSkill (digestId "product_op_" (.obj [("op", .str "CREATE_SKILL"),
    ("skill", SkillRecord.codec.enc skill)])) skill

/-- `create_skill`. -/
def createSkill (now : String) (db : ProductDb) (record : Json) :
    Except SkillExc Json × ProductDb :=
  match SkillRecord.codec.dec record with
  | none => (.error .skillInvalid, db)
  | some skill =>
    let key := skillKey skill.skillId.text (versionOf skill.version)
    if maxRowId < versionOf skill.version then (.error .overflowError, db)
    else match db.tables.skills[key]? with
      | some existing =>
        (if existing.contentHash = skill.contentHash then .ok (skillRecordJson key existing)
          else .error .versionReuse, db)
      | none =>
        match commitSkillOperation now db (createOperation skill) skill.updatedAt with
        | (.error e, db) => (.error e, db)
        | (.ok (), db) =>
          ((orRaise db.tables.skills[key]? .assertionError).map (skillRecordJson key), db)

/-- `json.loads(content.decode("utf-8"))`. -/
def loadsBytes (content : Bytes) : Except SkillExc Json :=
  orRaise ((utf8Decode? content).bind loads) .valueError

/-- `d[key] = value`. -/
def setItem (d : List (String × Json)) (key : String) (value : Json) : List (String × Json) :=
  if d.any fun e => e.1 = key then d.map fun e => if e.1 = key then (key, value) else e
  else d ++ [(key, value)]

/-- `resource_by_path`. -/
def resourceByPath (k : Packing) (items : List Json) : Except SkillExc (List (String × Json)) :=
  items.foldlM (fun d entry => do return setItem d (k.text (← item entry "path")) entry) []

/-- One resource of the import. -/
def verifyResource (archive : Archive) (path : String) (entry : Json) : Except SkillExc Unit := do
  let payload ← orRaise (read? archive path) .keyError
  let size ← item entry "size"
  ensure (size.pyEq (.num (.int payload.length)) = true) .resourceHashMismatch
  let contentHash ← item entry "content_hash"
  ensure (contentHash.str? = some (sha256Bytes payload).text) .resourceHashMismatch

/-- What `import_skill_package` reads and checks before it creates the skill. -/
def readPackage (k : Packing) (archive : Archive) : Except SkillExc Json := do
  ensure (k.size archive ≤ 32 * 1024 * 1024) .packageTooLarge
  ensure ((namelist archive).length ≤ 512) .packageTooManyFiles
  (namelist archive).forM fun name => do let _ ← safePackagePath name none
  let manifestBytes ← orRaise (read? archive "manifest.json") .packageInvalid
  let skillBytes ← orRaise (read? archive "skill.json") .packageInvalid
  ensure (manifestBytes.length ≤ 1024 * 1024 ∧ skillBytes.length ≤ 4 * 1024 * 1024)
    .packageInvalid
  let manifest ← loadsBytes manifestBytes
  let skill ← loadsBytes skillBytes
  ensure (Observe.isObject manifest = true) .attributeError
  ensure ((manifest.get? "package_version").bind JsonOf.str? = some skillPackageVersion)
    .packageVersionUnsupported
  ensure ((manifest.get? "skill_hash").bind JsonOf.str? = some (sha256Bytes skillBytes).text)
    .packageHashMismatch
  let items ← iterate ((manifest.get? "resources").getD (.arr []))
  let byPath ← resourceByPath k items
  byPath.forM fun e => verifyResource archive e.1 e.2
  return skill

/-- `import_skill_package`. -/
def importSkillPackage (k : Packing) (now : String) (db : ProductDb) (archive : Archive) :
    Except SkillExc Json × ProductDb :=
  match readPackage k archive with
  | .error e => (.error e, db)
  | .ok skill => createSkill now db skill

end SharedMind.Product
