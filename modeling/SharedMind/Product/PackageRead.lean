import SharedMind.Product.Package
import SharedMind.Py.RawJson

/-!
# Reading an archive that was exported

* `recordFields`: what a stored record says of its row.
* `safePackagePath_resources`: the path of a resource is below `resources`, and safe.
* `mem_packageArchive`: the entries of an archive.
* `Readable`: what the resources of a skill are that an import reads back.
* `readPackage_packageArchive`: an archive of readable resources is read.
-/

namespace SharedMind.Product

open Py Py.Zip

/-! ### Records -/

/-- The members of a record that are taken from its row. -/
theorem recordFields (key : String ×ₗ Nat) (row : SkillRow) :
    (skillRecordJson key row).get? "skill_id" = some (.str (ofLex key).1) ∧
    (skillRecordJson key row).get? "version" = some (.num (.int (ofLex key).2)) ∧
    (skillRecordJson key row).get? "status" = some (.str row.status.text) ∧
    (skillRecordJson key row).get? "content_hash" = some (.str row.contentHash.text) ∧
    (skillRecordJson key row).get? "created_at" = some (.str row.createdAt) ∧
    (skillRecordJson key row).get? "updated_at" = some (.str row.updatedAt) ∧
    (skillRecordJson key row).get? "document" = some row.document.json ∧
    (skillRecordJson key row).get? "provenance" = some row.provenance.json := by
  simp only [skillRecordJson, JsonOf.get?_dictOf]
  simp only [JsonOf.get?, List.findRev?_eq_find?_reverse, List.reverse_append]
  exact ⟨rfl, rfl, rfl, rfl, rfl, rfl, rfl, rfl⟩

/-- The resources of a record are those of its document. -/
theorem recordResources (key : String ×ₗ Nat) (row : SkillRow) :
    (skillRecordJson key row).get? "resources" = row.document.get? "resources" := by
  rw [skillRecordJson, JsonOf.get?_dictOf, AnyObject.get?, AnyObject.json]
  simp [JsonOf.get?, List.findRev?_eq_find?_reverse]

theorem skillRecordJson_sorted (key : String ×ₗ Nat) (row : SkillRow) :
    (skillRecordJson key row).Sorted := by
  have hmembers : ∀ m ∈ row.document.members, m.2.Sorted := by
    cases row.document.sorted with
    | obj _ h => exact h
  refine .obj (dictOf_sorted _) (dictOf_forall ?_)
  rw [List.forall_mem_append, List.forall_mem_cons]
  refine ⟨⟨.str _, hmembers⟩, ?_⟩
  simp only [List.forall_mem_cons]
  exact ⟨.str _, .num _, .str _, .str _, .str _, .str _, row.document.sorted, row.provenance.sorted,
    fun _ h => absurd h List.not_mem_nil⟩

/-! ### Paths -/

theorem safePackagePath_eq_ok {path n : String} {stem : Option String}
    (h : safePackagePath path stem = .ok n) :
    let pure := PurePosixPath.ofChars (path.toList.map fun c => if c = '\\' then '/' else c)
    pure.absolute = false ∧ ['.', '.'] ∉ pure.parts := by
  simp only [safePackagePath, bind_eq_ok, ensure_eq_ok] at h
  obtain ⟨_, hsafe, _⟩ := h
  simpa using hsafe

/-- A text of parts is safe. -/
theorem safePackagePath_asPosix {path : List Char} {parts : List (List Char)}
    (hparts : ∀ part ∈ parts, PurePosixPath.Part path part) (hpath : '\\' ∉ path)
    (hdots : ['.', '.'] ∉ parts) :
    ∃ n, safePackagePath (String.ofList (PurePosixPath.asPosix parts)) none = .ok n := by
  have hmap : (PurePosixPath.asPosix parts).map (fun c => if c = '\\' then '/' else c) =
      PurePosixPath.asPosix parts := by
    rw [List.map_congr_left (g := id), List.map_id]
    intro c hc
    refine if_neg ?_
    rintro rfl
    rcases PurePosixPath.mem_asPosix hparts hc with h | h | h
    · exact absurd h (by decide)
    · exact absurd h (by decide)
    · exact hpath h
  refine ⟨_, bind_eq_ok.mpr ⟨(), ensure_eq_ok.mpr ?_, rfl⟩⟩
  rw [String.toList_ofList, hmap, PurePosixPath.ofChars, PurePosixPath.partsOf_asPosix hparts]
  rintro (h | h)
  · exact PurePosixPath.head?_asPosix hparts (of_decide_eq_true h)
  · exact hdots h

/-- The path of a resource is below `resources`, and safe. -/
theorem safePackagePath_resources {path n : String}
    (h : safePackagePath path (some "resources") = .ok n) :
    "resources/".toList <+: n.toList ∧ ∃ n', safePackagePath n none = .ok n' := by
  obtain ⟨habsolute, hdots⟩ := safePackagePath_eq_ok h
  obtain ⟨_, _, h⟩ := bind_eq_ok.mp h
  obtain rfl := Except.ok.inj h
  generalize hcs : (path.toList.map fun c => if c = '\\' then '/' else c) = cs at *
  have hback : '\\' ∉ cs := by
    rw [← hcs, List.mem_map]
    rintro ⟨c, _, hc⟩
    split at hc
    · exact absurd hc (by decide)
    · next hne => exact hne hc
  have hparts : ∀ part ∈ PurePosixPath.partsOf cs, PurePosixPath.Part cs part :=
    fun part hpart => PurePosixPath.part_of_mem_partsOf hpart
  have hparts' : (PurePosixPath.ofChars cs).parts = PurePosixPath.partsOf cs := rfl
  have hstart : "resources".toList ++ ['/'] = "resources/".toList := rfl
  rw [hparts'] at hdots
  rw [hparts', hstart]
  by_cases hprefix : "resources/".toList <+: PurePosixPath.asPosix (PurePosixPath.partsOf cs)
  · rw [if_pos hprefix]
    refine ⟨?_, safePackagePath_asPosix hparts hback hdots⟩
    exact (String.toList_ofList : _ = PurePosixPath.asPosix _).symm ▸ hprefix
  rw [if_neg hprefix]
  refine ⟨?_, ?_⟩
  · have htext : (String.ofList ("resources/".toList ++
        PurePosixPath.asPosix (PurePosixPath.partsOf cs))).toList = _ := String.toList_ofList
    rw [htext]
    exact List.prefix_append _ _
  by_cases hnil : PurePosixPath.partsOf cs = []
  · rw [hnil]
    refine ⟨_, bind_eq_ok.mpr ⟨(), ensure_eq_ok.mpr ?_, rfl⟩⟩
    rw [String.toList_ofList]
    decide
  have hjoin : "resources/".toList ++ PurePosixPath.asPosix (PurePosixPath.partsOf cs) =
      PurePosixPath.asPosix ("resources".toList :: PurePosixPath.partsOf cs) := by
    rw [PurePosixPath.asPosix, PurePosixPath.asPosix, if_neg hnil, if_neg (List.cons_ne_nil _ _),
      List.intercalate_cons_of_ne_nil hnil]
    rfl
  rw [hjoin]
  refine @safePackagePath_asPosix ("resources".toList ++ cs) _ ?_ ?_ ?_
  · rw [List.forall_mem_cons]
    refine ⟨⟨by decide, by decide, by decide, List.subset_append_left _ _⟩, fun part hpart => ?_⟩
    have h := hparts part hpart
    exact ⟨h.ne_nil, h.ne_dot, h.not_mem, fun c hc => List.mem_append_right _ (h.subset hc)⟩
  · rw [List.mem_append, not_or]
    exact ⟨by decide, hback⟩
  · rw [List.mem_cons, not_or]
    exact ⟨by decide, hdots⟩

/-! ### Entries -/

section

variable {k : Packing} {key : String ×ₗ Nat} {row : SkillRow} {resources : List PackedResource}
  {resource : Json} {packed : PackedResource} {items : List Json}

theorem item_eq_ok {value x : Json} {name : String} (h : item value name = .ok x) :
    value.get? name = some x := by
  cases value with
  | obj members => exact orRaise_eq_ok.mp h
  | _ => exact nomatch h

/-- The path a resource is exported under. -/
def packagePath (k : Packing) (resource : Json) : Except SkillExc String := do
  safePackagePath (k.text (← item resource "path")) (some "resources")

/-- What is exported of a resource. -/
structure Packed (k : Packing) (resource : Json) (packed : PackedResource) : Prop where
  path : packagePath k resource = .ok packed.path
  payload : packed.payload = k.payload resource
  entry : ∃ contentHash, resource.get? "content_hash" = some contentHash ∧
    packed.entry = .obj [("content_hash", contentHash), ("path", .str packed.path),
      ("size", .num (.int packed.payload.length))]
  checked : packed.payload = [] ∨
    resource.get? "content_hash" = some (.str (sha256Bytes packed.payload).text)

theorem str?_eq_some {v : Json} {s : String} (h : v.str? = some s) : v = .str s := by
  cases v with
  | str t => exact congrArg JsonOf.str (Option.some.inj h)
  | _ => exact nomatch h

theorem packed_of_exportResource (h : exportResource k resource = .ok packed) :
    Packed k resource packed := by
  simp only [exportResource, bind_eq_ok, ensure_eq_ok, pure_eq_ok] at h
  obtain ⟨path, hpath, name, hname, contentHash, hhash, _, hchecked, rfl⟩ := h
  have hget := item_eq_ok hhash
  refine ⟨bind_eq_ok.mpr ⟨path, hpath, hname⟩, rfl, ⟨contentHash, hget, rfl⟩, ?_⟩
  refine hchecked.imp_right fun hstr => ?_
  rw [hget, str?_eq_some hstr]

theorem foldl_writestr (entries archive : Archive) :
    entries.foldl (fun archive e => writestr archive e.1 e.2) archive =
      archive ++ entries.map fun e => (infoName e.1, e.2) := by
  induction entries generalizing archive with
  | nil => simp
  | cons e entries ih =>
    rw [List.foldl_cons, ih, writestr, List.map_cons, List.append_assoc]
    rfl

/-- The manifest of an archive. -/
def manifestOf (key : String ×ₗ Nat) (row : SkillRow) (resources : List PackedResource) : Json :=
  packageManifest key (jsonLine (skillRecordJson key row)) (resources.map PackedResource.entry)

theorem packageArchive_eq : packageArchive key row resources =
    ("manifest.json", jsonLine (manifestOf key row resources)) ::
      ("skill.json", jsonLine (skillRecordJson key row)) ::
      (sortedPayloads resources).map fun e => (infoName e.1, e.2) := by
  have hmanifest : infoName "manifest.json" = "manifest.json" := infoName_of_not_mem (by decide)
  have hskill : infoName "skill.json" = "skill.json" := infoName_of_not_mem (by decide)
  refine (foldl_writestr _ []).trans ?_
  rw [List.nil_append, List.map_cons, List.map_cons, hmanifest, hskill]
  rfl

/-- **The entries** of an archive. -/
theorem mem_packageArchive {name : String} {payload : Bytes} :
    (name, payload) ∈ packageArchive key row resources ↔
      (name = "manifest.json" ∧ payload = jsonLine (manifestOf key row resources)) ∨
      (name = "skill.json" ∧ payload = jsonLine (skillRecordJson key row)) ∨
      ∃ r ∈ resources, name = infoName r.path ∧ payload = r.payload := by
  have hsorted : ∀ e, e ∈ sortedPayloads resources ↔ ∃ r ∈ resources, (r.path, r.payload) = e :=
    fun e => (List.mergeSort_perm _ _).mem_iff.trans List.mem_map
  rw [packageArchive_eq, List.mem_cons, List.mem_cons, List.mem_map, Prod.mk.injEq, Prod.mk.injEq]
  refine or_congr Iff.rfl (or_congr Iff.rfl ?_)
  constructor
  · rintro ⟨e, he, heq⟩
    obtain ⟨r, hr, rfl⟩ := (hsorted e).mp he
    obtain ⟨rfl, rfl⟩ := Prod.mk.inj heq
    exact ⟨r, hr, rfl, rfl⟩
  · rintro ⟨r, hr, rfl, rfl⟩
    exact ⟨_, (hsorted _).mpr ⟨r, hr, rfl⟩, rfl⟩

/-- No resource is named as the manifest or the skill. -/
theorem infoName_resource {name : String} (h : "resources/".toList <+: name.toList) :
    infoName name ≠ "manifest.json" ∧ infoName name ≠ "skill.json" := by
  obtain ⟨rest, hrest⟩ := h
  have hname : (infoName name).toList.head? = some 'r' := by
    rw [infoName, String.toList_ofList, ← hrest]
    rfl
  constructor <;> (intro heq; rw [heq] at hname; exact absurd hname (by decide))

/-- A resource is below `resources`, and its path is safe. -/
theorem Packed.below (h : Packed k resource packed) : "resources/".toList <+: packed.path.toList ∧
    ∃ n, safePackagePath packed.path none = .ok n := by
  obtain ⟨path, _, hname⟩ := bind_eq_ok.mp h.path
  exact safePackagePath_resources hname

/-- What was packed, of the resources of a document. -/
structure PackedAll (k : Packing) (items : List Json) (resources : List PackedResource) : Prop where
  ofPacked : ∀ packed ∈ resources, ∃ resource ∈ items, Packed k resource packed
  ofItem : ∀ resource ∈ items, ∃ packed ∈ resources, Packed k resource packed
  length_eq : resources.length = items.length

theorem packedAll_of_mapM (h : items.mapM (exportResource k) = .ok resources) :
    PackedAll k items resources := by
  induction items generalizing resources with
  | nil =>
    rw [List.mapM_nil, pure_eq_ok] at h
    subst h
    exact ⟨by simp, by simp, rfl⟩
  | cons resource items ih =>
    simp only [List.mapM_cons, bind_eq_ok, pure_eq_ok] at h
    obtain ⟨packed, hpacked, rest, hrest, rfl⟩ := h
    have hall := ih hrest
    have hhead := packed_of_exportResource hpacked
    refine ⟨?_, ?_, ?_⟩
    · rw [List.forall_mem_cons]
      refine ⟨⟨resource, List.mem_cons_self, hhead⟩, fun q hq => ?_⟩
      obtain ⟨r, hr, h⟩ := hall.ofPacked q hq
      exact ⟨r, List.mem_cons_of_mem _ hr, h⟩
    · rw [List.forall_mem_cons]
      refine ⟨⟨packed, List.mem_cons_self, hhead⟩, fun r hr => ?_⟩
      obtain ⟨q, hq, h⟩ := hall.ofItem r hr
      exact ⟨q, List.mem_cons_of_mem _ hq, h⟩
    · rw [List.length_cons, List.length_cons, hall.length_eq]

/-! ### Reads -/

theorem read?_manifest (h : PackedAll k items resources) :
    read? (packageArchive key row resources) "manifest.json" =
      some (jsonLine (manifestOf key row resources)) := by
  refine read?_of_forall (mem_packageArchive.mpr (Or.inl ⟨rfl, rfl⟩)) fun payload hmem => ?_
  rcases mem_packageArchive.mp hmem with ⟨_, hpayload⟩ | ⟨hname, _⟩ | ⟨r, hr, hname, _⟩
  · exact hpayload
  · exact absurd hname (by decide)
  · obtain ⟨_, _, hpacked⟩ := h.ofPacked r hr
    exact absurd hname.symm (infoName_resource hpacked.below.1).1

theorem read?_skill (h : PackedAll k items resources) :
    read? (packageArchive key row resources) "skill.json" =
      some (jsonLine (skillRecordJson key row)) := by
  refine read?_of_forall (mem_packageArchive.mpr (Or.inr (Or.inl ⟨rfl, rfl⟩))) fun payload hmem => ?_
  rcases mem_packageArchive.mp hmem with ⟨hname, _⟩ | ⟨_, hpayload⟩ | ⟨r, hr, hname, _⟩
  · exact absurd hname (by decide)
  · exact hpayload
  · obtain ⟨_, _, hpacked⟩ := h.ofPacked r hr
    exact absurd hname.symm (infoName_resource hpacked.below.1).2

/-- What an import needs of the resources, and of the sizes of an archive. -/
structure Readable (k : Packing) (items : List Json) (archive : Archive) : Prop where
  /-- A resource without a payload has the hash of nothing. -/
  loaded : ∀ resource ∈ items, k.payload resource = [] →
    resource.get? "content_hash" = some (.str (sha256Bytes []).text)
  named : ∀ resource ∈ items, ∀ name, packagePath k resource = .ok name → '\x00' ∉ name.toList
  /-- Resources that meet under one path have one payload. -/
  apart : ∀ resource ∈ items, ∀ other ∈ items, ∀ name, packagePath k resource = .ok name →
    packagePath k other = .ok name → k.payload resource = k.payload other
  size_le : k.size archive ≤ 32 * 1024 * 1024
  count_le : (namelist archive).length ≤ 512
  manifest_le : ∀ payload, read? archive "manifest.json" = some payload →
    payload.length ≤ 1024 * 1024
  skill_le : ∀ payload, read? archive "skill.json" = some payload →
    payload.length ≤ 4 * 1024 * 1024

theorem read?_resource (h : PackedAll k items resources)
    (hread : Readable k items (packageArchive key row resources)) (hmem : packed ∈ resources) :
    read? (packageArchive key row resources) packed.path = some packed.payload := by
  have hname : ∀ q ∈ resources, infoName q.path = q.path := by
    intro q hq
    obtain ⟨r, hr, hpacked⟩ := h.ofPacked q hq
    exact infoName_of_not_mem (hread.named r hr _ hpacked.path)
  refine read?_of_forall (mem_packageArchive.mpr (Or.inr (Or.inr ⟨packed, hmem, ?_, rfl⟩))) ?_
  · exact (hname packed hmem).symm
  intro payload hother
  obtain ⟨r, hr, hpacked⟩ := h.ofPacked packed hmem
  have hbelow := infoName_resource hpacked.below.1
  rw [hname packed hmem] at hbelow
  rcases mem_packageArchive.mp hother with ⟨heq, _⟩ | ⟨heq, _⟩ | ⟨q, hq, heq, rfl⟩
  · exact absurd heq hbelow.1
  · exact absurd heq hbelow.2
  · obtain ⟨r', hr', hpacked'⟩ := h.ofPacked q hq
    rw [hname q hq] at heq
    rw [hpacked.payload, hpacked'.payload]
    exact hread.apart r' hr' r hr q.path hpacked'.path (heq ▸ hpacked.path)

/-- The manifest entry of a resource has the hash of its payload. -/
theorem entry_packed (h : PackedAll k items resources)
    (hread : Readable k items (packageArchive key row resources)) (hmem : packed ∈ resources) :
    packed.entry = .obj [("content_hash", .str (sha256Bytes packed.payload).text),
      ("path", .str packed.path), ("size", .num (.int packed.payload.length))] := by
  obtain ⟨r, hr, hpacked⟩ := h.ofPacked packed hmem
  obtain ⟨contentHash, hhash, hentry⟩ := hpacked.entry
  have hsha : contentHash = .str (sha256Bytes packed.payload).text := by
    rcases hpacked.checked with hnil | hchecked
    · have hloaded := hread.loaded r hr (hpacked.payload.symm.trans hnil)
      rw [hnil]
      exact Option.some.inj (hhash.symm.trans hloaded)
    · exact Option.some.inj (hhash.symm.trans hchecked)
  rw [hentry, hsha]

theorem entry_sorted (h : PackedAll k items resources)
    (hread : Readable k items (packageArchive key row resources)) (hmem : packed ∈ resources) :
    packed.entry.Sorted := by
  rw [entry_packed h hread hmem]
  refine .obj (show ["content_hash", "path", "size"].Pairwise (· < ·) by decide) ?_
  simp only [List.forall_mem_cons]
  exact ⟨.str _, .str _, .num _, fun _ h => absurd h List.not_mem_nil⟩

/-- A resource is what its manifest entry says. -/
theorem verifyResource_packed (h : PackedAll k items resources)
    (hread : Readable k items (packageArchive key row resources)) (hmem : packed ∈ resources) :
    verifyResource (packageArchive key row resources) packed.path packed.entry = .ok () := by
  rw [entry_packed h hread hmem]
  refine bind_eq_ok.mpr ⟨packed.payload, orRaise_eq_ok.mpr (read?_resource h hread hmem), ?_⟩
  refine bind_eq_ok.mpr ⟨.num (.int packed.payload.length), rfl, ?_⟩
  refine bind_eq_ok.mpr ⟨(), ensure_eq_ok.mpr (PyNum.pyEq_refl _), ?_⟩
  exact bind_eq_ok.mpr ⟨.str (sha256Bytes packed.payload).text, rfl, ensure_eq_ok.mpr rfl⟩

theorem mem_setItem {d : List (String × Json)} {name : String} {value : Json} {e : String × Json}
    (h : e ∈ setItem d name value) : e ∈ d ∨ e = (name, value) := by
  rw [setItem] at h
  split at h
  · obtain ⟨x, hx, heq⟩ := List.mem_map.mp h
    split at heq
    · exact Or.inr heq.symm
    · exact Or.inl (heq ▸ hx)
  · exact List.mem_append.mp h |>.imp_right List.mem_singleton.mp

/-- The entries by path. -/
theorem resourceByPath_packed (h : PackedAll k items resources) :
    ∃ byPath, resourceByPath k (resources.map PackedResource.entry) = .ok byPath ∧
      ∀ e ∈ byPath, ∃ packed ∈ resources, e = (packed.path, packed.entry) := by
  have hpath : ∀ packed ∈ resources, item packed.entry "path" = .ok (.str packed.path) := by
    intro packed hmem
    obtain ⟨_, _, hpacked⟩ := h.ofPacked packed hmem
    obtain ⟨_, _, hentry⟩ := hpacked.entry
    rw [hentry]
    rfl
  have hfold : ∀ (rest : List PackedResource) (d : List (String × Json)), rest ⊆ resources →
      (∀ e ∈ d, ∃ packed ∈ resources, e = (packed.path, packed.entry)) →
      ∃ byPath, (rest.map PackedResource.entry).foldlM
          (fun d entry => do return setItem d (k.text (← item entry "path")) entry) d =
            (.ok byPath : Except SkillExc _) ∧
        ∀ e ∈ byPath, ∃ packed ∈ resources, e = (packed.path, packed.entry) := by
    intro rest
    induction rest with
    | nil => exact fun d _ hd => ⟨d, rfl, hd⟩
    | cons packed rest ih =>
      intro d hsub hd
      have hmem := hsub List.mem_cons_self
      have hd' : ∀ e ∈ setItem d packed.path packed.entry,
          ∃ packed ∈ resources, e = (packed.path, packed.entry) := by
        intro e he
        rcases mem_setItem he with he | rfl
        · exact hd e he
        · exact ⟨packed, hmem, rfl⟩
      obtain ⟨byPath, hfold, hall⟩ := ih _ (fun q hq => hsub (List.mem_cons_of_mem _ hq)) hd'
      refine ⟨byPath, ?_, hall⟩
      rw [List.map_cons, List.foldlM_cons, hpath packed hmem]
      exact hfold
  exact hfold resources [] (List.Subset.refl _) (by simp)

theorem manifestOf_sorted (h : ∀ packed ∈ resources, packed.entry.Sorted) :
    (manifestOf key row resources).Sorted := by
  have hentry : ∀ v ∈ resources.map PackedResource.entry, v.Sorted := by
    intro v hv
    obtain ⟨packed, hmem, rfl⟩ := List.mem_map.mp hv
    exact h packed hmem
  refine .obj (show ["package_version", "resources", "skill_hash", "skill_id",
    "skill_version"].Pairwise (· < ·) by decide) ?_
  simp only [List.forall_mem_cons]
  exact ⟨.str _, .arr hentry, .str _, .str _, .num _, fun _ h => absurd h List.not_mem_nil⟩

theorem loadsBytes_jsonLine {v : Json} (h : v.Sorted) : loadsBytes (jsonLine v) = .ok v := by
  rw [loadsBytes, decode_jsonLine]
  exact orRaise_eq_ok.mpr (loads_line h)

/-- **An archive** of readable resources is read. -/
theorem readPackage_packageArchive (h : PackedAll k items resources)
    (hread : Readable k items (packageArchive key row resources)) :
    readPackage k (packageArchive key row resources) = .ok (skillRecordJson key row) := by
  have hmanifest := @read?_manifest _ key row _ _ h
  have hskill := @read?_skill _ key row _ _ h
  have hfixed : safePackagePath "manifest.json" none = .ok _ ∧
      safePackagePath "skill.json" none = .ok _ :=
    ⟨bind_eq_ok.mpr ⟨(), ensure_eq_ok.mpr (by decide), rfl⟩,
      bind_eq_ok.mpr ⟨(), ensure_eq_ok.mpr (by decide), rfl⟩⟩
  have hsafe : ∀ name ∈ namelist (packageArchive key row resources),
      (do let _ ← safePackagePath name none : Except SkillExc Unit) = .ok () := by
    intro name hname
    obtain ⟨⟨name, payload⟩, hmem, rfl⟩ := List.mem_map.mp hname
    rcases mem_packageArchive.mp hmem with ⟨rfl, _⟩ | ⟨rfl, _⟩ | ⟨q, hq, rfl, _⟩
    · exact bind_eq_ok.mpr ⟨_, hfixed.1, rfl⟩
    · exact bind_eq_ok.mpr ⟨_, hfixed.2, rfl⟩
    · obtain ⟨r, hr, hpacked⟩ := h.ofPacked q hq
      obtain ⟨n, hn⟩ := hpacked.below.2
      rw [infoName_of_not_mem (hread.named r hr _ hpacked.path)]
      exact bind_eq_ok.mpr ⟨n, hn, rfl⟩
  obtain ⟨byPath, hbyPath, hall⟩ := resourceByPath_packed h
  have hverify : ∀ e ∈ byPath,
      verifyResource (packageArchive key row resources) e.1 e.2 = .ok () := by
    intro e he
    obtain ⟨packed, hmem, rfl⟩ := hall e he
    exact verifyResource_packed h hread hmem
  have hloads := loadsBytes_jsonLine (@manifestOf_sorted key row _
    fun packed hmem => entry_sorted h hread hmem)
  have hloads' := loadsBytes_jsonLine (skillRecordJson_sorted key row)
  simp only [readPackage, bind_eq_ok, ensure_eq_ok, pure_eq_ok, orRaise_eq_ok]
  exact ⟨(), hread.size_le, (), hread.count_le, (), forM_eq_ok.mpr hsafe, _, hmanifest, _, hskill,
    (), ⟨hread.manifest_le _ hmanifest, hread.skill_le _ hskill⟩, _, hloads, _, hloads', (), rfl,
    (), rfl, (), rfl, _, rfl, byPath, hbyPath, (), forM_eq_ok.mpr hverify, rfl⟩

end

end SharedMind.Product
