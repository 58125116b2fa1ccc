/-
The verifier accepts a package exactly if it is the one that was written.

`Holds` says what the verifier finds in a tree that it accepts, entry by entry (`verifyBody_eq_ok`);
two trees in which it finds that are the same (`Holds.same`).  In one direction the manifest that
the writer rendered has to be read back as it was (`loadArtifactManifest_bytes`).
-/
import Evosport.Experiments.Package

namespace Evosport.Experiments

open Lib

/-! ## Steps of the verifier -/

section Steps

variable {ro : Bool} {t : FileTree} {entries : List (String × FileTree)} {name : String}

/-- The write permissions are as they are asked for. -/
def Permits (ro : Bool) (t : FileTree) : Prop := ro = true → t.writable = false

lemma requirePermissions_eq_ok {u : Unit} : requirePermissions ro t = .ok u ↔ Permits ro t := by
  rw [requirePermissions, check_eq_ok, Permits]
  cases ro <;> simp

lemma requireDirectory_eq_ok :
    requireDirectory t = .ok entries ↔ ∃ mode, t = .dir mode entries := by
  rw [requireDirectory, expect_eq_ok]
  cases t <;> simp [FileTree.iterdir]

lemma requireFile_eq_ok {bytes : ByteArray} :
    requireFile t = .ok bytes ↔ ∃ mode, t = .file mode bytes := by
  rw [requireFile, expect_eq_ok]
  cases t <;> simp [FileTree.bytes?]

lemma entry_eq_ok : entry entries name = .ok t ↔ Dict.lookup name entries = some t := by
  rw [entry, expect_eq_ok]

/-- The evidence files of a listed directory whose strategy package is the file `name`. -/
def listedFiles (entries : List (String × FileTree)) (name : String) (file : FileTree) :
    List (String × FileTree) :=
  (rootEvidenceNames.map fun k => (k, (Dict.lookup k entries).getD (.special 0))) ++
    [(strategyPrefix ++ name, file)]

lemma onlyEntry_eq_ok {e : String × FileTree} : onlyEntry entries = .ok e ↔ entries = [e] := by
  unfold onlyEntry
  split <;> simp_all

private lemma mapM_entry_eq_ok {names : List String} {files : List (String × FileTree)} :
    (names.mapM fun k => (entry entries k).map fun t => (k, t)) = .ok files ↔
      (∀ k ∈ names, ∃ t, Dict.lookup k entries = some t) ∧
        files = names.map fun k => (k, (Dict.lookup k entries).getD (.special 0)) := by
  rw [mapM_eq_ok_iff (g := fun k => (k, (Dict.lookup k entries).getD (.special 0)))]
  · refine and_congr_left' (forall₂_congr fun k hk => ?_)
    rw [except_map_eq_ok]
    constructor
    · rintro ⟨t, ht, -⟩
      exact ⟨t, entry_eq_ok.1 ht⟩
    · rintro ⟨t, ht⟩
      exact ⟨t, entry_eq_ok.2 ht, by rw [ht]; rfl⟩
  · intro k _ file h
    obtain ⟨t, ht, rfl⟩ := except_map_eq_ok.1 h
    rw [entry_eq_ok.1 ht]
    rfl

private lemma mapM_requireFile_eq_ok {files : List (String × FileTree)} {all : List ByteArray} :
    (files.mapM fun file => requireFile file.2) = .ok all ↔
      (∀ file ∈ files, ∃ mode bytes, file.2 = .file mode bytes) ∧
        all = files.map fun file => file.2.bytes?.getD ByteArray.empty := by
  rw [mapM_eq_ok_iff (g := fun file : String × FileTree => file.2.bytes?.getD ByteArray.empty)]
  · refine and_congr_left' (forall₂_congr fun file hfile => ?_)
    rw [requireFile_eq_ok]
    constructor
    · rintro ⟨mode, h⟩
      exact ⟨mode, _, h⟩
    · rintro ⟨mode, bytes, h⟩
      exact ⟨mode, by rw [h]; rfl⟩
  · intro file _ bytes h
    obtain ⟨mode, h⟩ := requireFile_eq_ok.1 h
    rw [h]
    rfl

lemma evidenceFiles_eq_ok {files : List (String × FileTree)} :
    evidenceFiles entries = .ok files ↔
      ∃ mode name mode' bytes,
        Dict.lookup "strategy-package" entries = some (.dir mode [(name, .file mode' bytes)]) ∧
        (∀ k ∈ rootEvidenceNames, ∃ mode bytes, Dict.lookup k entries = some (.file mode bytes)) ∧
        files = sortByKey Prod.fst (listedFiles entries name (.file mode' bytes)) := by
  simp only [evidenceFiles, except_bind_eq_ok, entry_eq_ok, requireDirectory_eq_ok,
    onlyEntry_eq_ok, requireFile_eq_ok, mapM_entry_eq_ok, mapM_requireFile_eq_ok]
  constructor
  · rintro ⟨_, hdir, _, ⟨mode, rfl⟩, ⟨name, _⟩, rfl, bytes, ⟨mode', rfl⟩, _, ⟨hsome, rfl⟩, _,
      ⟨hregular, -⟩, hfiles⟩
    refine ⟨mode, name, mode', bytes, hdir, fun k hk => ?_, (Except.ok.inj hfiles).symm⟩
    obtain ⟨t, ht⟩ := hsome k hk
    obtain ⟨m, b, hfile⟩ := hregular (k, t)
      (List.mem_append_left _ (List.mem_map.2 ⟨k, hk, by rw [ht]; rfl⟩))
    exact ⟨m, b, ht.trans (congrArg some hfile)⟩
  · rintro ⟨mode, name, mode', bytes, hdir, hroot, rfl⟩
    refine ⟨_, hdir, _, ⟨mode, rfl⟩, (name, .file mode' bytes), rfl, bytes, ⟨mode', rfl⟩, _,
      ⟨fun k hk => ?_, rfl⟩, _, ⟨fun file hfile => ?_, rfl⟩, rfl⟩
    · obtain ⟨m, b, hb⟩ := hroot k hk
      exact ⟨_, hb⟩
    · rcases List.mem_append.1 hfile with hfile | hfile
      · obtain ⟨k, hk, rfl⟩ := List.mem_map.1 hfile
        obtain ⟨m, b, hb⟩ := hroot k hk
        exact ⟨m, b, by rw [hb]; rfl⟩
      · exact ⟨mode', bytes, by rw [List.mem_singleton.1 hfile]⟩

end Steps

/-! ## The manifest is read back -/

section Manifest

variable {F : Type} {runId fingerprint : String} {evidence : Dict String ByteArray}

lemma hasFields_canon (fields : List String) (v : Json F) :
    hasFields fields v.canon = hasFields fields v := by
  rcases v.names?_canon with ⟨h, h'⟩ | ⟨names, names', h, h', hperm⟩
  · rw [hasFields, hasFields, h, h']
  · rw [hasFields, hasFields, h, h', Bool.eq_iff_iff, sameSet_iff, sameSet_iff]
    exact forall_congr' fun x => by rw [hperm.mem_iff]

/-- What a record says of a file. -/
def recordOf (item : String × ByteArray) : ArtifactRecord :=
  ⟨item.1, sha256 item.2, item.2.size⟩

lemma distinctKeys_recordJson (item : String × ByteArray) :
    (recordJson item : Json F).distinctKeys = true := by
  simp [recordJson, Json.distinctKeys, Json.distinctMembers]

lemma distinctKeys_artifactManifestJson :
    (artifactManifestJson runId fingerprint evidence : Json F).distinctKeys = true := by
  have hitems : Json.distinctItems ((sortByKey Prod.fst evidence.entries).map recordJson :
      List (Json F)) = true := by
    rw [Json.distinctItems_iff]
    intro v hv
    obtain ⟨item, -, rfl⟩ := List.mem_map.1 hv
    exact distinctKeys_recordJson item
  simp [artifactManifestJson, Json.distinctKeys, Json.distinctMembers, hitems]

lemma readRecord_recordJson {item : String × ByteArray} (h : isSafeEvidencePath item.1 = true) :
    readRecord (recordJson item : Json F).canon = .ok (recordOf item) := by
  have hget := Json.get?_canon (distinctKeys_recordJson (F := F) item)
  simp only [readRecord, except_bind_eq_ok, check_eq_ok, expect_eq_ok, hasFields_canon, hget]
  refine ⟨(), ?_, item.1, ?_, (), h, sha256 item.2, ?_, (), Data.isSha256_sha256 _, item.2.size, ?_,
    rfl⟩
  · simp [hasFields, recordJson, Json.names?, sameSet]
  · rfl
  · rfl
  · rfl

lemma fromUTF8?_toUTF8 (s : String) : String.fromUTF8? s.toUTF8 = some s :=
  dif_pos s.isValidUTF8

/-- The bytes of a JSON value and of a line feed are read back as the sorted value. -/
lemma loads_strictJsonBytes [PyFloat F] (v : Json F) :
    ∃ text, String.fromUTF8? (strictJsonBytes v ++ "\n".toUTF8) = some text ∧
      Json.loads text.toList = some v.canon := by
  refine ⟨String.ofList (Json.dumps v) ++ "\n", ?_, ?_⟩
  · rw [strictJsonBytes, ← fromUTF8?_toUTF8]
    congr 1
  · rw [String.toList_append, String.toList_ofList]
    exact Json.loads_text Json.escapes_escape v.canon (by simp [Json.isSpace])

/-- The records are listed by path, each path once. -/
lemma listed_once (evidence : Dict String ByteArray) :
    let paths := ((sortByKey Prod.fst evidence.entries).map recordOf).map
      ArtifactRecord.relativePath
    paths = sortByKey id paths ∧ paths.Nodup := by
  have hpaths : ((sortByKey Prod.fst evidence.entries).map recordOf).map
      ArtifactRecord.relativePath = sortByKey id evidence.keys := by
    have hkeys : (sortByKey Prod.fst evidence.entries).map Prod.fst =
        sortByKey id (evidence.entries.map Prod.fst) := map_sortByKey Prod.fst id Prod.fst (fun _ => rfl) _
    rw [List.map_map]
    exact hkeys
  rw [hpaths]
  exact ⟨(sortByKey_sortByKey _).symm,
    (perm_sortByKey id evidence.keys).nodup_iff.2 evidence.nodup⟩

/-- The manifest that the writer renders is read back as the records of the evidence. -/
theorem loadArtifactManifest_bytes [PyFloat F]
    (hsafe : ∀ k ∈ evidence.keys, isSafeEvidencePath k = true) :
    loadArtifactManifest F (artifactManifestBytes F runId fingerprint evidence) runId fingerprint =
      .ok ((sortByKey Prod.fst evidence.entries).map recordOf) := by
  obtain ⟨text, htext, hloads⟩ :=
    loads_strictJsonBytes (artifactManifestJson runId fingerprint evidence : Json F)
  have hdistinct : (artifactManifestJson runId fingerprint evidence : Json F).distinctKeys = true :=
    distinctKeys_artifactManifestJson
  have hget := Json.get?_canon hdistinct
  have hread : ((sortByKey Prod.fst evidence.entries).map fun item =>
      (recordJson item : Json F).canon).mapM readRecord =
        .ok ((sortByKey Prod.fst evidence.entries).map recordOf) := by
    rw [List.mapM_map]
    refine mapM_eq_ok_map fun item hitem => readRecord_recordJson (hsafe item.1 ?_)
    exact List.mem_map_of_mem (mem_sortByKey.1 hitem)
  have hartifacts : ((artifactManifestJson runId fingerprint evidence : Json F).canon.get?
      "artifacts").bind Json.items? = some ((sortByKey Prod.fst evidence.entries).map fun item =>
        (recordJson item : Json F).canon) := by
    rw [hget]
    change (Json.canon (.arr _)).items? = _
    rw [Json.canon_arr, List.map_map]
    rfl
  simp only [loadArtifactManifest, except_bind_eq_ok, check_eq_ok, expect_eq_ok,
    artifactManifestBytes]
  refine ⟨text, htext, _, hloads, (), Json.distinctKeys_canon hdistinct, (), ?_, (), ?_, (), ?_,
    _, hartifacts, _, hread, (), ?_, rfl⟩
  · rw [hasFields_canon]
    simp [hasFields, artifactManifestJson, Json.names?, sameSet]
  · rw [hget, beq_iff_eq]
    rfl
  · rw [hget, hget, Bool.and_eq_true, beq_iff_eq, beq_iff_eq]
    exact ⟨rfl, rfl⟩
  · simpa only [Bool.and_eq_true, decide_eq_true_eq] using listed_once evidence

/-- The records that are read name safe paths. -/
lemma isSafeEvidencePath_of_load [PyFloat F] {bytes : ByteArray} {records : List ArtifactRecord}
    (h : loadArtifactManifest F bytes runId fingerprint = .ok records) {record : ArtifactRecord}
    (hrecord : record ∈ records) : isSafeEvidencePath record.relativePath = true := by
  simp only [loadArtifactManifest, except_bind_eq_ok] at h
  obtain ⟨-, -, -, -, -, -, -, -, -, -, -, -, artifacts, -, records', hread, -, -, h⟩ := h
  cases h
  obtain ⟨v, -, hv⟩ := exists_of_mem_mapM hread hrecord
  simp only [readRecord, except_bind_eq_ok, check_eq_ok] at hv
  obtain ⟨-, -, path, -, -, hsafe, digest, -, -, -, size, -, h⟩ := hv
  cases h
  exact hsafe

end Manifest

/-! ## What the verifier finds -/

/-- The evidence beside the strategy package, by path. -/
def Captured.rootEvidence (c : Captured) : List (String × ByteArray) :=
  [("dataset-manifest.json", c.manifest), ("decision.json", c.decision),
    ("environment.lock", c.lock), ("environment.json", c.environment),
    ("experiment.yaml", c.experiment), ("report.html", c.report), ("result.json", c.result)]

lemma map_fst_rootEvidence (c : Captured) : c.rootEvidence.map Prod.fst = rootEvidenceNames := rfl

/-- The tree is the package of what was captured: these entries and no others, the files with these
bytes, and nothing writable where that is asked for. -/
structure Holds (ro : Bool) (name : String) (c : Captured) (manifestBytes : ByteArray)
    (t : FileTree) : Prop where
  directory : t.kind = .dir
  permits : Permits ro t
  names : ∀ k, t.child? k ≠ none ↔ k ∈ rootArtifactFiles ++ ["strategy-package"]
  rootFiles : ∀ item ∈ c.rootEvidence ++ [("artifact-manifest.json", manifestBytes)],
    ∃ mode, t.child? item.1 = some (.file mode item.2) ∧ Permits ro (.file mode item.2)
  strategy : ∃ mode mode',
    t.child? "strategy-package" = some (.dir mode [(name, .file mode' c.strategy)]) ∧
      Permits ro (.dir mode [(name, .file mode' c.strategy)]) ∧ Permits ro (.file mode' c.strategy)
  noBackslash : '\\' ∉ name.toList

section Verifier

variable {F : Type} {ro : Bool} {name runId fingerprint : String} {c : Captured} {t u : FileTree}

/-- Of the names that the writer takes, the verifier refuses those with a backslash. -/
lemma isSafeEvidencePath_strategy (hname : isUnsafeFilename name = false) :
    isSafeEvidencePath (strategyPrefix ++ name) = true ↔ '\\' ∉ name.toList := by
  simp only [isUnsafeFilename, Bool.or_eq_false_iff, beq_eq_false_iff_ne] at hname
  obtain ⟨⟨⟨hempty, hdot⟩, hdots⟩, hslash⟩ := hname
  have hparts : [[], ['.'], ['.', '.']].contains name.toList = false := by
    have hne : name.toList ≠ "".toList ∧ name.toList ≠ ".".toList ∧ name.toList ≠ "..".toList :=
      ⟨fun h => hempty (String.toList_inj.1 h), fun h => hdot (String.toList_inj.1 h),
        fun h => hdots (String.toList_inj.1 h)⟩
    simpa using hne
  have hroot : rootEvidenceNames.contains (strategyPrefix ++ name) = false := by
    rw [Bool.eq_false_iff, Ne, List.contains_iff_mem]
    exact strategyPath_notMem name
  have hcount : name.toList.count '/' = 0 :=
    List.count_eq_zero.2 fun h => by simp [h] at hslash
  have hdirectory : strategyPrefix.toList.count '/' = 1 ∧ '\\' ∉ strategyPrefix.toList := by decide
  have hleads : strategyPrefix.toList.isPrefixOf (strategyPrefix.toList ++ name.toList) = true :=
    List.isPrefixOf_iff_prefix.2 (List.prefix_append _ _)
  rw [isSafeEvidencePath, hroot, String.toList_append, hleads, List.count_append, hcount,
    hdirectory.1, List.drop_left, hparts]
  simp [hdirectory.2]

lemma perm_evidenceItems (name : String) (c : Captured) :
    (c.rootEvidence ++ [(strategyPrefix ++ name, c.strategy)]).Perm
      (evidenceMap name c).entries := by
  have hkeys : ((c.rootEvidence ++ [(strategyPrefix ++ name, c.strategy)]).map Prod.fst).Nodup := by
    rw [List.map_append, map_fst_rootEvidence, List.map_singleton]
    refine List.Nodup.append (by decide) (List.nodup_singleton _) ?_
    rw [List.disjoint_singleton]
    exact strategyPath_notMem name
  rw [List.perm_ext_iff_of_nodup hkeys.of_map (evidenceMap name c).nodup.of_map]
  intro item
  simp only [Captured.rootEvidence, evidenceMap, evidenceItems, List.cons_append,
    List.nil_append, List.mem_cons, List.not_mem_nil, or_false]
  tauto

lemma requireRootFile_eq_ok {entries : List (String × FileTree)} {k : String} {x : Unit} :
    requireRootFile ro entries k = .ok x ↔
      ∃ mode bytes, Dict.lookup k entries = some (.file mode bytes) ∧
        Permits ro (.file mode bytes) := by
  simp only [requireRootFile, except_bind_eq_ok, entry_eq_ok, requireFile_eq_ok,
    requirePermissions_eq_ok]
  constructor
  · rintro ⟨_, ht, bytes, ⟨mode, rfl⟩, hpermits⟩
    exact ⟨mode, bytes, ht, hpermits⟩
  · rintro ⟨mode, bytes, ht, hpermits⟩
    exact ⟨_, ht, bytes, ⟨mode, rfl⟩, hpermits⟩

lemma requireCaptured_eq_ok {evidence : Dict String ByteArray} {file : String × FileTree}
    {x : Unit} :
    requireCaptured ro evidence file = .ok x ↔
      Permits ro file.2 ∧ file.2.bytes? = evidence.get? file.1 := by
  simp only [requireCaptured, except_bind_eq_ok, requirePermissions_eq_ok, check_eq_ok,
    decide_eq_true_eq, exists_const]

/-- The evidence at its path, with its bytes. -/
def itemOf (file : String × FileTree) : String × ByteArray :=
  (file.1, file.2.bytes?.getD ByteArray.empty)

section Listed

variable {entries : List (String × FileTree)} {mode mode' : ℕ} {manifestBytes : ByteArray}

/-- The evidence of a tree that holds a package is the evidence that was captured. -/
lemma map_itemOf_listedFiles (h : Holds ro name c manifestBytes (.dir mode entries)) :
    (listedFiles entries name (.file mode' c.strategy)).map itemOf =
      c.rootEvidence ++ [(strategyPrefix ++ name, c.strategy)] := by
  have hroot : ∀ item ∈ c.rootEvidence,
      itemOf (item.1, (Dict.lookup item.1 entries).getD (.special 0)) = item := by
    intro item hitem
    obtain ⟨m, hm, -⟩ := h.rootFiles item (List.mem_append_left _ hitem)
    have hlookup : Dict.lookup item.1 entries = some (.file m item.2) := hm
    rw [hlookup]
    rfl
  rw [listedFiles, List.map_append, ← map_fst_rootEvidence c, List.map_map, List.map_map]
  congr 1
  exact (List.map_congr_left hroot).trans (List.map_id _)

lemma map_itemOf_sorted (h : Holds ro name c manifestBytes (.dir mode entries)) :
    (sortByKey Prod.fst (listedFiles entries name (.file mode' c.strategy))).map itemOf =
      sortByKey Prod.fst (evidenceMap name c).entries := by
  rw [map_sortByKey Prod.fst Prod.fst itemOf (fun _ => rfl), map_itemOf_listedFiles h]
  have hperm := perm_evidenceItems name c
  exact sortByKey_congr ((hperm.map Prod.fst).nodup_iff.2 (evidenceMap name c).nodup) hperm

end Listed

lemma get?_evidenceMap (item : String × ByteArray)
    (h : item ∈ c.rootEvidence ++ [(strategyPrefix ++ name, c.strategy)]) :
    (evidenceMap name c).get? item.1 = some item.2 :=
  Dict.mem_entries.1 ((perm_evidenceItems name c).subset h)

section Accepted

variable {entries : List (String × FileTree)} {mode mode' m : ℕ} {name' : String}
  {bytes : ByteArray}

/-- The strategy file has the name that is expected. -/
lemma name_eq_of_sameSet {file : FileTree}
    (h : sameSet (evidenceMap name c).keys
      ((sortByKey Prod.fst (listedFiles entries name' file)).map Prod.fst) = true) :
    name' = name := by
  have hmem : strategyPrefix ++ name ∈ (evidenceMap name c).keys :=
    Dict.mem_keys.2 ⟨_, get?_evidenceMap (strategyPrefix ++ name, c.strategy)
      (List.mem_append_right c.rootEvidence (List.mem_singleton_self _))⟩
  obtain ⟨⟨k, u⟩, hu, hk⟩ := List.mem_map.1 ((sameSet_iff.1 h _).1 hmem)
  rcases List.mem_append.1 (mem_sortByKey.1 hu) with hu | hu
  · obtain ⟨k', hk', heq⟩ := List.mem_map.1 hu
    cases heq
    exact absurd (hk ▸ hk') (strategyPath_notMem name)
  · cases List.mem_singleton.1 hu
    have hlists := congrArg String.toList hk
    rw [String.toList_append, String.toList_append] at hlists
    exact String.toList_inj.1 (List.append_cancel_left hlists)

/-- What a verified tree holds. -/
lemma holds_of_verified {manifestBytes : ByteArray} (hpermits : Permits ro (.dir mode entries))
    (hnames : sameSet (entries.map Prod.fst) (rootArtifactFiles ++ ["strategy-package"]) = true)
    (hroot : ∀ k ∈ rootArtifactFiles, ∃ m bytes, Dict.lookup k entries = some (.file m bytes) ∧
      Permits ro (.file m bytes))
    (hdir : Dict.lookup "strategy-package" entries = some (.dir mode' [(name, .file m bytes)]))
    (hdirPermits : Permits ro (.dir mode' [(name, .file m bytes)]))
    (hmanifest : ∃ m, Dict.lookup "artifact-manifest.json" entries = some (.file m manifestBytes))
    (hcaptured : ∀ file ∈ listedFiles entries name (.file m bytes),
      Permits ro file.2 ∧ file.2.bytes? = (evidenceMap name c).get? file.1)
    (hsafe : '\\' ∉ name.toList) : Holds ro name c manifestBytes (.dir mode entries) := by
  refine ⟨rfl, hpermits, fun k => ?_, fun item hitem => ?_, ?_, hsafe⟩
  · rw [← sameSet_iff.1 hnames k, FileTree.child?, Ne, Dict.lookup_eq_none, not_not]
  · rcases List.mem_append.1 hitem with hitem | hitem
    · have hk : item.1 ∈ rootEvidenceNames := List.mem_map_of_mem (f := Prod.fst) hitem
      obtain ⟨m', b, hb, hpermits'⟩ := hroot item.1 (List.mem_append_left _ hk)
      have hlisted := (hcaptured (item.1, .file m' b)
        (List.mem_append_left _ (List.mem_map.2 ⟨item.1, hk, by rw [hb]; rfl⟩))).2
      rw [get?_evidenceMap item (List.mem_append_left _ hitem)] at hlisted
      obtain rfl : b = item.2 := Option.some.inj hlisted
      exact ⟨m', hb, hpermits'⟩
    · obtain rfl := List.mem_singleton.1 hitem
      obtain ⟨m', b, hb, hpermits'⟩ := hroot "artifact-manifest.json" (by decide)
      obtain ⟨m'', hm''⟩ := hmanifest
      rw [hm''] at hb
      cases hb
      exact ⟨m', hm'', hpermits'⟩
  · obtain ⟨hfile, hbytes⟩ := hcaptured (strategyPrefix ++ name, .file m bytes)
      (List.mem_append_right _ (List.mem_singleton_self _))
    rw [get?_evidenceMap (strategyPrefix ++ name, c.strategy)
      (List.mem_append_right _ (List.mem_singleton_self _))] at hbytes
    obtain rfl : bytes = c.strategy := Option.some.inj hbytes
    exact ⟨mode', m, hdir, hdirPermits, hfile⟩

end Accepted

section Sorted

variable {entries : List (String × FileTree)} {mode mode' : ℕ} {manifestBytes : ByteArray}

/-- The evidence of a tree that holds a package: what is listed are files with the bytes that were
captured. -/
lemma listed_of_holds (h : Holds ro name c manifestBytes (.dir mode entries))
    (hstrategy : Permits ro (.file mode' c.strategy)) {file : String × FileTree}
    (hfile : file ∈ listedFiles entries name (.file mode' c.strategy)) :
    Permits ro file.2 ∧ ∃ bytes, file.2.bytes? = some bytes ∧
      (evidenceMap name c).get? file.1 = some bytes := by
  rcases List.mem_append.1 hfile with hfile | hfile
  · obtain ⟨k, hk, rfl⟩ := List.mem_map.1 hfile
    rw [← map_fst_rootEvidence c] at hk
    obtain ⟨item, hitem, rfl⟩ := List.mem_map.1 hk
    obtain ⟨m, hm, hpermits⟩ := h.rootFiles item (List.mem_append_left _ hitem)
    have hlookup : Dict.lookup item.1 entries = some (.file m item.2) := hm
    rw [hlookup]
    exact ⟨hpermits, item.2, rfl, get?_evidenceMap item (List.mem_append_left _ hitem)⟩
  · obtain rfl := List.mem_singleton.1 hfile
    exact ⟨hstrategy, c.strategy, rfl, get?_evidenceMap
      (strategyPrefix ++ name, c.strategy)
      (List.mem_append_right _ (List.mem_singleton_self _))⟩

/-- The files match the records of the manifest. -/
lemma matchesRecord_sorted (h : Holds ro name c manifestBytes (.dir mode entries))
    (hstrategy : Permits ro (.file mode' c.strategy)) :
    let files := sortByKey Prod.fst (listedFiles entries name (.file mode' c.strategy))
    let records := (sortByKey Prod.fst (evidenceMap name c).entries).map recordOf
    records.map ArtifactRecord.relativePath = files.map Prod.fst ∧
      (records.zip files).all (fun pair => matchesRecord pair.1 pair.2) = true := by
  intro files records
  have hrecords : records = files.map fun file => recordOf (itemOf file) := by
    change (sortByKey Prod.fst (evidenceMap name c).entries).map recordOf = _
    rw [← map_itemOf_sorted h, List.map_map]
    rfl
  rw [hrecords]
  refine ⟨by rw [List.map_map]; rfl, ?_⟩
  rw [← List.map_prod_right_eq_zip, List.all_map, List.all_eq_true]
  intro file hfile
  obtain ⟨-, bytes, hbytes, -⟩ := listed_of_holds h hstrategy (mem_sortByKey.1 hfile)
  simp [matchesRecord, recordOf, itemOf, hbytes]

end Sorted

/-- The verifier accepts a tree exactly if it holds the package. -/
theorem verifyBody_eq_ok [PyFloat F] (hname : isUnsafeFilename name = false) :
    verifyBody F ro t runId fingerprint (evidenceMap name c) = .ok () ↔
      Holds ro name c (artifactManifestBytes F runId fingerprint (evidenceMap name c)) t := by
  simp only [verifyBody, except_bind_eq_ok, entry_eq_ok, requireDirectory_eq_ok,
    requireFile_eq_ok, requirePermissions_eq_ok, check_eq_ok, decide_eq_true_eq,
    evidenceFiles_eq_ok]
  constructor
  · rintro ⟨entries, ⟨mode, rfl⟩, -, hpermits, -, hnames, _, hroot, _, hdir, _, ⟨m, rfl⟩, -,
      hdirPermits, _, hmanifest, bytes, ⟨m', rfl⟩, records, hload, files,
      ⟨mode₁, name', mode₂, bytes', hdir', hregular, rfl⟩, -, hpaths, -, hrecords, -, hkeys, _,
      hcaptured, rfl⟩
    obtain rfl := name_eq_of_sameSet hkeys
    rw [hdir] at hdir'
    cases hdir'
    refine holds_of_verified hpermits hnames (fun k hk => ?_) hdir hdirPermits ⟨m', hmanifest⟩
      (fun file hfile => ?_) ?_
    · exact requireRootFile_eq_ok.1 (forM_eq_ok.1 hroot k hk)
    · exact requireCaptured_eq_ok.1 (forM_eq_ok.1 hcaptured file (mem_sortByKey.2 hfile))
    · have hmem : strategyPrefix ++ name' ∈ records.map ArtifactRecord.relativePath := by
        rw [hpaths]
        exact List.mem_map.2 ⟨_, mem_sortByKey.2
          (List.mem_append_right _ (List.mem_singleton_self _)), rfl⟩
      obtain ⟨record, hrecord, hpath⟩ := List.mem_map.1 hmem
      have hsafe := isSafeEvidencePath_of_load hload hrecord
      rw [hpath] at hsafe
      exact (isSafeEvidencePath_strategy hname).1 hsafe
  · intro h
    obtain ⟨mode, entries, rfl⟩ : ∃ mode entries, t = .dir mode entries := by
      have hkind := h.directory
      cases t <;> simp_all [FileTree.kind]
    obtain ⟨mode₁, mode₂, hdir, hdirPermits, hstrategy⟩ := h.strategy
    obtain ⟨m, hmanifest, -⟩ := h.rootFiles _ (List.mem_append_right _ (List.mem_singleton_self _))
    have hsafe : ∀ k ∈ (evidenceMap name c).keys, isSafeEvidencePath k = true := by
      intro k hk
      obtain ⟨b, hb⟩ := Dict.mem_keys.1 hk
      have hitem := (perm_evidenceItems name c).symm.subset (Dict.mem_entries.2 hb)
      rcases List.mem_append.1 hitem with hitem | hitem
      · have hroot : k ∈ rootEvidenceNames := List.mem_map_of_mem (f := Prod.fst) hitem
        simp [isSafeEvidencePath, hroot]
      · cases List.mem_singleton.1 hitem
        exact (isSafeEvidencePath_strategy hname).2 h.noBackslash
    obtain ⟨hpaths, hmatch⟩ := matchesRecord_sorted h hstrategy
    have hkeys : sameSet (evidenceMap name c).keys ((sortByKey Prod.fst
        (listedFiles entries name (.file mode₂ c.strategy))).map Prod.fst) = true := by
      rw [← hpaths, List.map_map, sameSet_iff]
      intro k
      exact (((perm_sortByKey Prod.fst (evidenceMap name c).entries).map Prod.fst).mem_iff).symm
    refine ⟨entries, ⟨mode, rfl⟩, (), h.permits, (), ?_, (), ?_, _, hdir, _, ⟨mode₁, rfl⟩, (),
      hdirPermits, _, hmanifest, _, ⟨m, rfl⟩, _, loadArtifactManifest_bytes hsafe, _,
      ⟨mode₁, name, mode₂, c.strategy, hdir, ?_, rfl⟩, (), hpaths, (), hmatch, (), hkeys, (), ?_,
      rfl⟩
    · rw [sameSet_iff]
      intro k
      rw [← h.names k, FileTree.child?, Ne, Dict.lookup_eq_none, not_not]
    · refine forM_eq_ok.2 fun k hk => requireRootFile_eq_ok.2 ?_
      have hitem : ∃ item ∈ c.rootEvidence ++ [("artifact-manifest.json",
          artifactManifestBytes F runId fingerprint (evidenceMap name c))], item.1 = k :=
        List.mem_map.1 (by rw [List.map_append, map_fst_rootEvidence]; exact hk)
      obtain ⟨item, hitem, rfl⟩ := hitem
      obtain ⟨m', hm', hpermits⟩ := h.rootFiles item hitem
      exact ⟨m', item.2, hm', hpermits⟩
    · intro k hk
      rw [← map_fst_rootEvidence c] at hk
      obtain ⟨item, hitem, rfl⟩ := List.mem_map.1 hk
      obtain ⟨m', hm', -⟩ := h.rootFiles item (List.mem_append_left _ hitem)
      exact ⟨m', item.2, hm'⟩
    · refine forM_eq_ok.2 fun file hfile => requireCaptured_eq_ok.2 ?_
      obtain ⟨hpermits, bytes, hbytes, hget⟩ :=
        listed_of_holds h hstrategy (mem_sortByKey.1 hfile)
      exact ⟨hpermits, hbytes.trans hget.symm⟩

/-- Two trees that hold the package, both write protected, are the same. -/
lemma Holds.same {manifestBytes : ByteArray} (ht : Holds true name c manifestBytes t)
    (hu : Holds true name c manifestBytes u) : FileTree.Same t u := by
  refine .of_children ?_ (fun k => ?_) fun k a b ha hb => ?_
  · have hlook : ∀ v, Holds true name c manifestBytes v → v.look = ⟨.dir, false, none⟩ := by
      intro v hv
      have hbytes : v.bytes? = none := by
        have hkind := hv.directory
        cases v <;> simp_all [FileTree.kind, FileTree.bytes?]
      rw [FileTree.look, hv.directory, hv.permits rfl, hbytes]
    rw [hlook t ht, hlook u hu]
  · rw [← not_iff_not]
    exact (ht.names k).trans (hu.names k).symm
  · have hk : k ∈ rootArtifactFiles ++ ["strategy-package"] := (ht.names k).1 (by simp [ha])
    rcases List.mem_append.1 hk with hk | hk
    · have hitem : ∃ item ∈ c.rootEvidence ++ [("artifact-manifest.json", manifestBytes)],
          item.1 = k :=
        List.mem_map.1 (by rw [List.map_append, map_fst_rootEvidence]; exact hk)
      obtain ⟨item, hitem, rfl⟩ := hitem
      obtain ⟨m, hm, hpermits⟩ := ht.rootFiles item hitem
      obtain ⟨m', hm', hpermits'⟩ := hu.rootFiles item hitem
      obtain rfl := Option.some.inj (ha.symm.trans hm)
      obtain rfl := Option.some.inj (hb.symm.trans hm')
      exact .of_file ((hpermits rfl).trans (hpermits' rfl).symm)
    · obtain rfl := List.mem_singleton.1 hk
      obtain ⟨m, m₁, hm, hpermits, hpermits₁⟩ := ht.strategy
      obtain ⟨m', m₁', hm', hpermits', hpermits₁'⟩ := hu.strategy
      obtain rfl := Option.some.inj (ha.symm.trans hm)
      obtain rfl := Option.some.inj (hb.symm.trans hm')
      refine .of_children ?_ (fun k => ?_) fun k a b ha hb => ?_
      · simp only [FileTree.look, FileTree.kind, FileTree.bytes?, hpermits rfl, hpermits' rfl]
      · simp [FileTree.child?, Dict.lookup_eq_none]
      · simp only [FileTree.child?, Dict.lookup] at ha hb
        split at ha
        · next hk =>
          rw [if_pos hk] at hb
          cases ha
          cases hb
          exact .of_file ((hpermits₁ rfl).trans (hpermits₁' rfl).symm)
        · cases ha

lemma verifyArtifactPackage_eq_ok [PyFloat F] {path : String} (hname : isUnsafeFilename name = false) :
    verifyArtifactPackage F ro path t runId fingerprint (evidenceMap name c) = .ok () ↔
      Holds ro name c (artifactManifestBytes F runId fingerprint (evidenceMap name c)) t := by
  rw [← verifyBody_eq_ok hname, verifyArtifactPackage]
  split <;> simp_all

end Verifier

/-! ## The writer -/

section Writer

variable {F : Type} {canHold : String → Bool} {umask : ℕ} {name : String} {c : Captured}
  {manifestBytes : ByteArray}

/-- The package as it is written, with its modes: the root files, the strategy in a directory of its
own, and the manifest that lists them. -/
def packageTree (fileMode dirMode rootMode : ℕ) (name : String) (c : Captured)
    (manifestBytes : ByteArray) : FileTree :=
  .dir rootMode
    [("experiment.yaml", .file fileMode c.experiment),
      ("dataset-manifest.json", .file fileMode c.manifest),
      ("strategy-package", .dir dirMode [(name, .file fileMode c.strategy)]),
      ("environment.lock", .file fileMode c.lock),
      ("environment.json", .file fileMode c.environment),
      ("result.json", .file fileMode c.result),
      ("decision.json", .file fileMode c.decision),
      ("report.html", .file fileMode c.report),
      ("artifact-manifest.json", .file fileMode manifestBytes)]

lemma pathParts_root : ∀ k ∈ rootArtifactFiles, pathParts k = [k] := by decide +kernel

lemma pathParts_strategy (hname : isUnsafeFilename name = false) :
    pathParts (strategyPrefix ++ name) = ["strategy-package", name] := by
  have hslash : '/' ∉ name.toList := by
    intro hmem
    simp [isUnsafeFilename, hmem] at hname
  have hdirectory : strategyPrefix.toList = "strategy-package".toList ++ ['/'] := by decide
  have hno : '/' ∉ "strategy-package".toList := by decide
  rw [pathParts, String.toList_append, hdirectory, List.append_assoc, List.singleton_append,
    List.splitOn_append_cons_self_of_not_mem hno, List.splitOn_eq_singleton hslash]
  simp

/-- A new file of the root comes after what is there. -/
lemma writeBytes_root {mode : ℕ} {entries : List (String × FileTree)} {k : String}
    {content : ByteArray} (hk : k ∈ rootArtifactFiles) (hhold : canHold k = true)
    (hnew : k ∉ entries.map Prod.fst) :
    writeBytes canHold umask (.dir mode entries) (k, content) =
      .ok (.dir mode (entries ++ [(k, .file (FileTree.fileMode umask) content)])) := by
  rw [writeBytes, expect_eq_ok, pathParts_root k hk]
  simp [FileTree.write, hhold, Dict.lookup_eq_none.2 hnew, Dict.write_of_notMem hnew]

/-- The strategy file is written into a directory of its own. -/
lemma writeBytes_strategy {mode : ℕ} {entries : List (String × FileTree)} {content : ByteArray}
    (hname : isUnsafeFilename name = false) (hhold : canHold name = true)
    (hhold' : canHold "strategy-package" = true)
    (hnew : "strategy-package" ∉ entries.map Prod.fst) :
    writeBytes canHold umask (.dir mode entries) (strategyPrefix ++ name, content) =
      .ok (.dir mode (entries ++ [("strategy-package", .dir (FileTree.dirMode umask)
        [(name, .file (FileTree.fileMode umask) content)])])) := by
  rw [writeBytes, expect_eq_ok, pathParts_strategy hname]
  simp [FileTree.write, hhold, hhold', Dict.lookup_eq_none.2 hnew, Dict.write_of_notMem hnew,
    Dict.lookup, Dict.write]

/-- Files with different names are written one after the other. -/
lemma foldlM_writeBytes_root {mode : ℕ} {entries : List (String × FileTree)}
    {items : List (String × ByteArray)} (hhold : ∀ k ∈ rootArtifactFiles, canHold k = true)
    (hitems : ∀ item ∈ items, item.1 ∈ rootArtifactFiles)
    (hnew : (entries.map Prod.fst ++ items.map Prod.fst).Nodup) :
    items.foldlM (writeBytes canHold umask) (.dir mode entries) =
      .ok (.dir mode (entries ++
        items.map fun item => (item.1, .file (FileTree.fileMode umask) item.2))) := by
  induction items generalizing entries with
  | nil => rw [List.map_nil, List.append_nil]; rfl
  | cons item items ih =>
    obtain ⟨hitem, hitems⟩ := List.forall_mem_cons.1 hitems
    have hnot : item.1 ∉ entries.map Prod.fst := fun hmem =>
      (List.disjoint_of_nodup_append hnew) hmem List.mem_cons_self
    have hwrite : writeBytes canHold umask (.dir mode entries) item = _ :=
      writeBytes_root hitem (hhold _ hitem) hnot
    rw [List.foldlM_cons, hwrite]
    refine (ih hitems ?_).trans ?_
    · rw [List.map_append, List.append_assoc]
      exact hnew
    · rw [List.append_assoc]
      rfl

variable (umask c manifestBytes) in
/-- Everything but the report is written in the order of the evidence. -/
lemma foldlM_writeBytes (hname : isUnsafeFilename name = false) (hhold : canHold name = true)
    (hroot : ∀ k ∈ rootArtifactFiles, canHold k = true)
    (hdir : canHold "strategy-package" = true) :
    ∃ entries, ((evidenceMap name c).entries.filter fun item => item.1 ≠ "report.html").foldlM
        (writeBytes canHold umask) (.dir 0o700 []) = .ok (.dir 0o700 entries) ∧
      entries.map Prod.fst = ["experiment.yaml", "dataset-manifest.json", "strategy-package",
        "environment.lock", "environment.json", "result.json", "decision.json"] ∧
      .dir 0o700 (entries ++ [("report.html", .file (FileTree.fileMode umask) c.report)] ++
        [("artifact-manifest.json", .file (FileTree.fileMode umask) manifestBytes)]) =
        packageTree (FileTree.fileMode umask) (FileTree.dirMode umask) 0o700 name c manifestBytes := by
  have hreport : strategyPrefix ++ name ≠ "report.html" := fun h =>
    strategyPath_notMem name (by rw [h]; decide)
  have hitems : ((evidenceMap name c).entries.filter fun item => item.1 ≠ "report.html") =
      [("experiment.yaml", c.experiment), ("dataset-manifest.json", c.manifest)] ++
        ([(strategyPrefix ++ name, c.strategy)] ++ [("environment.lock", c.lock),
        ("environment.json", c.environment), ("result.json", c.result),
        ("decision.json", c.decision)]) := by
    simp [evidenceMap, evidenceItems, hreport]
  have hbefore : ∀ item ∈ [("experiment.yaml", c.experiment), ("dataset-manifest.json", c.manifest)],
      item.1 ∈ rootArtifactFiles := by
    simp [rootArtifactFiles, rootEvidenceNames]
  have hafter : ∀ item ∈ [("environment.lock", c.lock), ("environment.json", c.environment),
      ("result.json", c.result), ("decision.json", c.decision)], item.1 ∈ rootArtifactFiles := by
    simp [rootArtifactFiles, rootEvidenceNames]
  rw [hitems, List.foldlM_append, foldlM_writeBytes_root hroot hbefore (by simp)]
  change ∃ entries, List.foldlM (writeBytes canHold umask) (.dir 0o700 _) _ = _ ∧ _
  rw [List.foldlM_append, List.foldlM_cons,
    writeBytes_strategy hname hhold hdir (by simp)]
  change ∃ entries, List.foldlM (writeBytes canHold umask) (.dir 0o700 _) _ = _ ∧ _
  rw [foldlM_writeBytes_root hroot hafter (by simp)]
  exact ⟨_, rfl, rfl, rfl⟩

/-- The package of what was captured lies at a directory, every entry with its mode: the root files,
and the strategy in its own directory. -/
structure Laid (modes : String → ℕ) (dirMode rootMode : ℕ) (name : String) (c : Captured)
    (manifestBytes : ByteArray) (t : FileTree) : Prop where
  directory : ∃ entries, t = .dir rootMode entries
  names : ∀ k, t.child? k ≠ none ↔ k ∈ rootArtifactFiles ++ ["strategy-package"]
  rootFiles : ∀ item ∈ c.rootEvidence ++ [("artifact-manifest.json", manifestBytes)],
    t.child? item.1 = some (.file (modes item.1) item.2)
  strategy : t.child? "strategy-package" =
    some (.dir dirMode [(name, .file (modes (strategyPrefix ++ name)) c.strategy)])

lemma laid_packageTree {fileMode dirMode rootMode : ℕ} :
    Laid (fun _ => fileMode) dirMode rootMode name c manifestBytes
      (packageTree fileMode dirMode rootMode name c manifestBytes) := by
  refine ⟨⟨_, rfl⟩, fun k => ?_, fun item hitem => ?_, rfl⟩
  · rw [packageTree, FileTree.child?, Ne, Dict.lookup_eq_none, not_not]
    simp only [List.map_cons, List.map_nil, rootArtifactFiles, rootEvidenceNames, List.cons_append,
      List.nil_append, List.mem_cons, List.not_mem_nil, or_false]
    tauto
  · simp only [Captured.rootEvidence, List.cons_append, List.nil_append, List.mem_cons,
      List.not_mem_nil, or_false] at hitem
    rcases hitem with rfl | rfl | rfl | rfl | rfl | rfl | rfl | rfl <;> rfl

lemma rootArtifactFiles_eq (c : Captured) (manifestBytes : ByteArray) :
    (c.rootEvidence ++ [("artifact-manifest.json", manifestBytes)]).map Prod.fst =
      rootArtifactFiles := rfl

lemma strategyPath_ne {k : String} (hk : k ∈ rootArtifactFiles) : strategyPrefix ++ name ≠ k := by
  rintro rfl
  have hhead : ∀ k ∈ rootArtifactFiles, k.toList.head? ≠ some 's' := by decide
  exact hhead _ hk (by simp [strategyPrefix])

namespace Laid

variable {modes : String → ℕ} {dirMode rootMode : ℕ} {t : FileTree}

/-- A package that is laid out holds what was captured. -/
lemma holds {ro : Bool} (h : Laid modes dirMode rootMode name c manifestBytes t)
    (hsafe : '\\' ∉ name.toList)
    (hpermits : ro = true → (∀ k ∈ rootArtifactFiles ++ [strategyPrefix ++ name],
      modes k &&& 0o222 = 0) ∧ dirMode &&& 0o222 = 0 ∧ rootMode &&& 0o222 = 0) :
    Holds ro name c manifestBytes t := by
  have hfile : ∀ k ∈ rootArtifactFiles ++ [strategyPrefix ++ name], ∀ bytes,
      Permits ro (.file (modes k) bytes) := fun k hk bytes hro => by
    simp [FileTree.writable, FileTree.mode, (hpermits hro).1 k hk]
  obtain ⟨entries, hentries⟩ := h.directory
  refine ⟨by rw [hentries]; rfl, fun hro => ?_, h.names, fun item hitem => ?_, ?_, hsafe⟩
  · rw [hentries]
    simp [FileTree.writable, FileTree.mode, (hpermits hro).2.2]
  · refine ⟨modes item.1, h.rootFiles item hitem, hfile item.1 (List.mem_append_left _ ?_) _⟩
    exact rootArtifactFiles_eq c manifestBytes ▸ List.mem_map_of_mem hitem
  · refine ⟨dirMode, _, h.strategy, fun hro => ?_, hfile _ (by simp) _⟩
    simp [FileTree.writable, FileTree.mode, (hpermits hro).2.1]

/-- A file of the root gets another mode. -/
lemma changeMode_root (h : Laid modes dirMode rootMode name c manifestBytes t) (mode : ℕ)
    {k : String} (hk : k ∈ rootArtifactFiles) :
    ∃ t', changeMode mode t [k] = .ok t' ∧
      Laid (Function.update modes k mode) dirMode rootMode name c manifestBytes t' := by
  obtain ⟨entries, rfl⟩ := h.directory
  obtain ⟨item, hitem, rfl⟩ : ∃ item ∈ c.rootEvidence ++
      [("artifact-manifest.json", manifestBytes)], item.1 = k :=
    List.mem_map.1 (rootArtifactFiles_eq c manifestBytes ▸ hk)
  have hlookup : Dict.lookup item.1 entries = some (.file (modes item.1) item.2) :=
    h.rootFiles item hitem
  refine ⟨.dir rootMode (Dict.write item.1 (.file mode item.2) entries), ?_, ⟨_, rfl⟩,
    fun k => ?_, fun item' hitem' => ?_, ?_⟩
  · rw [changeMode, expect_eq_ok]
    simp [FileTree.chmod, hlookup, FileTree.setMode]
  · rw [← h.names k, FileTree.child?, FileTree.child?, Dict.lookup_write]
    split
    · next heq => simp [← heq, hlookup]
    · rfl
  · rw [FileTree.child?, Dict.lookup_write]
    split
    · next heq =>
      have hlookup' := h.rootFiles item' hitem'
      rw [← heq] at hlookup'
      have hbytes := Option.some.inj (hlookup.symm.trans hlookup')
      rw [← heq, Function.update_self]
      simp_all
    · next hne =>
      rw [Function.update_of_ne (Ne.symm hne)]
      exact h.rootFiles item' hitem'
  · rw [FileTree.child?, Dict.lookup_write, if_neg (by rintro heq; rw [heq] at hk; revert hk; decide),
      Function.update_of_ne (strategyPath_ne hk)]
    exact h.strategy

/-- What the name `strategy-package` stands for is replaced. -/
private lemma write_strategy {entries : List (String × FileTree)} (modes' : String → ℕ)
    {dirMode' : ℕ} (h : Laid modes dirMode rootMode name c manifestBytes (.dir rootMode entries))
    (hmodes : ∀ k ∈ rootArtifactFiles, modes' k = modes k) :
    Laid modes' dirMode' rootMode name c manifestBytes (.dir rootMode
      (Dict.write "strategy-package" (.dir dirMode'
        [(name, .file (modes' (strategyPrefix ++ name)) c.strategy)]) entries)) := by
  refine ⟨⟨_, rfl⟩, fun k => ?_, fun item hitem => ?_, ?_⟩
  · rw [← h.names k, FileTree.child?, FileTree.child?, Dict.lookup_write]
    split
    · next heq =>
      have hstrategy : Dict.lookup "strategy-package" entries = _ := h.strategy
      simp [← heq, hstrategy]
    · rfl
  · have hk : item.1 ∈ rootArtifactFiles :=
      rootArtifactFiles_eq c manifestBytes ▸ List.mem_map_of_mem hitem
    rw [FileTree.child?, Dict.lookup_write,
      if_neg (by intro heq; rw [← heq] at hk; revert hk; decide), hmodes _ hk]
    exact h.rootFiles item hitem
  · rw [FileTree.child?, Dict.lookup_write, if_pos rfl]

/-- The strategy file gets another mode. -/
lemma changeMode_strategy (h : Laid modes dirMode rootMode name c manifestBytes t) (mode : ℕ) :
    ∃ t', changeMode mode t ["strategy-package", name] = .ok t' ∧
      Laid (Function.update modes (strategyPrefix ++ name) mode) dirMode rootMode name c
        manifestBytes t' := by
  obtain ⟨entries, rfl⟩ := h.directory
  have hlookup : Dict.lookup "strategy-package" entries = _ := h.strategy
  refine ⟨_, ?_, write_strategy (Function.update modes (strategyPrefix ++ name) mode) h
    fun k hk => Function.update_of_ne (strategyPath_ne hk).symm _ _⟩
  rw [changeMode, expect_eq_ok]
  simp [FileTree.chmod, hlookup, Dict.lookup, Dict.write, FileTree.setMode]

/-- The directory of the strategy gets another mode. -/
lemma changeMode_strategyDir (h : Laid modes dirMode rootMode name c manifestBytes t) (mode : ℕ) :
    ∃ t', changeMode mode t ["strategy-package"] = .ok t' ∧
      Laid modes mode rootMode name c manifestBytes t' := by
  obtain ⟨entries, rfl⟩ := h.directory
  have hlookup : Dict.lookup "strategy-package" entries = _ := h.strategy
  refine ⟨_, ?_, write_strategy modes h fun k hk => rfl⟩
  rw [changeMode, expect_eq_ok]
  simp [FileTree.chmod, hlookup, FileTree.setMode]

lemma changeMode_top (h : Laid modes dirMode rootMode name c manifestBytes t) (mode : ℕ) :
    ∃ t', changeMode mode t [] = .ok t' ∧
      Laid modes dirMode mode name c manifestBytes t' := by
  obtain ⟨entries, rfl⟩ := h.directory
  exact ⟨.dir mode entries, rfl, ⟨entries, rfl⟩, h.names, h.rootFiles, h.strategy⟩

/-- The files of a list get another mode. -/
lemma foldlM_changeMode (hname : isUnsafeFilename name = false)
    (h : Laid modes dirMode rootMode name c manifestBytes t) (mode : ℕ)
    (files : List (String × FileTree))
    (hfiles : ∀ file ∈ files, file.1 ∈ rootArtifactFiles ++ [strategyPrefix ++ name]) :
    ∃ t' modes', files.foldlM (fun t file => changeMode mode t (pathParts file.1)) t = .ok t' ∧
      Laid modes' dirMode rootMode name c manifestBytes t' ∧
        ∀ k, modes' k = if k ∈ files.map Prod.fst then mode else modes k := by
  induction files generalizing t modes with
  | nil => exact ⟨t, modes, rfl, h, fun k => rfl⟩
  | cons file files ih =>
    obtain ⟨hfile, hfiles⟩ := List.forall_mem_cons.1 hfiles
    obtain ⟨t₁, ht₁, h₁⟩ : ∃ t₁, changeMode mode t (pathParts file.1) = .ok t₁ ∧
        Laid (Function.update modes file.1 mode) dirMode rootMode name c manifestBytes t₁ := by
      rcases List.mem_append.1 hfile with hk | hk
      · rw [pathParts_root _ hk]
        exact h.changeMode_root mode hk
      · rw [List.mem_singleton.1 hk, pathParts_strategy hname]
        exact h.changeMode_strategy mode
    obtain ⟨t', modes', ht', h', hmodes⟩ := ih h₁ hfiles
    refine ⟨t', modes', ?_, h', fun k => ?_⟩
    · rw [List.foldlM_cons, ht₁]
      exact ht'
    · rw [hmodes k, Function.update_apply]
      simp only [List.map_cons, List.mem_cons]
      by_cases hrest : k ∈ files.map Prod.fst
      · rw [if_pos hrest, if_pos (.inr hrest)]
      · simp only [hrest, or_false, if_false]

/-- Taking the write permissions away succeeds, and leaves nothing writable. -/
lemma makeEvidenceReadOnly (hname : isUnsafeFilename name = false)
    (h : Laid modes dirMode rootMode name c manifestBytes t) (hsafe : '\\' ∉ name.toList) :
    ∃ t', Experiments.makeEvidenceReadOnly t = .ok t' ∧ Holds true name c manifestBytes t' := by
  obtain ⟨entries, rfl⟩ := h.directory
  have hroot : ∀ k ∈ rootEvidenceNames, ∃ mode bytes,
      Dict.lookup k entries = some (.file mode bytes) := by
    intro k hk
    rw [← map_fst_rootEvidence c] at hk
    obtain ⟨item, hitem, rfl⟩ := List.mem_map.1 hk
    exact ⟨_, item.2, h.rootFiles item (List.mem_append_left _ hitem)⟩
  have hfiles := evidenceFiles_eq_ok.2 ⟨_, _, _, _, h.strategy, hroot, rfl⟩
  obtain ⟨t₁, modes₁, ht₁, h₁, hmodes₁⟩ := h.foldlM_changeMode hname 0o444
    (sortByKey Prod.fst (listedFiles entries name
      (.file (modes (strategyPrefix ++ name)) c.strategy))) fun file hfile => by
      rcases List.mem_append.1 (mem_sortByKey.1 hfile) with hfile | hfile
      · obtain ⟨k, hk, rfl⟩ := List.mem_map.1 hfile
        exact List.mem_append_left _ (List.mem_append_left _ hk)
      · rw [List.mem_singleton.1 hfile]
        exact List.mem_append_right _ (List.mem_singleton_self _)
  obtain ⟨t₂, ht₂, h₂⟩ := h₁.changeMode_root 0o444 (k := "artifact-manifest.json") (by decide)
  obtain ⟨t₃, ht₃, h₃⟩ := h₂.changeMode_strategyDir 0o555
  obtain ⟨t₄, ht₄, h₄⟩ := h₃.changeMode_top 0o555
  refine ⟨t₄, ?_, h₄.holds hsafe fun _ => ⟨fun k hk => ?_, by decide, by decide⟩⟩
  · simp only [Experiments.makeEvidenceReadOnly, except_bind_eq_ok]
    exact ⟨_, ⟨entries, rfl, hfiles⟩, t₁, ht₁, t₂, ht₂, t₃, ht₃, ht₄⟩
  · have hlisted : k ≠ "artifact-manifest.json" → modes₁ k = 0o444 := by
      intro hne
      rw [hmodes₁ k, if_pos]
      refine ((perm_sortByKey Prod.fst _).map Prod.fst).mem_iff.2 ?_
      rw [listedFiles, List.map_append, List.map_map]
      have hk' : k ∈ rootEvidenceNames ++ [strategyPrefix ++ name] := by
        rw [rootArtifactFiles, List.append_assoc] at hk
        rcases List.mem_append.1 hk with hk | hk
        · exact List.mem_append_left _ hk
        · rcases List.mem_append.1 hk with hk | hk
          · exact absurd (List.mem_singleton.1 hk) hne
          · exact List.mem_append_right _ hk
      simpa using hk'
    rw [Function.update_apply]
    split
    · rfl
    · next hne =>
      rw [hlisted hne]
      rfl

end Laid

/-- Writing and verifying the package succeeds, and so does its publication where its name and its
lock are free. -/
theorem publishArtifacts_ok [PyFloat F] {root : Dict String FileTree}
    {artifactDir runId publicationKey fingerprint random : String}
    (hname : isUnsafeFilename name = false) (hsafe : '\\' ∉ name.toList)
    (hhold : canHold name = true) (hroot : ∀ k ∈ rootArtifactFiles, canHold k = true)
    (hdir : canHold "strategy-package" = true)
    (hlock : root.get? ("." ++ publicationKey ++ ".lock") = none)
    (habsent : root.get? artifactDir = none) :
    ∃ root', publishArtifacts F canHold umask root artifactDir runId publicationKey fingerprint
      random (evidenceMap name c) c.report = .ok root' := by
  obtain ⟨entries, hitems, hkeys, htree⟩ := foldlM_writeBytes umask c
    (artifactManifestBytes F runId fingerprint (evidenceMap name c)) hname hhold hroot hdir
  have hlaid : Laid (fun _ => FileTree.fileMode umask) (FileTree.dirMode umask) 0o700 name c
      (artifactManifestBytes F runId fingerprint (evidenceMap name c)) _ := laid_packageTree
  obtain ⟨t', hreadOnly, hholds⟩ := hlaid.makeEvidenceReadOnly hname hsafe
  rw [← htree] at hlaid hreadOnly
  have hreport : (evidenceMap name c).get? "report.html" = some c.report :=
    get?_evidenceMap ("report.html", c.report) (by simp [Captured.rootEvidence])
  refine ⟨root.set artifactDir t', ?_⟩
  simp only [publishArtifacts, except_bind_eq_ok, check_eq_ok, decide_eq_true_eq]
  refine ⟨_, hitems, _, writeBytes_root (by decide) (hroot _ (by decide)) (by rw [hkeys]; decide),
    (), hreport, _, writeBytes_root (by decide) (hroot _ (by decide)) ?_, (),
    (verifyArtifactPackage_eq_ok hname).2 (hlaid.holds hsafe fun h => absurd h (by decide)), t',
    hreadOnly, (), (verifyArtifactPackage_eq_ok hname).2 hholds, ?_⟩
  · simp [hkeys]
  · simp [publishStagingDirectory, except_bind_eq_ok, Dict.contains, hlock, habsent]
    rfl

end Writer

/-! ## Writer and verifier agree -/

/-- `_sha256_file`, of a file of a directory -/
def fileDigest (t : FileTree) (name : String) : Option String :=
  ((t.child? name).bind FileTree.bytes?).map sha256

section Agreement

variable {F : Type} [PyFloat F] {canHold : String → Bool} {umask : ℕ} {name : String}
  {c : Captured} {root root' : Dict String FileTree}
  {artifactDir runId publicationKey fingerprint random : String} {rendered : ByteArray}

/-- What was published is a directory that holds what was captured. -/
lemma holds_of_published (hname : isUnsafeFilename name = false)
    (h : publishArtifacts F canHold umask root artifactDir runId publicationKey fingerprint random
      (evidenceMap name c) rendered = .ok root') :
    ∃ t, root'.get? artifactDir = some t ∧
      Holds true name c (artifactManifestBytes F runId fingerprint (evidenceMap name c)) t := by
  simp only [publishArtifacts, except_bind_eq_ok] at h
  obtain ⟨-, -, -, -, -, -, -, -, -, -, t, -, ⟨⟩, hverify, h⟩ := h
  simp only [publishStagingDirectory, except_bind_eq_ok] at h
  obtain ⟨-, -, -, -, h⟩ := h
  cases h
  exact ⟨t, root.get?_set_self artifactDir t, (verifyArtifactPackage_eq_ok hname).1 hverify⟩

/-- For every file name and evidence that the writer takes: on a file system that takes the names,
with the name and the lock of the package free, the publication succeeds exactly for names without a
backslash.  Where it succeeds, the verifier accepts the published directory, whose manifest and
result have the digests that are recorded, and rejects every tree that is not the same. -/
theorem package_exact {evidence : Dict String ByteArray}
    (hevidence : evidenceBytes name c = .ok evidence) :
    ((∀ k ∈ rootArtifactFiles ++ ["strategy-package", name], canHold k = true) →
      root.get? ("." ++ publicationKey ++ ".lock") = none → root.get? artifactDir = none →
      ((∃ root', publishArtifacts F canHold umask root artifactDir runId publicationKey fingerprint
        random evidence c.report = .ok root') ↔ '\\' ∉ name.toList)) ∧
    ∀ rendered root', publishArtifacts F canHold umask root artifactDir runId publicationKey
        fingerprint random evidence rendered = .ok root' →
      ∃ t, root'.get? artifactDir = some t ∧
        verifyArtifactPackage F true artifactDir t runId fingerprint evidence = .ok () ∧
        fileDigest t "artifact-manifest.json" =
          some (sha256 (artifactManifestBytes F runId fingerprint evidence)) ∧
        fileDigest t "result.json" = some (sha256 c.result) ∧
        ∀ u, ¬ FileTree.Same u t →
          verifyArtifactPackage F true artifactDir u runId fingerprint evidence =
            .error ("artifact package verification failed for " ++ artifactDir) := by
  rw [evidenceBytes] at hevidence
  split at hevidence
  · cases hevidence
  · next hunsafe =>
    have hname : isUnsafeFilename name = false := Bool.eq_false_iff.2 hunsafe
    cases hevidence
    refine ⟨fun hhold hlock habsent => ⟨?_, fun hsafe => ?_⟩, fun rendered root' hpublished => ?_⟩
    · rintro ⟨root', hpublished⟩
      obtain ⟨t, -, hholds⟩ := holds_of_published hname hpublished
      exact hholds.noBackslash
    · exact publishArtifacts_ok hname hsafe (hhold _ (by simp))
        (fun k hk => hhold k (List.mem_append_left _ hk)) (hhold _ (by simp)) hlock habsent
    · obtain ⟨t, ht, hholds⟩ := holds_of_published hname hpublished
      have hdigest : ∀ item ∈ c.rootEvidence ++ [("artifact-manifest.json",
          artifactManifestBytes F runId fingerprint (evidenceMap name c))],
          fileDigest t item.1 = some (sha256 item.2) := by
        intro item hitem
        obtain ⟨mode, hmode, -⟩ := hholds.rootFiles item hitem
        rw [fileDigest, hmode]
        rfl
      refine ⟨t, ht, (verifyArtifactPackage_eq_ok hname).2 hholds,
        hdigest _ (List.mem_append_right _ (List.mem_singleton_self _)),
        hdigest ("result.json", c.result) (by simp [Captured.rootEvidence]), fun u hu => ?_⟩
      have hrejects : ¬ Holds true name c
          (artifactManifestBytes F runId fingerprint (evidenceMap name c)) u :=
        fun hholds' => hu (hholds'.same hholds)
      rw [← verifyBody_eq_ok hname] at hrejects
      rw [verifyArtifactPackage]
      split
      · next hbody => exact absurd hbody hrejects
      · rfl

end Agreement

/-- A run with a text of its own in each file. -/
def smallCapture : Captured where
  experiment := "experiment".toUTF8
  manifest := "manifest".toUTF8
  strategy := "class Strategy: pass\n".toUTF8
  lock := "lock".toUTF8
  environment := "environment".toUTF8
  result := "result".toUTF8
  decision := "decision".toUTF8
  report := "report".toUTF8

/-- The package is published and verified, and refused when one letter of the result is changed. -/
theorem smallCapture_exact :
    ∃ root' t u, publishArtifacts Unit (fun _ => true) 0o022 Dict.empty "run" "homerun" "run" "run"
        "0" (evidenceMap "strategy.py" smallCapture) smallCapture.report = .ok root' ∧
      root'.get? "run" = some t ∧
      verifyArtifactPackage Unit true "run" t "homerun" "run"
        (evidenceMap "strategy.py" smallCapture) = .ok () ∧
      t.write (fun _ => true) 0o022 "Result".toUTF8 ["result.json"] = some u ∧
      verifyArtifactPackage Unit true "run" u "homerun" "run"
        (evidenceMap "strategy.py" smallCapture) =
          .error "artifact package verification failed for run" := by
  have hevidence : evidenceBytes "strategy.py" smallCapture =
      .ok (evidenceMap "strategy.py" smallCapture) := rfl
  obtain ⟨root', hpublished⟩ : ∃ root', publishArtifacts Unit (fun _ => true) 0o022 Dict.empty
      "run" "homerun" "run" "run" "0" (evidenceMap "strategy.py" smallCapture)
      smallCapture.report = .ok root' :=
    ((package_exact hevidence).1 (fun _ _ => rfl) rfl rfl).2 (by decide)
  obtain ⟨t, ht, hverified, -, -, hrefused⟩ := (package_exact hevidence).2 _ root' hpublished
  -- the result stands in the package as it was captured
  obtain ⟨t', ht', hholds⟩ := holds_of_published (by decide) hpublished
  obtain rfl : t' = t := Option.some.inj (ht'.symm.trans ht)
  obtain ⟨mode, hresult, -⟩ := hholds.rootFiles ("result.json", smallCapture.result)
    (List.mem_append_left _ (by simp [Captured.rootEvidence]))
  obtain ⟨u, hwritten, hbytes⟩ :=
    FileTree.exists_write_of_file (fun _ => true) 0o022 rfl hresult "Result".toUTF8
  refine ⟨root', t', u, hpublished, ht, hverified, hwritten, hrefused u fun hsame => ?_⟩
  have hbytes' := hsame.bytes_child? "result.json"
  rw [hbytes, hresult] at hbytes'
  have hsameText : "Result".toUTF8 = "result".toUTF8 := Option.some.inj hbytes'
  exact absurd hsameText (by decide)

end Evosport.Experiments
