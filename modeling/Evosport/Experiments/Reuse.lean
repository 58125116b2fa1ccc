/-
Runs with the same fingerprint reuse one package exactly if their paths agree.

The fingerprint leaves out three paths of the specification, and the package holds the whole
specification and the name of the strategy file.  So two runs with the same fingerprint capture the
same evidence if these paths are the same (`evidence_congr`), and different evidence otherwise.  A
run that has succeeded leaves a record and a package which the cached path accepts
(`run_leaves_cached`), and the cached path looks at its inputs through the evidence alone.
-/
import Evosport.Experiments.PackageExact
import Evosport.Experiments.Runner
import Evosport.Lib.IsoDate

namespace Evosport.Experiments

open Lib

variable {F M Φ : Type} {svc : Services F M Φ}

/-! ## What a fingerprint determines -/

/-- The paths that the fingerprint leaves out are the same. -/
def SamePaths (s s' : ExperimentSpec F) : Prop :=
  s.datasetManifestPath = s'.datasetManifestPath ∧
    s.strategy.sourcePath = s'.strategy.sourcePath ∧
    s.strategy.dependencyLockPath = s'.strategy.dependencyLockPath

/-- `yaml.safe_dump` sorts the keys, and `yaml.safe_load` reads back what it wrote. -/
def Services.DumpsFaithfully (svc : Services F M Φ) (v w : Json F) : Prop :=
  svc.safeDump v = svc.safeDump w ↔ v.canon = w.canon

lemma fingerprintedSpec_dump (s : ExperimentSpec F) :
    fingerprintedSpec (s.dump svc) =
      .obj [("name", .str s.name), ("family_id", .str s.familyId),
        ("strategy", .obj [("slug", .str s.strategy.slug), ("config", .obj s.strategy.config)]),
        ("window", s.window.dump svc), ("execution", s.execution.dump),
        ("split_method", .str s.splitMethod), ("max_trials", .int s.maxTrials),
        ("seed", .int s.seed),
        ("hidden_oos_manifest_id", s.hiddenOosManifestId.elim .null .str)] := by
  simp [fingerprintedSpec, ExperimentSpec.dump, StrategyPackageSpec.dump, onMember, popMember]

/-- The dumped specification is its fingerprinted part and the three paths. -/
lemma canon_dump_iff {s s' : ExperimentSpec F} :
    (s.dump svc).canon = (s'.dump svc).canon ↔
      (fingerprintedSpec (s.dump svc)).canon = (fingerprintedSpec (s'.dump svc)).canon ∧
        SamePaths s s' := by
  rw [fingerprintedSpec_dump, fingerprintedSpec_dump, ExperimentSpec.dump, ExperimentSpec.dump,
    Json.canon_obj_eq_iff (by simp) (by simp), Json.canon_obj_eq_iff (by simp) (by simp)]
  simp only [List.map_cons, List.map_nil, List.cons.injEq, Prod.mk.injEq, true_and, and_true,
    StrategyPackageSpec.dump]
  rw [Json.canon_obj_eq_iff (by simp) (by simp), Json.canon_obj_eq_iff (by simp) (by simp)]
  simp only [List.map_cons, List.map_nil, List.cons.injEq, Prod.mk.injEq, true_and, and_true,
    SamePaths, Json.canon, Json.str.injEq]
  constructor
  · rintro ⟨hname, hfamily, hpath, ⟨hslug, hsource, hlock, hconfig⟩, hrest⟩
    exact ⟨⟨hname, hfamily, ⟨hslug, hconfig⟩, hrest⟩, hpath, hsource, hlock⟩
  · rintro ⟨⟨hname, hfamily, ⟨hslug, hconfig⟩, hrest⟩, hpath, hsource, hlock⟩
    exact ⟨hname, hfamily, hpath, ⟨hslug, hsource, hlock, hconfig⟩, hrest⟩

section Fingerprint

variable [PyFloat F] {i j : RunInputs svc}

lemma strictJsonBytes_inj {v w : Json F} :
    strictJsonBytes v = strictJsonBytes w ↔ v.canon = w.canon := by
  rw [strictJsonBytes, strictJsonBytes, ← Json.dumps_inj]
  exact ⟨fun h => String.ofList_injective (String.toByteArray_inj.1 h), fun h => by rw [h]⟩

/-- No two of the messages that the two fingerprints digest in the same place are a collision. -/
structure NoCollisions (i j : RunInputs svc) : Prop where
  payload : NoCollision (strictJsonBytes i.payload) (strictJsonBytes j.payload)
  strategy : NoCollision i.strategyBytes j.strategyBytes
  lock : NoCollision i.lockBytes j.lockBytes
  environment : NoCollision (i.environment.canonicalBytes F) (j.environment.canonicalBytes F)
  manifest : NoCollision i.manifestBytes j.manifestBytes

/-- Two runs that loaded the same, but for the three paths: the same declaration, and the same bytes
of the strategy, the lock, the environment and the manifest. -/
structure SameInputs (i j : RunInputs svc) : Prop where
  spec : (fingerprintedSpec (i.spec.dump svc)).canon = (fingerprintedSpec (j.spec.dump svc)).canon
  strategyBytes : i.strategyBytes = j.strategyBytes
  lockBytes : i.lockBytes = j.lockBytes
  environmentBytes : i.environment.canonicalBytes F = j.environment.canonicalBytes F
  manifestBytes : i.manifestBytes = j.manifestBytes

/-- The fingerprint determines everything but the three paths. -/
lemma sameInputs_of_fingerprint (hsha : NoCollisions i j) (h : i.fingerprint = j.fingerprint) :
    SameInputs i j := by
  have hpayload := strictJsonBytes_inj.1 (hsha.payload h)
  rw [RunInputs.payload, RunInputs.payload,
    Json.canon_obj_eq_iff (by simp) (by simp)] at hpayload
  simp only [List.map_cons, List.map_nil, List.cons.injEq, Prod.mk.injEq, true_and, and_true,
    Json.canon, Json.str.injEq] at hpayload
  obtain ⟨hspec, hstrategy, hlock, henvironment, hmanifest, -⟩ := hpayload
  exact ⟨hspec, hsha.strategy hstrategy, hsha.lock hlock, hsha.environment henvironment,
    hsha.manifest hmanifest⟩

/-- The manifest is read from its bytes. -/
lemma SameInputs.manifest (h : SameInputs i j) : i.manifest = j.manifest :=
  Option.some.inj (i.manifest_eq.symm.trans (h.manifestBytes ▸ j.manifest_eq))

/-! ## What is captured -/

/-- The evidence is never refused: the strategy path names a file. -/
lemma evidence_eq (i : RunInputs svc) (result : Json F) (homerunRunId runId fp : String) :
    i.evidence result homerunRunId runId fp =
      .ok (evidenceMap (fileName i.spec.strategy.sourcePath)
        (i.captured result homerunRunId runId fp)) := by
  rw [RunInputs.evidence, evidenceBytes, if_neg (by rw [i.names_file]; exact Bool.false_ne_true)]

/-- With the same paths the same evidence is captured, of any result. -/
lemma evidence_congr (h : SameInputs i j) (hpaths : SamePaths i.spec j.spec)
    (hyaml : svc.DumpsFaithfully (i.spec.dump svc) (j.spec.dump svc)) (result : Json F)
    (homerunRunId runId fp : String) :
    i.evidence result homerunRunId runId fp = j.evidence result homerunRunId runId fp := by
  have htext := hyaml.2 (canon_dump_iff.2 ⟨h.spec, hpaths⟩)
  simp only [RunInputs.evidence, RunInputs.captured, htext, hpaths.2.1, h.strategyBytes,
    h.lockBytes, h.environmentBytes, h.manifestBytes, h.manifest]

/-- The same evidence comes from the same paths: the package holds the whole specification. -/
lemma samePaths_of_evidence
    (hyaml : svc.DumpsFaithfully (i.spec.dump svc) (j.spec.dump svc)) {result : Json F}
    {homerunRunId runId fp : String}
    (h : i.evidence result homerunRunId runId fp = j.evidence result homerunRunId runId fp) :
    SamePaths i.spec j.spec := by
  rw [evidence_eq, evidence_eq] at h
  have hexperiment (k : RunInputs svc) :
      (evidenceMap (fileName k.spec.strategy.sourcePath)
        (k.captured result homerunRunId runId fp)).get? "experiment.yaml" =
          some (svc.safeDump (k.spec.dump svc)).toUTF8 := rfl
  have hbytes := hexperiment i
  rw [Except.ok.inj h, hexperiment j] at hbytes
  have htext := String.toByteArray_inj.1 (Option.some.inj hbytes).symm
  exact (canon_dump_iff.1 (hyaml.1 htext)).2

end Fingerprint

/-! ## A run leaves what the cached path accepts -/

section Runs

variable [PyFloat F] {i j : RunInputs svc} {dir : Option FileTree} {football : Φ}
  {result : Json F} {homerunRunId : String} {record : RunRecord}

lemma strictJsonObject_eq_ok {v r : Json F} :
    strictJsonObject v = .ok r ↔ v.names?.isSome = true ∧ r = v.canon := by
  cases v with
  | obj members =>
    have hloads : Json.loads (Json.dumps (.obj members)) = some (Json.obj members).canon := by
      have hblanks : ∀ c ∈ ([] : List Char), Json.isSpace c = true := by simp
      have hread := Json.loads_text Json.escapes_escape (Json.obj members).canon hblanks
      rwa [List.append_nil] at hread
    rw [strictJsonObject, expect_eq_ok, hloads, Option.some.injEq, eq_comm]
    simp [Json.names?]
  | _ => simp [strictJsonObject, Json.names?]

/-- What was written as the result is read back. -/
lemma loadResultArtifact_written {t : FileTree} {mode : ℕ} (artifactDir : String)
    (hfile : t.child? "result.json" =
      some (.file mode (strictJsonBytes result ++ "\n".toUTF8)))
    (hobject : result.names?.isSome = true) (hdistinct : result.distinctKeys = true)
    (hcanon : result.canon = result) :
    loadResultArtifact artifactDir (some t) = .ok result := by
  obtain ⟨text, htext, hloads⟩ := loads_strictJsonBytes result
  have hbody : loadResultBody (some t) = .ok result := by
    simp only [loadResultBody, except_bind_eq_ok, expect_eq_ok, check_eq_ok, requireFile_eq_ok]
    refine ⟨_, hfile, _, ⟨mode, rfl⟩, text, htext, _, hloads, (), ?_, ?_⟩
    · rw [hcanon, hdistinct]
    · rw [hcanon, strictJsonObject_eq_ok, hcanon]
      exact ⟨hobject, rfl⟩
  rw [loadResultArtifact, hbody]

/-- The package at the artifact directory is the one of these inputs, with this result. -/
structure Verified (i : RunInputs svc) (dir : Option FileTree) (football : Φ) (result : Json F)
    (homerunRunId : String) : Prop where
  loaded : loadResultArtifact i.fingerprint dir = .ok result
  validated : svc.validateGatewayResult result i.manifest football = .ok homerunRunId
  package : ∃ evidence, i.evidence result homerunRunId homerunRunId i.fingerprint = .ok evidence ∧
    verifyPackageAt F i.fingerprint dir homerunRunId i.fingerprint evidence = .ok ()

lemma verifyPublished_eq_ok :
    i.verifyPublished dir football = .ok (result, homerunRunId) ↔
      Verified i dir football result homerunRunId := by
  simp only [RunInputs.verifyPublished, except_bind_eq_ok]
  constructor
  · rintro ⟨result', hloaded, id', hvalidated, evidence, hevidence, _, hpackage, heq⟩
    obtain ⟨rfl, rfl⟩ := Prod.mk.inj (Except.ok.inj heq)
    exact ⟨hloaded, hvalidated, evidence, hevidence, hpackage⟩
  · rintro ⟨hloaded, hvalidated, evidence, hevidence, hpackage⟩
    exact ⟨result, hloaded, homerunRunId, hvalidated, evidence, hevidence, (), hpackage, rfl⟩

/-- With the record that is made of a verified package, the cached path returns its result. -/
lemma Verified.cachedRun (h : Verified i dir football result homerunRunId)
    (hrecord : i.runRecord dir result homerunRunId = .ok record) :
    i.cachedRun dir football record =
      .ok (outcomeOf svc i.fingerprint i.manifest homerunRunId result) := by
  simp only [RunInputs.runRecord, except_bind_eq_ok] at hrecord
  obtain ⟨effective, heffective, manifestSha, hmanifest, resultSha, hresult, heq⟩ := hrecord
  obtain rfl := Except.ok.inj heq
  obtain ⟨evidence, hevidence, hpackage⟩ := h.package
  simp only [RunInputs.cachedRun, except_bind_eq_ok, check_eq_ok, beq_iff_eq]
  exact ⟨(), trivial, result, h.loaded, homerunRunId, h.validated, (), rfl, evidence,
    hevidence, (), hpackage, resultSha, hresult, (), rfl, manifestSha, hmanifest, (), rfl,
    effective, heffective, (), rfl, rfl⟩

/-- What a fresh run publishes is verified. -/
lemma verified_of_published {root root' : Dict String FileTree} {gatewayResult : Json F}
    {random : String} {rendered : ByteArray} {evidence : Dict String ByteArray}
    (hdistinct : gatewayResult.distinctKeys = true)
    (hresult : strictJsonObject gatewayResult = .ok result)
    (hvalidated : svc.validateGatewayResult result i.manifest football = .ok homerunRunId)
    (hevidence : i.evidence result homerunRunId homerunRunId i.fingerprint = .ok evidence)
    (hpublished : publishArtifacts F svc.canHold svc.umask root i.fingerprint homerunRunId
      i.fingerprint i.fingerprint random evidence rendered = .ok root') :
    Verified i (root'.get? i.fingerprint) football result homerunRunId := by
  obtain ⟨hobject, hcanon⟩ := strictJsonObject_eq_ok.1 hresult
  rw [evidence_eq] at hevidence
  obtain rfl := Except.ok.inj hevidence
  obtain ⟨t, ht, hholds⟩ := holds_of_published i.names_file hpublished
  obtain ⟨mode, hfile, -⟩ := hholds.rootFiles
    ("result.json", (i.captured result homerunRunId homerunRunId i.fingerprint).result)
    (by simp [Captured.rootEvidence])
  rw [ht]
  refine ⟨loadResultArtifact_written i.fingerprint hfile ?_ ?_ ?_, hvalidated, _, evidence_eq ..,
    ?_⟩
  · rw [hcanon]
    cases gatewayResult with
    | obj members => rw [Json.canon_obj]; rfl
    | _ => cases hobject
  · rw [hcanon]
    exact Json.distinctKeys_canon hdistinct
  · rw [hcanon, Json.canon_canon]
  · simp only [verifyPackageAt, except_bind_eq_ok, expect_eq_ok]
    exact ⟨t, rfl, (verifyArtifactPackage_eq_ok i.names_file).2 hholds⟩

lemma adoptRun_eq_ok {outcome : ExperimentOutcome F}
    (h : i.adoptRun dir football = .ok (record, outcome)) :
    ∃ result homerunRunId, Verified i dir football result homerunRunId ∧
      i.runRecord dir result homerunRunId = .ok record ∧
      outcome = outcomeOf svc i.fingerprint i.manifest homerunRunId result := by
  simp only [RunInputs.adoptRun, except_bind_eq_ok] at h
  obtain ⟨⟨result, homerunRunId⟩, hverified, record', hrecord, heq⟩ := h
  obtain ⟨rfl, rfl⟩ := Prod.mk.inj (Except.ok.inj heq)
  exact ⟨result, homerunRunId, verifyPublished_eq_ok.1 hverified, hrecord, rfl⟩

lemma freshRun_eq_ok {root root' : Dict String FileTree} {gatewayResult : Json F}
    {random : String} {outcome : ExperimentOutcome F}
    (hdistinct : gatewayResult.distinctKeys = true)
    (h : i.freshRun football root gatewayResult random = .ok (root', record, outcome)) :
    ∃ result homerunRunId,
      Verified i (root'.get? i.fingerprint) football result homerunRunId ∧
      i.runRecord (root'.get? i.fingerprint) result homerunRunId = .ok record ∧
      outcome = outcomeOf svc i.fingerprint i.manifest homerunRunId result := by
  simp only [RunInputs.freshRun, except_bind_eq_ok] at h
  obtain ⟨_, -, result, hresult, homerunRunId, hvalidated, evidence, hevidence, root₁, hpublished,
    record', hrecord, hpure⟩ := h
  obtain ⟨rfl, hrest⟩ := Prod.mk.inj (Except.ok.inj hpure)
  obtain ⟨rfl, rfl⟩ := Prod.mk.inj hrest
  exact ⟨result, homerunRunId,
    verified_of_published hdistinct hresult hvalidated hevidence hpublished, hrecord, rfl⟩

/-- A run that succeeds leaves a record, and a package from which the cached path returns what the
run has returned. -/
theorem run_leaves_cached {s s' : Store} {gatewayResult : Json F} {random : String}
    {outcome : ExperimentOutcome F} (hdistinct : gatewayResult.distinctKeys = true)
    (h : i.run s gatewayResult football random = .ok (outcome, s')) :
    ∃ cached, s'.registry.get? i.fingerprint = some cached ∧
      i.cachedRun (s'.root.get? i.fingerprint) football cached = .ok outcome := by
  rw [RunInputs.run] at h
  split at h
  · rename_i cached hcached
    obtain ⟨o, ho, heq⟩ := except_bind_eq_ok.1 h
    obtain ⟨rfl, rfl⟩ := Prod.mk.inj (Except.ok.inj heq)
    exact ⟨cached, hcached, ho⟩
  · split at h
    · -- the package that was there is registered
      obtain ⟨⟨record, o⟩, hadopt, heq⟩ := except_bind_eq_ok.1 h
      obtain ⟨rfl, rfl⟩ := Prod.mk.inj (Except.ok.inj heq)
      obtain ⟨result, homerunRunId, hverified, hrecord, rfl⟩ := adoptRun_eq_ok hadopt
      exact ⟨record, s.registry.get?_set_self _ _, hverified.cachedRun hrecord⟩
    · obtain ⟨⟨root, record, o⟩, hfresh, heq⟩ := except_bind_eq_ok.1 h
      obtain ⟨rfl, rfl⟩ := Prod.mk.inj (Except.ok.inj heq)
      obtain ⟨result, homerunRunId, hverified, hrecord, rfl⟩ := freshRun_eq_ok hdistinct hfresh
      exact ⟨record, s.registry.get?_set_self _ _, hverified.cachedRun hrecord⟩

/-- The cached path sees its inputs through the fingerprint, the manifest and the evidence. -/
lemma cachedRun_congr (hfp : i.fingerprint = j.fingerprint) (hmanifest : i.manifest = j.manifest)
    (hevidence : ∀ result homerunRunId runId fp, i.evidence result homerunRunId runId fp =
      j.evidence result homerunRunId runId fp) (cached : RunRecord) :
    i.cachedRun dir football cached = j.cachedRun dir football cached := by
  simp only [RunInputs.cachedRun, hfp, hmanifest, hevidence]

/-- Both runs capture the same evidence of every result; and once the first has succeeded, with any
result of the gateway, the second returns what the first has returned. -/
def ReusesResults (i j : RunInputs svc) : Prop :=
  (∀ result homerunRunId runId fp, ∃ evidence,
    i.evidence result homerunRunId runId fp = .ok evidence ∧
      j.evidence result homerunRunId runId fp = .ok evidence) ∧
  ∀ (s s' : Store) (gatewayResult : Json F) (football : Φ) (random : String)
    (outcome : ExperimentOutcome F), gatewayResult.distinctKeys = true →
    i.run s gatewayResult football random = .ok (outcome, s') →
      ∀ gatewayResult' random', j.run s' gatewayResult' football random' = .ok (outcome, s')

/-- Runs with the same fingerprint reuse results exactly if the three paths agree that the
fingerprint leaves out. -/
theorem reusesResults_iff (hsha : NoCollisions i j)
    (hyaml : svc.DumpsFaithfully (i.spec.dump svc) (j.spec.dump svc))
    (hfp : i.fingerprint = j.fingerprint) : ReusesResults i j ↔ SamePaths i.spec j.spec := by
  constructor
  · rintro ⟨hevidence, -⟩
    obtain ⟨evidence, hi, hj⟩ := hevidence .null "" "" ""
    exact samePaths_of_evidence hyaml (hi.trans hj.symm)
  · intro hpaths
    have hsame := sameInputs_of_fingerprint hsha hfp
    have hevidence := evidence_congr hsame hpaths hyaml
    refine ⟨fun result homerunRunId runId fp => ⟨_, evidence_eq .., ?_⟩, ?_⟩
    · rw [← hevidence, evidence_eq]
    · intro s s' gatewayResult football random outcome hdistinct hrun gatewayResult' random'
      obtain ⟨cached, hcached, hreturns⟩ := run_leaves_cached hdistinct hrun
      rw [cachedRun_congr hfp hsame.manifest hevidence] at hreturns
      rw [RunInputs.run, ← hfp, hcached]
      simp only [except_bind_eq_ok]
      exact ⟨outcome, hreturns, rfl⟩

end Runs

/-! ## An experiment -/

/-- The amounts of the experiment. -/
inductive Amount where
  | zero
  | thousand

instance : PyFloat Amount where
  repr
    | .zero => "0.0".toList
    | .thousand => "1000.0".toList
  ofText cs :=
    if cs = "0.0".toList then some .zero else if cs = "1000.0".toList then some .thousand else none
  toInt?
    | .zero => some 0
    | .thousand => some 1000
  ofText_repr x := by cases x <;> rfl
  isNumber_repr x := by cases x <;> decide
  hasFraction_repr x := by cases x <;> decide
  isNumberChar_repr x := by cases x <;> exact List.all_eq_true.1 (by decide)

mutual

/-- The block style of YAML, for the values of the experiment. -/
def blockYaml (indent : String) : Json Amount → String
  | .null => " null\n"
  | .bool b => " " ++ toString b ++ "\n"
  | .int n => " " ++ toString n ++ "\n"
  | .float x => " " ++ String.ofList (PyFloat.repr x) ++ "\n"
  | .str s => (if s.toList.contains ':' then " '" ++ s ++ "'" else " " ++ s) ++ "\n"
  | .arr _ => " []\n"
  | .obj [] => " \x7b\x7d\n"
  | .obj members => (if indent = "" then "" else "\n") ++ blockMembers indent members

/-- The members of a mapping in block style, each on a line of its own. -/
def blockMembers (indent : String) : List (String × Json Amount) → String
  | [] => ""
  | (k, v) :: members => indent ++ k ++ ":" ++ blockYaml (indent ++ "  ") v ++
      blockMembers indent members

end

/-- The experiment reads any text as a manifest and shows a report without contents. -/
def labServices : Services Amount String Unit where
  instantText us := isoDate (us / 86400000000) ++ "T00:00:00Z"
  safeDump v := blockYaml "" v.canon
  readManifest bytes := String.fromUTF8? bytes
  manifestId text := text
  validateGatewayResult result _ _ :=
    expect ((result.get? "run_id").bind Json.str?)
      "gateway result must contain a usable non-empty run_id"
  renderReport _ _ _ _ _ _ := "<!doctype html>\n".toUTF8
  canHold _ := true
  umask := 0o022

/-- A specification in the directory `dir`, with two settings of the strategy in the order given. -/
def labSpec (dir : String) (config : List (String × Json Amount)) : ExperimentSpec Amount where
  name := "football-over25-v001"
  familyId := "football-over25"
  datasetManifestPath := dir ++ "/manifest.json"
  strategy := ⟨"football_over25_v001", dir ++ "/strategy.py", dir ++ "/requirements.lock", config⟩
  window := ⟨1767225600000000, 1769904000000000, 1769904000000000, 1772323200000000⟩
  execution := ⟨.thousand, .zero, .zero, .zero, .zero⟩
  maxTrials := 1
  seed := 7

/-- The inputs of a laboratory experiment whose strategy lies in `dir`. -/
def labInputs (dir : String) (config : List (String × Json Amount))
    (h : isUnsafeFilename (fileName (dir ++ "/strategy.py")) = false) : RunInputs labServices where
  spec := labSpec dir config
  strategyBytes := "class Strategy: pass\n".toUTF8
  lockBytes := "pydantic==2.7.0\n".toUTF8
  environment := ⟨"CPython", "3.12.0", ["pydantic==2.7.0"], sha256 "lab".toUTF8⟩
  manifestBytes := "manifest".toUTF8
  manifest := "manifest"
  evaluatorVersion := "v1"
  homerunCommit := "c8e647f"
  manifest_eq := fromUTF8?_toUTF8 "manifest"
  names_file := h

/-- The inputs in the directory `lab`. -/
def inLab (config : List (String × Json Amount)) : RunInputs labServices :=
  labInputs "/lab" config (by decide)

/-- The inputs after their directory was moved. -/
def moved : RunInputs labServices := labInputs "/archive/lab" [] (by decide)

/-- Neither the directory nor the order of the settings is fingerprinted. -/
lemma canon_payload_labInputs {dir dir' : String} {config config' : List (String × Json Amount)}
    {h : isUnsafeFilename (fileName (dir ++ "/strategy.py")) = false}
    {h' : isUnsafeFilename (fileName (dir' ++ "/strategy.py")) = false}
    (hconfig : (Json.obj config).canon = (Json.obj config').canon) :
    (labInputs dir config h).payload.canon = (labInputs dir' config' h').payload.canon := by
  rw [RunInputs.payload, RunInputs.payload, fingerprintedSpec_dump, fingerprintedSpec_dump,
    Json.canon_obj_eq_iff (by simp) (by simp)]
  simp only [List.map_cons, List.map_nil, List.cons.injEq, Prod.mk.injEq, true_and, and_true]
  refine ⟨?_, rfl, rfl, rfl, rfl, rfl, rfl, rfl⟩
  rw [Json.canon_obj_eq_iff (by simp) (by simp)]
  simp only [List.map_cons, List.map_nil, List.cons.injEq, Prod.mk.injEq, true_and, and_true]
  refine ⟨rfl, rfl, ?_, rfl, rfl, rfl, rfl, rfl, rfl⟩
  rw [Json.canon_obj_eq_iff (by simp) (by simp)]
  simp only [List.map_cons, List.map_nil, List.cons.injEq, Prod.mk.injEq, true_and, and_true]
  exact ⟨rfl, hconfig⟩

lemma noCollisions_labInputs {dir dir' : String} {config config' : List (String × Json Amount)}
    {h : isUnsafeFilename (fileName (dir ++ "/strategy.py")) = false}
    {h' : isUnsafeFilename (fileName (dir' ++ "/strategy.py")) = false}
    (hconfig : (Json.obj config).canon = (Json.obj config').canon) :
    NoCollisions (labInputs dir config h) (labInputs dir' config' h') :=
  ⟨fun _ => strictJsonBytes_inj.2 (canon_payload_labInputs hconfig), fun _ => rfl, fun _ => rfl,
    fun _ => rfl, fun _ => rfl⟩

/-- Two settings of the strategy. -/
def twoSettings : List (String × Json Amount) := [("edge", .int 3), ("trades", .int 1)]

theorem reordered_settings_reused :
    ReusesResults (inLab twoSettings) (inLab twoSettings.reverse) := by
  have hconfig : (Json.obj twoSettings).canon = (Json.obj twoSettings.reverse).canon := by
    rw [Json.canon_obj, Json.canon_obj]
    exact congrArg Json.obj (sortByKey_congr (by simp [twoSettings]) (List.Perm.swap _ _ _))
  have hsha : NoCollisions (inLab twoSettings) (inLab twoSettings.reverse) :=
    noCollisions_labInputs hconfig
  have hfp : (inLab twoSettings).fingerprint = (inLab twoSettings.reverse).fingerprint :=
    congrArg sha256 (strictJsonBytes_inj.2 (canon_payload_labInputs hconfig))
  have hpaths : SamePaths (inLab twoSettings).spec (inLab twoSettings.reverse).spec :=
    ⟨rfl, rfl, rfl⟩
  have hcanon := canon_dump_iff.2 ⟨(sameInputs_of_fingerprint hsha hfp).spec, hpaths⟩
  have hyaml : labServices.DumpsFaithfully ((inLab twoSettings).spec.dump labServices)
      ((inLab twoSettings.reverse).spec.dump labServices) :=
    ⟨fun _ => hcanon, congrArg (blockYaml "")⟩
  exact (reusesResults_iff hsha hyaml hfp).2 hpaths

theorem moved_inputs_not_reused :
    (inLab []).fingerprint = moved.fingerprint ∧ NoCollisions (inLab []) moved ∧
      ¬ ReusesResults (inLab []) moved := by
  refine ⟨congrArg sha256 (strictJsonBytes_inj.2 (canon_payload_labInputs rfl)),
    noCollisions_labInputs rfl, ?_⟩
  rintro ⟨hevidence, -⟩
  obtain ⟨evidence, hi, hj⟩ := hevidence .null "" "" ""
  rw [evidence_eq] at hi hj
  have hbytes := congrArg (fun e : Dict String ByteArray => e.get? "experiment.yaml")
    ((Except.ok.inj hi).trans (Except.ok.inj hj).symm)
  have htext : labServices.safeDump ((inLab []).spec.dump labServices) =
      labServices.safeDump (moved.spec.dump labServices) :=
    String.toByteArray_inj.1 (Option.some.inj hbytes)
  exact absurd htext (by decide +kernel)

end Evosport.Experiments
