/-
The runs of an experiment (`evosport/experiments/runner.py`, `spec.py`, `fingerprint.py`).

A run derives a fingerprint from what it captured.  Where the registry has a record of that
fingerprint, the run verifies the package of its name and returns the published result; where only
the package is there, it verifies the package and registers it; else it calls the gateway, publishes
a package and registers that.

`Services` holds what the runs call and this development does not model: the renderings of pydantic,
PyYAML and Jinja, the manifest model and the checks of the gateway's result.  The football and
coverage identities are taken to stay the same during a run.
-/
import Evosport.Experiments.Package

namespace Evosport.Experiments

open Lib
open Evosport.Data (isSha256)

/-! ## The specification -/

/-- `TimeWindow`, the instants in microseconds -/
structure TimeWindow where
  trainStart : ℤ
  trainEnd : ℤ
  validationStart : ℤ
  validationEnd : ℤ

/-- `StrategyPackageSpec`; a path is its text. -/
structure StrategyPackageSpec (F : Type) where
  slug : String
  sourcePath : String
  dependencyLockPath : String
  config : List (String × Json F)

/-- `ExecutionModelSpec`: the capital and the latencies of the simulated execution. -/
structure ExecutionModelSpec (F : Type) where
  initialCapitalUsd : F
  submitP50Ms : F
  submitP95Ms : F
  cancelP50Ms : F
  cancelP95Ms : F

/-- `ExperimentSpec`: what an experiment file declares. -/
structure ExperimentSpec (F : Type) where
  name : String
  familyId : String
  datasetManifestPath : String
  strategy : StrategyPackageSpec F
  window : TimeWindow
  execution : ExecutionModelSpec F
  splitMethod : String := "time"
  maxTrials : ℤ
  seed : ℤ
  hiddenOosManifestId : Option String := none

/-- `Path.name`, of the text of a path -/
def fileName (path : String) : String :=
  if path = "." then ""
  else String.ofList (path.toList.reverse.takeWhile (· ≠ '/')).reverse

/-- What the runs call and the model takes as given: the texts of instants and declarations, the
reading of manifests, the validation of the gateway's result, the report, and the names and the mask
of the file system. -/
structure Services (F M Φ : Type) where
  /-- How pydantic renders an instant. -/
  instantText : ℤ → String
  /-- `yaml.safe_dump` with sorted keys -/
  safeDump : Json F → String
  /-- `DatasetManifest.model_validate_json` -/
  readManifest : ByteArray → Option M
  manifestId : M → String
  /-- `_validate_gateway_result`, which returns the Homerun run id -/
  validateGatewayResult : Json F → M → Φ → Except String String
  /-- `render_report_bytes`: run id, fingerprint, manifest, Homerun run id, result and decision -/
  renderReport : String → String → M → String → Json F → Json F → ByteArray
  /-- The names that the file system takes. -/
  canHold : String → Bool
  umask : ℕ

variable {F M Φ : Type}

section Dump

variable (svc : Services F M Φ)

/-- `strategy.model_dump(mode="json")` -/
def StrategyPackageSpec.dump (s : StrategyPackageSpec F) : Json F :=
  .obj [("slug", .str s.slug), ("source_path", .str s.sourcePath),
    ("dependency_lock_path", .str s.dependencyLockPath), ("config", .obj s.config)]

/-- `model_dump` of a window: its four instants as texts. -/
def TimeWindow.dump (w : TimeWindow) : Json F :=
  .obj [("train_start", .str (svc.instantText w.trainStart)),
    ("train_end", .str (svc.instantText w.trainEnd)),
    ("validation_start", .str (svc.instantText w.validationStart)),
    ("validation_end", .str (svc.instantText w.validationEnd))]

/-- `model_dump` of the execution model, member by member. -/
def ExecutionModelSpec.dump (e : ExecutionModelSpec F) : Json F :=
  .obj [("initial_capital_usd", .float e.initialCapitalUsd), ("submit_p50_ms", .float e.submitP50Ms),
    ("submit_p95_ms", .float e.submitP95Ms), ("cancel_p50_ms", .float e.cancelP50Ms),
    ("cancel_p95_ms", .float e.cancelP95Ms)]

/-- `spec.model_dump(mode="json")` -/
def ExperimentSpec.dump (s : ExperimentSpec F) : Json F :=
  .obj [("name", .str s.name), ("family_id", .str s.familyId),
    ("dataset_manifest_path", .str s.datasetManifestPath), ("strategy", s.strategy.dump),
    ("window", s.window.dump svc), ("execution", s.execution.dump),
    ("split_method", .str s.splitMethod), ("max_trials", .int s.maxTrials), ("seed", .int s.seed),
    ("hidden_oos_manifest_id", s.hiddenOosManifestId.elim .null .str)]

end Dump

/-- `d.pop(k)` -/
def popMember (k : String) : Json F → Json F
  | .obj members => .obj (members.filter fun e => e.1 ≠ k)
  | v => v

/-- A change of the member `k`. -/
def onMember (k : String) (change : Json F → Json F) : Json F → Json F
  | .obj members => .obj (members.map fun e => if e.1 = k then (e.1, change e.2) else e)
  | v => v

/-- The part of a dumped specification that is fingerprinted. -/
def fingerprintedSpec (dump : Json F) : Json F :=
  onMember "strategy" (fun strategy =>
      popMember "dependency_lock_path" (popMember "source_path" strategy))
    (popMember "dataset_manifest_path" dump)

/-! ## Inputs -/

/-- `EnvironmentIdentity`: the interpreter, the installed distributions, and the digest of both. -/
structure EnvironmentIdentity where
  pythonImplementation : String
  pythonVersion : String
  distributions : List String
  identitySha256 : String

variable (F) in
/-- `canonical_bytes` -/
def EnvironmentIdentity.canonicalBytes [PyFloat F] (e : EnvironmentIdentity) : ByteArray :=
  strictJsonBytes (.obj [("python_implementation", .str e.pythonImplementation),
    ("python_version", .str e.pythonVersion), ("distributions", .arr (e.distributions.map .str)),
    ("identity_sha256", .str e.identitySha256)] : Json F)

/-- What a run has loaded.  The manifest was read from its bytes, and the strategy from a path that
names a file. -/
structure RunInputs (svc : Services F M Φ) where
  spec : ExperimentSpec F
  strategyBytes : ByteArray
  lockBytes : ByteArray
  environment : EnvironmentIdentity
  manifestBytes : ByteArray
  manifest : M
  evaluatorVersion : String
  homerunCommit : String
  manifest_eq : svc.readManifest manifestBytes = some manifest
  names_file : isUnsafeFilename (fileName spec.strategy.sourcePath) = false

/-- `_DECISION` -/
def decisionJson : Json F :=
  .obj [("decision", .str "NOT_EVALUATED"),
    ("reason", .str ("P0-P2 records reproducible backtests only; " ++
      "statistical promotion is unavailable."))]

section Runs

variable [PyFloat F] {svc : Services F M Φ}

namespace RunInputs

/-- What the fingerprint is taken of. -/
def payload (i : RunInputs svc) : Json F :=
  .obj [("spec", fingerprintedSpec (i.spec.dump svc)),
    ("strategy_sha256", .str (sha256 i.strategyBytes)), ("lock_sha256", .str (sha256 i.lockBytes)),
    ("environment_identity_sha256", .str (sha256 (i.environment.canonicalBytes F))),
    ("manifest_sha256", .str (sha256 i.manifestBytes)),
    ("evaluator_version", .str i.evaluatorVersion), ("homerun_commit", .str i.homerunCommit),
    ("seed", .int i.spec.seed)]

/-- `compute_run_fingerprint` -/
def fingerprint (i : RunInputs svc) : String := sha256 (strictJsonBytes i.payload)

/-- The contents of the evidence files. -/
def captured (i : RunInputs svc) (result : Json F) (homerunRunId runId fingerprint : String) :
    Captured where
  experiment := (svc.safeDump (i.spec.dump svc)).toUTF8
  manifest := i.manifestBytes
  strategy := i.strategyBytes
  lock := i.lockBytes
  environment := i.environment.canonicalBytes F ++ "\n".toUTF8
  result := strictJsonBytes result ++ "\n".toUTF8
  decision := strictJsonBytes (decisionJson : Json F) ++ "\n".toUTF8
  report := svc.renderReport runId fingerprint i.manifest homerunRunId result decisionJson

/-- `_evidence_bytes` -/
def evidence (i : RunInputs svc) (result : Json F) (homerunRunId runId fingerprint : String) :
    Except String (Dict String ByteArray) :=
  evidenceBytes (fileName i.spec.strategy.sourcePath)
    (i.captured result homerunRunId runId fingerprint)

end RunInputs

/-! ## Results -/

/-- `_strict_json_object`, of a value without infinite numbers -/
def strictJsonObject (v : Json F) : Except String (Json F) :=
  match v with
  | .obj members => expect (Json.loads (Json.dumps (.obj members))) "value must be strict JSON"
  | _ => .error "gateway result must be a strict JSON object"

/-- The body of `_load_result_artifact`. -/
def loadResultBody (dir : Option FileTree) : Except String (Json F) := do
  let file ← expect (dir.bind (·.child? "result.json")) "no such file or directory"
  let bytes ← requireFile file
  let text ← expect (String.fromUTF8? bytes) "invalid utf-8"
  let document ← expect (Json.loads text.toList) "invalid JSON"
  check document.distinctKeys "duplicate JSON key"
  strictJsonObject document

/-- `_load_result_artifact` -/
def loadResultArtifact (artifactDir : String) (dir : Option FileTree) : Except String (Json F) :=
  match loadResultBody dir with
  | .ok result => .ok result
  | .error _ => .error ("cached result artifact is invalid at " ++ artifactDir)

/-- `_effective_dataset_sha256` -/
def effectiveDatasetSha256 (result : Json F) : Except String String := do
  let effective ← expect (result.get? "effective_dataset")
    "gateway result is missing effective dataset evidence"
  check effective.names?.isSome "gateway result is missing effective dataset evidence"
  let malformed := "effective dataset content hash is malformed"
  let contentHash ← expect ((effective.get? "content_hash").bind Json.str?) malformed
  check ("sha256:".toList.isPrefixOf contentHash.toList) malformed
  let digest := String.ofList (contentHash.toList.drop "sha256:".length)
  check (isSha256 digest) malformed
  pure digest

/-- `_sha256_file`, of a file of the artifact directory -/
def sha256File (dir : Option FileTree) (name : String) : Except String String :=
  expect (((dir.bind (·.child? name)).bind FileTree.bytes?).map sha256) "no such file or directory"

/-! ## The three paths of a run -/

/-- `RunRecord`: what the registry keeps of a run, by its fingerprint. -/
structure RunRecord where
  fingerprint : String
  homerunRunId : String
  datasetManifestId : String
  effectiveDatasetSha256 : String
  artifactManifestSha256 : String
  resultSha256 : String
  deriving DecidableEq

/-- `ExperimentOutcome`: what a run returns to its caller. -/
structure ExperimentOutcome (F : Type) where
  runId : String
  fingerprint : String
  status : String
  decision : String
  datasetManifestId : String
  homerunRunId : String
  artifactDir : String
  result : Json F

variable (svc) in
/-- `_outcome` -/
def outcomeOf (fingerprint : String) (manifest : M) (homerunRunId : String) (result : Json F) :
    ExperimentOutcome F where
  runId := homerunRunId
  fingerprint := fingerprint
  status := "SUCCEEDED"
  decision := "NOT_EVALUATED"
  datasetManifestId := svc.manifestId manifest
  homerunRunId := homerunRunId
  artifactDir := fingerprint
  result := result

variable (F) in
/-- `_verify_artifact_package` of what stands at the artifact directory. -/
def verifyPackageAt (artifactDir : String) (dir : Option FileTree) (runId fingerprint : String)
    (expectedEvidence : Dict String ByteArray) : Except String Unit := do
  let t ← expect dir ("artifact package verification failed for " ++ artifactDir)
  verifyArtifactPackage F true artifactDir t runId fingerprint expectedEvidence

namespace RunInputs

variable (i : RunInputs svc) (dir : Option FileTree) (football : Φ)

/-- The package that stands at the artifact directory, verified: its result and its run id. -/
def verifyPublished : Except String (Json F × String) := do
  let result ← loadResultArtifact i.fingerprint dir
  let homerunRunId ← svc.validateGatewayResult result i.manifest football
  let evidence ← i.evidence result homerunRunId homerunRunId i.fingerprint
  verifyPackageAt F i.fingerprint dir homerunRunId i.fingerprint evidence
  pure (result, homerunRunId)

/-- The run of a fingerprint with a record: each check compares the files in the directory with the
record or with the inputs, and the outcome is read off the stored result. -/
def cachedRun (cached : RunRecord) : Except String (ExperimentOutcome F) := do
  check (cached.datasetManifestId == svc.manifestId i.manifest)
    "cached publication dataset manifest does not match fingerprint inputs"
  let result ← loadResultArtifact i.fingerprint dir
  let homerunRunId ← svc.validateGatewayResult result i.manifest football
  check (homerunRunId == cached.homerunRunId)
    "cached result does not match published Homerun run ID"
  let evidence ← i.evidence result homerunRunId homerunRunId i.fingerprint
  verifyPackageAt F i.fingerprint dir homerunRunId i.fingerprint evidence
  let resultSha256 ← sha256File dir "result.json"
  check (resultSha256 == cached.resultSha256)
    "cached result hash does not match publication record"
  let manifestSha256 ← sha256File dir "artifact-manifest.json"
  check (manifestSha256 == cached.artifactManifestSha256)
    "cached artifact manifest hash does not match publication record"
  let effectiveSha256 ← effectiveDatasetSha256 result
  check (effectiveSha256 == cached.effectiveDatasetSha256)
    "cached effective dataset hash does not match publication record"
  pure (outcomeOf svc i.fingerprint i.manifest homerunRunId result)

/-- The record of a package and its result. -/
def runRecord (result : Json F) (homerunRunId : String) : Except String RunRecord := do
  let effectiveSha256 ← effectiveDatasetSha256 result
  let manifestSha256 ← sha256File dir "artifact-manifest.json"
  let resultSha256 ← sha256File dir "result.json"
  pure ⟨i.fingerprint, homerunRunId, svc.manifestId i.manifest, effectiveSha256, manifestSha256,
    resultSha256⟩

/-- The run that finds a package without a record, up to its registration. -/
def adoptRun : Except String (RunRecord × ExperimentOutcome F) := do
  let (result, homerunRunId) ← i.verifyPublished dir football
  let record ← i.runRecord dir result homerunRunId
  pure (record, outcomeOf svc i.fingerprint i.manifest homerunRunId result)

/-- The run that calls the gateway, from the gateway's result up to its registration, with the
artifact root after the publication of the package. -/
def freshRun (root : Dict String FileTree) (gatewayResult : Json F) (random : String) :
    Except String (Dict String FileTree × RunRecord × ExperimentOutcome F) := do
  let _ ← expect (String.fromUTF8? i.strategyBytes) "invalid utf-8"
  let result ← strictJsonObject gatewayResult
  let homerunRunId ← svc.validateGatewayResult result i.manifest football
  let evidence ← i.evidence result homerunRunId homerunRunId i.fingerprint
  let root ← publishArtifacts F svc.canHold svc.umask root i.fingerprint homerunRunId i.fingerprint
    i.fingerprint random evidence
    (svc.renderReport homerunRunId i.fingerprint i.manifest homerunRunId result decisionJson)
  let record ← i.runRecord (root.get? i.fingerprint) result homerunRunId
  pure (root, record, outcomeOf svc i.fingerprint i.manifest homerunRunId result)

end RunInputs

/-! ## Runs one after the other -/

/-- The registry and the artifact root. -/
structure Store where
  registry : Dict String RunRecord
  root : Dict String FileTree

/-- `ExperimentRunner.run`, with no other run at the same time and a registry that answers. -/
def RunInputs.run (i : RunInputs svc) (s : Store) (gatewayResult : Json F) (football : Φ)
    (random : String) : Except String (ExperimentOutcome F × Store) :=
  match s.registry.get? i.fingerprint with
  | some cached => do
    let outcome ← i.cachedRun (s.root.get? i.fingerprint) football cached
    pure (outcome, s)
  | none =>
    if s.root.contains i.fingerprint then do
      let (record, outcome) ← i.adoptRun (s.root.get? i.fingerprint) football
      pure (outcome, { s with registry := s.registry.set i.fingerprint record })
    else do
      let (root, record, outcome) ← i.freshRun football s.root gatewayResult random
      pure (outcome, ⟨s.registry.set i.fingerprint record, root⟩)

end Runs

end Evosport.Experiments
