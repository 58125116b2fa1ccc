/-
The evidence package of an experiment (`evosport/experiments/runner.py`).

A run writes what it captured into a staging directory, together with a manifest that lists the
files with their sizes and digests, verifies it, takes the write permissions away, verifies it again
and renames it to its name.  A later run verifies the package before it trusts it.

The texts that system calls put into their errors are left out, and `mkdtemp` is taken to make its
directory under a name that nothing has.
-/
import Evosport.Data.ContentHash
import Evosport.Lib.Fallible
import Evosport.Lib.FileTree
import Evosport.Lib.JsonParse
import Mathlib

namespace Evosport.Experiments

open Lib
open Evosport.Data (isSha256)

/-! ## Evidence -/

/-- What a run captured, and what it computed, as bytes: one field for each file of the package but
the manifest of the artifacts, which lists the others. -/
structure Captured where
  experiment : ByteArray
  manifest : ByteArray
  strategy : ByteArray
  lock : ByteArray
  environment : ByteArray
  result : ByteArray
  decision : ByteArray
  report : ByteArray

/-- The paths of the evidence beside the strategy package. -/
def rootEvidenceNames : List String :=
  ["dataset-manifest.json", "decision.json", "environment.lock", "environment.json",
    "experiment.yaml", "report.html", "result.json"]

/-- The directory of the strategy's source in the package. -/
def strategyPrefix : String := "strategy-package/"

lemma strategyPath_notMem (name : String) : strategyPrefix ++ name ∉ rootEvidenceNames := by
  intro hmem
  have hhead : ∀ k ∈ rootEvidenceNames, k.toList.head? ≠ some 's' := by decide
  exact hhead _ hmem (by simp [strategyPrefix])

/-- `not strategy_filename or strategy_filename in {".", ".."} or "/" in strategy_filename` -/
def isUnsafeFilename (name : String) : Bool :=
  name == "" || name == "." || name == ".." || name.toList.contains '/'

/-- The items of `_evidence_bytes` in their order. -/
def evidenceItems (strategyFilename : String) (c : Captured) : List (String × ByteArray) :=
  [("experiment.yaml", c.experiment), ("dataset-manifest.json", c.manifest),
    (strategyPrefix ++ strategyFilename, c.strategy), ("environment.lock", c.lock),
    ("environment.json", c.environment), ("result.json", c.result), ("decision.json", c.decision),
    ("report.html", c.report)]

lemma nodup_evidenceItems (strategyFilename : String) (c : Captured) :
    ((evidenceItems strategyFilename c).map Prod.fst).Nodup := by
  have hnotMem := strategyPath_notMem strategyFilename
  simp only [rootEvidenceNames, List.mem_cons, List.not_mem_nil, or_false, not_or] at hnotMem
  obtain ⟨hmanifest, hdecision, hlock, henvironment, hexperiment, hreport, hresult⟩ := hnotMem
  simp [evidenceItems, hdecision, hlock, henvironment, hreport, hresult,
    Ne.symm hmanifest, Ne.symm hexperiment]

/-- The evidence by its paths in the package. -/
def evidenceMap (strategyFilename : String) (c : Captured) : Dict String ByteArray :=
  ⟨evidenceItems strategyFilename c, nodup_evidenceItems strategyFilename c⟩

/-- `_evidence_bytes` -/
def evidenceBytes (strategyFilename : String) (c : Captured) :
    Except String (Dict String ByteArray) :=
  if isUnsafeFilename strategyFilename then .error "strategy source filename is unsafe"
  else .ok (evidenceMap strategyFilename c)

/-! ## The manifest of the package -/

/-- The version that stands in every manifest of a package. -/
def artifactSchemaVersion : String := "evosport.artifact.v1"

variable {F : Type}

/-- `_strict_json_bytes`, of a value that is strict JSON -/
def strictJsonBytes [PyFloat F] (v : Json F) : ByteArray := (String.ofList (Json.dumps v)).toUTF8

/-- The record of a file. -/
def recordJson (item : String × ByteArray) : Json F :=
  .obj [("relative_path", .str item.1), ("sha256", .str (sha256 item.2)),
    ("size_bytes", .int item.2.size)]

/-- The manifest of a package: the run, its fingerprint, and a record of every file sorted by its
path. -/
def artifactManifestJson (runId fingerprint : String) (evidence : Dict String ByteArray) : Json F :=
  .obj [("schema_version", .str artifactSchemaVersion), ("run_id", .str runId),
    ("fingerprint", .str fingerprint),
    ("artifacts", .arr ((sortByKey Prod.fst evidence.entries).map recordJson))]

variable (F) in
/-- `_artifact_manifest_bytes` -/
def artifactManifestBytes [PyFloat F] (runId fingerprint : String)
    (evidence : Dict String ByteArray) : ByteArray :=
  strictJsonBytes (artifactManifestJson runId fingerprint evidence : Json F) ++ "\n".toUTF8

/-- A record of the manifest that was checked: a safe relative path, the digest and the size of the
file. -/
structure ArtifactRecord where
  relativePath : String
  sha256 : String
  sizeBytes : ℕ
  deriving DecidableEq

/-- `_is_safe_evidence_path` -/
def isSafeEvidencePath (value : String) : Bool :=
  rootEvidenceNames.contains value ||
    (strategyPrefix.toList.isPrefixOf value.toList && value.toList.count '/' == 1 &&
      !([[], ['.'], ['.', '.']].contains (value.toList.drop strategyPrefix.toList.length)) &&
      !value.toList.contains '\\')

/-- The two lists have the same members. -/
def sameSet (xs ys : List String) : Bool :=
  xs.all (fun x => ys.contains x) && ys.all fun y => xs.contains y

/-- `raise ValueError(message)` where the check fails. -/
def check (passes : Bool) (message : String) : Except String Unit :=
  if passes then .ok () else .error message

/-- What is there, or an error. -/
def expect {α : Type} (x : Option α) (message : String) : Except String α :=
  match x with
  | some a => .ok a
  | none => .error message

@[simp] lemma check_eq_ok {passes : Bool} {message : String} {u : Unit} :
    check passes message = .ok u ↔ passes = true := by
  cases passes <;> simp [check]

@[simp] lemma expect_eq_ok {α : Type} {x : Option α} {message : String} {a : α} :
    expect x message = .ok a ↔ x = some a := by
  cases x <;> simp [expect]

lemma sameSet_iff {xs ys : List String} : sameSet xs ys = true ↔ ∀ x, x ∈ xs ↔ x ∈ ys := by
  simp only [sameSet, Bool.and_eq_true, List.all_eq_true, List.contains_iff_mem]
  exact ⟨fun h x => ⟨h.1 x, h.2 x⟩, fun h => ⟨fun x => (h x).1, fun x => (h x).2⟩⟩

/-- The value is an object with exactly the fields `fields`. -/
def hasFields (fields : List String) (v : Json F) : Bool :=
  match v.names? with
  | some names => sameSet names fields
  | none => false

/-- A record of `_load_artifact_manifest`. -/
def readRecord (v : Json F) : Except String ArtifactRecord := do
  check (hasFields ["relative_path", "sha256", "size_bytes"] v)
    "artifact manifest record has malformed or unknown fields"
  let invalid := "artifact manifest record has invalid fields"
  let path ← expect ((v.get? "relative_path").bind Json.str?) invalid
  check (isSafeEvidencePath path) invalid
  let digest ← expect ((v.get? "sha256").bind Json.str?) invalid
  check (isSha256 digest) invalid
  let size ← expect ((v.get? "size_bytes").bind Json.nat?) invalid
  pure ⟨path, digest, size⟩

variable (F) in
/-- `_load_artifact_manifest`, of the bytes of the file: the manifest is of the known schema and of
this run, and its records are sorted and of different paths. -/
def loadArtifactManifest [PyFloat F] (bytes : ByteArray) (runId fingerprint : String) :
    Except String (List ArtifactRecord) := do
  let text ← expect (String.fromUTF8? bytes) "invalid utf-8"
  let document : Json F ← expect (Json.loads text.toList) "invalid JSON"
  check document.distinctKeys "duplicate JSON key"
  check (hasFields ["schema_version", "run_id", "fingerprint", "artifacts"] document)
    "artifact manifest has malformed or unknown fields"
  check ((document.get? "schema_version").bind Json.str? == some artifactSchemaVersion)
    "artifact manifest schema version is unsupported"
  check ((document.get? "run_id").bind Json.str? == some runId &&
      (document.get? "fingerprint").bind Json.str? == some fingerprint)
    "artifact manifest run identity does not match the registry"
  let artifacts ← expect ((document.get? "artifacts").bind Json.items?)
    "artifact manifest artifacts must be a list"
  let records ← artifacts.mapM readRecord
  let paths := records.map ArtifactRecord.relativePath
  check (decide (paths = sortByKey id paths) && decide paths.Nodup)
    "artifact manifest records must be unique and sorted"
  pure records

/-! ## The verifier -/

variable (requireReadOnly : Bool)

/-- `_require_read_only`, where it is asked for -/
def requirePermissions (t : FileTree) : Except String Unit :=
  check (!(requireReadOnly && t.writable)) "artifact path is writable"

/-- `_require_regular_directory`, with the entries that `iterdir` lists -/
def requireDirectory (t : FileTree) : Except String (List (String × FileTree)) :=
  expect t.iterdir "artifact path is not a regular directory"

/-- `_require_regular_file`, with the bytes of the file -/
def requireFile (t : FileTree) : Except String ByteArray :=
  expect t.bytes? "artifact path is not a regular file"

/-- The entry `name` of a directory that was listed. -/
def entry (entries : List (String × FileTree)) (name : String) : Except String FileTree :=
  expect (Dict.lookup name entries) "no such file or directory"

/-- The one file of the strategy package, with the text of the error where there is not exactly one.
-/
def onlyEntry : List (String × FileTree) → Except String (String × FileTree)
  | [e] => .ok e
  | _ => .error "strategy package must contain exactly one source file"

/-- `_evidence_files`: the paths of the evidence that is there, sorted, with the files. -/
def evidenceFiles (entries : List (String × FileTree)) :
    Except String (List (String × FileTree)) := do
  let strategyDir ← entry entries "strategy-package"
  let strategyEntries ← requireDirectory strategyDir
  let strategyFile ← onlyEntry strategyEntries
  let _ ← requireFile strategyFile.2
  let rootFiles ← rootEvidenceNames.mapM fun name => (entry entries name).map fun t => (name, t)
  let files := rootFiles ++ [(strategyPrefix ++ strategyFile.1, strategyFile.2)]
  let _ ← files.mapM fun file => requireFile file.2
  pure (sortByKey Prod.fst files)

/-- `_ROOT_ARTIFACT_FILES` -/
def rootArtifactFiles : List String := rootEvidenceNames ++ ["artifact-manifest.json"]

/-- The size and the digest of a file are those of its record. -/
def matchesRecord (record : ArtifactRecord) (file : String × FileTree) : Bool :=
  match file.2.bytes? with
  | some bytes => bytes.size == record.sizeBytes && sha256 bytes == record.sha256
  | none => false

/-- A file of the root is regular, and read only where it is asked for. -/
def requireRootFile (entries : List (String × FileTree)) (name : String) : Except String Unit := do
  let file ← entry entries name
  let _ ← requireFile file
  requirePermissions requireReadOnly file

/-- A file of the evidence has the bytes that are expected. -/
def requireCaptured (expectedEvidence : Dict String ByteArray) (file : String × FileTree) :
    Except String Unit := do
  requirePermissions requireReadOnly file.2
  check (decide (file.2.bytes? = expectedEvidence.get? file.1))
    "artifact evidence does not match captured inputs"

variable (F) in
/-- The body of `_verify_artifact_package`: exactly the files of a package, all read-only, as the
manifest lists them and with the bytes that the registry expects. -/
def verifyBody [PyFloat F] (t : FileTree) (runId fingerprint : String)
    (expectedEvidence : Dict String ByteArray) : Except String Unit := do
  let entries ← requireDirectory t
  requirePermissions requireReadOnly t
  check (sameSet (entries.map Prod.fst) (rootArtifactFiles ++ ["strategy-package"]))
    "artifact tree has missing or extra root paths"
  rootArtifactFiles.forM (requireRootFile requireReadOnly entries)
  let strategyDir ← entry entries "strategy-package"
  let _ ← requireDirectory strategyDir
  requirePermissions requireReadOnly strategyDir
  let manifestFile ← entry entries "artifact-manifest.json"
  let manifestBytes ← requireFile manifestFile
  let records ← loadArtifactManifest F manifestBytes runId fingerprint
  let files ← evidenceFiles entries
  let actualPaths := files.map Prod.fst
  check (decide (records.map ArtifactRecord.relativePath = actualPaths))
    "artifact manifest paths do not match the exact artifact tree"
  check ((records.zip files).all fun pair => matchesRecord pair.1 pair.2)
    "artifact hash or size mismatch"
  check (sameSet expectedEvidence.keys actualPaths)
    "artifact evidence paths do not match the registry-anchored expectation"
  files.forM (requireCaptured requireReadOnly expectedEvidence)
  check (decide (manifestBytes = artifactManifestBytes F runId fingerprint expectedEvidence))
    "artifact manifest does not match the registry-anchored expectation"

variable (F) in
/-- `_verify_artifact_package` -/
def verifyArtifactPackage [PyFloat F] (path : String) (t : FileTree) (runId fingerprint : String)
    (expectedEvidence : Dict String ByteArray) : Except String Unit :=
  match verifyBody F requireReadOnly t runId fingerprint expectedEvidence with
  | .ok () => .ok ()
  | .error _ => .error ("artifact package verification failed for " ++ path)

/-! ## The publication -/

/-- The components of a relative path. -/
def pathParts (path : String) : List String := (path.toList.splitOn '/').map String.ofList

section Publish

variable (canHold : String → Bool) (umask : ℕ)

/-- `write_bytes`, after making the directories above the file. -/
def writeBytes (t : FileTree) (item : String × ByteArray) : Except String FileTree :=
  expect (t.write canHold umask item.2 (pathParts item.1)) "OSError"

/-- `chmod`, which raises an `OSError` where there is nothing at the path. -/
def changeMode (mode : ℕ) (t : FileTree) (path : List String) : Except String FileTree :=
  expect (t.chmod mode path) "OSError"

/-- `_make_evidence_read_only` -/
def makeEvidenceReadOnly (t : FileTree) : Except String FileTree := do
  let files ← requireDirectory t >>= evidenceFiles
  let t ← files.foldlM (fun t file => changeMode 0o444 t (pathParts file.1)) t
  let t ← changeMode 0o444 t ["artifact-manifest.json"]
  let t ← changeMode 0o555 t ["strategy-package"]
  changeMode 0o555 t []

/-- `_publish_staging_directory`: while the lock is held, the staging directory gets its name. -/
def publishStagingDirectory (root : Dict String FileTree) (key artifactDir : String)
    (staging : FileTree) : Except String (Dict String FileTree) := do
  let lock := "." ++ key ++ ".lock"
  check (!root.contains lock) ("run publication lock exists at " ++ lock)
  check (!root.contains artifactDir) ("artifact directory already exists: " ++ artifactDir)
  pure (root.set artifactDir staging)

variable (F) in
/-- `_publish_artifacts`, with the artifact root afterwards.  `rendered` is what `render_report`
writes, and `random` what `mkdtemp` puts into the name of the staging directory. -/
def publishArtifacts [PyFloat F] (root : Dict String FileTree)
    (artifactDir runId publicationKey fingerprint random : String)
    (evidence : Dict String ByteArray) (rendered : ByteArray) :
    Except String (Dict String FileTree) := do
  let staging := "." ++ publicationKey ++ "." ++ random
  let items := evidence.entries.filter fun item => item.1 ≠ "report.html"
  let t ← items.foldlM (writeBytes canHold umask) (.dir 0o700 [])
  let t ← writeBytes canHold umask t ("report.html", rendered)
  check (decide (evidence.get? "report.html" = some rendered))
    "deterministic report rendering produced unexpected evidence bytes"
  let t ← writeBytes canHold umask t
    ("artifact-manifest.json", artifactManifestBytes F runId fingerprint evidence)
  verifyArtifactPackage F false staging t runId fingerprint evidence
  let t ← makeEvidenceReadOnly t
  verifyArtifactPackage F true staging t runId fingerprint evidence
  publishStagingDirectory root publicationKey artifactDir t

end Publish

end Evosport.Experiments
