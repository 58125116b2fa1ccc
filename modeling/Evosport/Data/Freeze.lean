/-
The publication of a frozen dataset (`evosport/data/freeze.py`).

`freeze_provider_datasets` publishes a manifest as a folder of the output root: it takes a lock by
creating a file exclusively, adopts the folder if it is there, and else stages a new one, writes
the manifest into it, protects and verifies it, renames it to its name and removes what is left
of the staging folder.  Several calls publish the same manifest.  Each call is at a phase, its next
file-system step may succeed, raise, or be cut off by a crash of the process, and the files that the
manifest lists may change at any time.

Reading and writing manifests as JSON is a parameter: what a manifest is read back as is checked
before the rename, not assumed.
-/
import Evosport.Data.ContentHash
import Evosport.Lib.Folder

namespace Evosport.Data

open Lib

/-! ## Manifests as files -/

/-- The manifests of type `M`, with their JSON texts: the identifier of a manifest, the files it
lists, and its reading and writing. -/
structure ManifestFormat (M : Type*) where
  manifestId : M → String
  files : M → List DatasetFile
  /-- `model_dump_json(indent=2)` -/
  dumpJson : M → String
  /-- `model_validate_json` -/
  validateJson : ByteArray → Option M

/-- `_verify_payload`, of the regular files that are there -/
def verifyPayload (payloads : Dict String ByteArray) (f : DatasetFile) : Bool :=
  match payloads.get? f.path with
  | some bytes => bytes.size == f.sizeBytes && sha256 bytes == f.sha256
  | none => false

/-- `_same_regular_file_state`, of files that have one link and are on one device -/
def sameRegularFileState (captured current : File) : Bool :=
  captured.ino == current.ino && captured.mode == current.mode &&
    captured.bytes.size == current.bytes.size && captured.mtime == current.mtime &&
    captured.ctime == current.ctime

/-! ## Calls -/

/-- What a call is about: the manifest it publishes, the directory it publishes in, and the
process's mask for new files. -/
structure Publication (M : Type*) where
  format : ManifestFormat M
  manifest : M
  outputRoot : String
  umask : ℕ

namespace Publication

variable {M : Type*} (pub : Publication M)

/-- The directory of the publication is named after the identifier of the manifest. -/
def targetName : String := pub.format.manifestId pub.manifest

/-- The name of the lock file beside the directory, which is hidden. -/
def lockName : String := "." ++ pub.targetName ++ ".lock"

/-- The name that `mkdtemp` makes of random characters. -/
def stagingName (random : String) : String := "." ++ pub.targetName ++ "." ++ random

/-- The path of a name in the output root, as it stands in the texts of errors. -/
def path (name : String) : String := pub.outputRoot ++ "/" ++ name

/-- What is written as the manifest. -/
def manifestBytes : ByteArray := (pub.format.dumpJson pub.manifest).toUTF8

/-- The mode of a file that is opened for writing. -/
def openMode : ℕ := (0o666 &&& pub.umask) ^^^ 0o666

end Publication

/-- What a publication raises: a `RuntimeError` with its text, or an `OSError` of the file system.
-/
inductive Failure where
  | runtimeError (message : String)
  | osError
  deriving DecidableEq, Repr

/-- How a publication ends: with the manifest it returns, or with the failure it raises. -/
inductive Outcome (M : Type*) where
  | returned (manifest : M)
  | raised (failure : Failure)
  deriving DecidableEq, Repr

/-- The name of the manifest in the published directory. -/
def manifestName : String := "manifest.json"

/-- The steps of `load_verified_snapshot`: read the manifest, list its folder, verify the files that
it lists, and look at the manifest again. -/
inductive Check (M : Type*) where
  | capture
  | listing (captured : File) (existing : M)
  | payloads (captured : File) (existing : M)
  | restat (captured : File) (existing : M)
  deriving DecidableEq

/-- What the system answers with: the process id of the call, the characters that `mkdtemp` draws,
and how many bytes a write takes. -/
structure Answer where
  pid : ℕ
  random : String
  amount : ℕ
  deriving DecidableEq, Repr

/-- Where a call of `freeze_provider_datasets` is, from its lock on. -/
inductive Phase (M : Type*) where
  | idle
  | locked
  | looking
  | adopting (check : Check M)
  | making
  | creating (staging : String)
  | writing (staging : String) (written : ℕ)
  | protecting (staging : String)
  | verifying (staging : String) (check : Check M)
  | moving (staging : String)
  | cleaning (staging : String) (outcome : Outcome M)
  | unlocking (outcome : Outcome M)
  | done (outcome : Outcome M)
  | crashed
  deriving DecidableEq

/-- The output root, the files that manifests list, the time, and the calls. -/
structure Freeze (ι M : Type*) where
  root : Folder
  payloads : Dict String ByteArray
  now : ℕ
  calls : ι → Phase M

/-! ## The steps of a call -/

section Steps

variable {M : Type*} [DecidableEq M] (pub : Publication M)

/-- The text for a published directory that is not what its manifest says. -/
def integrityFailure (name : String) : Failure :=
  .runtimeError ("snapshot integrity verification failed for " ++ pub.path name)

/-- The text for a lock that another publication holds, or has left behind. -/
def lockFailure : Failure :=
  .runtimeError ("snapshot publication lock exists at " ++ pub.path pub.lockName ++
    "; it may be busy or stale, verify it and remove it before retrying")

/-- The text for a directory that is there with other files than those to be published. -/
def collision (name : String) : Failure :=
  .runtimeError ("snapshot collision at " ++ pub.path name)

/-- One step of `load_verified_snapshot` for the folder `name`: the next check, or what it
returns. -/
def checkStep (root : Folder) (payloads : Dict String ByteArray) (name : String) :
    Check M → Except Failure (Check M ⊕ M)
  | .capture =>
    match root.fileIn name manifestName with
    | none => .error (integrityFailure pub name)
    | some f =>
      match pub.format.validateJson f.bytes with
      | none => .error (integrityFailure pub name)
      | some existing => .ok (.inl (.listing f existing))
  | .listing captured existing =>
    match root.filesOf name with
    | none => .error (integrityFailure pub name)
    | some files =>
      if files.keys = [manifestName] then .ok (.inl (.payloads captured existing))
      else .error (integrityFailure pub name)
  | .payloads captured existing =>
    if (pub.format.files existing).all (verifyPayload payloads) then
      .ok (.inl (.restat captured existing))
    else .error (integrityFailure pub name)
  | .restat captured existing =>
    match root.fileIn name manifestName with
    | none => .error (integrityFailure pub name)
    | some current =>
      if sameRegularFileState captured current then .ok (.inr existing)
      else .error (integrityFailure pub name)

/-- The next step of a call: the output root and the phase after it. -/
def nextStep (root : Folder) (payloads : Dict String ByteArray) (now : ℕ) (answer : Answer) :
    Phase M → Folder × Phase M
  | .idle =>
    match root.createExclusive pub.lockName 0o600 now with
    | some root => (root, .locked)
    | none => (root, .done (.raised (lockFailure pub)))
  | .locked =>
    match root.get? pub.lockName with
    | some (.file f) =>
      let line := "pid=" ++ toString answer.pid ++ "\n"
      (root.set pub.lockName (.file (f.append line.toUTF8 now)), .looking)
    | _ => (root, .looking)
  | .looking => (root, if root.contains pub.targetName then .adopting .capture else .making)
  | .adopting check =>
    match checkStep pub root payloads pub.targetName check with
    | .error failure => (root, .unlocking (.raised failure))
    | .ok (.inl check) => (root, .adopting check)
    | .ok (.inr existing) =>
      (root, .unlocking (if existing ≠ pub.manifest then .raised (collision pub pub.targetName)
        else .returned existing))
  | .making =>
    match root.mkdir (pub.stagingName answer.random) with
    | some root => (root, .creating (pub.stagingName answer.random))
    | none => (root, .making)
  | .creating staging =>
    match root.createIn staging manifestName pub.openMode now with
    | some root => (root, .writing staging 0)
    | none => (root, .cleaning staging (.raised .osError))
  | .writing staging written =>
    if written < pub.manifestBytes.size then
      let chunk := pub.manifestBytes.extract written (written + answer.amount)
      match root.modifyIn staging manifestName fun f => f.append chunk now with
      | some root => (root, .writing staging (written + answer.amount))
      | none => (root, .cleaning staging (.raised .osError))
    else (root, .protecting staging)
  | .protecting staging =>
    match root.modifyIn staging manifestName fun f => f.chmod 0o444 now with
    | some root => (root, .verifying staging .capture)
    | none => (root, .cleaning staging (.raised .osError))
  | .verifying staging check =>
    match checkStep pub root payloads staging check with
    | .error failure => (root, .cleaning staging (.raised failure))
    | .ok (.inl check) => (root, .verifying staging check)
    | .ok (.inr verified) =>
      (root, if verified ≠ pub.manifest then .cleaning staging (.raised (collision pub staging))
        else .moving staging)
  | .moving staging =>
    match root.rename staging pub.targetName with
    | some root => (root, .cleaning staging (.returned pub.manifest))
    | none => (root, .cleaning staging (.raised .osError))
  | .cleaning staging outcome =>
    match root.filesOf staging with
    | some _ => (root.removeOne staging, .cleaning staging outcome)
    | none => (root, .unlocking outcome)
  | .unlocking outcome => (root.erase pub.lockName, .done outcome)
  | .done outcome => (root, .done outcome)
  | .crashed => (root, .crashed)

/-- The phase after the next step of a call has raised: what was staged is cleaned up, and the lock
is released before the call ends. -/
def failStep : Phase M → Phase M
  | .idle => .done (.raised .osError)
  | .locked | .looking | .making => .unlocking (.raised .osError)
  | .adopting _ => .unlocking (.raised (integrityFailure pub pub.targetName))
  | .creating staging | .writing staging _ | .protecting staging | .moving staging =>
    .cleaning staging (.raised .osError)
  | .verifying staging _ => .cleaning staging (.raised (integrityFailure pub staging))
  -- `rmtree` ignores its errors
  | .cleaning _ outcome => .unlocking outcome
  | .unlocking _ => .done (.raised .osError)
  | .done outcome => .done outcome
  | .crashed => .crashed

/-- A call takes its next step, the step raises, or the process of the call crashes. -/
inductive Action where
  | proceed (answer : Answer)
  | fail
  | crash
  deriving DecidableEq, Repr

/-- A call acts, or the files that manifests list change. -/
inductive Event (ι : Type*) where
  | call (i : ι) (action : Action)
  | payloads (payloads : Dict String ByteArray)

/-- One action: the next operation of the publication with what the file system answers, an
operation that fails, or the death of the process. -/
def actStep (root : Folder) (payloads : Dict String ByteArray) (now : ℕ) (p : Phase M) :
    Action → Folder × Phase M
  | .proceed answer => nextStep pub root payloads now answer p
  | .fail => (root, failStep pub p)
  | .crash => (root, .crashed)

variable {ι : Type*} [DecidableEq ι]

/-- One event of a run. -/
def Freeze.step (w : Freeze ι M) : Event ι → Freeze ι M
  | .call i action =>
    let next := actStep pub w.root w.payloads w.now (w.calls i) action
    { w with root := next.1, now := w.now + 1, calls := Function.update w.calls i next.2 }
  | .payloads payloads => { w with payloads := payloads }

end Steps

end Evosport.Data
